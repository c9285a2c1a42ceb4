import FlowGate.Proofs.BrokenReleases
import FlowGate.Proofs.CapacityBound
import FlowGate.Proofs.SessionRuns
import FlowGate.Simulation.Client
import Mathlib.Algebra.GroupWithZero.Nat

namespace FlowGate

namespace Session

open Logged (Gives Yields yields_self yields_pure gives_pure_iff)

variable {s s' s'' : Session} {slot token : String} {t : Ticket} {started later : List Expiry}

/--
What a session comes to when the caller in a slot asks or releases its ticket: other slots are left alone,
and so are the clock, the capacity and those who are told to give up; some grace periods may have started.
-/
structure Tends (s : Session) (slot : String) (started : List Expiry) (s' : Session) : Prop where
  sound : s'.Sound []
  kept : s'.kept = s.kept
  clock : s'.clock = s.clock
  now : s'.now = s.now
  grace : s'.grace = s.grace
  cancelled : s'.cancelled = s.cancelled
  capacity : s'.gate.capacity = s.gate.capacity
  others : ∀ other, other ≠ slot → s'.slots.get? other = s.slots.get? other
  expiries : s'.expiries.Perm (started ++ s.expiries)
  starts : ∀ e ∈ started, s.grace.span e.ticket.flow ≠ 0 ∧
    e.expiresAt = s.now + s.grace.span e.ticket.flow

theorem tends_nil (h : s'.Sound [])
    (hsame : s'.kept = s.kept ∧ s'.clock = s.clock ∧ s'.now = s.now ∧ s'.grace = s.grace ∧
      s'.cancelled = s.cancelled ∧ s'.gate.capacity = s.gate.capacity ∧ s'.expiries = s.expiries)
    (hothers : ∀ other, other ≠ slot → s'.slots.get? other = s.slots.get? other) :
    s.Tends slot [] s' := by
  obtain ⟨hkept, hclock, hnow, hgrace, hcancelled, hcapacity, hexpiries⟩ := hsame
  exact ⟨h, hkept, hclock, hnow, hgrace, hcancelled, hcapacity, hothers, .of_eq hexpiries, by simp⟩

theorem Tends.refl (h : s.Sound []) (slot : String) : s.Tends slot [] s :=
  tends_nil h ⟨rfl, rfl, rfl, rfl, rfl, rfl, rfl⟩ fun _ _ => rfl

theorem Tends.trans (h : s.Tends slot started s') (h' : s'.Tends slot later s'') :
    s.Tends slot (later ++ started) s'' := by
  refine ⟨h'.sound, h'.kept.trans h.kept, h'.clock.trans h.clock, h'.now.trans h.now,
    h'.grace.trans h.grace, h'.cancelled.trans h.cancelled, h'.capacity.trans h.capacity, ?_, ?_, ?_⟩
  · exact fun other hne => (h'.others other hne).trans (h.others other hne)
  · rw [List.append_assoc]
    exact h'.expiries.trans (h.expiries.append_left later)
  · intro e he
    rcases List.mem_append.mp he with he | he
    · have hstarts := h'.starts e he
      rwa [h.now, h.grace] at hstarts
    · exact h.starts e he

/-- What is in a slot when its caller has been told an answer. -/
def Told (s : Session) (slot token : String) : Answer → Prop
  | .entered _ => ∃ t, s.slots.get? slot = some (.holding t)
  | .pending => ∃ t, s.slots.get? slot = some (.waiting token t)
  | .refused => s.slots.get? slot = none ∧ s.isCancelled token = true

theorem wait_tends (h : s.Sound []) (hkept : s.kept = true) (hslot : s.slots.get? slot = none)
    (token : String) (request : Request) :
    (s.step (.wait slot token request)).Gives fun r _ =>
      ∃ answer, r.1 = .answer answer ∧ s.Tends slot [] r.2 ∧ r.2.Told slot token answer := by
  have hask : s.FirstAsk slot token request (.wait slot token request) := .wait hslot hkept
  obtain ⟨r, events, hok, -, -, answer, hanswer, hasked⟩ := firstAsk_gives h hask
  have hsound : r.2.Sound [] := ((step_gives h _).of_eq_ok hok).sound
  refine ⟨r, events, hok, answer, hanswer, ?_⟩
  generalize r.2 = s' at hasked hsound
  cases hasked with
  | entered hroom =>
      refine ⟨tends_nil hsound ⟨rfl, rfl, rfl, rfl, rfl, rfl, rfl⟩ ?_, _, Catalog.get?_insert_self ..⟩
      exact fun other hne => Catalog.get?_insert_of_ne _ _ hne
  | refused hinactive hfull hcancelled =>
      refine ⟨tends_nil hsound ⟨rfl, rfl, rfl, rfl, rfl, rfl, rfl⟩ ?_, Catalog.get?_erase_self ..,
        hcancelled⟩
      exact fun other hne => Catalog.get?_erase_of_ne _ hne
  | pending hinactive hfull hcancelled waiting hwaits =>
      refine ⟨tends_nil hsound ⟨rfl, rfl, rfl, rfl, rfl, rfl, rfl⟩ ?_, _, Catalog.get?_insert_self ..⟩
      exact fun other hne => Catalog.get?_insert_of_ne _ _ hne

theorem poll_tends (h : s.Sound []) (hslot : s.slots.get? slot = some (.waiting token t))
    (hready : s.gate.Calling t ∨ s.isCancelled token = true) :
    (s.step (.poll slot)).Gives fun r _ =>
      ∃ answer, r.1 = .answer answer ∧ answer ≠ .pending ∧ s.Tends slot [] r.2 ∧
        r.2.Told slot token answer := by
  obtain ⟨r, events, hok, -, -, answer, hanswer, hasked⟩ := poll_waiting_gives h hslot
  have hsound : r.2.Sound [] := ((step_gives h _).of_eq_ok hok).sound
  refine ⟨r, events, hok, answer, hanswer, ?_⟩
  generalize r.2 = s' at hasked hsound
  cases hasked with
  | entered hcalling =>
      refine ⟨nofun, tends_nil hsound ⟨rfl, rfl, rfl, rfl, rfl, rfl, rfl⟩ ?_, t,
        Catalog.get?_insert_self ..⟩
      exact fun other hne => Catalog.get?_insert_of_ne _ _ hne
  | pending hwaiting hgoesOn =>
      rcases hready with hcalling | hcancelled
      · have haccounts := h.accounts (alive_of_open hslot rfl)
        exact absurd hcalling ((haccounts.waits_iff t).mp hwaiting).2
      · rw [hgoesOn] at hcancelled
        cases hcancelled
  | refused hwaiting hcancelled waiting hwaits =>
      refine ⟨nofun, tends_nil hsound ⟨rfl, rfl, rfl, rfl, rfl, rfl, rfl⟩ ?_,
        Catalog.get?_erase_self .., hcancelled⟩
      exact fun other hne => Catalog.get?_erase_of_ne _ hne

theorem letGo_keeps_cancelled (s : Session) (t : Ticket) :
    (s.letGo t).Yields fun s' _ => s'.cancelled = s.cancelled := by
  unfold letGo
  split
  · exact yields_pure rfl
  · dsimp only
    split
    · exact (yields_self _).bind fun _ _ _ => yields_pure rfl
    · exact (yields_self _).bind fun _ _ _ => yields_pure rfl

/-- A release that goes through empties the slot, and starts at most the one grace period of the ticket. -/
theorem letGo_tends (h : s.Sound []) (hslot : s.slots.get? slot = some (.holding t)) :
    ((s.clearSlot slot).letGo t).Gives fun s' _ =>
      s'.slots.get? slot = none ∧ ∃ started : Option Expiry, s.Tends slot started.toList s' := by
  obtain ⟨s', events, hok, -, hsound, -, hslots, hkept⟩ := letGo_gives (h.clearSlot hslot)
  have hcancelled := letGo_keeps_cancelled _ _ _ _ hok
  obtain ⟨hcapacity, -⟩ := (letGo_moves _ _ _ _ hok).within
  obtain ⟨hclock, hnow, hgrace, -, hexpiries⟩ := letGo_schedules _ _ _ _ hok
  have hothers : ∀ other, other ≠ slot → s'.slots.get? other = s.slots.get? other := by
    intro other hne
    rw [hslots]
    exact Catalog.get?_erase_of_ne _ hne
  refine ⟨s', events, hok, ?_, ?_⟩
  · rw [hslots]
    exact Catalog.get?_erase_self ..
  · split at hexpiries
    · rename_i hstarts
      refine ⟨some ((s.clearSlot slot).graceOf t), hsound, hkept, hclock, hnow, hgrace, hcancelled,
        hcapacity, hothers, ?_, ?_⟩
      · rw [hexpiries]
        exact insertExpiry_perm _ _
      · intro e he
        obtain rfl := List.mem_singleton.mp he
        exact ⟨hstarts.2, rfl⟩
    · exact ⟨none, tends_nil hsound ⟨hkept, hclock, hnow, hgrace, hcancelled, hcapacity, hexpiries⟩
        hothers⟩

theorem strand_tends (h : s.Sound []) (hslot : s.slots.get? slot = some (.holding t)) :
    s.Tends slot [] (s.putSlot slot (.stranded t)) :=
  tends_nil (h.strand hslot).1 ⟨rfl, rfl, rfl, rfl, rfl, rfl, rfl⟩
    fun _ hne => Catalog.get?_insert_of_ne _ _ hne

/-- The clock does not show the end of a grace period that starts now. -/
def Late (s : Session) : Prop := ∃ flow, s.clock.last < s.now + s.grace.span flow

theorem late_of_breaksOff (h : s.breaksOff t = true) : s.Late :=
  ⟨t.flow, (breaksOff_iff.mp h).2.2⟩

theorem Tends.late (h : s.Tends slot started s') (hlate : s.Late) : s'.Late := by
  rwa [Late, h.clock, h.now, h.grace]

/-- The holder in a slot releases its ticket, or is lost over the release. -/
theorem done_tends (h : s.Sound []) (hslot : s.slots.get? slot = some (.holding t)) :
    (s.step (.done slot)).Gives fun r _ =>
      r.1 = .brokenOff ∧ s.Late ∧ s.Tends slot [] r.2 ∧ r.2.slots.get? slot = some (.stranded t) ∨
        r.1 = .done ∧ r.2.slots.get? slot = none ∧
          ∃ started : Option Expiry, s.Tends slot started.toList r.2 := by
  have hheld : s.held? slot = some t := by rw [held?, hslot]; rfl
  rw [step, withTicket, hheld]
  dsimp only [release]
  split
  · rename_i hbreaks
    exact gives_pure_iff.mpr
      (.inl ⟨rfl, late_of_breaksOff hbreaks, strand_tends h hslot, Catalog.get?_insert_self ..⟩)
  · apply (letGo_tends h hslot).bind
    rintro s' events htends
    exact gives_pure_iff.mpr (.inr ⟨rfl, htends⟩)

/-- How long grace periods still last, added up. -/
def graceLeft (expiries : List Expiry) (now : Nat) : Nat :=
  (expiries.map fun e => e.due - now).sum

@[simp] theorem graceLeft_nil (now : Nat) : graceLeft [] now = 0 := rfl

theorem graceLeft_append (first later : List Expiry) (now : Nat) :
    graceLeft (first ++ later) now = graceLeft first now + graceLeft later now := by
  rw [graceLeft, List.map_append, List.sum_append]
  rfl

/-- A grace period that starts at a whole millisecond lasts as long as it says. -/
theorem Tends.graceLeft_le {started : Option Expiry} (h : s.Tends slot started.toList s')
    (haligned : s.now % 1000000 = 0) {millis : Nat}
    (hgrace : ∀ flow, s.grace.span flow ≤ Span.ofMillis millis) :
    graceLeft started.toList s.now ≤ Span.ofMillis millis := by
  cases started with
  | none => exact Nat.zero_le _
  | some e =>
      obtain ⟨-, hexpires⟩ := h.starts e List.mem_cons_self
      have hle := hgrace e.ticket.flow
      simp only [graceLeft, Option.toList_some, List.map_cons, List.map_nil, List.sum_cons,
        List.sum_nil, Expiry.due, Span.ceilMillis, hexpires, Span.ofMillis] at hle ⊢
      omega

end Session

namespace Simulation.Client

open Logged (Gives gives_pure_iff gives_emit_bind_iff)
open Session (Tends graceLeft)

variable {o : Options} {goesOn : Nat → Nat → Bool} {client left entered : Nat} {c c' : Client}
  {s s' s'' : Session}

/-- What a client's slot holds in a phase, and how many rounds are behind it and before it. -/
def Fits (o : Options) (client : Nat) (c : Client) (s : Session) : Phase → Prop
  | .fresh => s.slots.get? (slot client) = none ∧ c.entered = 0
  | .waiting left => (∃ t, s.slots.get? (slot client) = some (.waiting token t)) ∧ 0 < left ∧
      c.entered + left = o.rounds
  | .holding left ends => (∃ t, s.slots.get? (slot client) = some (.holding t)) ∧ 0 < c.entered ∧
      0 < left ∧ c.entered + left = o.rounds + 1 ∧ o.holdMillis ≠ 0 ∧ ends % 1000000 = 0
  | .finished => s.slots.get? (slot client) = none ∧ c.entered ≤ o.rounds ∧
      (c.cancelled = false → c.entered = o.rounds)
  | .lost => (∃ t, s.slots.get? (slot client) = some (.stranded t)) ∧ 0 < c.entered ∧
      c.entered ≤ o.rounds ∧ s.Late

/-- A client fits its phase, and has given up only if it was told to. -/
structure Seated (o : Options) (client : Nat) (c : Client) (s : Session) : Prop where
  fits : c.Fits o client s c.phase
  told : c.cancelled = true → s.isCancelled token = true

theorem Seated.fits_of_phase (h : c.Seated o client s) {phase : Phase} (hphase : c.phase = phase) :
    c.Fits o client s phase :=
  hphase ▸ h.fits

def roundSpan (o : Options) (graceMillis : Nat) : Nat := Span.ofMillis (o.holdMillis + graceMillis)

/-- How long a client can still keep the gate busy. -/
def busyFor (o : Options) (graceMillis now : Nat) (c : Client) : Nat :=
  match c.phase with
  | .fresh => o.rounds * roundSpan o graceMillis
  | .waiting left => left * roundSpan o graceMillis
  | .holding left ends =>
    (left - 1) * roundSpan o graceMillis + (ends - now) + Span.ofMillis graceMillis
  | .finished => 0
  | .lost => 0

/-- What a turn of a client comes to, with so many moves and so much time left to it at most. -/
structure TurnsTo (o : Options) (client : Nat) (s : Session) (moves : Nat) (busy : Nat → Nat)
    (c : Client) (s' : Session) : Prop where
  seated : c.Seated o client s'
  moves_le : c.movesLeft o ≤ moves
  tends : ∃ started, s.Tends (slot client) started s' ∧
    ∀ millis, (∀ flow, s.grace.span flow ≤ Span.ofMillis millis) →
      c.busyFor o millis s.now + graceLeft started s.now ≤ busy millis

/-- A session in which a client can start a round. -/
structure Ready (client : Nat) (s : Session) : Prop where
  sound : s.Sound []
  kept : s.kept = true
  aligned : s.now % 1000000 = 0
  slot : s.slots.get? (slot client) = none

theorem TurnsTo.after {started : List Expiry} {moves moves' : Nat} {busy busy' : Nat → Nat}
    (h : s.Tends (slot client) started s')
    (h' : TurnsTo o client s' moves busy c s'') (hmoves : moves ≤ moves')
    (hbusy : ∀ millis, (∀ flow, s.grace.span flow ≤ Span.ofMillis millis) →
      busy millis + graceLeft started s.now ≤ busy' millis) :
    TurnsTo o client s moves' busy' c s'' := by
  obtain ⟨later, hlater, hle⟩ := h'.tends
  refine ⟨h'.seated, Nat.le_trans h'.moves_le hmoves, later ++ started, h.trans hlater, ?_⟩
  intro millis hgrace
  have hrest := hle millis (by rwa [h.grace])
  have hfirst := hbusy millis hgrace
  rw [h.now] at hrest
  rw [Session.graceLeft_append]
  omega

theorem TurnsTo.after_nil {moves moves' : Nat} {busy : Nat → Nat} (h : s.Tends (slot client) [] s')
    (h' : TurnsTo o client s' moves busy c s'') (hmoves : moves ≤ moves') :
    TurnsTo o client s moves' busy c s'' := by
  refine h'.after h hmoves fun millis _ => ?_
  exact Nat.le_of_eq (by rw [Session.graceLeft_nil, Nat.add_zero])

theorem turnsTo_finished {started : List Expiry} {cancelled : Bool} {moves : Nat} {busy : Nat → Nat}
    (h : s.Tends (slot client) started s') (hslot : s'.slots.get? (slot client) = none)
    (hend : cancelled = false ∧ entered = o.rounds ∨
      cancelled = true ∧ entered ≤ o.rounds ∧ s'.isCancelled token = true)
    (hbusy : ∀ millis, (∀ flow, s.grace.span flow ≤ Span.ofMillis millis) →
      graceLeft started s.now ≤ busy millis) :
    TurnsTo o client s moves busy ⟨.finished, entered, cancelled⟩ s' := by
  have hseated : Seated o client ⟨.finished, entered, cancelled⟩ s' := by
    rcases hend with ⟨rfl, hall⟩ | ⟨rfl, hle, htold⟩
    · exact ⟨⟨hslot, Nat.le_of_eq hall, fun _ => hall⟩, fun h => absurd h Bool.false_ne_true⟩
    · exact ⟨⟨hslot, hle, fun h => absurd h.symm Bool.false_ne_true⟩, fun _ => htold⟩
  refine ⟨hseated, Nat.zero_le _, started, h, ?_⟩
  intro millis hgrace
  have hle := hbusy millis hgrace
  simp only [busyFor]
  omega

theorem turnsTo_lost {t : Ticket} {moves : Nat} {busy : Nat → Nat} (h : s.Tends (slot client) [] s')
    (hlate : s.Late) (hslot : s'.slots.get? (slot client) = some (.stranded t)) (hsome : 0 < entered)
    (hle : entered ≤ o.rounds) : TurnsTo o client s moves busy ⟨.lost, entered, false⟩ s' := by
  refine ⟨⟨⟨⟨t, hslot⟩, hsome, hle, h.late hlate⟩, nofun⟩, Nat.zero_le _, [], h, ?_⟩
  exact fun millis _ => Nat.zero_le _

/-- A client that releases its ticket is lost over it, or goes on with an empty slot. -/
theorem release_gives (h : s.Sound []) {t : Ticket}
    (hslot : s.slots.get? (slot client) = some (.holding t)) (hsome : 0 < entered)
    (hle : entered ≤ o.rounds) {moves : Nat} {busy : Nat → Nat}
    {next : Session → Logged (Client × Session)}
    (hnext : ∀ s' (started : Option Expiry), s.Tends (slot client) started.toList s' →
      s'.slots.get? (slot client) = none →
        (next s').Gives fun r _ => TurnsTo o client s moves busy r.1 r.2) :
    (release client entered s next).Gives fun r _ => TurnsTo o client s moves busy r.1 r.2 := by
  apply (Session.done_tends h hslot).bind
  rintro ⟨_, s'⟩ events (⟨rfl, hlate, htends, hlost⟩ | ⟨rfl, hempty, started, htends⟩)
  · exact gives_pure_iff.mpr (turnsTo_lost htends hlate hlost hsome hle)
  · exact hnext s' started htends hempty

theorem ready_of_tends {started : List Expiry} (h : s.Tends (slot client) started s')
    (hkept : s.kept = true) (haligned : s.now % 1000000 = 0)
    (hslot : s'.slots.get? (slot client) = none) : Ready client s' :=
  ⟨h.sound, h.kept.trans hkept, h.now ▸ haligned, hslot⟩

theorem isCancelled_of_isInterrupted {isOver : Bool}
    (h : isInterrupted goesOn client left isOver s = true) : s.isCancelled token = true :=
  ((Bool.and_eq_true _ _).mp h).1

/-- A client that releases its ticket as it is told to give up is through, or lost. -/
theorem release_interrupted_gives (h : s.Sound []) (haligned : s.now % 1000000 = 0) {t : Ticket}
    (hslot : s.slots.get? (slot client) = some (.holding t)) (hsome : 0 < entered)
    (hle : entered ≤ o.rounds) {isOver : Bool}
    (hinterrupted : isInterrupted goesOn client left isOver s = true) {moves : Nat}
    {busy : Nat → Nat} (hbusy : ∀ millis, Span.ofMillis millis ≤ busy millis) :
    (release client entered s fun s => return (⟨.finished, entered, true⟩, s)).Gives fun r _ =>
      TurnsTo o client s moves busy r.1 r.2 := by
  refine release_gives h hslot hsome hle fun s' started htends hempty => ?_
  have htold : s'.isCancelled token = true := by
    rw [Session.isCancelled, htends.cancelled]
    exact isCancelled_of_isInterrupted hinterrupted
  refine gives_pure_iff.mpr (turnsTo_finished htends hempty (.inr ⟨rfl, hle, htold⟩) ?_)
  exact fun millis hgrace => Nat.le_trans (htends.graceLeft_le haligned hgrace) (hbusy millis)

/-- A client that releases its ticket at the end of its while starts its next round, or is lost. -/
theorem release_goesOn_gives (h : s.Sound []) (hkept : s.kept = true)
    (haligned : s.now % 1000000 = 0) {t : Ticket}
    (hslot : s.slots.get? (slot client) = some (.holding t)) (hsome : 0 < entered)
    (hle : entered ≤ o.rounds) {moves moves' : Nat} {busy busy' : Nat → Nat}
    {next : Session → Logged (Client × Session)}
    (hnext : ∀ s', Ready client s' →
      (next s').Gives fun r _ => TurnsTo o client s' moves busy r.1 r.2)
    (hmoves : moves ≤ moves') (hbusy : ∀ millis, busy millis + Span.ofMillis millis ≤ busy' millis) :
    (release client entered s next).Gives fun r _ => TurnsTo o client s moves' busy' r.1 r.2 := by
  refine release_gives h hslot hsome hle fun s' started htends hempty => ?_
  refine (hnext s' (ready_of_tends htends hkept haligned hempty)).mono fun r later hturn => ?_
  refine hturn.after htends hmoves fun millis hgrace => ?_
  exact Nat.le_trans (Nat.add_le_add_left (htends.graceLeft_le haligned hgrace) _) (hbusy millis)

theorem answered_gives (h : s.Sound []) (hkept : s.kept = true) (haligned : s.now % 1000000 = 0)
    {answer : Answer} (htold : s.Told (slot client) token answer)
    (hrounds : entered + (left + 1) = o.rounds) {next : Session → Logged (Client × Session)}
    (hnext : ∀ s', Ready client s' → (next s').Gives fun r _ =>
      TurnsTo o client s' (2 * left + 1) (fun millis => left * roundSpan o millis) r.1 r.2) :
    (answered o goesOn client (left + 1) entered answer s next).Gives fun r _ =>
      TurnsTo o client s (2 * (left + 1) + if answer = .pending then 1 else 0)
        (fun millis => (left + 1) * roundSpan o millis) r.1 r.2 := by
  cases answer with
  | pending =>
      obtain ⟨t, hslot⟩ := htold
      refine gives_pure_iff.mpr ⟨⟨⟨⟨t, hslot⟩, Nat.succ_pos left, hrounds⟩, ?_⟩, Nat.le_refl _, [],
        .refl h _, fun millis _ => ?_⟩
      · exact fun hcancelled => absurd hcancelled Bool.false_ne_true
      · rw [Session.graceLeft_nil, Nat.add_zero]
        exact Nat.le_refl _
  | refused =>
      obtain ⟨hslot, hcancelled⟩ := htold
      rw [answered, gives_emit_bind_iff, gives_pure_iff]
      exact turnsTo_finished (.refl h _) hslot (.inr ⟨rfl, by omega, hcancelled⟩)
        fun _ _ => Nat.zero_le _
  | entered id =>
      obtain ⟨t, hslot⟩ := htold
      have hle : entered + 1 ≤ o.rounds := by omega
      have hround : ∀ millis, left * roundSpan o millis + Span.ofMillis millis ≤
          (left + 1) * roundSpan o millis := by
        intro millis
        rw [Nat.succ_mul, roundSpan, Span.ofMillis, Span.ofMillis]
        omega
      rw [answered]
      split
      · rename_i hinterrupted
        refine release_interrupted_gives h haligned hslot (Nat.succ_pos entered) hle hinterrupted ?_
        exact fun millis => Nat.le_trans (Nat.le_add_left _ _) (hround millis)
      · split
        · exact release_goesOn_gives h hkept haligned hslot (Nat.succ_pos entered) hle hnext (by omega)
            hround
        · rename_i hhold
          have hcount : entered + 1 + (left + 1) = o.rounds + 1 := by omega
          refine gives_pure_iff.mpr ⟨⟨⟨⟨t, hslot⟩, Nat.succ_pos entered, Nat.succ_pos left, hcount,
            hhold, ?_⟩, ?_⟩, Nat.le_refl _, [], .refl h _, ?_⟩
          · simp only [Span.ofMillis]
            omega
          · exact fun hcancelled => absurd hcancelled Bool.false_ne_true
          · intro millis _
            rw [Nat.add_mul left 1]
            simp only [busyFor, Session.graceLeft_nil, Nat.add_sub_cancel, roundSpan, Span.ofMillis]
            omega

theorem start_gives (h : Ready client s) (hrounds : entered + left = o.rounds) :
    (start o goesOn client left entered s).Gives fun r _ =>
      TurnsTo o client s (2 * left + 1) (fun millis => left * roundSpan o millis) r.1 r.2 := by
  induction left generalizing entered s with
  | zero =>
      exact gives_pure_iff.mpr (turnsTo_finished (.refl h.sound _) h.slot (.inl ⟨rfl, hrounds⟩)
        fun _ _ => Nat.zero_le _)
  | succ left ih =>
      rw [start]
      apply (Session.wait_tends h.sound h.kept h.slot token _).bind
      rintro ⟨_, s'⟩ first ⟨answer, rfl, htends, htold⟩
      have hkept := htends.kept.trans h.kept
      have haligned : s'.now % 1000000 = 0 := htends.now ▸ h.aligned
      refine Gives.mono (answered_gives htends.sound hkept haligned htold hrounds
        fun s'' hready => ih hready (Nat.succ_add_eq_add_succ entered left ▸ hrounds)) ?_
      rintro r later hturn
      refine hturn.after_nil htends ?_
      split <;> omega

theorem canMove_waiting_iff {t : Ticket} (hphase : c.phase = .waiting left)
    (hslot : s.slots.get? (slot client) = some (.waiting token t)) :
    canMove s client c = true ↔ s.gate.Calling t ∨ s.isCancelled token = true := by
  rw [canMove, hphase, isLetIn, hslot, Bool.or_eq_true]
  rfl

/-- A client that can go on does so, and has then fewer moves and no more time left to it. -/
theorem move_gives (h : s.Sound []) (hkept : s.kept = true) (haligned : s.now % 1000000 = 0)
    (hseated : c.Seated o client s) (hmove : canMove s client c = true) :
    (c.move o goesOn client s).Gives fun r _ =>
      r.1.movesLeft o < c.movesLeft o ∧
        TurnsTo o client s (r.1.movesLeft o) (fun millis => c.busyFor o millis s.now) r.1 r.2 := by
  obtain ⟨phase, entered, cancelled⟩ := c
  obtain ⟨hfits, htold⟩ := hseated
  -- A bound on the moves that are left is enough: the bound itself can then be what is left.
  have hshrink : ∀ (moves : Nat) {x : Logged (Client × Session)},
      (x.Gives fun r _ => TurnsTo o client s moves
        (fun millis => busyFor o millis s.now ⟨phase, entered, cancelled⟩) r.1 r.2) →
      moves < movesLeft o ⟨phase, entered, cancelled⟩ →
      x.Gives fun r _ => r.1.movesLeft o < movesLeft o ⟨phase, entered, cancelled⟩ ∧
        TurnsTo o client s (r.1.movesLeft o)
          (fun millis => busyFor o millis s.now ⟨phase, entered, cancelled⟩) r.1 r.2 := by
    intro moves x hx hlt
    refine hx.mono fun r events hturn => ?_
    exact ⟨Nat.lt_of_le_of_lt hturn.moves_le hlt, hturn.seated, Nat.le_refl _, hturn.tends⟩
  cases phase with
  | fresh =>
      obtain ⟨hslot, hnone⟩ := hfits
      dsimp only at hnone
      subst hnone
      refine hshrink _ (start_gives ⟨h, hkept, haligned, hslot⟩ (Nat.zero_add _)) ?_
      simp only [movesLeft]
      omega
  | waiting left =>
      obtain ⟨⟨t, hslot⟩, hleft, hcount⟩ := hfits
      obtain ⟨left, rfl⟩ := Nat.exists_eq_succ_of_ne_zero (Nat.ne_of_gt hleft)
      refine hshrink (2 * (left + 1)) ?_ (Nat.lt_succ_self _)
      apply (Session.poll_tends h hslot ((canMove_waiting_iff rfl hslot).mp hmove)).bind
      rintro ⟨_, s'⟩ first ⟨answer, rfl, hanswer, htends, htold⟩
      have hready : s'.kept = true := htends.kept.trans hkept
      have haligned' : s'.now % 1000000 = 0 := htends.now ▸ haligned
      refine Gives.mono (answered_gives htends.sound hready haligned' htold hcount
        fun s'' hready => start_gives hready (Nat.succ_add_eq_add_succ entered left ▸ hcount)) ?_
      rintro r later hturn
      rw [if_neg hanswer] at hturn
      exact hturn.after_nil htends (Nat.le_refl _)
  | holding left ends =>
      obtain ⟨⟨t, hslot⟩, hsome, hleft, hcount, -, -⟩ := hfits
      obtain ⟨left, rfl⟩ := Nat.exists_eq_succ_of_ne_zero (Nat.ne_of_gt hleft)
      have hbehind : entered + left = o.rounds := Nat.succ.inj hcount
      have hle : entered ≤ o.rounds := by omega
      refine hshrink (2 * left + 1) ?_ (by simp only [movesLeft]; omega)
      rw [move]
      dsimp only
      split
      · rename_i hinterrupted
        refine release_interrupted_gives h haligned hslot hsome hle hinterrupted fun millis => ?_
        exact Nat.le_add_left ..
      · refine release_goesOn_gives h hkept haligned hslot hsome hle
          (fun s' hready => start_gives hready hbehind) (Nat.le_refl _) fun millis => ?_
        simp only [busyFor, Nat.succ_sub_one]
        omega
  | finished => cases hmove
  | lost => cases hmove

end Simulation.Client

end FlowGate
