import FlowGate.Proofs.AbsentTicket
import FlowGate.Proofs.Ownership

namespace FlowGate

def Slot.token? : Slot → Option String
  | .prepared token _ => some token
  | .waiting token _ => some token
  | .holding _ => none
  | .stranded _ => none

namespace Session

open Logged (Gives gives_pure_iff gives_emit_bind_iff)

/-- Sessions that differ by the caller of a slot at most, and its ticket if it waits. -/
structure Alike (slot own : String) (x : Option Ticket) (s s' : Session) : Prop where
  kept : s.kept = true
  gate : s.gate.Lacks x s'.gate
  owner : ∀ t, x = some t → ∃ token, s.slots.get? slot = some (.waiting token t)
  others : ∀ name, name ≠ slot → s'.slots.get? name = s.slots.get? name
  tokens : ∀ name content, s.slots.get? name = some content → content.token? ≠ some own
  rest : s' = { s with
    gate := s'.gate, slots := s'.slots, cancelled := s.cancelled.insert own () }

variable {slot own name token : String} {x : Option Ticket} {s s' a b : Session} {g g' : Gate}
  {t u : Ticket} {request : Request} {content : Slot} {events : List Event}

/-- Alike sessions that hold in the slot what two others hold there. -/
structure Mirrors (slot own : String) (x : Option Ticket) (s s' a b : Session) : Prop
    extends a.Alike slot own x b where
  here : a.slots.get? slot = s.slots.get? slot
  there : b.slots.get? slot = s'.slots.get? slot

theorem Alike.mirrors (h : s.Alike slot own x s') : Mirrors slot own x s s' s s' := ⟨h, rfl, rfl⟩

theorem Mirrors.trans {a' b' : Session} (h : Mirrors slot own x s s' a b)
    (h' : Mirrors slot own x a b a' b') : Mirrors slot own x s s' a' b' :=
  ⟨h'.toAlike, h'.here.trans h.here, h'.there.trans h.there⟩

theorem alive_of_kept (hkept : s.kept = true) : s.alive = true := alive_iff.mpr (.inl hkept)

theorem Alike.kept' (h : s.Alike slot own x s') : s'.kept = true := by
  rw [h.rest]
  exact h.kept

theorem Alike.exists_eq (h : s.Alike slot own x s') : ∃ g' slots', s' = { s with
    gate := g', slots := slots', cancelled := s.cancelled.insert own () } := ⟨_, _, h.rest⟩

theorem Alike.isCancelled_eq (h : s.Alike slot own x s') (hne : token ≠ own) :
    s'.isCancelled token = s.isCancelled token := by
  rw [h.rest, isCancelled, isCancelled, Bool.eq_iff_iff, Catalog.contains_insert_iff]
  exact or_iff_right hne

theorem Alike.withGate (h : s.Alike slot own x s') (hgate : g.Lacks x g') :
    Mirrors slot own x s s' { s with gate := g } { s' with gate := g' } :=
  ⟨⟨h.kept, hgate, h.owner, h.others, h.tokens, by rw [h.rest]⟩, rfl, rfl⟩

theorem Alike.issue_eq (h : s.Alike slot own x s') (request : Request) :
    s'.issue request = (s.nextTicket request, { s' with nextId := s.nextId + 1 }) := by
  rw [issue, h.rest]
  rfl

theorem Alike.issued (h : s.Alike slot own x s') :
    Mirrors slot own x s s' { s with nextId := s.nextId + 1 } { s' with nextId := s.nextId + 1 } :=
  ⟨⟨h.kept, h.gate, h.owner, h.others, h.tokens, by rw [h.rest]⟩, rfl, rfl⟩

theorem Alike.withTimes (h : s.Alike slot own x s') (now : Nat) (timer : Bool) (timed : Nat)
    (expiries : List Expiry) :
    Mirrors slot own x s s' { s with now, timer, timed, expiries }
      { s' with now, timer, timed, expiries } :=
  ⟨⟨h.kept, h.gate, h.owner, h.others, h.tokens, by rw [h.rest]⟩, rfl, rfl⟩

theorem Alike.putSlot (h : s.Alike slot own x s') (hname : name ≠ slot) (content : Slot)
    (htoken : content.token? ≠ some own) :
    Mirrors slot own x s s' (s.putSlot name content) (s'.putSlot name content) := by
  have hhere : (s.putSlot name content).slots.get? slot = s.slots.get? slot :=
    Catalog.get?_insert_of_ne _ _ hname.symm
  refine ⟨⟨h.kept, h.gate, ?_, ?_, ?_, ?_⟩, hhere, Catalog.get?_insert_of_ne _ _ hname.symm⟩
  · rw [hhere]
    exact h.owner
  · intro other hother
    rw [Session.putSlot, Session.putSlot, Catalog.get?_insert, Catalog.get?_insert,
      h.others other hother]
  · intro other content' hget
    rcases Catalog.get?_insert_eq_some_iff.mp hget with ⟨-, rfl⟩ | ⟨-, hold⟩
    · exact htoken
    · exact h.tokens other content' hold
  · rw [h.rest]
    rfl

theorem Alike.clearSlot (h : s.Alike slot own x s') (hname : name ≠ slot) :
    Mirrors slot own x s s' (s.clearSlot name) (s'.clearSlot name) := by
  have hhere : (s.clearSlot name).slots.get? slot = s.slots.get? slot :=
    Catalog.get?_erase_of_ne _ hname.symm
  refine ⟨⟨h.kept, h.gate, ?_, ?_, ?_, ?_⟩, hhere, Catalog.get?_erase_of_ne _ hname.symm⟩
  · rw [hhere]
    exact h.owner
  · intro other hother
    rw [Session.clearSlot, Session.clearSlot, Catalog.get?_erase, Catalog.get?_erase,
      h.others other hother]
  · intro other content' hget
    exact h.tokens other content' (Catalog.get?_erase_eq_some_iff.mp hget).2
  · rw [h.rest]
    rfl

theorem Alike.id_lt (h : s.Alike slot own x s') (haccounts : s.Accounts []) (hx : x = some t) :
    t.id < s.nextId := by
  obtain ⟨token, hslot⟩ := h.owner t hx
  exact haccounts.issued (t, .awaited) (awaited_mem_stakes_iff.mpr ⟨slot, token, hslot⟩)

theorem Alike.id_ne (h : s.Alike slot own x s') (haccounts : s.Accounts []) (hname : name ≠ slot)
    (hget : s.slots.get? name = some (.waiting token u)) (t : Ticket) (hx : x = some t) :
    t.id ≠ u.id := by
  obtain ⟨token', hslot⟩ := h.owner t hx
  exact fun hid => hname (slot_eq_of_id_eq haccounts hslot hget hid).symm

theorem Alike.ask (h : s.Alike slot own x s') (hsound : s.gate.Sound) (haccounts : s.Accounts [])
    (hname : name ≠ slot) (htoken : token ≠ own) {r : Answer × Session}
    (hok : s.ask name token request = .ok r events) :
    (s'.ask name token request).Gives fun r' _ =>
      r'.1 = r.1 ∧ Mirrors slot own x s s' r.2 r'.2 := by
  have hissued := h.issued
  obtain ⟨gate, first, _, henter, hrest, -⟩ := Logged.bind_eq_ok_iff.mp hok
  unfold Session.ask
  rw [h.issue_eq]
  apply (h.gate.enter? hsound henter).bind
  rintro _ _ (hentered | _)
  · cases hrest
    have hgate := hissued.withGate hentered
    exact gives_pure_iff.mpr ⟨rfl, hissued.trans (hgate.trans (hgate.putSlot hname (.holding _) nofun))⟩
  · dsimp only at hrest ⊢
    rw [hissued.isCancelled_eq htoken]
    split at hrest
    · rename_i hcancelled
      obtain ⟨_, _, _, -, hpure, -⟩ := Logged.bind_eq_ok_iff.mp hrest
      cases hpure
      rw [if_pos hcancelled, gives_emit_bind_iff, gives_pure_iff]
      exact ⟨rfl, hissued.trans (hissued.clearSlot hname)⟩
    · rename_i hcancelled
      obtain ⟨gate, hqueue, rfl⟩ := Logged.bind_pure_eq_ok hrest
      rw [if_neg hcancelled]
      have hne : x ≠ some (s.nextTicket request) := fun hx =>
        Nat.lt_irrefl _ (h.id_lt haccounts hx)
      apply (h.gate.enqueue hsound.agree hne hqueue).bind
      intro gate' _ hqueued
      have hgate := hissued.withGate hqueued
      have hput := hgate.putSlot hname (.waiting token (s.nextTicket request))
        (by simpa [Slot.token?] using htoken)
      exact gives_pure_iff.mpr ⟨rfl, hissued.trans (hgate.trans hput)⟩

theorem Alike.askAgain (h : s.Alike slot own x s') (hsound : s.gate.Sound)
    (hname : name ≠ slot) (htoken : token ≠ own) (hid : ∀ t, x = some t → t.id ≠ u.id)
    {r : Answer × Session} (hok : s.askAgain name token u = .ok r events) :
    (s'.askAgain name token u).Gives fun r' _ =>
      r'.1 = r.1 ∧ Mirrors slot own x s s' r.2 r'.2 := by
  have hcalled : s'.gate.called = s.gate.called := by rw [h.gate.rest]
  have hcontains := h.gate.waiting.contains_eq hsound.agree hid
  unfold Session.askAgain at hok ⊢
  rw [hcalled, hcontains, h.isCancelled_eq htoken]
  split at hok
  · rename_i hcalling
    cases hok
    rw [if_pos hcalling, gives_pure_iff]
    have hgate := h.withGate (h.gate.hear u)
    exact ⟨rfl, hgate.trans (hgate.putSlot hname (.holding _) nofun)⟩
  · rename_i hsilent
    rw [if_neg hsilent]
    split at hok
    · cases hok
    · rename_i hlisted
      rw [if_neg hlisted]
      split at hok
      · rename_i hgoes
        cases hok
        rw [if_pos hgoes, gives_pure_iff]
        exact ⟨rfl, h.mirrors⟩
      · rename_i hcancelled
        rw [if_neg hcancelled]
        obtain ⟨gate, first, _, hwithdraw, hrest, -⟩ := Logged.bind_eq_ok_iff.mp hok
        apply (h.gate.withdraw? hsound.agree hid hwithdraw).bind
        rintro _ _ (hwithdrawn | _)
        · obtain ⟨_, _, _, -, hpure, -⟩ := Logged.bind_eq_ok_iff.mp hrest
          cases hpure
          have hgate := h.withGate hwithdrawn
          rw [gives_emit_bind_iff, gives_pure_iff]
          exact ⟨rfl, hgate.trans (hgate.clearSlot hname)⟩
        · obtain ⟨_, _, _, -, hpure, -⟩ := Logged.bind_eq_ok_iff.mp hrest
          cases hpure
          rw [gives_emit_bind_iff, gives_pure_iff]
          exact ⟨rfl, h.putSlot hname (.holding _) nofun⟩

theorem Alike.poll? (h : s.Alike slot own x s') (hsound : s.Sound []) (hname : name ≠ slot)
    {r : Option (Answer × Session)} (hok : s.poll? name = .ok r events) :
    (s'.poll? name).Gives fun r' _ =>
      r'.map (·.1) = r.map (·.1) ∧
        Mirrors slot own x s s' (r.elim s (·.2)) (r'.elim s' (·.2)) := by
  have haccounts := hsound.accounts (alive_of_kept h.kept)
  unfold Session.poll? at hok ⊢
  rw [h.others name hname]
  split at hok
  · rename_i token request hslot
    have htoken : token ≠ own := by simpa [Slot.token?] using h.tokens name _ hslot
    obtain ⟨r, first, _, hask, hpure, -⟩ := Logged.bind_eq_ok_iff.mp hok
    cases hpure
    apply (h.ask hsound.gate haccounts hname htoken hask).bind
    rintro r' _ ⟨hanswer, hmirrors⟩
    exact gives_pure_iff.mpr ⟨congrArg some hanswer, hmirrors⟩
  · rename_i token u hslot
    have htoken : token ≠ own := by simpa [Slot.token?] using h.tokens name _ hslot
    obtain ⟨r, first, _, hask, hpure, -⟩ := Logged.bind_eq_ok_iff.mp hok
    cases hpure
    apply (h.askAgain hsound.gate hname htoken (h.id_ne haccounts hname hslot) hask).bind
    rintro r' _ ⟨hanswer, hmirrors⟩
    exact gives_pure_iff.mpr ⟨congrArg some hanswer, hmirrors⟩
  · cases hok
    exact gives_pure_iff.mpr ⟨rfl, h.mirrors⟩

theorem Alike.pollEach (h : s.Alike slot own x s') (hsound : s.Sound []) {names : List String}
    (hnames : slot ∉ names) {r : List (String × Answer) × Session}
    (hok : s.pollEach names = .ok r events) :
    (s'.pollEach names).Gives fun r' _ =>
      r'.1 = r.1 ∧ Mirrors slot own x s s' r.2 r'.2 := by
  induction names generalizing s s' r events with
  | nil =>
      cases hok
      exact gives_pure_iff.mpr ⟨rfl, h.mirrors⟩
  | cons name names ih =>
      obtain ⟨hname, hrest⟩ := not_or.mp (mt List.mem_cons.mpr hnames)
      obtain ⟨polled, first, _, hpoll, hnext, -⟩ := Logged.bind_eq_ok_iff.mp hok
      rw [Session.pollEach]
      apply (h.poll? hsound (Ne.symm hname) hpoll).bind
      rintro polled' _ ⟨hanswer, hmirrors⟩
      obtain ⟨-, -, hsome⟩ := (poll?_gives hsound name).of_eq_ok hpoll
      cases polled with
      | none =>
          cases polled' with
          | some answered => cases hanswer
          | none => exact ih h hsound hrest hnext
      | some answered =>
          cases polled' with
          | none => cases hanswer
          | some answered' =>
              obtain ⟨answer, a⟩ := answered
              obtain ⟨answer', b⟩ := answered'
              obtain rfl : answer' = answer := Option.some.inj hanswer
              obtain ⟨hgate, hpolled⟩ := hsome answer' a rfl
              have hsound' : a.Sound [] := ⟨hgate, fun _ => (hpolled.answered hsound).accounts⟩
              obtain ⟨r, hmore, rfl⟩ := Logged.bind_pure_eq_ok hnext
              apply (ih hmirrors.toAlike hsound' hrest hmore).bind
              rintro r' _ ⟨hanswers, hmirrors'⟩
              refine gives_pure_iff.mpr ⟨?_, hmirrors.trans hmirrors'⟩
              rw [hanswers]

/-- The ticket that one session lacks still waits at a gate. -/
def Stays (x : Option Ticket) (g : Gate) : Prop := ∀ t, x = some t → g.Waits t

theorem Alike.letGo (h : s.Alike slot own x s') (hsound : s.gate.Sound)
    (hok : s.letGo u = .ok a events) (hstays : Stays x a.gate) :
    (s'.letGo u).Gives fun b _ => Mirrors slot own x s s' a b := by
  obtain ⟨g', slots', rfl⟩ := h.exists_eq
  unfold Session.letGo at hok ⊢
  simp only [alive_of_kept h.kept, alive_of_kept h.kept', Bool.not_true, Bool.false_eq_true,
    if_false] at hok ⊢
  split at hok
  · rename_i hgrace
    obtain ⟨gate, first, _, hremove, hpure, -⟩ := Logged.bind_eq_ok_iff.mp hok
    cases hpure
    rw [if_pos hgrace]
    apply (h.gate.remove hsound hremove hstays).bind
    intro gate' _ hremoved
    exact gives_pure_iff.mpr (h.withGate hremoved)
  · rename_i hgrace
    obtain ⟨_, _, _, -, hpure, -⟩ := Logged.bind_eq_ok_iff.mp hok
    cases hpure
    rw [if_neg hgrace, gives_emit_bind_iff, gives_pure_iff]
    have hgate := h.withGate (h.gate.setExpiry u (s.now + s.grace.span u.flow))
    exact hgate.trans (hgate.withTimes s.now s.timer _ _)

theorem Alike.breaksOff_eq (h : s.Alike slot own x s') (u : Ticket) : s'.breaksOff u = s.breaksOff u := by
  have halive : s'.alive = s.alive := (alive_of_kept h.kept').trans (alive_of_kept h.kept).symm
  rw [breaksOff, breaksOff, halive, h.rest]

theorem Alike.release (h : s.Alike slot own x s') (hsound : s.gate.Sound) (hname : name ≠ slot)
    {r : Reply × Session} (hok : s.release name u = .ok r events) (hstays : Stays x r.2.gate) :
    (s'.release name u).Gives fun r' _ => r'.1 = r.1 ∧ Mirrors slot own x s s' r.2 r'.2 := by
  unfold Session.release at hok ⊢
  rw [h.breaksOff_eq]
  split at hok
  · rename_i hbreaks
    cases hok
    rw [if_pos hbreaks, gives_pure_iff]
    exact ⟨rfl, h.putSlot hname (.stranded u) nofun⟩
  · rename_i hwhole
    obtain ⟨a, hletGo, rfl⟩ := Logged.bind_pure_eq_ok hok
    have hclear := h.clearSlot hname
    rw [if_neg hwhole]
    apply (hclear.letGo hsound hletGo hstays).bind
    intro b _ hmirrors
    exact gives_pure_iff.mpr ⟨rfl, hclear.trans hmirrors⟩

theorem Alike.expire (h : s.Alike slot own x s') (hsound : s.gate.Sound) {e : Expiry}
    (hok : s.expire e = .ok a events) (hstays : Stays x a.gate) :
    (s'.expire e).Gives fun b _ => Mirrors slot own x s s' a b := by
  obtain ⟨gate, first, hremove, rfl⟩ := expire_eq_ok (alive_of_kept h.kept) hok
  have hremoved : (do return { s' with gate := ← s'.gate.remove e.ticket }).Gives
      fun b _ => Mirrors slot own x s s' { s with gate } b := by
    apply (h.gate.remove hsound hremove hstays).bind
    intro gate' _ hremoved
    exact gives_pure_iff.mpr (h.withGate hremoved)
  unfold Session.expire
  simp only [alive_of_kept h.kept', Bool.not_true, Bool.false_eq_true, if_false]
  split
  · rw [gives_emit_bind_iff]
    exact hremoved
  · exact hremoved

theorem Alike.expireEach (h : s.Alike slot own x s') (hsound : s.gate.Sound) {ended : List Expiry}
    (hok : s.expireEach ended = .ok a events) (hstays : Stays x a.gate) :
    (s'.expireEach ended).Gives fun b _ => Mirrors slot own x s s' a b := by
  induction ended generalizing s s' events with
  | nil =>
      cases hok
      exact gives_pure_iff.mpr h.mirrors
  | cons e rest ih =>
      obtain ⟨past, first, later, hexpire, hrest, -⟩ := Logged.bind_eq_ok_iff.mp hok
      obtain ⟨gate, _, hremove, rfl⟩ := expire_eq_ok (alive_of_kept h.kept) hexpire
      obtain ⟨hsound', -⟩ := (Gate.remove_sound hsound e.ticket).of_eq_ok hremove
      have hstays' : Stays x gate := fun t ht =>
        waits_of_expireEach (s := { s with gate }) (alive_of_kept h.kept) hsound' hrest t (hstays t ht)
      apply (h.expire hsound hexpire hstays').bind
      intro past' _ hmirrors
      refine (ih hmirrors.toAlike hsound' hrest).mono ?_
      intro b _ hmirrors'
      exact hmirrors.trans hmirrors'

theorem Alike.abandon (h : s.Alike slot own x s') (hsound : s.gate.Sound)
    (hid : ∀ t, x = some t → t.id ≠ u.id) (hok : s.abandon u = .ok a events)
    (hstays : Stays x a.gate) :
    (s'.abandon u).Gives fun b _ => Mirrors slot own x s s' a b := by
  obtain ⟨gate, first, _, hwithdraw, hrest, -⟩ := Logged.bind_eq_ok_iff.mp hok
  apply (h.gate.withdraw? hsound.agree hid hwithdraw).bind
  rintro _ _ (hwithdrawn | _)
  · obtain ⟨_, _, _, -, hpure, -⟩ := Logged.bind_eq_ok_iff.mp hrest
    cases hpure
    rw [gives_emit_bind_iff, gives_pure_iff]
    exact h.withGate hwithdrawn
  · obtain ⟨_, _, _, -, hmore, -⟩ := Logged.bind_eq_ok_iff.mp hrest
    obtain ⟨gate, hremove, rfl⟩ := Logged.bind_pure_eq_ok hmore
    rw [gives_emit_bind_iff]
    apply ((h.gate.hear u).remove (hsound.hear u) hremove hstays).bind
    intro gate' _ hremoved
    exact gives_pure_iff.mpr (h.withGate hremoved)

theorem Alike.leave (h : s.Alike slot own x s') (hsound : s.Sound []) (hname : name ≠ slot)
    (hget : s.slots.get? name = some content) {r : Reply × Session}
    (hok : s.leave name content = .ok r events) (hstays : Stays x r.2.gate) :
    (s'.leave name content).Gives fun r' _ => r'.1 = r.1 ∧ Mirrors slot own x s s' r.2 r'.2 := by
  have haccounts := hsound.accounts (alive_of_kept h.kept)
  cases content with
  | prepared token request =>
      cases hok
      exact gives_pure_iff.mpr ⟨rfl, h.clearSlot hname⟩
  | waiting token u =>
      obtain ⟨a', habandon, rfl⟩ := Logged.bind_pure_eq_ok hok
      apply (h.abandon hsound.gate (h.id_ne haccounts hname hget) habandon hstays).bind
      intro b _ hmirrors
      exact gives_pure_iff.mpr ⟨rfl, hmirrors.trans (hmirrors.clearSlot hname)⟩
  | holding u =>
      obtain ⟨_, _, _, -, hrelease, -⟩ := Logged.bind_eq_ok_iff.mp hok
      rw [Session.leave, gives_emit_bind_iff]
      exact h.release hsound.gate hname hrelease hstays
  | stranded u =>
      cases hok
      exact gives_pure_iff.mpr ⟨rfl, h.mirrors⟩

end Session

end FlowGate
