import FlowGate.Proofs.SessionInvariant

namespace FlowGate.Session

open Gate (Quiet)
open Logged (Gives gives_pure_iff gives_emit_bind_iff)

variable {s s' : Session} {slot token : String} {request : Request} {t : Ticket} {answer : Answer}
  {reply : Reply}

def nextTicket (s : Session) (request : Request) : Ticket := ⟨request, s.nextId, s.now⟩

/-- What a first request comes to. -/
inductive Asked (s : Session) (slot token : String) (t : Ticket) : Answer → Session → Prop where
  | entered (hroom : s.gate.active.contains t.flow = true ∨ s.gate.hasSpace = true) :
      Asked s slot token t (.entered t.id)
        ({ s with nextId := s.nextId + 1, gate := s.gate.file t none }.putSlot slot (.holding t))
  | refused (hinactive : s.gate.active.contains t.flow = false) (hfull : s.gate.hasSpace = false)
      (hcancelled : s.isCancelled token = true) :
      Asked s slot token t .refused ({ s with nextId := s.nextId + 1 }.clearSlot slot)
  | pending (hinactive : s.gate.active.contains t.flow = false) (hfull : s.gate.hasSpace = false)
      (hcancelled : s.isCancelled token = false) (waiting : WaitList)
      (hwaits : ∀ u, Gate.Waits { s.gate with waiting } u ↔ u = t ∨ s.gate.Waits u) :
      Asked s slot token t .pending
        ({ s with nextId := s.nextId + 1, gate := { s.gate with waiting } }.putSlot slot
          (.waiting token t))

/-- What a later request comes to. -/
inductive AskedAgain (s : Session) (slot token : String) (t : Ticket) : Answer → Session → Prop where
  | entered (hcalling : s.gate.Calling t) :
      AskedAgain s slot token t (.entered t.id)
        ({ s with gate := s.gate.hear t }.putSlot slot (.holding t))
  | pending (hwaiting : s.gate.Waits t) (hcancelled : s.isCancelled token = false) :
      AskedAgain s slot token t .pending s
  | refused (hwaiting : s.gate.Waits t) (hcancelled : s.isCancelled token = true)
      (waiting : WaitList)
      (hwaits : ∀ u, Gate.Waits { s.gate with waiting } u ↔ u ≠ t ∧ s.gate.Waits u) :
      AskedAgain s slot token t .refused
        ({ s with gate := { s.gate with waiting } }.clearSlot slot)

theorem no_room {g : Gate} {flow : Flow} (hinactive : g.active.contains flow = false)
    (hfull : g.hasSpace = false) : ¬(g.active.contains flow = true ∨ g.hasSpace = true) := by
  simp [hinactive, hfull]

/-- What comes into a slot: whoever waits is on the list, and a holder is lost only as a release breaks off. -/
def Comes (s : Session) (reply : Reply) : Slot → Prop
  | .waiting _ t => s.gate.Waits t
  | .stranded _ => reply = .brokenOff
  | _ => True

def Fills (s : Session) (reply : Reply) (s' : Session) : Prop :=
  ∀ slot content, s'.slots.get? slot = some content →
    s.slots.get? slot = some content ∨ s'.Comes reply content

theorem fills_of_slots_eq (hslots : s'.slots = s.slots) : s.Fills reply s' := by
  intro slot content hslot
  rw [hslots] at hslot
  exact .inl hslot

theorem fills_of_erase (hslots : s'.slots = s.slots.erase slot) : s.Fills reply s' := by
  intro other content hother
  rw [hslots] at hother
  exact .inl (Catalog.get?_erase_eq_some_iff.mp hother).2

theorem fills_of_insert {content : Slot} (hslots : s'.slots = s.slots.insert slot content)
    (hcontent : s'.Comes reply content) : s.Fills reply s' := by
  intro other held hother
  rw [hslots] at hother
  rcases Catalog.get?_insert_eq_some_iff.mp hother with ⟨-, rfl⟩ | ⟨-, hold⟩
  · exact .inr hcontent
  · exact .inl hold

/-- What becomes of a session in which the caller in a slot is answered. -/
structure Answered (s : Session) (slot : String) (answer : Answer) (s' : Session) : Prop where
  accounts : s'.Accounts []
  evolves : s.Evolves (fun _ => False) s'
  others : ∀ other, other ≠ slot → s'.slots.get? other = s.slots.get? other
  fills : s.Fills (.answer answer) s'
  calling : ∀ u, s'.gate.Calling u → s.gate.Calling u
  entered : ∀ id, answer = .entered id → ∃ u, u.id = id ∧ s'.slots.get? slot = some (.holding u)

theorem Accounts.admits_of_holding (h : s.Accounts [])
    (hslot : s.slots.get? slot = some (.holding t)) : s.gate.Admits t none :=
  (h.admits_none_iff t).mpr (.inl (held_mem_stakes_iff.mpr ⟨slot, .inl hslot⟩))

/-- A slot holds the ticket of a number, which is active and not due to go. -/
def HoldsActive (s : Session) (slot : String) (id : Nat) : Prop :=
  ∃ t, t.id = id ∧ s.slots.get? slot = some (.holding t) ∧ s.gate.Admits t none

/-- Whoever is told that its ticket entered holds it. -/
def Tells (s : Session) : Reply → Prop
  | .answer (.entered id) => ∃ slot, s.HoldsActive slot id
  | .answers answers => ∀ slot id, (slot, .entered id) ∈ answers → s.HoldsActive slot id
  | _ => True

theorem Answered.tells (h : s.Answered slot answer s') : s'.Tells (.answer answer) := by
  cases answer with
  | entered id =>
      obtain ⟨u, hid, hslot⟩ := h.entered id rfl
      exact ⟨slot, u, hid, hslot, Accounts.admits_of_holding h.accounts hslot⟩
  | refused => trivial
  | pending => trivial

theorem ask_gives (h : s.gate.Sound) (haccounts : s.Accounts []) :
    (s.ask slot token request).Gives fun r events =>
      Quiet events ∧ r.2.gate.Sound ∧ s.Asked slot token (s.nextTicket request) r.1 r.2 := by
  unfold ask issue
  apply (Gate.enter?_gives h (s.nextTicket request)).bind
  rintro (_ | g') first ⟨hquiet, hnone, hsome⟩
  · obtain ⟨rfl, hinactive, hfull⟩ := hnone rfl
    have habsent := Catalog.contains_eq_false_iff.mpr hinactive
    cases hcancelled : s.isCancelled token with
    | true =>
        have hcancelled' : isCancelled { s with nextId := s.nextId + 1 } token = true := hcancelled
        simp only [hcancelled', if_true]
        rw [gives_emit_bind_iff, gives_pure_iff]
        exact ⟨by simp [Quiet], h, .refused habsent hfull hcancelled⟩
    | false =>
        have hcancelled' : isCancelled { s with nextId := s.nextId + 1 } token = false := hcancelled
        simp only [hcancelled', Bool.false_eq_true, if_false]
        have hnew : s.gate.waiting.tickets.get? (s.nextTicket request).id = none := by
          apply Option.eq_none_iff_forall_not_mem.mpr
          intro u hu
          obtain ⟨hid, hwaits⟩ := h.waits_of_get? hu
          have hlt := haccounts.id_lt_of_waits hwaits
          rw [hid] at hlt
          exact Nat.lt_irrefl _ hlt
        apply (Gate.enqueue_gives h hnew hinactive hfull).bind
        rintro _ later ⟨hquiet', h', ⟨waiting, rfl⟩, hwaits⟩
        exact gives_pure_iff.mpr
          ⟨hquiet'.append Gate.quiet_nil, h', .pending habsent hfull hcancelled waiting hwaits⟩
  · obtain ⟨hroom, rfl, h'⟩ := hsome g' rfl
    exact gives_pure_iff.mpr ⟨hquiet.append Gate.quiet_nil, h', .entered hroom⟩

theorem Asked.answered (h : s.Asked slot token (s.nextTicket request) answer s')
    (haccounts : s.Accounts []) (halive : s.alive = true)
    (hfree : (s.slots.get? slot).bind Slot.stake? = none) : s.Answered slot answer s' := by
  have hrest : Custody s.gate (stakes (s.slots.erase slot) s.expiries) s.nextId := by
    have hsplit := accounts_erase haccounts slot
    rwa [hfree] at hsplit
  have hplace : ∀ u, s.gate.Inside u → u.flow = request.flow → u.id = s.nextId →
      u = s.nextTicket request := by
    intro u hu _ hid
    have hlt := haccounts.id_lt_of_inside hu
    omega
  cases h with
  | entered hroom =>
      constructor
      · exact accounts_putSlot rfl (hrest.enter rfl)
      · refine ⟨s.nextId.le_succ, ?_, fun _ => halive, by simp [halive]⟩
        exact Gate.evolves_file none (.inl s.nextId.le_refl) hplace
      · exact fun other hne => Catalog.get?_insert_of_ne _ _ hne
      · exact fills_of_insert rfl trivial
      · exact fun u hcalling => hcalling
      · rintro _ ⟨rfl⟩
        exact ⟨_, rfl, Catalog.get?_insert_self ..⟩
  | refused hinactive hfull hcancelled =>
      constructor
      · exact hrest.issue
      · exact .of_gate_eq rfl s.nextId.le_succ fun _ => halive
      · exact fun other hne => Catalog.get?_erase_of_ne _ hne
      · exact fills_of_erase rfl
      · exact fun u hcalling => hcalling
      · exact nofun
  | pending hinactive hfull hcancelled waiting hwaits =>
      constructor
      · exact accounts_putSlot rfl (hrest.queue rfl hwaits)
      · refine ⟨s.nextId.le_succ, ?_, fun _ => halive, by simp [halive]⟩
        apply Gate.evolves_waiting
        intro u hu
        rcases (hwaits u).mp hu with rfl | hold
        · exact .inl s.nextId.le_refl
        · exact .inr hold
      · exact fun other hne => Catalog.get?_insert_of_ne _ _ hne
      · exact fills_of_insert rfl ((hwaits _).mpr (.inl rfl))
      · exact fun u hcalling => hcalling
      · exact nofun

theorem waits_or_calling (haccounts : s.Accounts [])
    (hslot : s.slots.get? slot = some (.waiting token t)) : s.gate.Waits t ∨ s.gate.Calling t := by
  have howned : (t, .awaited) ∈ stakes s.slots s.expiries :=
    awaited_mem_stakes_iff.mpr ⟨slot, token, hslot⟩
  rcases Classical.em (s.gate.Calling t) with hcalling | hsilent
  · exact .inr hcalling
  · exact .inl ((haccounts.waits_iff t).mpr ⟨howned, hsilent⟩)

theorem askAgain_gives (h : s.gate.Sound) (haccounts : s.Accounts [])
    (hslot : s.slots.get? slot = some (.waiting token t)) :
    (s.askAgain slot token t).Gives fun r events =>
      Quiet events ∧ r.2.gate.Sound ∧ s.AskedAgain slot token t r.1 r.2 := by
  unfold askAgain
  cases hcalling : s.gate.called.contains t.id with
  | true => exact gives_pure_iff.mpr ⟨Gate.quiet_nil, h.hear t, .entered hcalling⟩
  | false =>
      have hwaiting : s.gate.Waits t := by
        rcases waits_or_calling haccounts hslot with hwaiting | hcalling'
        · exact hwaiting
        · rw [Gate.Calling, hcalling] at hcalling'
          cases hcalling'
      have hlisted : s.gate.waiting.contains t.id = true := Catalog.contains_iff.mpr ⟨t, hwaiting⟩
      simp only [hlisted, Bool.not_true, Bool.false_eq_true, if_false]
      cases hcancelled : s.isCancelled token with
      | false => exact gives_pure_iff.mpr ⟨Gate.quiet_nil, h, .pending hwaiting hcancelled⟩
      | true =>
          simp only [Bool.not_true, Bool.false_eq_true, if_false]
          apply (Gate.withdraw?_gives h hwaiting).bind
          rintro _ first ⟨hquiet, waiting, rfl, h', hwaits⟩
          simp only
          rw [gives_emit_bind_iff, gives_pure_iff]
          refine ⟨hquiet.append (by simp [Quiet]), h', .refused hwaiting hcancelled waiting hwaits⟩

theorem AskedAgain.answered (h : s.AskedAgain slot token t answer s') (haccounts : s.Accounts [])
    (hslot : s.slots.get? slot = some (.waiting token t)) : s.Answered slot answer s' := by
  have hsplit := accounts_erase_of_get? haccounts hslot
  have halive := alive_of_open hslot rfl
  cases h with
  | entered hcalling =>
      constructor
      · exact accounts_putSlot rfl (hsplit.hear hcalling)
      · exact ⟨s.nextId.le_refl, Gate.evolves_hear, fun _ => halive, by simp [halive]⟩
      · exact fun other hne => Catalog.get?_insert_of_ne _ _ hne
      · exact fills_of_insert rfl trivial
      · exact fun u hu => (Catalog.contains_erase_iff.mp hu).2
      · rintro _ ⟨rfl⟩
        exact ⟨t, rfl, Catalog.get?_insert_self ..⟩
  | pending hwaiting hcancelled =>
      exact ⟨haccounts, .refl s, fun _ _ => rfl, fills_of_slots_eq rfl, fun _ hu => hu,
        nofun⟩
  | refused hwaiting hcancelled waiting hwaits =>
      constructor
      · exact hsplit.withdraw hwaiting hwaits
      · refine ⟨s.nextId.le_refl, ?_, fun _ => halive, by simp [halive]⟩
        exact Gate.evolves_waiting fun u hu => .inr ((hwaits u).mp hu).2
      · exact fun other hne => Catalog.get?_erase_of_ne _ hne
      · exact fills_of_erase rfl
      · exact fun u hcalling => hcalling
      · exact nofun

inductive Polled (s : Session) (slot : String) : Answer → Session → Prop where
  | first {token : String} {request : Request} {answer : Answer} {s' : Session}
      (hslot : s.slots.get? slot = some (.prepared token request))
      (hasked : s.Asked slot token (s.nextTicket request) answer s') : Polled s slot answer s'
  | again {token : String} {t : Ticket} {answer : Answer} {s' : Session}
      (hslot : s.slots.get? slot = some (.waiting token t))
      (hasked : s.AskedAgain slot token t answer s') : Polled s slot answer s'

theorem Polled.ne_of_holding (h : s.Polled slot answer s') {other : String}
    (hother : s.slots.get? other = some (.holding t)) : other ≠ slot := by
  rintro rfl
  cases h with
  | first hslot _ =>
      rw [hother] at hslot
      cases hslot
  | again hslot _ =>
      rw [hother] at hslot
      cases hslot

theorem Polled.answered (h : s.Polled slot answer s') (hsound : s.Sound []) :
    s.Answered slot answer s' := by
  cases h with
  | first hslot hasked =>
      have halive := alive_of_open hslot rfl
      apply hasked.answered (hsound.accounts halive) halive
      rw [hslot]
      rfl
  | again hslot hasked => exact hasked.answered (hsound.accounts (alive_of_open hslot rfl)) hslot

theorem poll?_gives (h : s.Sound []) (slot : String) :
    (s.poll? slot).Gives fun r events =>
      Quiet events ∧
        (r = none → ∀ content, s.slots.get? slot = some content → content.isOpen = false) ∧
        ∀ answer s', r = some (answer, s') → s'.gate.Sound ∧ s.Polled slot answer s' := by
  unfold poll?
  cases hslot : s.slots.get? slot with
  | none => exact gives_pure_iff.mpr ⟨Gate.quiet_nil, by simp, by simp⟩
  | some content =>
      cases content with
      | prepared token request =>
          apply (ask_gives h.gate (h.accounts (alive_of_open hslot rfl))).bind
          rintro ⟨answer, s'⟩ first ⟨hquiet, h', hasked⟩
          refine gives_pure_iff.mpr ⟨hquiet.append Gate.quiet_nil, by simp, ?_⟩
          rintro _ _ ⟨rfl⟩
          exact ⟨h', .first hslot hasked⟩
      | waiting token t =>
          apply (askAgain_gives h.gate (h.accounts (alive_of_open hslot rfl)) hslot).bind
          rintro ⟨answer, s'⟩ first ⟨hquiet, h', hasked⟩
          refine gives_pure_iff.mpr ⟨hquiet.append Gate.quiet_nil, by simp, ?_⟩
          rintro _ _ ⟨rfl⟩
          exact ⟨h', .again hslot hasked⟩
      | holding t =>
          refine gives_pure_iff.mpr ⟨Gate.quiet_nil, ?_, by simp⟩
          rintro _ _ ⟨rfl⟩
          rfl
      | stranded t =>
          refine gives_pure_iff.mpr ⟨Gate.quiet_nil, ?_, by simp⟩
          rintro _ _ ⟨rfl⟩
          rfl

structure AnsweredEach (s : Session) (answers : List (String × Answer)) (s' : Session) : Prop where
  accounts : s'.Accounts []
  evolves : s.Evolves (fun _ => False) s'
  holdings : ∀ slot t, s.slots.get? slot = some (.holding t) →
    s'.slots.get? slot = some (.holding t)
  fills : s.Fills (.answers answers) s'
  calling : ∀ t, s'.gate.Calling t → s.gate.Calling t
  entered : ∀ slot id, (slot, .entered id) ∈ answers →
    ∃ t, t.id = id ∧ s'.slots.get? slot = some (.holding t)

theorem AnsweredEach.nil (haccounts : s.Accounts []) : s.AnsweredEach [] s :=
  ⟨haccounts, .refl s, fun _ _ hslot => hslot, fills_of_slots_eq rfl, fun _ ht => ht,
    by simp⟩

theorem AnsweredEach.cons {s'' : Session} {answers : List (String × Answer)}
    (hpolled : s.Polled slot answer s') (h : s.Answered slot answer s')
    (hrest : s'.AnsweredEach answers s'') : s.AnsweredEach ((slot, answer) :: answers) s'' := by
  constructor
  · exact hrest.accounts
  · exact (h.evolves.trans hrest.evolves).mono fun _ hend => hend.elim id id
  · intro other u hother
    apply hrest.holdings other u
    rw [h.others other (hpolled.ne_of_holding hother), hother]
  · intro other content hother
    rcases hrest.fills other content hother with hbefore | hcomes
    · rcases h.fills other content hbefore with hold | hcomes
      · exact .inl hold
      · cases content with
        | waiting token u =>
            rcases waits_or_calling hrest.accounts hother with hstill | hcalling
            · exact .inr hstill
            · exact absurd (hrest.calling u hcalling) ((h.accounts.waits_iff u).mp hcomes).2
        | prepared token request => exact .inr trivial
        | holding u => exact .inr trivial
        | stranded u => cases hcomes
    · cases content with
      | waiting token u => exact .inr hcomes
      | prepared token request => exact .inr trivial
      | holding u => exact .inr trivial
      | stranded u => cases hcomes
  · exact fun u hu => h.calling u (hrest.calling u hu)
  · intro other id hmem
    rcases List.mem_cons.mp hmem with heq | hmem
    · obtain ⟨rfl, hanswer⟩ := Prod.mk.inj heq
      obtain ⟨u, hid, hother⟩ := h.entered id hanswer.symm
      exact ⟨u, hid, hrest.holdings other u hother⟩
    · exact hrest.entered other id hmem

theorem AnsweredEach.tells {answers : List (String × Answer)} (h : s.AnsweredEach answers s') :
    s'.Tells (.answers answers) := by
  intro slot id hmem
  obtain ⟨u, hid, hslot⟩ := h.entered slot id hmem
  exact ⟨u, hid, hslot, Accounts.admits_of_holding h.accounts hslot⟩

theorem pollEach_gives (h : s.gate.Sound) (haccounts : s.Accounts []) (slots : List String) :
    (s.pollEach slots).Gives fun r events =>
      Quiet events ∧ r.2.gate.Sound ∧ s.AnsweredEach r.1 r.2 := by
  induction slots generalizing s with
  | nil => exact gives_pure_iff.mpr ⟨Gate.quiet_nil, h, .nil haccounts⟩
  | cons slot slots ih =>
      have hsound : s.Sound [] := ⟨h, fun _ => haccounts⟩
      rw [pollEach]
      apply (poll?_gives hsound slot).bind
      rintro (_ | ⟨answer, s'⟩) first ⟨hquiet, -, hsome⟩
      · refine (ih h haccounts).mono ?_
        rintro r later ⟨hquiet', hrest⟩
        exact ⟨hquiet.append hquiet', hrest⟩
      · obtain ⟨h', hpolled⟩ := hsome answer s' rfl
        have hanswered := hpolled.answered hsound
        apply (ih h' hanswered.accounts).bind
        rintro ⟨answers, s''⟩ later ⟨hquiet', h'', heach⟩
        refine gives_pure_iff.mpr ⟨?_, h'', .cons hpolled hanswered heach⟩
        exact hquiet.append (hquiet'.append Gate.quiet_nil)

section Split

variable {name : String} {events : List Event}

theorem pollEach_cons (s : Session) (name : String) (names : List String) :
    s.pollEach (name :: names) = do
      let polled ← s.poll? name
      let (answers, s) ← (polled.elim s (·.2)).pollEach names
      return ((polled.map fun answered => (name, answered.1)).toList ++ answers, s) := by
  rw [Session.pollEach]
  congr 1
  funext polled
  cases polled <;> simp

theorem pollEach_append (s : Session) (first rest : List String) :
    s.pollEach (first ++ rest) = do
      let (answers, s) ← s.pollEach first
      let (more, s) ← s.pollEach rest
      return (answers ++ more, s) := by
  induction first generalizing s with
  | nil => simp [Session.pollEach]
  | cons name first ih => simp [pollEach_cons, ih]

theorem pollEach_cons_eq_ok {names : List String} {r : List (String × Answer) × Session}
    (hok : s.pollEach (name :: names) = .ok r events) :
    ∃ polled first answers later, s.poll? name = .ok polled first ∧
      (polled.elim s (·.2)).pollEach names = .ok (answers, r.2) later ∧
        r.1 = (polled.map fun answered => (name, answered.1)).toList ++ answers := by
  rw [pollEach_cons] at hok
  obtain ⟨polled, first, _, hpoll, hrest, -⟩ := Logged.bind_eq_ok_iff.mp hok
  obtain ⟨⟨answers, a⟩, later, _, hmore, hpure, -⟩ := Logged.bind_eq_ok_iff.mp hrest
  cases hpure
  exact ⟨polled, first, answers, later, hpoll, hmore, rfl⟩

theorem pollEach_append_eq_ok {first rest : List String} {r : List (String × Answer) × Session}
    (hok : s.pollEach (first ++ rest) = .ok r events) :
    ∃ past earlier answers later, s.pollEach first = .ok past earlier ∧
      past.2.pollEach rest = .ok (answers, r.2) later ∧ r.1 = past.1 ++ answers := by
  rw [pollEach_append] at hok
  obtain ⟨past, earlier, _, hfirst, hrest, -⟩ := Logged.bind_eq_ok_iff.mp hok
  obtain ⟨⟨answers, a⟩, later, _, hmore, hpure, -⟩ := Logged.bind_eq_ok_iff.mp hrest
  cases hpure
  exact ⟨past, earlier, answers, later, hfirst, hmore, rfl⟩

theorem sound_of_poll? (hsound : s.gate.Sound) (haccounts : s.Accounts [])
    {polled : Option (Answer × Session)} (hok : s.poll? name = .ok polled events) :
    (polled.elim s (·.2)).gate.Sound ∧ (polled.elim s (·.2)).Accounts [] := by
  have hboth : s.Sound [] := ⟨hsound, fun _ => haccounts⟩
  obtain ⟨-, -, hsome⟩ := (poll?_gives hboth name).of_eq_ok hok
  rcases polled with _ | ⟨answer, a⟩
  · exact ⟨hsound, haccounts⟩
  · obtain ⟨hsound', hpolled⟩ := hsome answer a rfl
    exact ⟨hsound', (hpolled.answered hboth).accounts⟩

theorem pollEach_split (haccounts : s.Accounts []) (hsound : s.gate.Sound) {first rest : List String}
    {r : List (String × Answer) × Session}
    (hok : s.pollEach (first ++ slot :: rest) = .ok r events) :
    ∃ past earlier polled now answers later,
      s.pollEach first = .ok past earlier ∧ past.2.poll? slot = .ok polled now ∧
        (polled.elim past.2 (·.2)).pollEach rest = .ok (answers, r.2) later ∧
        r.1 = past.1 ++ ((polled.map fun answered => (slot, answered.1)).toList ++ answers) ∧
        past.2.Sound [] ∧ (polled.elim past.2 (·.2)).Sound [] ∧
        ∀ t, (polled.elim past.2 (·.2)).slots.get? slot = some (.holding t) →
          r.2.slots.get? slot = some (.holding t) := by
  obtain ⟨past, earlier, _, _, hpast, hmore, hanswers⟩ := pollEach_append_eq_ok hok
  obtain ⟨polled, now, answers, later, hpoll, hlast, rfl⟩ := pollEach_cons_eq_ok hmore
  obtain ⟨-, hsound', hpolled⟩ := (pollEach_gives hsound haccounts first).of_eq_ok hpast
  obtain ⟨hsound'', haccounts''⟩ := sound_of_poll? hsound' hpolled.accounts hpoll
  obtain ⟨-, -, hpolled'⟩ := (pollEach_gives hsound'' haccounts'' rest).of_eq_ok hlast
  exact ⟨past, earlier, polled, now, answers, later, hpast, hpoll, hlast, hanswers,
    ⟨hsound', fun _ => hpolled.accounts⟩, ⟨hsound'', fun _ => haccounts''⟩, hpolled'.holdings slot⟩

end Split

end FlowGate.Session
