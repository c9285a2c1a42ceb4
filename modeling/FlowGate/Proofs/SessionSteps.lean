import FlowGate.Proofs.SessionPolls
import FlowGate.Proofs.SessionReleases

namespace FlowGate.Session

open Gate (Quiet)
open Logged (Gives gives_pure_iff gives_emit_bind_iff)

variable {s s' : Session} {slot : String} {P : Reply × Session → List Event → Prop}

theorem withEmptySlot_eq {act : Logged (Reply × Session)} (hslot : s.slots.get? slot = none)
    (hkept : s.kept = true) : s.withEmptySlot slot act = act := by
  simp [withEmptySlot, Catalog.contains_eq_false_iff.mpr hslot, hkept]

theorem withEmptySlot_gives {act : Logged (Reply × Session)}
    (hrefuse : ∀ reason, P (.refusal reason, s) [])
    (hact : s.slots.get? slot = none → s.kept = true → act.Gives P) :
    (s.withEmptySlot slot act).Gives P := by
  cases hslot : s.slots.get? slot with
  | none =>
      cases hkept : s.kept with
      | true =>
          rw [withEmptySlot_eq hslot hkept]
          exact hact hslot hkept
      | false =>
          have hempty := Catalog.contains_eq_false_iff.mpr hslot
          simp only [withEmptySlot, hempty, hkept, Bool.false_eq_true, if_false, Bool.not_false,
            if_true]
          exact gives_pure_iff.mpr (hrefuse _)
  | some content =>
      have hbusy : s.slots.contains slot = true := Catalog.contains_iff.mpr ⟨content, hslot⟩
      rw [withEmptySlot, if_pos hbusy]
      exact gives_pure_iff.mpr (hrefuse _)

theorem withGate_gives {act : Logged (Reply × Session)}
    (hrefuse : ∀ reason, P (.refusal reason, s) []) (hact : s.kept = true → act.Gives P) :
    (s.withGate act).Gives P := by
  unfold withGate
  cases hkept : s.kept with
  | false => exact gives_pure_iff.mpr (hrefuse _)
  | true => exact hact hkept

theorem withTicket_gives {act : Ticket → Logged (Reply × Session)}
    (hrefuse : ∀ reason, P (.refusal reason, s) [])
    (hact : ∀ t, s.slots.get? slot = some (.holding t) → (act t).Gives P) :
    (s.withTicket slot act).Gives P := by
  unfold withTicket held?
  cases hslot : s.slots.get? slot with
  | none => exact gives_pure_iff.mpr (hrefuse _)
  | some content =>
      cases content with
      | prepared token request => exact gives_pure_iff.mpr (hrefuse _)
      | waiting token t => exact gives_pure_iff.mpr (hrefuse _)
      | holding t => exact hact t hslot
      | stranded t => exact gives_pure_iff.mpr (hrefuse _)

/-- A step by which a caller asks for the first time. -/
inductive FirstAsk (s : Session) (slot token : String) (request : Request) : Step → Prop where
  | wait (hslot : s.slots.get? slot = none) (hkept : s.kept = true) :
      FirstAsk s slot token request (.wait slot token request)
  | poll (hslot : s.slots.get? slot = some (.prepared token request)) :
      FirstAsk s slot token request (.poll slot)

theorem FirstAsk.alive {token : String} {request : Request} {st : Step}
    (h : s.FirstAsk slot token request st) : s.alive = true := by
  cases h with
  | wait hslot hkept => exact alive_iff.mpr (.inl hkept)
  | poll hslot => exact alive_of_open hslot rfl

theorem firstAsk_gives (h : s.Sound []) {token : String} {request : Request} {st : Step}
    (hask : s.FirstAsk slot token request st) :
    (s.step st).Gives fun r events =>
      Quiet events ∧ r.2.gate.Sound ∧
        ∃ answer, r.1 = .answer answer ∧
          s.Asked slot token (s.nextTicket request) answer r.2 := by
  have hgives := @ask_gives s slot token request h.gate (h.accounts hask.alive)
  cases hask with
  | wait hslot hkept =>
      rw [step, withEmptySlot_eq hslot hkept]
      apply hgives.bind
      rintro ⟨answer, s'⟩ first ⟨hquiet, h', hasked⟩
      exact gives_pure_iff.mpr ⟨hquiet.append Gate.quiet_nil, h', answer, rfl, hasked⟩
  | poll hslot =>
      simp only [step, poll?, hslot, bind_assoc, pure_bind]
      apply hgives.bind
      rintro ⟨answer, s'⟩ first ⟨hquiet, h', hasked⟩
      exact gives_pure_iff.mpr ⟨hquiet.append Gate.quiet_nil, h', answer, rfl, hasked⟩

theorem poll_waiting_gives (h : s.Sound []) {token : String} {t : Ticket}
    (hslot : s.slots.get? slot = some (.waiting token t)) :
    (s.step (.poll slot)).Gives fun r events =>
      Quiet events ∧ r.2.gate.Sound ∧
        ∃ answer, r.1 = .answer answer ∧ s.AskedAgain slot token t answer r.2 := by
  simp only [step, poll?, hslot, bind_assoc, pure_bind]
  apply (askAgain_gives h.gate (h.accounts (alive_of_open hslot rfl)) hslot).bind
  rintro ⟨answer, s'⟩ first ⟨hquiet, h', hasked⟩
  exact gives_pure_iff.mpr ⟨hquiet.append Gate.quiet_nil, h', answer, rfl, hasked⟩

theorem enter_gives (h : s.Sound []) (hslot : s.slots.get? slot = none) (hkept : s.kept = true)
    (request : Request) :
    (s.step (.enter slot request)).Gives fun r events =>
      Quiet events ∧ r.2.gate.Sound ∧
        (r.1 = .answer (.entered s.nextId) ∧
            s.Asked slot "" (s.nextTicket request) (.entered s.nextId) r.2 ∨
          s.gate.active.contains request.flow = false ∧ s.gate.hasSpace = false ∧
            r = (.answer .refused, { s with nextId := s.nextId + 1 })) := by
  rw [step, withEmptySlot_eq hslot hkept]
  apply (Gate.enter?_gives h.gate (s.nextTicket request)).bind
  rintro (_ | g') first ⟨hquiet, hnone, hsome⟩
  · obtain ⟨rfl, hinactive, hfull⟩ := hnone rfl
    refine gives_pure_iff.mpr ⟨Gate.quiet_nil, h.gate, .inr ⟨?_, hfull, rfl⟩⟩
    exact Catalog.contains_eq_false_iff.mpr hinactive
  · obtain ⟨hroom, rfl, h'⟩ := hsome g' rfl
    exact gives_pure_iff.mpr ⟨hquiet.append Gate.quiet_nil, h', .inl ⟨rfl, .entered hroom⟩⟩

/-- What every step and every run comes to. -/
structure Proceeds (s : Session) (ended : Ticket → Prop) (s' : Session) (events : List Event) :
    Prop where
  quiet : Quiet events
  sound : s'.Sound []
  evolves : s.Evolves ended s'

theorem Proceeds.refl (h : s.Sound []) (ended : Ticket → Prop) : s.Proceeds ended s [] :=
  ⟨Gate.quiet_nil, h, .refl s⟩

/-- What every step comes to. -/
structure StepsTo (s : Session) (st : Step) (reply : Reply) (s' : Session) (events : List Event) :
    Prop extends s.Proceeds (s.Ends st) s' events where
  tells : s'.Tells reply
  fills : s.Fills reply s'

theorem StepsTo.refl (h : s.Sound []) {st : Step} {reply : Reply} (htells : s.Tells reply) :
    s.StepsTo st reply s [] :=
  ⟨.refl h _, htells, fills_of_slots_eq rfl⟩

theorem Answered.stepsTo {answer : Answer} (h : s.Answered slot answer s')
    (hsound : s'.gate.Sound) {events : List Event} (hquiet : Quiet events) (st : Step) :
    s.StepsTo st (.answer answer) s' events :=
  ⟨⟨hquiet, ⟨hsound, fun _ => h.accounts⟩, h.evolves.mono fun _ => False.elim⟩, h.tells, h.fills⟩

theorem step_wait_gives (h : s.Sound []) (slot token : String) (request : Request) :
    (s.step (.wait slot token request)).Gives fun r =>
      s.StepsTo (.wait slot token request) r.1 r.2 := by
  apply withEmptySlot_gives fun _ => .refl h trivial
  intro hslot hkept
  have halive : s.alive = true := alive_iff.mpr (.inl hkept)
  have haccounts := h.accounts halive
  apply (ask_gives h.gate haccounts).bind
  rintro ⟨answer, s'⟩ first ⟨hquiet, h', hasked⟩
  have hfree : (s.slots.get? slot).bind Slot.stake? = none := by rw [hslot, Option.bind_none]
  have hanswered := hasked.answered haccounts halive hfree
  exact gives_pure_iff.mpr (hanswered.stepsTo h' (hquiet.append Gate.quiet_nil) _)

theorem step_prepare_gives (h : s.Sound []) (slot token : String) (request : Request) :
    (s.step (.prepare slot token request)).Gives fun r =>
      s.StepsTo (.prepare slot token request) r.1 r.2 := by
  apply withEmptySlot_gives fun _ => .refl h trivial
  intro hslot hkept
  have halive : s.alive = true := alive_iff.mpr (.inl hkept)
  have hsplit := accounts_erase (h.accounts halive) slot
  rw [hslot] at hsplit
  refine gives_pure_iff.mpr
    ⟨⟨Gate.quiet_nil, ⟨h.gate, fun _ => accounts_putSlot rfl hsplit⟩, ?_⟩, trivial, ?_⟩
  · exact .of_gate_eq rfl s.nextId.le_refl fun _ => halive
  · exact fills_of_insert rfl trivial

theorem step_poll_gives (h : s.Sound []) (slot : String) :
    (s.step (.poll slot)).Gives fun r => s.StepsTo (.poll slot) r.1 r.2 := by
  apply (poll?_gives h slot).bind
  rintro (_ | ⟨answer, s'⟩) first ⟨hquiet, -, hsome⟩
  · refine gives_pure_iff.mpr ⟨⟨hquiet.append Gate.quiet_nil, h, .refl s⟩, trivial, ?_⟩
    exact fills_of_slots_eq rfl
  · obtain ⟨h', hpolled⟩ := hsome answer s' rfl
    exact gives_pure_iff.mpr ((hpolled.answered h).stepsTo h' (hquiet.append Gate.quiet_nil) _)

theorem openSlots_eq_nil (hgone : s.alive = false) : s.openSlots = [] := by
  rw [openSlots, List.map_eq_nil_iff, List.filter_eq_nil_iff]
  rintro ⟨slot, content⟩ hrow hopen
  have hget : s.slots.get? slot = some content := Catalog.mem_rows_iff.mp hrow
  rw [alive_of_open hget hopen] at hgone
  cases hgone

theorem step_pollAll_gives (h : s.Sound []) :
    (s.step .pollAll).Gives fun r => s.StepsTo .pollAll r.1 r.2 := by
  rw [step]
  cases halive : s.alive with
  | false =>
      rw [openSlots_eq_nil halive]
      exact gives_pure_iff.mpr (.refl h nofun)
  | true =>
      apply (pollEach_gives h.gate (h.accounts halive) s.openSlots).bind
      rintro ⟨answers, s'⟩ first ⟨hquiet, h', heach⟩
      refine gives_pure_iff.mpr ⟨⟨hquiet.append Gate.quiet_nil, ⟨h', fun _ => heach.accounts⟩, ?_⟩,
        heach.tells, heach.fills⟩
      exact heach.evolves.mono fun _ => False.elim

theorem step_enter_gives (h : s.Sound []) (slot : String) (request : Request) :
    (s.step (.enter slot request)).Gives fun r =>
      s.StepsTo (.enter slot request) r.1 r.2 := by
  apply withEmptySlot_gives fun _ => .refl h trivial
  intro hslot hkept
  have halive : s.alive = true := alive_iff.mpr (.inl hkept)
  have hfree : (s.slots.get? slot).bind Slot.stake? = none := by rw [hslot, Option.bind_none]
  have henter := enter_gives h hslot hkept request
  rw [step, withEmptySlot_eq hslot hkept] at henter
  refine henter.mono ?_
  rintro ⟨_, s'⟩ events ⟨hquiet, h', ⟨rfl, hasked⟩ | ⟨-, -, heq⟩⟩
  · exact (hasked.answered (h.accounts halive) halive hfree).stepsTo h' hquiet _
  · cases heq
    refine ⟨⟨hquiet, ⟨h', fun _ => (h.accounts halive).issue⟩, ?_⟩, trivial, ?_⟩
    · exact .of_gate_eq rfl s.nextId.le_succ fun _ => halive
    · exact fills_of_slots_eq rfl

theorem Leaves.tells {r : Reply × Session} (h : s.Leaves slot r) : r.2.Tells r.1 := by
  cases h <;> exact trivial

theorem Leaves.fills {r : Reply × Session} (h : s.Leaves slot r) : s.Fills r.1 r.2 := by
  cases h with
  | gone _ hslots => exact fills_of_erase hslots
  | strands => exact fills_of_insert rfl rfl
  | nobody => exact fills_of_slots_eq rfl

theorem step_done_gives (h : s.Sound []) (slot : String) :
    (s.step (.done slot)).Gives fun r => s.StepsTo (.done slot) r.1 r.2 := by
  apply withTicket_gives fun _ => .refl h trivial
  intro t hslot
  refine (release_gives h hslot).mono ?_
  rintro r events ⟨hquiet, h', hevolves, hleaves, -⟩
  refine ⟨⟨hquiet, h', hevolves.mono ?_⟩, hleaves.tells, hleaves.fills⟩
  rintro u ⟨rfl, hgrace⟩
  exact .done hslot hgrace

theorem step_forget_gives (h : s.Sound []) (slot : String) :
    (s.step (.forget slot)).Gives fun r => s.StepsTo (.forget slot) r.1 r.2 := by
  apply withTicket_gives fun _ => .refl h trivial
  intro t hslot
  cases halive : s.alive with
  | false =>
      refine gives_pure_iff.mpr ⟨⟨Gate.quiet_nil, ⟨h.gate, fun hgone => ?_⟩, ?_⟩, trivial, ?_⟩
      · rw [alive_of_alive_clearSlot hgone] at halive
        cases halive
      · exact s.evolves_clearSlot slot _
      · exact fills_of_erase rfl
  | true =>
      have hcustody := accounts_erase_of_get? (h.accounts halive) hslot
      have hadmits : s.gate.Admits t none :=
        (hcustody.admits_none_iff t).mpr (.inl List.mem_cons_self)
      simp only [if_true]
      apply (Gate.remove_gives_custody h.gate hcustody hadmits (hcustody.silent nofun)).bind
      rintro g' first ⟨hquiet, h', hcustody', hevolves⟩
      refine gives_pure_iff.mpr
        ⟨⟨hquiet.append Gate.quiet_nil, ⟨h', fun _ => hcustody'⟩, ?_⟩, trivial, fills_of_erase rfl⟩
      refine ⟨s.nextId.le_refl, hevolves.mono ?_, fun _ => halive, by simp [halive]⟩
      rintro u rfl
      exact .forget hslot

theorem step_drop_gives (h : s.Sound []) (slot : String) :
    (s.step (.drop slot)).Gives fun r => s.StepsTo (.drop slot) r.1 r.2 := by
  rw [step]
  cases hslot : s.slots.get? slot with
  | none => exact gives_pure_iff.mpr (.refl h trivial)
  | some content =>
      refine (leave_gives h hslot).mono ?_
      rintro r events ⟨hquiet, h', hevolves, hleaves, -⟩
      exact ⟨⟨hquiet, h', hevolves⟩, hleaves.tells, hleaves.fills⟩

theorem stepsTo_of_calls {g : Gate} (h : s.Sound []) (halive : s.alive = true) (hsound : g.Sound)
    (hcalls : s.gate.Calls g) {events : List Event} (hquiet : Quiet events) (st : Step) :
    s.StepsTo st .done { s with gate := g } events := by
  refine ⟨⟨hquiet, ⟨hsound, fun _ => (h.accounts halive).calls hcalls⟩, ?_⟩, trivial, ?_⟩
  · exact ⟨s.nextId.le_refl, hcalls.evolves, fun _ => halive, by simp [halive]⟩
  · exact fills_of_slots_eq rfl

theorem step_setCapacity_gives (h : s.Sound []) (capacity : Nat) :
    (s.step (.setCapacity capacity)).Gives fun r =>
      s.StepsTo (.setCapacity capacity) r.1 r.2 := by
  apply withGate_gives fun _ => .refl h trivial
  intro hkept
  apply (Gate.setCapacity_gives h.gate capacity).bind
  rintro g first ⟨hquiet, h', hcalls⟩
  exact gives_pure_iff.mpr
    (stepsTo_of_calls h (alive_iff.mpr (.inl hkept)) h' hcalls (hquiet.append Gate.quiet_nil) _)

theorem step_liftCapacity_gives (h : s.Sound []) :
    (s.step .liftCapacity).Gives fun r => s.StepsTo .liftCapacity r.1 r.2 := by
  apply withGate_gives fun _ => .refl h trivial
  intro hkept
  apply (Gate.liftCapacity_gives h.gate).bind
  rintro g first ⟨hquiet, h', hcalls⟩
  exact gives_pure_iff.mpr
    (stepsTo_of_calls h (alive_iff.mpr (.inl hkept)) h' hcalls (hquiet.append Gate.quiet_nil) _)

theorem step_dropGate_gives (h : s.Sound []) :
    (s.step .dropGate).Gives fun r => s.StepsTo .dropGate r.1 r.2 := by
  have halive : alive { s with kept := false } = true → s.alive = true := by
    intro halive
    rcases alive_iff.mp halive with hkept | hopen
    · cases hkept
    · exact alive_iff.mpr (.inr hopen)
  refine gives_pure_iff.mpr
    ⟨⟨Gate.quiet_nil, ⟨h.gate, fun hkeep => h.accounts (halive hkeep)⟩, ?_⟩, trivial, ?_⟩
  · exact .of_gate_eq rfl s.nextId.le_refl halive
  · exact fills_of_slots_eq rfl

theorem step_gives (h : s.Sound []) (st : Step) :
    (s.step st).Gives fun r => s.StepsTo st r.1 r.2 := by
  cases st with
  | wait slot token request => exact step_wait_gives h slot token request
  | prepare slot token request => exact step_prepare_gives h slot token request
  | poll slot => exact step_poll_gives h slot
  | pollAll => exact step_pollAll_gives h
  | enter slot request => exact step_enter_gives h slot request
  | done slot => exact step_done_gives h slot
  | forget slot => exact step_forget_gives h slot
  | drop slot => exact step_drop_gives h slot
  | info slot =>
      apply withTicket_gives fun _ => .refl h trivial
      intro t hslot
      exact gives_pure_iff.mpr (.refl h trivial)
  | cancel token =>
      refine gives_pure_iff.mpr ⟨⟨Gate.quiet_nil, ⟨h.gate, h.accounts⟩, ?_⟩, trivial, ?_⟩
      · exact .of_gate_eq rfl s.nextId.le_refl id
      · exact fills_of_slots_eq rfl
  | advance nanos =>
      apply (advance_gives h nanos).bind
      rintro s' first ⟨hquiet, h', hevolves, hslots, -⟩
      exact gives_pure_iff.mpr
        ⟨⟨hquiet.append Gate.quiet_nil, h', hevolves⟩, trivial, fills_of_slots_eq hslots⟩
  | setCapacity capacity => exact step_setCapacity_gives h capacity
  | liftCapacity => exact step_liftCapacity_gives h
  | status =>
      exact withGate_gives (fun _ => .refl h trivial) fun _ => gives_pure_iff.mpr (.refl h trivial)
  | statusText =>
      exact withGate_gives (fun _ => .refl h trivial) fun _ => gives_pure_iff.mpr (.refl h trivial)
  | shutdown ranks =>
      apply (shutdown_gives h ranks).bind
      rintro s' first ⟨hquiet, h', hevolves, hslots⟩
      exact gives_pure_iff.mpr
        ⟨⟨hquiet.append Gate.quiet_nil, h', hevolves⟩, trivial, fills_of_slots_eq hslots⟩
  | dropGate => exact step_dropGate_gives h

end FlowGate.Session
