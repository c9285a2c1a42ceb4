import FlowGate.Proofs.GateMoves
import FlowGate.Proofs.SessionRuns

namespace FlowGate

/-- Whether a step can put somebody into a slot. -/
def Step.comesTo (slot : String) : Step → Bool
  | .wait name _ _ => name = slot
  | .prepare name _ _ => name = slot
  | .enter name _ => name = slot
  | _ => false

/--
Whether a step keeps clear of a slot and of a name: it puts nobody into the slot, does not use the name, and
does not let go of the gate.
-/
def Step.spares (slot own : String) : Step → Bool
  | .wait name token _ => name ≠ slot ∧ token ≠ own
  | .prepare name token _ => name ≠ slot ∧ token ≠ own
  | .enter name _ => name ≠ slot
  | .cancel token => token ≠ own
  | .dropGate => false
  | _ => true

theorem Step.comesTo_of_spares {slot own : String} {st : Step} (h : st.spares slot own = true) :
    st.comesTo slot = false := by
  cases st with
  | wait name token request => exact decide_eq_false (of_decide_eq_true h).1
  | prepare name token request => exact decide_eq_false (of_decide_eq_true h).1
  | enter name request => exact decide_eq_false (of_decide_eq_true h)
  | _ => rfl

/-- What a slot holds, and what it can hold later. -/
inductive Slot.Course : Option Slot → Option Slot → Prop where
  | stays (content : Option Slot) : Course content content
  | asks (token : String) (request : Request) (t : Ticket) :
      Course (some (.prepared token request)) (some (.waiting token t))
  | entersAtOnce (token : String) (request : Request) (t : Ticket) :
      Course (some (.prepared token request)) (some (.holding t))
  | enters (token : String) (t : Ticket) : Course (some (.waiting token t)) (some (.holding t))
  | strands {content : Slot} (t : Ticket) (h : ∀ u, content ≠ .stranded u) :
      Course (some content) (some (.stranded t))
  | goes {content : Option Slot} (h : ∀ u, content ≠ some (.stranded u)) : Course content none

namespace Slot.Course

variable {a b c : Option Slot} {token : String} {t : Ticket}

theorem eq_none (h : Course none c) : c = none := by
  cases h <;> rfl

/-- A slot whose holder is lost stays as it is. -/
theorem eq_of_stranded (h : Course (some (.stranded t)) c) : c = some (.stranded t) := by
  cases h with
  | stays => rfl
  | strands _ hnot => exact absurd rfl (hnot t)
  | goes hnot => exact absurd rfl (hnot t)

theorem trans (h : Course a b) (h' : Course b c) : Course a c := by
  cases h' with
  | stays => exact h
  | goes hnot =>
      refine .goes ?_
      rintro u rfl
      exact hnot u h.eq_of_stranded
  | strands t hnot =>
      cases a with
      | none => cases h.eq_none
      | some first =>
          refine .strands t ?_
          rintro u rfl
          exact hnot u (Option.some.inj h.eq_of_stranded)
  | asks token request t =>
      cases h
      exact .asks token request t
  | entersAtOnce token request t =>
      cases h
      exact .entersAtOnce token request t
  | enters token t =>
      cases h with
      | stays => exact .enters token t
      | asks _ request => exact .entersAtOnce token request t

theorem of_waiting (h : Course a (some (.waiting token t))) :
    a = some (.waiting token t) ∨ ∃ request, a = some (.prepared token request) := by
  cases h with
  | stays => exact .inl rfl
  | asks _ request => exact .inr ⟨request, rfl⟩

end Slot.Course

namespace Session

open Slot (Course)
open Logged (Gives Yields gives_pure_iff yields_self yields_pure)

variable {s s' : Session} {slot own name : String} {answer : Answer}

theorem course_of_get?_eq (h : s'.slots.get? slot = s.slots.get? slot) :
    Course (s.slots.get? slot) (s'.slots.get? slot) := by
  rw [h]
  exact .stays _

theorem course_of_slots_eq (h : s'.slots = s.slots) :
    Course (s.slots.get? slot) (s'.slots.get? slot) :=
  course_of_get?_eq (by rw [h])

theorem course_of_erase (h : s'.slots = s.slots.erase name)
    (hname : ∀ t, s.slots.get? name ≠ some (.stranded t)) :
    Course (s.slots.get? slot) (s'.slots.get? slot) := by
  rcases Classical.em (slot = name) with rfl | hne
  · rw [h, Catalog.get?_erase_self]
    exact .goes hname
  · apply course_of_get?_eq
    rw [h, Catalog.get?_erase_of_ne _ hne]

theorem Leaves.course {r : Reply × Session} (h : s.Leaves name r) :
    Course (s.slots.get? slot) (r.2.slots.get? slot) := by
  cases h with
  | gone hname hslots => exact course_of_erase hslots hname
  | strands hslot =>
      rcases Classical.em (slot = name) with rfl | hne
      · rw [hslot, putSlot, Catalog.get?_insert_self]
        exact .strands _ (by simp)
      · exact course_of_get?_eq (Catalog.get?_insert_of_ne _ _ hne)
  | nobody => exact .stays _

theorem Polled.course (h : s.Polled name answer s') (hsound : s.Sound []) :
    Course (s.slots.get? slot) (s'.slots.get? slot) := by
  rcases Classical.em (slot = name) with rfl | hne
  · cases h with
    | first hslot hasked =>
        rw [hslot]
        cases hasked with
        | entered => simpa [putSlot] using .entersAtOnce ..
        | refused => simpa [clearSlot] using .goes (by simp)
        | pending => simpa [putSlot] using .asks ..
    | again hslot hasked =>
        rw [hslot]
        cases hasked with
        | entered => simpa [putSlot] using .enters ..
        | pending => simpa [hslot] using .stays _
        | refused => simpa [clearSlot] using .goes (by simp)
  · exact course_of_get?_eq ((h.answered hsound).others slot hne)

theorem step_poll_course (h : s.Sound []) (name : String) :
    (s.step (.poll name)).Gives fun r _ => Course (s.slots.get? slot) (r.2.slots.get? slot) := by
  apply (poll?_gives h name).bind
  rintro (_ | ⟨answer, s'⟩) first ⟨-, -, hsome⟩
  · exact gives_pure_iff.mpr (.stays _)
  · exact gives_pure_iff.mpr ((hsome answer s' rfl).2.course h)

theorem run_course_of_steps {steps : List Step}
    (hsteps : ∀ st ∈ steps, ∀ {s : Session}, s.Sound [] →
      (s.step st).Yields fun r _ => Course (s.slots.get? slot) (r.2.slots.get? slot))
    (h : s.Sound []) :
    (s.run steps).Yields fun r _ => Course (s.slots.get? slot) (r.2.slots.get? slot) := by
  induction steps generalizing s with
  | nil => exact yields_pure (.stays _)
  | cons st steps ih =>
      obtain ⟨hfirst, hrest⟩ := List.forall_mem_cons.mp hsteps
      intro r events hok
      obtain ⟨_, past, _, replies, _, hstep, hrun, -⟩ := run_cons_eq_ok hok
      have hsound : past.Sound [] := ((step_gives h st).of_eq_ok hstep).sound
      exact (hfirst h _ _ hstep).trans (ih hrest hsound (replies, r.2) _ hrun)

theorem step_course (h : s.Sound []) {st : Step}
    (hslot : st.comesTo slot = false ∨ s.slots.get? slot ≠ none) :
    (s.step st).Yields fun r _ => Course (s.slots.get? slot) (r.2.slots.get? slot) := by
  have hfree : ∀ {name}, decide (name = slot) = false ∨ s.slots.get? slot ≠ none →
      s.slots.get? name = none → slot ≠ name := by
    rintro name (hname | hbusy) hempty rfl
    · exact of_decide_eq_false hname rfl
    · exact hbusy hempty
  have hasked : ∀ {name token request answer s'}, slot ≠ name → s.slots.get? name = none →
      s.kept = true → s.Asked name token (s.nextTicket request) answer s' →
        Course (s.slots.get? slot) (s'.slots.get? slot) := by
    intro name token request answer s' hname hempty hkept hasked
    have halive : s.alive = true := alive_iff.mpr (.inl hkept)
    have hanswered := hasked.answered (h.accounts halive) halive (by rw [hempty, Option.bind_none])
    exact course_of_get?_eq (hanswered.others slot hname)
  cases st with
  | wait name token request =>
      apply Gives.yields
      apply withEmptySlot_gives fun _ => .stays _
      intro hempty hkept
      apply (ask_gives h.gate (h.accounts (alive_iff.mpr (.inl hkept)))).bind
      rintro ⟨answer, s'⟩ first ⟨-, -, hasks⟩
      exact gives_pure_iff.mpr (hasked (hfree hslot hempty) hempty hkept hasks)
  | prepare name token request =>
      apply Gives.yields
      apply withEmptySlot_gives fun _ => .stays _
      intro hempty hkept
      exact gives_pure_iff.mpr
        (course_of_get?_eq (Catalog.get?_insert_of_ne _ _ (hfree hslot hempty)))
  | poll name => exact (step_poll_course h name).yields
  | pollAll =>
      refine ((pollAll_eq_run h).mono ?_).yields
      rintro r events ⟨answers, -, -, hrun⟩
      refine run_course_of_steps (fun st hst => ?_) h _ _ hrun
      obtain ⟨name, -, rfl⟩ := List.mem_map.mp hst
      exact fun hsound => (step_poll_course hsound name).yields
  | enter name request =>
      apply Gives.yields
      apply withEmptySlot_gives fun _ => .stays _
      intro hempty hkept
      have henter := enter_gives h hempty hkept request
      rw [step, withEmptySlot_eq hempty hkept] at henter
      refine henter.mono ?_
      rintro ⟨_, s'⟩ events ⟨-, -, ⟨-, hasks⟩ | ⟨-, -, ⟨rfl, rfl⟩⟩⟩
      · exact hasked (hfree hslot hempty) hempty hkept hasks
      · exact .stays _
  | done name =>
      apply Gives.yields
      apply withTicket_gives fun _ => .stays _
      intro t hslot
      refine (release_gives h hslot).mono ?_
      rintro r events ⟨-, -, -, hleaves, -⟩
      exact hleaves.course
  | forget name =>
      rw [step, withTicket]
      split
      · exact yields_pure (.stays _)
      · rename_i t hheld
        have hname : ∀ u, s.slots.get? name ≠ some (.stranded u) := by simp [get?_of_held? hheld]
        dsimp only
        split
        · exact (yields_self _).bind fun g _ _ => yields_pure (course_of_erase rfl hname)
        · exact yields_pure (course_of_erase rfl hname)
  | drop name =>
      rw [step]
      split
      · exact yields_pure (.stays _)
      · rename_i content hslot
        refine ((leave_gives h hslot).mono ?_).yields
        rintro r events ⟨-, -, -, hleaves, -⟩
        exact hleaves.course
  | info name => exact withTicket_yields (fun t => yields_pure (.stays _)) fun _ => .stays _
  | cancel token => exact yields_pure (.stays _)
  | advance nanos =>
      apply Gives.yields
      apply (advance_gives h nanos).bind
      rintro s' first ⟨-, -, -, hslots, -⟩
      exact gives_pure_iff.mpr (course_of_slots_eq hslots)
  | setCapacity capacity =>
      exact withGate_yields ((yields_self _).bind fun g _ _ => yields_pure (.stays _))
        fun _ => .stays _
  | liftCapacity =>
      exact withGate_yields ((yields_self _).bind fun g _ _ => yields_pure (.stays _))
        fun _ => .stays _
  | status => exact withGate_yields (yields_pure (.stays _)) fun _ => .stays _
  | statusText => exact withGate_yields (yields_pure (.stays _)) fun _ => .stays _
  | shutdown ranks =>
      apply Gives.yields
      apply (shutdown_gives h ranks).bind
      rintro s' first ⟨-, -, -, hslots⟩
      exact gives_pure_iff.mpr (course_of_slots_eq hslots)
  | dropGate => exact yields_pure (.stays _)

theorem run_course (h : s.Sound []) {steps : List Step}
    (hspares : ∀ st ∈ steps, st.spares slot own = true) :
    (s.run steps).Yields fun r _ => Course (s.slots.get? slot) (r.2.slots.get? slot) :=
  run_course_of_steps
    (fun st hst _ hsound => step_course hsound (.inl (Step.comesTo_of_spares (hspares st hst)))) h

end Session

end FlowGate
