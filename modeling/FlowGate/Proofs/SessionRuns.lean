import FlowGate.Proofs.SessionSteps

namespace FlowGate.Session

open Gate (Quiet)
open Logged (Gives gives_pure_iff)

variable {s s' : Session} {slot name : String}

theorem run_proceeds (h : s.Sound []) (steps : List Step) :
    (s.run steps).Gives fun r => s.Proceeds (fun _ => True) r.2 := by
  induction steps generalizing s with
  | nil => exact gives_pure_iff.mpr (.refl h _)
  | cons first rest ih =>
      rw [run]
      apply (step_gives h first).bind
      rintro ⟨reply, s'⟩ events hstep
      apply (ih hstep.sound).bind
      rintro ⟨replies, s''⟩ later hrun
      refine gives_pure_iff.mpr ⟨?_, hrun.sound, ?_⟩
      · simpa using hstep.quiet.append hrun.quiet
      · exact (hstep.evolves.trans hrun.evolves).mono fun _ _ => trivial

theorem run_cons_eq_ok {st : Step} {steps : List Step} {r : List Reply × Session}
    {events : List Event} (hok : s.run (st :: steps) = .ok r events) :
    ∃ reply past first replies later, s.step st = .ok (reply, past) first ∧
      past.run steps = .ok (replies, r.2) later ∧ r.1 = reply :: replies := by
  rw [run] at hok
  obtain ⟨⟨reply, past⟩, first, _, hfirst, hrest, -⟩ := Logged.bind_eq_ok_iff.mp hok
  obtain ⟨⟨replies, s'⟩, later, _, hlater, hpure, -⟩ := Logged.bind_eq_ok_iff.mp hrest
  cases hpure
  exact ⟨reply, past, first, replies, later, hfirst, hlater, rfl⟩

theorem run_cons_of_eq_ok {st : Step} {steps : List Step} {r : Reply × Session}
    {more : List Reply × Session} {first later : List Event} (hstep : s.step st = .ok r first)
    (hrest : r.2.run steps = .ok more later) :
    s.run (st :: steps) = .ok (r.1 :: more.1, more.2) (first ++ later) := by
  simp [run, hstep, hrest, Logged.bind_eq, Logged.bind, Logged.pure_eq]

theorem run_append (s : Session) (first rest : List Step) :
    s.run (first ++ rest) = do
      let (replies, s) ← s.run first
      let (more, s) ← s.run rest
      return (replies ++ more, s) := by
  induction first generalizing s with
  | nil => simp [run]
  | cons st first ih => simp [run, ih]

theorem run_append_eq_ok {first rest : List Step} {r : List Reply × Session} {events : List Event}
    (hok : s.run (first ++ rest) = .ok r events) :
    ∃ past earlier replies later, s.run first = .ok past earlier ∧
      past.2.run rest = .ok (replies, r.2) later := by
  rw [run_append] at hok
  obtain ⟨past, earlier, _, hfirst, hrest, -⟩ := Logged.bind_eq_ok_iff.mp hok
  obtain ⟨⟨replies, s'⟩, later, _, hlater, hpure, -⟩ := Logged.bind_eq_ok_iff.mp hrest
  cases hpure
  exact ⟨past, earlier, replies, later, hfirst, hlater⟩

theorem run_append_of_eq_ok {first rest : List Step} {past more : List Reply × Session}
    {earlier later : List Event} (hfirst : s.run first = .ok past earlier)
    (hrest : past.2.run rest = .ok more later) :
    s.run (first ++ rest) = .ok (past.1 ++ more.1, more.2) (earlier ++ later) := by
  simp [run_append, hfirst, hrest, Logged.bind_eq, Logged.bind, Logged.pure_eq]

/-- Steps succeed, and lead to a session of which a condition holds. -/
def After (s : Session) (steps : List Step) (P : Session → Prop) : Prop :=
  (s.run steps).Gives fun r _ => P r.2

section After

variable {st : Step} {first rest steps : List Step} {P Q : Session → Prop}

theorem after_nil (h : P s) : s.After [] P := gives_pure_iff.mpr h

theorem After.of_run_eq_ok (h : s.After steps P) {r : List Reply × Session} {events : List Event}
    (hok : s.run steps = .ok r events) : P r.2 :=
  h.of_eq_ok hok

theorem After.cons {reply : Reply} {events : List Event}
    (hstep : s.step st = .ok (reply, s') events) (hrest : s'.After steps P) :
    s.After (st :: steps) P := by
  have hfirst : (s.step st).Gives fun r _ => r = (reply, s') := ⟨_, events, hstep, rfl⟩
  rw [After, run]
  apply hfirst.bind
  rintro _ _ rfl
  apply hrest.bind
  intro r later hr
  exact gives_pure_iff.mpr hr

theorem after_single (h : (s.step st).Gives fun r _ => P r.2) : s.After [st] P := by
  obtain ⟨⟨reply, s'⟩, events, hok, hP⟩ := h
  exact .cons hok (after_nil hP)

theorem After.of_cons {reply : Reply} {events : List Event} (h : s.After (st :: steps) P)
    (hstep : s.step st = .ok (reply, s') events) : s'.After steps P := by
  obtain ⟨r, _, hrun, hP⟩ := h
  obtain ⟨_, _, _, replies, later, hstep', hrest, -⟩ := run_cons_eq_ok hrun
  rw [hstep] at hstep'
  cases hstep'
  exact ⟨(replies, r.2), later, hrest, hP⟩

theorem After.split (h : s.After (first ++ rest) P) :
    s.After first fun past => past.After rest P := by
  obtain ⟨r, _, hrun, hP⟩ := h
  obtain ⟨past, earlier, replies, later, hfirst, hrest⟩ := run_append_eq_ok hrun
  exact ⟨past, earlier, hfirst, (replies, r.2), later, hrest, hP⟩

theorem After.append (h : s.After first fun past => past.After rest P) :
    s.After (first ++ rest) P := by
  rw [After, run_append]
  apply h.bind
  intro r events hr
  apply hr.bind
  intro r' later hr'
  exact gives_pure_iff.mpr hr'

end After

theorem sound_new (settings : Settings) (clock : Clock) (timer : Bool) :
    (new settings clock timer).Sound [] := by
  have hnone : ∀ t e, ¬(Gate.new settings.capacity).Admits t e := by
    intro t e
    simp [Gate.Admits, Gate.admission?, Gate.new]
  have hsilent : ∀ id, (Gate.new settings.capacity).called.contains id = false := by
    intro id
    rfl
  have hnobody : ∀ t, ¬(Gate.new settings.capacity).Waits t := by
    intro t
    simp [Gate.Waits, Gate.new, WaitList.empty]
  refine ⟨Gate.sound_new settings.capacity, fun _ => ⟨List.nodup_nil, ?_, ?_, ?_, ?_, ?_⟩⟩
  · intro stake hstake
    cases hstake
  · intro t
    exact iff_of_false (hnobody t) fun howned => List.not_mem_nil howned.1
  · intro t
    apply iff_of_false (hnone t none)
    rintro (hheld | ⟨hawaited, -⟩)
    · exact List.not_mem_nil hheld
    · exact List.not_mem_nil hawaited
  · intro t e
    exact iff_of_false (hnone t (some e)) List.not_mem_nil
  · intro id hcalled
    exact absurd hcalled (Bool.eq_false_iff.mp (hsilent id))

theorem pollEach_eq_run (h : s.gate.Sound) (haccounts : s.Accounts []) {slots : List String}
    (hnodup : slots.Nodup)
    (hopen : ∀ slot ∈ slots, ∃ content, s.slots.get? slot = some content ∧
      content.isOpen = true) :
    (s.pollEach slots).Gives fun r events =>
      r.1.map (·.1) = slots ∧
        s.run (slots.map .poll) = .ok (r.1.map fun row => .answer row.2, r.2) events := by
  induction slots generalizing s with
  | nil => exact gives_pure_iff.mpr ⟨rfl, rfl⟩
  | cons slot slots ih =>
      have hsound : s.Sound [] := ⟨h, fun _ => haccounts⟩
      obtain ⟨hnot, hrest⟩ := List.nodup_cons.mp hnodup
      obtain ⟨r, first, hpoll, -, hnone, hsome⟩ := poll?_gives hsound slot
      obtain ⟨content, hslot, hcontent⟩ := hopen slot List.mem_cons_self
      cases r with
      | none =>
          rw [hnone rfl content hslot] at hcontent
          cases hcontent
      | some r =>
          obtain ⟨answer, s'⟩ := r
          obtain ⟨h', hpolled⟩ := hsome answer s' rfl
          have hanswered := hpolled.answered hsound
          have hopen' : ∀ other ∈ slots, ∃ content, s'.slots.get? other = some content ∧
              content.isOpen = true := by
            intro other hmem
            have hne : other ≠ slot := fun heq => hnot (heq ▸ hmem)
            rw [hanswered.others other hne]
            exact hopen other (List.mem_cons_of_mem slot hmem)
          obtain ⟨⟨answers, s''⟩, later, heach, rfl, hrun⟩ :=
            ih h' hanswered.accounts hrest hopen'
          have hstep : s.step (.poll slot) = .ok (.answer answer, s') first := by
            simp [step, hpoll, Logged.bind_eq, Logged.bind, Logged.pure_eq]
          refine ⟨((slot, answer) :: answers, s''), first ++ later, ?_, rfl, ?_⟩
          · simp [pollEach, hpoll, heach, Logged.bind_eq, Logged.bind, Logged.pure_eq]
          · rw [List.map_cons, run, hstep]
            simp only [hrun, Logged.bind_eq, Logged.bind, Logged.pure_eq, List.append_nil]
            rfl

theorem openSlots_nodup (s : Session) : s.openSlots.Nodup :=
  s.slots.keys_nodup.sublist (List.filter_sublist.map _)

theorem open_of_mem_openSlots (hmem : slot ∈ s.openSlots) :
    ∃ content, s.slots.get? slot = some content ∧ content.isOpen = true := by
  obtain ⟨⟨_, content⟩, hrow, rfl⟩ := List.mem_map.mp hmem
  obtain ⟨hrow, hopen⟩ := List.mem_filter.mp hrow
  exact ⟨content, Catalog.mem_rows_iff.mp hrow, hopen⟩

theorem mem_openSlots_iff :
    name ∈ s.openSlots ↔ ∃ content, s.slots.get? name = some content ∧ content.isOpen = true := by
  refine ⟨open_of_mem_openSlots, ?_⟩
  rintro ⟨content, hget, hopen⟩
  exact List.mem_map_of_mem (List.mem_filter.mpr ⟨Catalog.mem_rows_iff.mpr hget, hopen⟩)

theorem openSlots_ascending (s : Session) :
    s.openSlots.Pairwise fun a b => compare a b = .lt :=
  (s.slots.ascending.filter _).map _ fun _ _ hlt => hlt

theorem openSlots_eq_iff {names : List String}
    (hascending : names.Pairwise fun a b => compare a b = .lt) :
    s.openSlots = names ↔ ∀ name, name ∈ names ↔ name ∈ s.openSlots := by
  constructor
  · rintro rfl name
    rfl
  · intro hmem
    exact Catalog.eq_of_ascending s.openSlots_ascending hascending fun name => (hmem name).symm

theorem not_mem_openSlots (hnone : s.slots.get? slot = none) : slot ∉ s.openSlots := by
  intro hmem
  obtain ⟨content, hget, -⟩ := open_of_mem_openSlots hmem
  rw [hnone] at hget
  cases hget

theorem openSlots_split (hmem : slot ∈ s.openSlots) :
    ∃ first rest, s.openSlots = first ++ slot :: rest ∧ slot ∉ first ∧ slot ∉ rest := by
  obtain ⟨first, rest, hsplit⟩ := List.append_of_mem hmem
  have hnodup := s.openSlots_nodup
  rw [hsplit, List.nodup_middle, List.nodup_cons, List.mem_append, not_or] at hnodup
  exact ⟨first, rest, hsplit, hnodup.1⟩

/-- To have every caller ask is to poll the open slots in the order of their names. -/
theorem pollAll_eq_run (h : s.Sound []) :
    (s.step .pollAll).Gives fun r events =>
      ∃ answers : List (String × Answer), r.1 = .answers answers ∧
        answers.map (·.1) = s.openSlots ∧
          s.run (s.openSlots.map .poll) = .ok (answers.map fun row => .answer row.2, r.2)
            events := by
  rw [step]
  cases halive : s.alive with
  | false =>
      rw [openSlots_eq_nil halive]
      exact gives_pure_iff.mpr ⟨[], rfl, rfl, rfl⟩
  | true =>
      have heach := pollEach_eq_run h.gate (h.accounts halive) s.openSlots_nodup
        fun _ => open_of_mem_openSlots
      apply heach.bind
      rintro ⟨answers, s'⟩ first ⟨hslots, hrun⟩
      refine gives_pure_iff.mpr ⟨answers, rfl, hslots, ?_⟩
      rw [List.append_nil]
      exact hrun

end FlowGate.Session
