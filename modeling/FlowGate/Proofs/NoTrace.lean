import FlowGate.Proofs.ParallelSessions

namespace FlowGate

/-- How a caller comes to a slot: it asks at once, or later. -/
def Step.arrival (asks : Bool) (slot token : String) (request : Request) : Step :=
  if asks then .wait slot token request else .prepare slot token request

/-- The steps that remain when the caller in a slot neither asks again nor goes away after it has asked. -/
def mute (slot : String) : Bool → List Step → List Step
  | _, [] => []
  | asked, st :: rest =>
    if asked && st.isOf slot then mute slot asked rest
    else st :: mute slot (asked || st.asks slot) rest

theorem mute_append (slot : String) (asked : Bool) (first rest : List Step) :
    mute slot asked (first ++ rest) =
      mute slot asked first ++ mute slot (asked || first.any (·.asks slot)) rest := by
  induction first generalizing asked with
  | nil => simp [mute]
  | cons st first ih =>
      rw [List.cons_append, mute, mute, List.any_cons]
      split
      · rename_i hmuted
        obtain ⟨rfl, -⟩ := Bool.and_eq_true_iff.mp hmuted
        simp [ih]
      · simp [ih, Bool.or_assoc]

namespace Session

open Logged (Gives gives_pure_iff)

variable {slot own token : String} {asked asks : Bool} {s s' : Session} {request : Request}
  {st last : Step} {steps during later : List Step} {r : Reply × Session} {events : List Event}

/-- What two sessions have in common if they differ at most by a caller who waits in one of them. -/
structure SameBut (slot : String) (s s' : Session) : Prop where
  /-- The capacity, the active tickets and the calls are the same. -/
  gates : s'.gate = { s.gate with waiting := s'.gate.waiting }
  others : ∀ name, name ≠ slot → s'.slots.get? name = s.slots.get? name
  /-- So are the clock, the numbers given out and the grace periods. -/
  rest : s' = { s with gate := s'.gate, slots := s'.slots, cancelled := s'.cancelled }
  unqueued : ∀ token t, s'.slots.get? slot ≠ some (.waiting token t)
  queued : ∀ token t, s.slots.get? slot = some (.waiting token t) →
    s'.gate.waiting.tickets = s.gate.waiting.tickets.erase t.id
  gate_eq : (∀ token t, s.slots.get? slot ≠ some (.waiting token t)) → s'.gate = s.gate

theorem Alike.rest_eq {x : Option Ticket} (h : s.Alike slot own x s') :
    s' = { s with gate := s'.gate, slots := s'.slots, cancelled := s'.cancelled } := by
  obtain ⟨g', slots', rfl⟩ := h.exists_eq
  rfl

theorem Parallel.sameBut (h : Parallel slot own asked s s') (hagree : s.gate.waiting.Agree) :
    s.SameBut slot s' := by
  cases h with
  | ready h hhere hthere =>
      exact ⟨h.gate.rest, h.others, h.rest_eq, by simp [hthere], by simp [hhere],
        fun _ => h.gate.eq hagree⟩
  | queued h hhere hwaits hthere =>
      refine ⟨h.gate.rest, h.others, h.rest_eq, by simp [hthere], ?_, ?_⟩
      · rw [hhere]
        rintro _ _ ⟨rfl, rfl⟩
        exact (WaitList.lacks_some_iff hagree h.gate.waiting.agree hwaits).mp h.gate.waiting
      · exact fun hnone => absurd hhere (hnone _ _)
  | gone h hhere hthere =>
      exact ⟨h.gate.rest, h.others, h.rest_eq, by simp [hthere], by simp [hhere],
        fun _ => h.gate.eq hagree⟩

theorem Parallel.run (h : Parallel slot own asked s s') (hsound : s.Sound [])
    (hspares : ∀ st ∈ steps, st.spares slot own = true)
    (hunserved : ∀ first rest, steps = first ++ rest → s.After first (Unserved slot))
    {r : List Reply × Session} (hok : s.run steps = .ok r events) :
    s'.After (mute slot asked steps) fun past' => ∃ asked', Parallel slot own asked' r.2 past' := by
  induction steps generalizing s s' asked r events with
  | nil =>
      cases hok
      exact after_nil ⟨asked, h⟩
  | cons st steps ih =>
      obtain ⟨hspare, hspares⟩ := List.forall_mem_cons.mp hspares
      obtain ⟨reply, past, first, replies, later, hstep, hrun, -⟩ := run_cons_eq_ok hok
      have hsound' : past.Sound [] := ((step_gives hsound st).of_eq_ok hstep).sound
      have hpast : past.Unserved slot :=
        ((hunserved [st] steps rfl).of_cons hstep).of_run_eq_ok rfl
      have hunserved' : ∀ first rest, steps = first ++ rest → past.After first (Unserved slot) := by
        rintro first rest rfl
        exact (hunserved (st :: first) rest rfl).of_cons hstep
      rw [mute]
      split
      · rename_i hmuted
        obtain ⟨rfl, hown⟩ := Bool.and_eq_true_iff.mp hmuted
        exact ih (r := (replies, r.2)) (h.step_own hsound hown hstep) hsound' hspares hunserved' hrun
      · rename_i hkept
        have hnext : (s'.step st).Gives fun r' _ =>
            Parallel slot own (asked || st.asks slot) past r'.2 := by
          cases hown : st.isOf slot with
          | false =>
              refine (h.step hsound hspare hown hstep hpast).mono ?_
              exact fun r' _ hboth => hboth.1
          | true =>
              obtain rfl : asked = false := by simpa [hown] using hkept
              exact h.step_first hsound hown hstep hpast
        obtain ⟨⟨reply', past'⟩, _, hstep', hparallel⟩ := hnext
        exact .cons hstep' (ih (r := (replies, r.2)) hparallel hsound' hspares hunserved' hrun)

theorem Alike.arrives (h : s.Alike slot own none s') (hsound : s.Sound [])
    (hhere : s.slots.get? slot = none) (hthere : s'.slots.get? slot = none) (htoken : token ≠ own)
    (hok : s.step (.arrival asks slot token request) = .ok r events)
    (hunserved : r.2.Unserved slot) :
    (s'.step (.arrival asks slot own request)).Gives fun r' _ =>
      Parallel slot own asks r.2 r'.2 := by
  cases asks with
  | true =>
      rw [Step.arrival, if_pos rfl, Session.step, withEmptySlot_eq hhere h.kept] at hok
      rw [Step.arrival, if_pos rfl, Session.step, withEmptySlot_eq hthere h.kept']
      obtain ⟨r, hask, rfl⟩ := Logged.bind_pure_eq_ok hok
      apply (h.ask_own hsound.gate (hsound.accounts (alive_of_kept h.kept)) htoken hask
        hunserved.holds).bind
      rintro ⟨_, b⟩ _ ⟨rfl, hparallel⟩
      exact gives_pure_iff.mpr hparallel
  | false =>
      rw [Step.arrival, if_neg Bool.false_ne_true, Session.step, withEmptySlot_eq hhere h.kept] at hok
      rw [Step.arrival, if_neg Bool.false_ne_true, Session.step, withEmptySlot_eq hthere h.kept']
      cases hok
      refine gives_pure_iff.mpr (.ready (h.reseat h.gate ?_ ?_ ?_ ?_) (Catalog.get?_insert_self ..)
        (Catalog.get?_insert_self ..))
      · rintro _ ⟨⟩
      · intro content hget
        rw [Catalog.get?_insert_self] at hget
        cases hget
        simpa [Slot.token?] using htoken
      · exact fun name hname => Catalog.get?_insert_of_ne _ _ hname
      · exact fun name hname => Catalog.get?_insert_of_ne _ _ hname

theorem alike_before (settings : Settings) (clock : Clock) (timer : Bool)
    (hspares : ∀ st ∈ steps, st.spares slot own = true) {r : List Reply × Session}
    (hok : (new settings clock timer).run steps = .ok r events) :
    r.2.Alike slot own none { r.2 with cancelled := r.2.cancelled.insert own () } ∧
      r.2.slots.get? slot = none := by
  have hnew := sound_new settings clock timer
  have hempty : ∀ {first r events}, (∀ st ∈ first, st.spares slot own = true) →
      (new settings clock timer).run first = .ok r events → r.2.slots.get? slot = none := by
    intro first r events hspares hok
    exact (run_course hnew hspares _ _ hok).eq_none
  have hstart : (new settings clock timer).Alike slot own none
      { new settings clock timer with cancelled := (new settings clock timer).cancelled.insert own () } := by
    refine ⟨rfl, .refl hnew.gate.agree, ?_, fun _ _ => rfl, ?_, rfl⟩
    · rintro _ ⟨⟩
    · rintro _ _ ⟨⟩
  have hparallel : Parallel slot own false (new settings clock timer) _ := .gone hstart rfl rfl
  have hunserved : ∀ first rest, steps = first ++ rest →
      (new settings clock timer).After first (Unserved slot) := by
    rintro first rest rfl
    obtain ⟨r, events, hfirst, -⟩ := run_proceeds hnew first
    have hnone := hempty (fun st hst => hspares st (List.mem_append_left rest hst)) hfirst
    exact ⟨r, events, hfirst, by simp [hnone], by simp [hnone]⟩
  obtain ⟨_, _, -, _, hafter⟩ := hparallel.run hnew hspares hunserved hok
  have hnone := hempty hspares hok
  have hsound := (run_proceeds hnew steps).of_eq_ok hok
  cases hafter with
  | ready h hhere hthere => simp [hnone] at hhere
  | queued h hhere hwaits hthere => simp [hnone] at hhere
  | gone h hhere hthere => exact ⟨h.self hsound.sound.gate.agree, hnone⟩

theorem unserved_of_queued {first rest : List Step} (hsound : s.Sound [])
    (hspares : ∀ st ∈ rest, st.spares slot own = true)
    (hqueued : s.After (first ++ rest) fun past =>
      ∃ t, past.slots.get? slot = some (.waiting token t) ∧ past.gate.Waits t) :
    s.After first (Unserved slot) := by
  obtain ⟨r, events, hfirst, r', later, hrest, t, hslot, hwaits⟩ := hqueued.split
  have hpast := (run_proceeds hsound first).of_eq_ok hfirst
  have hcourse : Slot.Course (r.2.slots.get? slot) (r'.2.slots.get? slot) :=
    run_course hpast.sound hspares _ _ hrest
  rw [hslot] at hcourse
  refine ⟨r, events, hfirst, ?_⟩
  rcases hcourse.of_waiting with hhere | ⟨request, hhere⟩
  · refine ⟨by simp [hhere], ?_⟩
    rw [hhere]
    rintro _ _ ⟨rfl, rfl⟩
    have haccounts := hpast.sound.accounts (alive_of_open hhere rfl)
    have hlt := haccounts.issued (t, .awaited) (awaited_mem_stakes_iff.mpr ⟨slot, token, hhere⟩)
    have hrun := (run_proceeds hpast.sound rest).of_eq_ok hrest
    exact (hrun.evolves.gate.waits t hwaits).resolve_left (Nat.not_le_of_lt hlt)
  · exact ⟨by simp [hhere], by simp [hhere]⟩

theorem empty_after {first rest : List Step} (hsound : s.Sound [])
    (hspares : ∀ st ∈ rest, st.spares slot own = true)
    (hends : s.After first fun past => past.slots.get? slot = none) :
    s.After (first ++ rest) fun past => past.slots.get? slot = none := by
  obtain ⟨r, events, hfirst, hnone⟩ := hends
  have hpast := (run_proceeds hsound first).of_eq_ok hfirst
  obtain ⟨r', later, hrest, -⟩ := run_proceeds hpast.sound rest
  have hcourse : Slot.Course (r.2.slots.get? slot) (r'.2.slots.get? slot) :=
    run_course hpast.sound hspares _ _ hrest
  rw [hnone] at hcourse
  exact .append ⟨r, events, hfirst, r', later, hrest, hcourse.eq_none⟩

/-- A caller that is queued at last is not let in before, and one that has gone is not let in any more. -/
theorem unserved_of_ends (hsound : s.Sound [])
    (hspares : ∀ st ∈ during ++ last :: later, st.spares slot own = true)
    (hqueued : s.After during fun past =>
      ∃ t, past.slots.get? slot = some (.waiting token t) ∧ past.gate.Waits t)
    (hends : s.After (during ++ [last]) fun past => past.slots.get? slot = none)
    {first rest : List Step} (hcut : during ++ last :: later = first ++ rest) :
    s.After first fun past => past.Unserved slot ∧
      (during ++ [last] <+: first → past.slots.get? slot = none) := by
  have hbefore : ∀ since, during = first ++ since → s.After first fun past => past.Unserved slot ∧
      (during ++ [last] <+: first → past.slots.get? slot = none) := by
    rintro since rfl
    refine (unserved_of_queued hsound (fun st hst => hspares st ?_) hqueued).mono ?_
    · exact List.mem_append_left _ (List.mem_append_right first hst)
    · refine fun r _ hunserved => ⟨hunserved, fun hprefix => ?_⟩
      have hle := hprefix.length_le
      simp only [List.length_append, List.length_singleton] at hle
      omega
  rcases List.append_eq_append_iff.mp hcut with ⟨since, hfirst, hrest⟩ | ⟨since, hduring, -⟩
  · cases since with
    | nil => exact hbefore [] (by rw [hfirst, List.append_nil, List.append_nil])
    | cons st since =>
        obtain ⟨rfl, rfl⟩ := List.cons.inj hrest
        obtain rfl : first = (during ++ [last]) ++ since := by rw [hfirst, List.append_assoc]; rfl
        refine (empty_after hsound (fun st hst => hspares st ?_) hends).mono ?_
        · exact List.mem_append_right _ (List.mem_cons_of_mem _ (List.mem_append_left _ hst))
        · exact fun r _ hnone => ⟨⟨by simp [hnone], by simp [hnone]⟩, fun _ => hnone⟩
  · exact hbefore since hduring

/--
In a run whose gate is kept, let a caller be queued in a slot that nobody else uses, and be gone after a later
step, refused or dropped. Take the run in which it uses a name of its own that has been told to give up, and
neither asks again nor goes away. At every step the capacity, the active tickets and the other slots are the
same in both runs and everyone else gets the same reply; only the caller's ticket is queued in the one and
not in the other, and once the caller is gone the gates are equal.
-/
theorem unserved_wait_leaves_no_trace (settings : Settings) (clock : Clock) (timer asks : Bool)
    (slot token own : String) (request : Request) (before during later : List Step) (last : Step)
    (htoken : token ≠ own)
    (hspares : ∀ st ∈ before ++ (during ++ last :: later), st.spares slot own = true)
    (hqueued : (new settings clock timer).After
      (before ++ .arrival asks slot token request :: during) fun s =>
        ∃ t, s.slots.get? slot = some (.waiting token t) ∧ s.gate.Waits t)
    (hends : (new settings clock timer).After
      (before ++ .arrival asks slot token request :: (during ++ [last])) fun s =>
        s.slots.get? slot = none) :
    ∀ first rest, during ++ last :: later = first ++ rest →
      mute slot asks first <+: mute slot asks (during ++ last :: later) ∧
      (new settings clock timer).After
        (before ++ .arrival asks slot token request :: first) fun s =>
      (new settings clock timer).After
        (before ++ .cancel own :: .arrival asks slot own request :: mute slot asks first) fun s' =>
        s.SameBut slot s' ∧
        (during ++ [last] <+: first → s.slots.get? slot = none ∧ s'.gate = s.gate) ∧
        ∀ st more, rest = st :: more → st.isOf slot = false →
          (s.step st).Gives fun r _ => (s'.step st).Gives fun r' _ =>
            r'.1.apartFrom slot = r.1.apartFrom slot ∧
              (s.slots.get? slot = none → r'.1 = r.1) := by
  have hnew := sound_new settings clock timer
  obtain ⟨hspares, hspares'⟩ := List.forall_mem_append.mp hspares
  obtain ⟨r₀, _, hbefore, hproceeds⟩ := run_proceeds hnew before
  obtain ⟨halike, hempty⟩ := alike_before settings clock timer hspares hbefore
  obtain ⟨⟨reply, s⟩, _, harrives, hsteps⟩ :=
    step_gives hproceeds.sound (.arrival asks slot token request)
  have hunserved : ∀ first rest, during ++ last :: later = first ++ rest →
      s.After first fun past => past.Unserved slot ∧
        (during ++ [last] <+: first → past.slots.get? slot = none) := fun first rest hcut =>
    unserved_of_ends hsteps.sound hspares' ((hqueued.split.of_run_eq_ok hbefore).of_cons harrives)
      ((hends.split.of_run_eq_ok hbefore).of_cons harrives) hcut
  obtain ⟨⟨reply', s'⟩, _, harrives', hparallel⟩ := halike.arrives hproceeds.sound hempty hempty
    htoken harrives ((hunserved [] _ rfl).of_run_eq_ok rfl).1
  intro first rest hcut
  constructor
  · rw [hcut, mute_append]
    exact List.prefix_append _ _
  · obtain ⟨r, _, hfirst, -, hgone⟩ := hunserved first rest hcut
    have hsound := ((run_proceeds hsteps.sound first).of_eq_ok hfirst).sound
    rw [hcut] at hspares'
    obtain ⟨hspares₁, hspares₂⟩ := List.forall_mem_append.mp hspares'
    have hafter := hparallel.run hsteps.sound hspares₁
      (fun earlier since heq => (hunserved earlier (since ++ rest)
        (by rw [hcut, heq, List.append_assoc])).mono fun _ _ hboth => hboth.1) hfirst
    refine .append ⟨r₀, _, hbefore, .cons harrives ⟨r, _, hfirst, ?_⟩⟩
    refine .append ⟨r₀, _, hbefore, .cons rfl (.cons harrives' (hafter.mono ?_))⟩
    rintro r' _ ⟨asked, hboth⟩
    have hsame := hboth.sameBut hsound.gate.agree
    refine ⟨hsame, ?_, ?_⟩
    · intro hprefix
      have hnone := hgone hprefix
      exact ⟨hnone, hsame.gate_eq (by simp [hnone])⟩
    · rintro st more rfl hothers
      obtain ⟨next, _, hok, -⟩ := step_gives hsound st
      have hlater : next.2.Unserved slot := by
        have hcut' : during ++ last :: later = (first ++ [st]) ++ more := by simp [hcut]
        exact (((hunserved _ _ hcut').split.of_run_eq_ok hfirst).of_cons hok).of_run_eq_ok rfl |>.1
      refine ⟨next, _, hok, ?_⟩
      refine (hboth.step hsound (hspares₂ st List.mem_cons_self) hothers hok hlater).mono ?_
      exact fun _ _ hreply => hreply.2

/-- A caller overtakes another one in the queue and goes, and the other one gets the place. -/
theorem dropped_wait_leaves_no_trace :
    (new ⟨some 1, .fixed 0⟩ (.starting 0) false).After
      [.enter "a" (.plain ⟨"tcp", "l", "a"⟩), .wait "w" "x" ⟨⟨"tcp", "l", "w"⟩, "", .highest⟩,
        .wait "b" "y" (.plain ⟨"tcp", "l", "b"⟩), .drop "w", .done "a", .poll "b"] fun s =>
    (new ⟨some 1, .fixed 0⟩ (.starting 0) false).After
      [.enter "a" (.plain ⟨"tcp", "l", "a"⟩), .cancel "own",
        .wait "w" "own" ⟨⟨"tcp", "l", "w"⟩, "", .highest⟩,
        .wait "b" "y" (.plain ⟨"tcp", "l", "b"⟩), .done "a", .poll "b"] fun s' =>
      s.SameBut "w" s' ∧ s'.gate = s.gate := by
  have hrun := unserved_wait_leaves_no_trace ⟨some 1, .fixed 0⟩ (.starting 0) false true "w" "x" "own"
    ⟨⟨"tcp", "l", "w"⟩, "", .highest⟩ [.enter "a" (.plain ⟨"tcp", "l", "a"⟩)]
    [.wait "b" "y" (.plain ⟨"tcp", "l", "b"⟩)] [.done "a", .poll "b"] (.drop "w")
    (by decide) (by decide) ⟨_, _, rfl, _, rfl, rfl⟩ ⟨_, _, rfl, rfl⟩
    [.wait "b" "y" (.plain ⟨"tcp", "l", "b"⟩), .drop "w", .done "a", .poll "b"] [] rfl
  refine hrun.2.mono fun r _ hr => hr.mono fun r' _ hsame => ⟨hsame.1, (hsame.2.1 ?_).2⟩
  exact ⟨[.done "a", .poll "b"], rfl⟩

end Session

end FlowGate
