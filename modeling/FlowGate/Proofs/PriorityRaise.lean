import FlowGate.Proofs.DemotedCallerCourse
import FlowGate.Proofs.NoTrace

namespace FlowGate.Session

variable {q : Priority} {slot token : String} {s s' a b : Session} {t : Ticket} {asks : Bool}
  {request : Request} {st : Step} {steps : List Step} {events events' : List Event}

/-- A ticket is let in at some point of a run. -/
def LetsIn (s : Session) (steps : List Step) (t : Ticket) : Prop :=
  ∃ first, first <+: steps ∧ s.After first fun past => past.gate.Inside t

theorem LetsIn.cons {reply : Reply} (hstep : s.step st = .ok (reply, s') events)
    (h : s'.LetsIn steps t) : s.LetsIn (st :: steps) t := by
  obtain ⟨first, hpart, hafter⟩ := h
  exact ⟨st :: first, List.cons_prefix_cons.mpr ⟨rfl, hpart⟩, .cons hstep hafter⟩

theorem LetsIn.append {first : List Step} {r : List Reply × Session} (hok : s.run first = .ok r events)
    (h : r.2.LetsIn steps t) : s.LetsIn (first ++ steps) t := by
  obtain ⟨earlier, hpart, hafter⟩ := h
  exact ⟨first ++ earlier, (List.prefix_append_right_inj first).mpr hpart, .append ⟨r, _, hok, hafter⟩⟩

theorem not_inside_before (hsound : s.Sound []) {first rest : List Step}
    {r r' : List Reply × Session} (hok : s.run first = .ok r events)
    (hok' : s.run (first ++ rest) = .ok r' events') (hwaits : r'.2.gate.Waits t) :
    ¬r.2.gate.Inside t := by
  intro hinside
  have hpast := ((run_proceeds hsound first).of_eq_ok hok).sound
  obtain ⟨_, _, _, _, hfirst, hrest⟩ := run_append_eq_ok hok'
  rw [hok] at hfirst
  cases hfirst
  have hlater := (run_proceeds hpast rest).of_eq_ok hrest
  exact hpast.not_waits_later hlater.evolves hinside hwaits

/-- What two sessions have in common if they differ at most by the priority of a caller. -/
structure SameButPriority (slot : String) (id : Nat) (s s' : Session) : Prop where
  /-- The capacity, the active tickets and the calls are the same. -/
  gates : s'.gate = { s.gate with waiting := s'.gate.waiting }
  /-- The same numbers wait, and but for the caller's with the same tickets. -/
  numbers : ∀ n, s'.gate.waiting.contains n = s.gate.waiting.contains n
  waits_iff : ∀ u, u.id ≠ id → (s'.gate.Waits u ↔ s.gate.Waits u)
  others : ∀ name, name ≠ slot → s'.slots.get? name = s.slots.get? name
  /-- So are the clock, the numbers given out and the grace periods. -/
  rest : s' = { s with gate := s'.gate, slots := s'.slots }

theorem SameButPriority.refl (slot : String) (id : Nat) (s : Session) : SameButPriority slot id s s :=
  ⟨rfl, fun _ => rfl, fun _ _ => Iff.rfl, fun _ _ => rfl, rfl⟩

theorem Demotes.sameButPriority {n : Option Nat} {c : Slot} (h : a.Demotes n q slot c b)
    (hagree : a.gate.waiting.Agree) {id : Nat} (hn : ∀ m, n = some m → m = id) :
    SameButPriority slot id b a := by
  refine ⟨?_, fun m => (h.gate.contains_eq hagree m).symm, ?_, fun name hname =>
    (h.others name hname).symm, ?_⟩
  · rw [h.gate.rest]
  · exact fun u hu => (h.gate.waits_iff_of_ne fun hid => hu (hn _ hid)).symm
  · rw [h.rest]

/-- A caller has come to wait in two sessions with different priorities. It still waits, or has gone. -/
inductive Since (q : Priority) (slot token : String) (t : Ticket) : Session → Session → Prop where
  | queued {a b : Session} (h : a.Demotes (some t.id) q slot (.waiting token t) b)
      (hwaits : a.gate.Waits t) : Since q slot token t a b
  | gone {a : Session} (hspent : a.Spent t.id) : Since q slot token t a a

theorem Since.sameButPriority (h : Since q slot token t a b) (hagree : a.gate.waiting.Agree) :
    SameButPriority slot t.id b a := by
  cases h with
  | queued h hwaits =>
      apply h.sameButPriority hagree
      rintro _ ⟨rfl⟩
      rfl
  | gone hspent => exact .refl slot t.id a

theorem Since.waits_iff (h : Since q slot token t a b) :
    a.gate.Waits t ↔ b.gate.Waits { t with priority := q } := by
  cases h with
  | queued h hwaits =>
      refine iff_of_true hwaits ((h.gate.waits_iff _).mpr ⟨t, hwaits, Ticket.demote_self t q⟩)
  | gone hspent =>
      exact iff_of_false (hspent.absent t rfl).1 (hspent.absent { t with priority := q } rfl).1

theorem Since.not_inside (h : Since q slot token t a b) (hsound : b.gate.Sound) :
    ¬b.gate.Inside { t with priority := q } := by
  cases h with
  | queued h hwaits =>
      intro hinside
      exact hsound.not_waits_of_inside hinside ((Since.queued h hwaits).waits_iff.mp hwaits)
  | gone hspent => exact (hspent.absent { t with priority := q } rfl).2

theorem Since.step (h : Since q slot token t s s') (hsound : s.Sound []) (hsound' : s'.Sound [])
    (hlower : q.level ≤ t.priority.level) {r r' : Reply × Session} (hok : s.step st = .ok r events)
    (hok' : s'.step st = .ok r' events') (hout : ¬r.2.gate.Inside t) :
    r'.1 = r.1 ∧ Since q slot token t r.2 r'.2 := by
  have hproceeds := (step_gives hsound st).of_eq_ok hok
  cases h with
  | queued h hwaits =>
      have hwaiting : ∀ name u, Slot.waiting token t = .waiting name u → s.gate.Waits u := by
        rintro _ _ ⟨rfl, rfl⟩
        exact hwaits
      have houtside : ∀ name u, Slot.waiting token t = .waiting name u → ¬r.2.gate.Inside u := by
        rintro _ _ ⟨rfl, rfl⟩
        exact hout
      obtain ⟨hbeside, hreply⟩ := Demotes.step_beside (c := .waiting token t) h hsound hsound' hwaiting
        hlower hok hok' houtside
      obtain ⟨reply, a⟩ := r
      obtain ⟨reply', b⟩ := r'
      cases hbeside with
      | still h' =>
          have haccounts := hproceeds.sound.accounts h'.alive
          refine ⟨hreply ?_, .queued h' (waits_of_not_inside haccounts h'.here hout)⟩
          simp [h'.there, Slot.withPriority]
      | gone hnone hspent => exact ⟨hreply (by simp [hnone]), .gone (hspent t.id rfl)⟩
  | gone hspent =>
      rw [hok] at hok'
      cases hok'
      exact ⟨rfl, .gone (hspent.later hproceeds.evolves)⟩

section Runs

variable {r r' : List Reply × Session}

theorem Since.run (h : Since q slot token t s s') (hsound : s.Sound []) (hsound' : s'.Sound [])
    (hlower : q.level ≤ t.priority.level) (hok : s.run steps = .ok r events)
    (hok' : s'.run steps = .ok r' events') (hout : ¬s.LetsIn steps t) :
    r'.1 = r.1 ∧ Since q slot token t r.2 r'.2 := by
  induction steps generalizing s s' r r' events events' with
  | nil =>
      cases hok
      cases hok'
      exact ⟨rfl, h⟩
  | cons st steps ih =>
      obtain ⟨reply, past, _, replies, _, hstep, hrun, hreplies⟩ := run_cons_eq_ok hok
      obtain ⟨reply', past', _, replies', _, hstep', hrun', hreplies'⟩ := run_cons_eq_ok hok'
      have hnext : ¬past.gate.Inside t := fun hinside =>
        hout ⟨[st], List.prefix_append [st] steps, .cons hstep (after_nil hinside)⟩
      have hlater : ¬past.LetsIn steps t := fun hlets => hout (hlets.cons hstep)
      obtain ⟨hreply, hsince⟩ := h.step hsound hsound' hlower hstep hstep' hnext
      have hpast : past.Sound [] := ((step_gives hsound st).of_eq_ok hstep).sound
      have hpast' : past'.Sound [] := ((step_gives hsound' st).of_eq_ok hstep').sound
      obtain ⟨hrest, hsince⟩ := ih hsince hpast hpast' hrun hrun' hlater
      rw [hreplies, hreplies']
      exact ⟨congrArg₂ List.cons hreply hrest, hsince⟩

/-- The ticket is let in no later where it has the higher priority. -/
theorem Since.no_later (h : Since q slot token t s s') (hsound : s.Sound []) (hsound' : s'.Sound [])
    (hlower : q.level ≤ t.priority.level) (hok : s.run steps = .ok r events)
    (hok' : s'.run steps = .ok r' events') (hinside : r'.2.gate.Inside { t with priority := q }) :
    s.LetsIn steps t := by
  apply Classical.byContradiction
  intro hout
  have hgate := ((run_proceeds hsound' steps).of_eq_ok hok').sound.gate
  exact (h.run hsound hsound' hlower hok hok' hout).2.not_inside hgate hinside

theorem Beside.demotes_of_there (h : Beside q slot (.prepared token request) a b)
    (hthere : ∃ token request, b.slots.get? slot = some (.prepared token request)) :
    a.Demotes none q slot (.prepared token request) b := by
  obtain ⟨_, _, hthere⟩ := hthere
  cases h with
  | still h => exact h
  | queued h hwaits =>
      rw [h.there] at hthere
      cases hthere
  | gone hnone hspent =>
      rw [hnone] at hthere
      cases hthere
  | entered hholds =>
      rw [hholds] at hthere
      cases hthere

theorem Beside.since_of_there (h : Beside q slot (.prepared token request) a b)
    (hthere : b.slots.get? slot = some (.waiting token t)) :
    ∃ u, u.priority = request.priority ∧ { u with priority := q } = t ∧
      a.slots.get? slot = some (.waiting token u) ∧ a.gate.Waits u ∧ Since q slot token u a b := by
  cases h with
  | still h =>
      rw [h.there] at hthere
      cases hthere
  | queued h hwaits =>
      rw [h.there] at hthere
      cases hthere
      exact ⟨_, rfl, rfl, h.here, hwaits, .queued h hwaits⟩
  | gone hnone hspent =>
      rw [hnone] at hthere
      cases hthere
  | entered hholds =>
      rw [hholds] at hthere
      cases hthere

theorem Beside.run (h : Beside q slot (.prepared token request) s s') (hsound : s.Sound [])
    (hsound' : s'.Sound []) (hlower : q.level ≤ request.priority.level)
    (hok : s.run steps = .ok r events) (hok' : s'.run steps = .ok r' events')
    (hready : ∀ first, first <+: steps → first ≠ steps → s'.After first fun past =>
      ∃ token request, past.slots.get? slot = some (.prepared token request))
    (hlast : ∀ u, r'.2.slots.get? slot ≠ some (.holding u)) :
    r'.1 = r.1 ∧ Beside q slot (.prepared token request) r.2 r'.2 := by
  induction steps generalizing s s' r r' events events' with
  | nil =>
      cases hok
      cases hok'
      exact ⟨rfl, h⟩
  | cons st steps ih =>
      obtain ⟨reply, past, _, replies, _, hstep, hrun, hreplies⟩ := run_cons_eq_ok hok
      obtain ⟨reply', past', _, replies', _, hstep', hrun', hreplies'⟩ := run_cons_eq_ok hok'
      have hhere := (hready [] List.nil_prefix (List.cons_ne_nil st steps).symm).of_run_eq_ok rfl
      have hasks : ∀ name u, Slot.prepared token request ≠ .waiting name u := by
        rintro _ _ ⟨⟩
      obtain ⟨hbeside, hreply⟩ := Demotes.step_beside (c := .prepared token request)
        (h.demotes_of_there hhere) hsound hsound' (fun _ _ hc => absurd hc (hasks _ _)) hlower hstep
        hstep' fun _ _ hc => absurd hc (hasks _ _)
      have hlater : ∀ first, first <+: steps → first ≠ steps → past'.After first fun past =>
          ∃ token request, past.slots.get? slot = some (.prepared token request) := by
        intro first hfirst hne
        refine (hready (st :: first) (List.cons_prefix_cons.mpr ⟨rfl, hfirst⟩) ?_).of_cons hstep'
        exact fun heq => hne (List.cons.inj heq).2
      have hnext : ∀ u, past'.slots.get? slot ≠ some (.holding u) := by
        cases steps with
        | nil =>
            cases hrun'
            exact hlast
        | cons next steps =>
            obtain ⟨_, _, hprepared⟩ :=
              (hlater [] List.nil_prefix (List.cons_ne_nil next steps).symm).of_run_eq_ok rfl
            simp [hprepared]
      have hpast : past.Sound [] := ((step_gives hsound st).of_eq_ok hstep).sound
      have hpast' : past'.Sound [] := ((step_gives hsound' st).of_eq_ok hstep').sound
      obtain ⟨hrest, hbeside⟩ := ih hbeside hpast hpast' hrun hrun' hlater hlast
      rw [hreplies, hreplies']
      exact ⟨congrArg₂ List.cons (hreply hnext) hrest, hbeside⟩

theorem Beside.before_queued (h : Beside q slot (.prepared token request) s s') (hsound : s.Sound [])
    (hsound' : s'.Sound []) (hlower : q.level ≤ request.priority.level)
    (hready : ∀ first, first <+: steps → s'.After first fun past =>
      ∃ token request, past.slots.get? slot = some (.prepared token request))
    (hok : s.run steps = .ok r events) (hok' : s'.run steps = .ok r' events') :
    r'.1 = r.1 ∧ r.2.Demotes none q slot (.prepared token request) r'.2 := by
  have hthere := (hready steps List.prefix_rfl).of_run_eq_ok hok'
  have hlast : ∀ u, r'.2.slots.get? slot ≠ some (.holding u) := by
    obtain ⟨_, _, hprepared⟩ := hthere
    simp [hprepared]
  obtain ⟨hreplies, hbeside⟩ := h.run hsound hsound' hlower hok hok'
    (fun first hfirst _ => hready first hfirst) hlast
  exact ⟨hreplies, hbeside.demotes_of_there hthere⟩

end Runs

theorem step_arrival_refused (hempty : s.slots.get? slot = none) (hkept : s.kept = false) :
    s.step (.arrival asks slot token request) = s.refuse .noGate := by
  have hfree := Catalog.contains_eq_false_iff.mpr hempty
  cases asks <;> simp [Step.arrival, Session.step, withEmptySlot, hfree, hkept]

theorem arrival_beside (hsound : s.Sound []) (hempty : s.slots.get? slot = none)
    (hlower : q.level ≤ request.priority.level) {r r' : Reply × Session}
    (hok : s.step (.arrival asks slot token request) = .ok r events)
    (hok' : s.step (.arrival asks slot token { request with priority := q }) = .ok r' events') :
    r'.1 = r.1 ∧ Beside q slot (.prepared token request) r.2 r'.2 := by
  cases hkept : s.kept with
  | false =>
      rw [step_arrival_refused hempty hkept] at hok hok'
      cases hok
      cases hok'
      exact ⟨rfl, .gone hempty nofun⟩
  | true =>
      cases asks with
      | true =>
          rw [Step.arrival, if_pos rfl, Session.step, withEmptySlot_eq hempty hkept] at hok hok'
          obtain ⟨⟨answer, a⟩, _, _, hask, hpure, -⟩ := Logged.bind_eq_ok_iff.mp hok
          obtain ⟨⟨answer', b⟩, _, _, hask', hpure', -⟩ := Logged.bind_eq_ok_iff.mp hok'
          cases hpure
          cases hpure'
          have halive := alive_of_kept hkept
          obtain ⟨hanswer, hbeside⟩ :=
            ask_beside hsound hsound halive halive (fun _ _ => rfl) rfl hlower hask hask'
          exact ⟨congrArg Reply.answer hanswer, hbeside⟩
      | false =>
          rw [Step.arrival, if_neg Bool.false_ne_true, Session.step, withEmptySlot_eq hempty hkept]
            at hok hok'
          cases hok
          cases hok'
          refine ⟨rfl, .still ⟨rfl, Catalog.get?_insert_self .., Catalog.get?_insert_self .., ?_, nofun,
            .refl hsound.gate.agree q, rfl⟩⟩
          intro name hname
          exact (Catalog.get?_insert_of_ne _ _ hname).trans (Catalog.get?_insert_of_ne _ _ hname).symm

theorem whole_or_part {first during later : List Step} (hpart : first <+: during ++ later) :
    (∃ since, first = during ++ since) ∨ ∃ st since, during = first ++ st :: since := by
  rcases List.prefix_or_prefix_of_prefix hpart (List.prefix_append during later) with
    ⟨_ | ⟨st, since⟩, hsince⟩ | ⟨since, hsince⟩
  · exact .inl ⟨[], by rw [List.append_nil, ← hsince, List.append_nil]⟩
  · exact .inr ⟨st, since, hsince.symm⟩
  · exact .inl ⟨since, hsince.symm⟩

/--
Let a caller come to an empty slot, ask at once or later, and be queued. In the run in which it asks with
a higher priority, and all else is the same, it is queued at the same step, and let in no later than in
the first run. Until it is, everyone gets the same replies in both runs, the same tickets are active, and
the same tickets wait but for the caller's priority.
-/
theorem higher_priority_never_hurts (settings : Settings) (clock : Clock) (timer asks : Bool)
    (slot token : String) (request : Request) (priority : Priority) (t : Ticket)
    (before during later : List Step) (hhigher : request.priority.level < priority.level)
    (hempty : (new settings clock timer).After before fun s => s.slots.get? slot = none)
    (hready : ∀ first, first <+: during → first ≠ during →
      (new settings clock timer).After (before ++ .arrival asks slot token request :: first) fun s =>
        s.slots.get? slot = some (.prepared token request))
    (hqueued : (new settings clock timer).After
      (before ++ .arrival asks slot token request :: during) fun s =>
        s.slots.get? slot = some (.waiting token t) ∧ s.gate.Waits t) :
    ((new settings clock timer).After
      (before ++ .arrival asks slot token { request with priority } :: during) fun s =>
        s.slots.get? slot = some (.waiting token { t with priority }) ∧
          s.gate.Waits { t with priority }) ∧
    ∀ first, first <+: during ++ later →
      ((new settings clock timer).run (before ++ .arrival asks slot token request :: first)).Gives
        fun r _ =>
      ((new settings clock timer).run
        (before ++ .arrival asks slot token { request with priority } :: first)).Gives fun r' _ =>
        (r.2.gate.Inside t → (new settings clock timer).LetsIn
          (before ++ .arrival asks slot token { request with priority } :: first)
          { t with priority }) ∧
        (¬(new settings clock timer).LetsIn
          (before ++ .arrival asks slot token { request with priority } :: first)
          { t with priority } →
          r'.1 = r.1 ∧ SameButPriority slot t.id r.2 r'.2 ∧
            (during <+: first → (r'.2.gate.Waits { t with priority } ↔ r.2.gate.Waits t))) := by
  have hnew := sound_new settings clock timer
  have hlower : request.priority.level ≤ priority.level := Int.le_of_lt hhigher
  obtain ⟨past, _, hbefore, hproceeds⟩ := run_proceeds hnew before
  obtain ⟨came', _, harrives', hcame'⟩ :=
    step_gives hproceeds.sound (.arrival asks slot token { request with priority })
  obtain ⟨came, _, harrives, hcame⟩ := step_gives hproceeds.sound (.arrival asks slot token request)
  obtain ⟨hanswer, hbeside⟩ := arrival_beside (q := request.priority) hproceeds.sound
    (hempty.of_run_eq_ok hbefore) hlower harrives' harrives
  have hready : ∀ first, first <+: during → first ≠ during → came.2.After first fun s =>
      ∃ token request, s.slots.get? slot = some (.prepared token request) := by
    intro first hpart hne
    refine (((hready first hpart hne).split.of_run_eq_ok hbefore).of_cons harrives).mono ?_
    exact fun _ _ hslot => ⟨token, request, hslot⟩
  have hqueued := (hqueued.split.of_run_eq_ok hbefore).of_cons harrives
  obtain ⟨asked, _, hduring, hthere, hwaits⟩ := hqueued
  obtain ⟨asked', _, hduring', hasked'⟩ := run_proceeds hcame'.sound during
  have hasked := (run_proceeds hcame.sound during).of_eq_ok hduring
  obtain ⟨hreplies, hbeside'⟩ := hbeside.run hcame'.sound hcame.sound hlower hduring' hduring hready
    (by simp [hthere])
  obtain ⟨u, hpriority, rfl, hhere, huwaits, hsince⟩ := hbeside'.since_of_there hthere
  obtain rfl : u.priority = priority := hpriority
  refine ⟨.append ⟨past, _, hbefore, .cons harrives' ⟨asked', _, hduring', hhere, huwaits⟩⟩, ?_⟩
  intro first hpart
  rcases whole_or_part hpart with ⟨since, rfl⟩ | ⟨st, since, rfl⟩
  · obtain ⟨r, _, hrun, hpast⟩ := run_proceeds hasked.sound since
    obtain ⟨r', _, hrun', hpast'⟩ := run_proceeds hasked'.sound since
    have htotal := run_append_of_eq_ok hbefore
      (run_cons_of_eq_ok harrives (run_append_of_eq_ok hduring hrun))
    have htotal' := run_append_of_eq_ok hbefore
      (run_cons_of_eq_ok harrives' (run_append_of_eq_ok hduring' hrun'))
    refine ⟨_, _, htotal, _, _, htotal', ?_⟩
    have hlets : asked'.2.LetsIn since u → (new settings clock timer).LetsIn (before ++
        .arrival asks slot token { request with priority := u.priority } :: (during ++ since)) u := by
      have hqueues := run_append_of_eq_ok hbefore (run_cons_of_eq_ok harrives' hduring')
      intro hlater
      simpa using LetsIn.append hqueues hlater
    constructor
    · exact fun hinside =>
        hlets (hsince.no_later hasked'.sound hasked.sound hlower hrun' hrun hinside)
    · intro hout
      obtain ⟨hmore, hlast⟩ :=
        hsince.run hasked'.sound hasked.sound hlower hrun' hrun fun hlater => hout (hlets hlater)
      refine ⟨?_, hlast.sameButPriority hpast'.sound.gate.agree, fun _ => hlast.waits_iff⟩
      simp only [hanswer, hreplies, hmore]
  · have hnot : ¬first ++ st :: since <+: first := by
      intro hlong
      have hle := hlong.length_le
      rw [List.length_append, List.length_cons] at hle
      omega
    obtain ⟨r, _, hrun, hpast⟩ := run_proceeds hcame.sound first
    obtain ⟨r', _, hrun', hpast'⟩ := run_proceeds hcame'.sound first
    have htotal := run_append_of_eq_ok hbefore (run_cons_of_eq_ok harrives hrun)
    have htotal' := run_append_of_eq_ok hbefore (run_cons_of_eq_ok harrives' hrun')
    have houtside := not_inside_before hcame.sound hrun hduring hwaits
    refine ⟨_, _, htotal, _, _, htotal', ?_⟩
    constructor
    · exact fun hinside => absurd hinside houtside
    · intro _
      have hprepared : ∀ earlier, earlier <+: first → came.2.After earlier fun s =>
          ∃ token request, s.slots.get? slot = some (.prepared token request) := by
        intro earlier hearlier
        refine hready earlier (hearlier.trans (List.prefix_append ..)) ?_
        rintro rfl
        exact hnot hearlier
      obtain ⟨hmore, hdemotes⟩ :=
        hbeside.before_queued hcame'.sound hcame.sound hlower hprepared hrun' hrun
      refine ⟨?_, hdemotes.sameButPriority hpast'.sound.gate.agree nofun, fun hlong => absurd hlong hnot⟩
      simp only [hanswer, hmore]

/-- The last of two callers is let in second, or first if it asks with a higher priority. -/
theorem raised_priority_overtakes :
    (new ⟨some 1, .fixed 0⟩ (.starting 0) false).LetsIn
      [.enter "a" (.plain ⟨"tcp", "l", "a"⟩), .wait "b" "x" (.plain ⟨"tcp", "l", "b"⟩),
        .wait "w" "y" ⟨⟨"tcp", "l", "w"⟩, "", .highest⟩, .done "a", .poll "b", .done "b"]
      ⟨⟨⟨"tcp", "l", "w"⟩, "", .highest⟩, 3, 0⟩ := by
  have hraise := higher_priority_never_hurts ⟨some 1, .fixed 0⟩ (.starting 0) false true "w" "y"
    (.plain ⟨"tcp", "l", "w"⟩) .highest ⟨.plain ⟨"tcp", "l", "w"⟩, 3, 0⟩
    [.enter "a" (.plain ⟨"tcp", "l", "a"⟩), .wait "b" "x" (.plain ⟨"tcp", "l", "b"⟩)] []
    [.done "a", .poll "b", .done "b"] (by decide) ⟨_, _, rfl, rfl⟩
    (fun _ hpart hne => absurd (List.prefix_nil.mp hpart) hne) ⟨_, _, rfl, rfl, rfl⟩
  obtain ⟨r, _, hrun, -, -, -, hlets, -⟩ := hraise.2 _ (List.prefix_refl _)
  apply hlets
  have hlast : (new ⟨some 1, .fixed 0⟩ (.starting 0) false).After
      [.enter "a" (.plain ⟨"tcp", "l", "a"⟩), .wait "b" "x" (.plain ⟨"tcp", "l", "b"⟩),
        .wait "w" "y" (.plain ⟨"tcp", "l", "w"⟩), .done "a", .poll "b", .done "b"] fun s =>
      s.gate.Inside ⟨.plain ⟨"tcp", "l", "w"⟩, 3, 0⟩ := ⟨_, _, rfl, none, rfl⟩
  exact hlast.of_run_eq_ok hrun

end FlowGate.Session
