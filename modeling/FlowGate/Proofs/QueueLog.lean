import FlowGate.Proofs.CallOrder
import FlowGate.Proofs.GateMoves
import FlowGate.Proofs.SessionRuns

namespace FlowGate

/-- The tickets that wait after an event. -/
def Event.follow (queue : List Ticket) : Event → List Ticket
  | .registered t => t :: queue
  | .deregistered t => queue.filter (· ≠ t)
  | _ => queue

/-- The tickets that wait, by what the log tells. -/
def queueAfter (log : List Event) : List Ticket := log.foldl Event.follow []

/--
A flow may be called in at this point of the log: all tickets that waited for it, so many, have just been taken
off the list, and for everyone who still waits one of them is the more urgent, or as urgent and earlier.
-/
def CallsInOrder (log : List Event) (flow : Flow) (tickets : Nat) : Prop :=
  ∃ (earlier : List Event) (ts : List Ticket), log = earlier ++ ts.map .deregistered ∧ ts.length = tickets ∧
    (∀ t, t ∈ ts ↔ t ∈ queueAfter earlier ∧ t.flow = flow) ∧
      ∀ a ∈ queueAfter log, ∃ b ∈ ts, b.Precedes a

def InOrder (log : List Event) : Prop :=
  ∀ before flow n m k, before ++ [.calledIn flow n m k] <+: log → CallsInOrder before flow n

section Log

variable {log events : List Event} {event : Event} {t u : Ticket}

theorem queueAfter_concat (log : List Event) (event : Event) :
    queueAfter (log ++ [event]) = event.follow (queueAfter log) := by
  rw [queueAfter, List.foldl_append]
  rfl

theorem queueAfter_append_of_silent (hsilent : ∀ event ∈ events, event.isOfQueue = false) :
    queueAfter (log ++ events) = queueAfter log := by
  induction events generalizing log with
  | nil => rw [List.append_nil]
  | cons event events ih =>
      rw [List.append_cons, ih fun e he => hsilent e (List.mem_cons_of_mem event he),
        queueAfter_concat]
      have hevent := hsilent event List.mem_cons_self
      cases event <;> first | rfl | cases hevent

theorem mem_queueAfter_deregistered_iff {ts : List Ticket} :
    t ∈ queueAfter (log ++ ts.map .deregistered) ↔ t ∈ queueAfter log ∧ t ∉ ts := by
  induction ts generalizing log with
  | nil => simp
  | cons u ts ih =>
      rw [List.map_cons, List.append_cons, ih, queueAfter_concat, List.mem_cons, not_or]
      simp [Event.follow, and_assoc]

theorem inOrder_nil : InOrder [] := by
  intro before flow n m k hprefix
  simp at hprefix

theorem InOrder.concat (h : InOrder log)
    (hevent : ∀ flow n m k, event = .calledIn flow n m k → CallsInOrder log flow n) :
    InOrder (log ++ [event]) := by
  intro before flow n m k hprefix
  rcases List.prefix_concat_iff.mp hprefix with heq | hold
  · obtain ⟨rfl, hlast⟩ := List.append_inj' heq rfl
    exact hevent flow n m k (List.cons.inj hlast).1.symm
  · exact h before flow n m k hold

theorem InOrder.append (h : InOrder log)
    (hevents : ∀ flow n m k, .calledIn flow n m k ∉ events) : InOrder (log ++ events) := by
  induction events generalizing log with
  | nil => rwa [List.append_nil]
  | cons event events ih =>
      rw [List.append_cons]
      apply ih
      · apply h.concat
        rintro flow n m k rfl
        exact absurd List.mem_cons_self (hevents flow n m k)
      · exact fun flow n m k hmem => hevents flow n m k (List.mem_cons_of_mem event hmem)

end Log

namespace Gate

open Logged (Gives Yields yields_self yields_pure yields_fail)

variable {g g' : Gate} {t u : Ticket} {log events : List Event}

/-- A log tells who waits at a gate, and every call in it was in order. -/
structure Told (g : Gate) (log : List Event) : Prop where
  queue_iff : ∀ t, t ∈ queueAfter log ↔ g.Waits t
  inOrder : InOrder log

theorem Told.silent (h : g.Told log) (hsilent : ∀ event ∈ events, event.isOfQueue = false)
    (hwaiting : g'.waiting = g.waiting) : g'.Told (log ++ events) := by
  constructor
  · intro t
    rw [queueAfter_append_of_silent hsilent, h.queue_iff, Waits, Waits, hwaiting]
  · apply h.inOrder.append
    intro flow n m k hmem
    cases hsilent _ hmem

theorem Told.register (h : g.Told log) (hwaits : ∀ u, g'.Waits u ↔ u = t ∨ g.Waits u) :
    g'.Told (log ++ [.registered t]) := by
  constructor
  · intro u
    rw [queueAfter_concat, Event.follow, List.mem_cons, h.queue_iff, hwaits]
  · exact h.inOrder.concat nofun

theorem Told.deregister (h : g.Told log) (hwaits : ∀ u, g'.Waits u ↔ u ≠ t ∧ g.Waits u) :
    g'.Told (log ++ [.deregistered t]) := by
  constructor
  · intro u
    rw [queueAfter_concat, Event.follow, List.mem_filter, decide_eq_true_eq, h.queue_iff, hwaits,
      and_comm]
  · exact h.inOrder.concat nofun

theorem Told.call (h : g.Told log) {ts : List Ticket} {waiting : WaitList} (hleads : g.waiting.Leads u)
    (htakes : g.waiting.Takes ts waiting) (hmem : ∀ t, t ∈ ts ↔ g.Waits t ∧ t.flow = u.flow)
    (m k : Nat) :
    (g.letIn u.flow ts waiting).Told
      (log ++ (ts.map .deregistered ++ [.calledIn u.flow ts.length m k])) := by
  have hqueue : ∀ t, t ∈ queueAfter (log ++ ts.map .deregistered) ↔
      (g.letIn u.flow ts waiting).Waits t := by
    intro t
    rw [mem_queueAfter_deregistered_iff, h.queue_iff, waits_letIn_iff htakes]
  rw [← List.append_assoc]
  constructor
  · intro t
    rw [queueAfter_concat]
    exact hqueue t
  · apply (h.inOrder.append (by simp)).concat
    rintro flow n _ _ heq
    cases heq
    refine ⟨log, ts, rfl, rfl, ?_, ?_⟩
    · intro t
      rw [hmem, h.queue_iff]
    · intro a ha
      obtain ⟨hwaits, hnot⟩ := (waits_letIn_iff htakes).mp ((hqueue a).mp ha)
      have hu : u ∈ ts := (hmem u).mpr ⟨hleads.1, rfl⟩
      refine ⟨u, hu, (hleads.2 a hwaits).resolve_left ?_⟩
      rintro rfl
      exact hnot hu

theorem callNext?_told (hagree : g.waiting.Agree)
    (hapart : ∀ t, g.Waits t → g.active.get? t.flow = none) (h : g.Told log) :
    g.callNext?.Yields fun r events => (r.getD g).Told (log ++ events) ∧
      ∀ g', r = some g' → ∃ flow, g.LetsIn [flow] g' := by
  refine ((callNext?_lets_in hagree hapart).mono ?_).yields
  rintro _ _ (⟨rfl, rfl, -⟩ | ⟨u, ts, waiting, hleads, htakes, hmem, rfl, rfl⟩)
  · exact ⟨by simpa using h, by simp⟩
  · refine ⟨h.call hleads htakes hmem _ _, ?_⟩
    rintro _ ⟨rfl⟩
    exact ⟨u.flow, letsIn_letIn htakes hmem⟩

theorem callUpTo_told (hagree : g.waiting.Agree)
    (hapart : ∀ t, g.Waits t → g.active.get? t.flow = none) (h : g.Told log) (limit : Nat) :
    (g.callUpTo limit).Yields fun r events => r.2.Told (log ++ events) := by
  induction limit generalizing g log with
  | zero => exact yields_pure (by simpa using h)
  | succ limit ih =>
      rw [callUpTo]
      split
      · refine (callNext?_told hagree hapart h).bind ?_
        rintro (_ | g') first ⟨htold, hlets⟩
        · exact yields_pure (by simpa using htold)
        · obtain ⟨flow, hlets⟩ := hlets g' rfl
          refine (ih hlets.agree (hlets.apart hapart) htold).bind fun r later hrest => yields_pure ?_
          simpa using hrest
      · exact yields_pure (by simpa using h)

theorem enter?_told (h : g.Told log) (t : Ticket) :
    (g.enter? t).Yields fun r events => ∀ g', r = some g' → g'.Told (log ++ events) := by
  unfold enter?
  split
  · refine (yields_self _).bind ?_
    rintro _ _ ⟨rfl, rfl⟩
    refine yields_pure ?_
    rintro _ ⟨rfl⟩
    exact h.silent (by simp [Event.isOfQueue]) rfl
  · split
    · refine (yields_self _).bind ?_
      rintro _ _ ⟨rfl, rfl⟩
      refine yields_pure ?_
      rintro _ ⟨rfl⟩
      exact h.silent (by simp [Event.isOfQueue]) rfl
    · exact yields_pure (by simp)

theorem remove_told (hagree : g.waiting.Agree)
    (hapart : ∀ t, g.Waits t → g.active.get? t.flow = none) (h : g.Told log) (t : Ticket) :
    (g.remove t).Yields fun g' events => g'.Told (log ++ events) := by
  unfold remove
  split
  · refine (yields_self _).bind ?_
    rintro _ _ ⟨rfl, rfl⟩
    exact yields_pure (h.silent (by simp [Event.isOfQueue]) rfl)
  · dsimp only
    split
    · refine (yields_self _).bind ?_
      rintro _ _ ⟨rfl, rfl⟩
      exact yields_pure (h.silent (by simp [Event.isOfQueue]) rfl)
    · refine (yields_self _).bind ?_
      rintro _ _ ⟨rfl, rfl⟩
      have hfreed : Told { g with active := g.active.erase t.flow }
          (log ++ [.freed t (g.active.erase t.flow).size]) :=
        h.silent (by simp [Event.isOfQueue]) rfl
      split
      · refine (callNext?_told (g := { g with active := g.active.erase t.flow }) hagree
          (apart_erase hapart t.flow) hfreed).bind fun r first htold => yields_pure ?_
        simpa using htold.1
      · exact yields_pure (by simpa using hfreed)

theorem setExpiry_sound (h : g.Sound) (t : Ticket) (expiresAt : Nat) :
    (g.setExpiry t expiresAt).Sound := by
  cases hparty : g.active.get? t.flow with
  | none => simpa [setExpiry, hparty] using h
  | some party =>
      cases hget : party.get? t.id with
      | none => simpa [setExpiry, hparty, hget] using h
      | some a =>
          obtain ⟨hflow, hid⟩ := h.filed t.flow party t.id a hparty hget
          have hadmits := h.admits_of_get? hparty hget
          have heq : g.setExpiry t expiresAt = g.setExpiry a.ticket expiresAt := by
            simp only [setExpiry, hflow, hid]
          rw [heq, setExpiry_eq_file hadmits]
          exact h.file_of_admits hadmits _

theorem enqueue_told (hsound : g.Sound) (h : g.Told log) (hnone : g.enter? t = .ok none [])
    (hok : g.enqueue t = .ok g' events) : g'.Sound ∧ g'.Told (log ++ events) := by
  obtain ⟨-, hrefused, -⟩ := (enter?_gives hsound t).of_eq_ok hnone
  obtain ⟨-, hinactive, hfull⟩ := hrefused rfl
  obtain ⟨waiting, first, _, hinsert, hrest, rfl⟩ := Logged.bind_eq_ok_iff.mp hok
  have hnew : g.waiting.tickets.get? t.id = none := by
    apply Catalog.contains_eq_false_iff.mp
    apply Bool.eq_false_iff.mpr
    intro hcontains
    rw [WaitList.insert_eq_fail hcontains] at hinsert
    cases hinsert
  obtain ⟨-, -, rfl⟩ := (WaitList.insert_gives hsound.agree hnew).of_eq_ok hinsert
  obtain ⟨-, hsound', -, hwaits⟩ := (enqueue_gives hsound hnew hinactive hfull).of_eq_ok hok
  obtain ⟨_, _, _, hemit, hpure, rfl⟩ := Logged.bind_eq_ok_iff.mp hrest
  cases hemit
  cases hpure
  refine ⟨hsound', ?_⟩
  rw [← List.append_assoc]
  exact (h.register hwaits).silent (by simp [Event.isOfQueue]) rfl

theorem withdraw?_told (hsound : g.Sound) (h : g.Told log)
    (hok : g.withdraw? t = .ok (some g') events) : g'.Sound ∧ g'.Told (log ++ events) := by
  cases hfound : g.waiting.tickets.get? t.id with
  | none =>
      obtain ⟨hnone, -⟩ := (withdraw?_gives_none hfound).of_eq_ok hok
      cases hnone
  | some u =>
      obtain ⟨hid, hu⟩ := hsound.waits_of_get? hfound
      rw [withdraw?, ← hid, ← withdraw?] at hok
      obtain ⟨-, waiting, heq, hsound', hwaits⟩ := (withdraw?_gives hsound hu).of_eq_ok hok
      cases heq
      obtain ⟨_, first, _, hremove, hrest, rfl⟩ := Logged.bind_eq_ok_iff.mp hok
      obtain ⟨_, rfl, -, -, rfl⟩ := (WaitList.remove_gives hsound.agree hu).of_eq_ok hremove
      cases hrest
      refine ⟨hsound', ?_⟩
      rw [List.append_nil]
      exact h.deregister hwaits

theorem Move.told (hsound : g.Sound) (h : g.Told log) (hmove : g.Move events g') :
    g'.Sound ∧ g'.Told (log ++ events) := by
  cases hmove with
  | enter hok =>
      obtain ⟨-, -, hsome⟩ := (enter?_gives hsound _).of_eq_ok hok
      exact ⟨(hsome g' rfl).2.2, enter?_told h _ _ _ hok g' rfl⟩
  | queue hnone hok => exact enqueue_told hsound h hnone hok
  | withdraw hok => exact withdraw?_told hsound h hok
  | hear t => exact ⟨hsound.hear t, h.silent (by simp) rfl⟩
  | setExpiry t expiresAt =>
      refine ⟨setExpiry_sound hsound t expiresAt, h.silent (by simp) ?_⟩
      unfold Gate.setExpiry
      split
      · rfl
      · split <;> rfl
  | remove hok =>
      exact ⟨((remove_sound hsound _).of_eq_ok hok).1, remove_told hsound.agree hsound.apart h _ _ _ hok⟩
  | say hevent => exact ⟨hsound, h.silent (by simpa using hevent) rfl⟩

theorem Moves.told (hsound : g.Sound) (h : g.Told log) (hmoves : g.Moves events g') :
    g'.Sound ∧ g'.Told (log ++ events) := by
  induction hmoves generalizing log with
  | nil => exact ⟨hsound, by simpa using h⟩
  | cons hmove _ ih =>
      obtain ⟨hsound', h'⟩ := hmove.told hsound h
      rw [← List.append_assoc]
      exact ih hsound' h'

theorem callUpTo_told_of_capacity (hsound : g.Sound) (h : g.Told log) (capacity : Option Nat)
    (limit : Nat) :
    (callUpTo limit { g with capacity }).Yields fun r events => r.2.Told (log ++ events) :=
  callUpTo_told (g := { g with capacity }) hsound.agree hsound.apart ⟨h.queue_iff, h.inOrder⟩ limit

theorem Turn.told (hsound : g.Sound) (h : g.Told log) (hturn : g.Turn events g') :
    g'.Told (log ++ events) := by
  cases hturn with
  | moves hmoves => exact (hmoves.told hsound h).2
  | setCapacity hok =>
      obtain ⟨r, first, _, hcall, hrest, rfl⟩ := Logged.bind_eq_ok_iff.mp hok
      obtain ⟨_, _, _, hemit, hpure, rfl⟩ := Logged.bind_eq_ok_iff.mp hrest
      cases hemit
      cases hpure
      rw [← List.append_assoc]
      exact (callUpTo_told_of_capacity hsound h _ _ _ _ hcall).silent (by simp [Event.isOfQueue]) rfl
  | liftCapacity hok =>
      obtain ⟨r, first, _, hcall, hrest, rfl⟩ := Logged.bind_eq_ok_iff.mp hok
      obtain ⟨_, _, _, hemit, hpure, rfl⟩ := Logged.bind_eq_ok_iff.mp hrest
      cases hemit
      cases hpure
      rw [← List.append_assoc]
      exact (callUpTo_told_of_capacity hsound h _ _ _ _ hcall).silent (by simp [Event.isOfQueue]) rfl

end Gate

namespace Session

open Logged (Gives gives_pure_iff)

variable {s : Session} {log : List Event}

/-- What one step tells of the wait list, a run tells, by induction. -/
theorem run_told (h : s.Sound []) (htold : s.gate.Told log) (steps : List Step) :
    (s.run steps).Gives fun r events => r.2.gate.Told (log ++ events) := by
  induction steps generalizing s log with
  | nil => exact gives_pure_iff.mpr (by simpa using htold)
  | cons st steps ih =>
      have hstep : (s.step st).Gives fun r events =>
          r.2.Sound [] ∧ r.2.gate.Told (log ++ events) := by
        obtain ⟨r, events, hok, hstep⟩ := step_gives h st
        exact ⟨r, events, hok, hstep.sound, (step_turns s st r events hok).told h.gate htold⟩
      rw [run]
      apply hstep.bind
      rintro ⟨reply, s'⟩ events ⟨h', htold'⟩
      apply (ih h' htold').bind
      rintro ⟨replies, s''⟩ later hrest
      exact gives_pure_iff.mpr (by simpa using hrest)

end Session

open Logged (Gives)

/--
Where the views agree and no flow is active and waited for, a call lets in the first flows of the ranking, in
that order, as many as it may, as wait and as there is room for, each with all its tickets, and changes nothing
else. In every run, the log tells who waits, and whenever a flow is called in, it tells that one of its tickets
precedes everyone who stays.
-/
theorem calls_follow_ranking :
    (∀ g : Gate, g.waiting.Agree → (∀ t, g.Waits t → g.active.get? t.flow = none) →
      ∀ limit, (g.callUpTo limit).Gives fun r events =>
        r.1 = g.callable limit ∧
          Gate.calledFlows events = g.waiting.dueFlows.take (g.callable limit) ∧
            g.LetsIn (g.waiting.dueFlows.take (g.callable limit)) r.2) ∧
      ∀ settings clock timer steps, ((Session.new settings clock timer).run steps).Gives fun r log =>
        (∀ t, t ∈ queueAfter log ↔ r.2.gate.Waits t) ∧
          ∀ before flow n m k, before ++ [.calledIn flow n m k] <+: log →
            CallsInOrder before flow n := by
  constructor
  · exact fun g hagree hapart limit => Gate.callUpTo_lets_in hagree hapart limit
  · intro settings clock timer steps
    have hnobody : (Session.new settings clock timer).gate.Told [] := by
      refine ⟨fun t => ?_, inOrder_nil⟩
      simp [queueAfter, Gate.Waits, Session.new, Gate.new, WaitList.empty]
    refine (Session.run_told (Session.sound_new settings clock timer) hnobody steps).mono ?_
    rintro r events ⟨hqueue, horder⟩
    exact ⟨hqueue, horder⟩

/-- Of two flows that wait for one place, that of the urgent ticket is called in, though it came later. -/
theorem urgent_flow_is_called_first :
    ((Session.new ⟨some 0, .fixed 0⟩ (.starting 0) true).run
        [.wait "1" "t" (.plain ⟨"udp", "a", "b"⟩), .wait "2" "t" ⟨⟨"tcp", "a", "c"⟩, "dial", .highest⟩,
          .wait "3" "t" (.plain ⟨"udp", "a", "b"⟩)]).Gives fun r _ =>
      (Gate.callUpTo 2 { r.2.gate with capacity := some 1 }).Gives fun called events =>
        called.1 = 1 ∧ Gate.calledFlows events = [⟨"tcp", "a", "c"⟩] ∧
          Gate.LetsIn { r.2.gate with capacity := some 1 } [⟨"tcp", "a", "c"⟩] called.2 := by
  have hwaiting : ((Session.new ⟨some 0, .fixed 0⟩ (.starting 0) true).run
      [.wait "1" "t" (.plain ⟨"udp", "a", "b"⟩), .wait "2" "t" ⟨⟨"tcp", "a", "c"⟩, "dial", .highest⟩,
        .wait "3" "t" (.plain ⟨"udp", "a", "b"⟩)]).Gives fun r _ =>
      r.2.gate.active.size = 0 ∧ r.2.gate.waiting.tickets.values =
        [⟨.plain ⟨"udp", "a", "b"⟩, 1, 0⟩, ⟨⟨⟨"tcp", "a", "c"⟩, "dial", .highest⟩, 2, 0⟩,
          ⟨.plain ⟨"udp", "a", "b"⟩, 3, 0⟩] := by
    decide +kernel
  obtain ⟨r, log, hok, hnone, hvalues⟩ := hwaiting
  have hsound : r.2.gate.Sound :=
    ((Session.run_proceeds (Session.sound_new _ _ _) _).of_eq_ok hok).sound.gate
  have hdue : r.2.gate.waiting.dueFlows = [⟨"tcp", "a", "c"⟩, ⟨"udp", "a", "b"⟩] := by
    rw [WaitList.dueFlows, hvalues]
    simp [Ticket.ranking, Ticket.dueBy, Ticket.urgency, Ticket.forFlow, Request.plain, Priority.normal,
      Priority.highest, List.mergeSort, List.max?]
  have hcallable : Gate.callable { r.2.gate with capacity := some 1 } 2 = 1 := by
    simp [Gate.callable, hdue, hnone]
  obtain ⟨called, events, hcall, hcount, hflows, hlets⟩ :=
    calls_follow_ranking.1 { r.2.gate with capacity := some 1 } hsound.agree hsound.apart 2
  rw [hcallable] at hcount hflows hlets
  simp only [hdue] at hflows hlets
  exact ⟨r, log, hok, called, events, hcall, hcount, hflows, hlets⟩

end FlowGate
