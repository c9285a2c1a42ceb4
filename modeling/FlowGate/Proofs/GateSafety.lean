import FlowGate.Proofs.SessionRuns

namespace FlowGate.Session

open Gate (hasSpace_eq_false_iff)
open Logged (Gives)

variable {s s' : Session} {slot token : String} {request : Request}

/--
No check fails in any run, and at its end no active flow is waited for and every active flow has a ticket.
-/
theorem run_never_fails (settings : Settings) (clock : Clock) (timer : Bool) (steps : List Step) :
    (∀ fault, (new settings clock timer).run steps ≠ .fail fault) ∧
      (new settings clock timer).After steps fun s =>
        (∀ id t, s.gate.waiting.tickets.get? id = some t →
            s.gate.active.contains t.flow = false) ∧
          ∀ flow party, s.gate.active.get? flow = some party → party ≠ .empty := by
  have hrun := run_proceeds (sound_new settings clock timer) steps
  constructor
  · intro fault hfail
    obtain ⟨r, events, hok, -⟩ := hrun
    rw [hfail] at hok
    cases hok
  · refine hrun.mono ?_
    rintro ⟨replies, s⟩ events hproceeds
    have hgate : s.gate.Sound := hproceeds.sound.gate
    refine ⟨?_, hgate.inhabited⟩
    intro id t ht
    obtain ⟨-, hwaits⟩ := hgate.waits_of_get? ht
    exact Catalog.contains_eq_false_iff.mpr (hgate.apart t hwaits)

/-- A step by which a request is made, to wait or to be let in at once. -/
inductive Requests (s : Session) (request : Request) : Step → Prop where
  | ask {slot token : String} {st : Step} (h : s.FirstAsk slot token request st) :
      Requests s request st
  | enter {slot : String} (hslot : s.slots.get? slot = none) (hkept : s.kept = true) :
      Requests s request (.enter slot request)

theorem Asked.entered_iff {answer : Answer}
    (h : s.Asked slot token (s.nextTicket request) answer s') :
    answer = .entered s.nextId ↔
      s.gate.active.contains request.flow = true ∨ s.gate.hasSpace = true := by
  cases h with
  | entered hroom => exact iff_of_true rfl hroom
  | refused hinactive hfull hcancelled =>
      exact iff_of_false nofun (no_room hinactive hfull)
  | pending hinactive hfull hcancelled waiting hwaits =>
      exact iff_of_false nofun (no_room hinactive hfull)

theorem Accounts.not_inside_nextTicket (haccounts : s.Accounts []) :
    ¬s.gate.Inside (s.nextTicket request) := by
  intro hinside
  exact Nat.lt_irrefl _ (haccounts.id_lt_of_inside hinside)

theorem Asked.inside_iff {answer : Answer}
    (h : s.Asked slot token (s.nextTicket request) answer s') (haccounts : s.Accounts []) :
    s'.gate.Inside (s.nextTicket request) ↔
      s.gate.active.contains request.flow = true ∨ s.gate.hasSpace = true := by
  cases h with
  | entered hroom =>
      refine iff_of_true ⟨none, ?_⟩ hroom
      exact Gate.admits_file_iff.mpr (.inl ⟨rfl, rfl⟩)
  | refused hinactive hfull hcancelled =>
      exact iff_of_false (Accounts.not_inside_nextTicket haccounts) (no_room hinactive hfull)
  | pending hinactive hfull hcancelled waiting hwaits =>
      exact iff_of_false (Accounts.not_inside_nextTicket haccounts) (no_room hinactive hfull)

theorem request_gives (h : s.Sound []) {st : Step} (hrequest : s.Requests request st) :
    (s.step st).Gives fun r _ =>
      (r.1 = .answer (.entered s.nextId) ↔
          s.gate.active.contains request.flow = true ∨ s.gate.hasSpace = true) ∧
        (r.2.gate.Inside (s.nextTicket request) ↔
          s.gate.active.contains request.flow = true ∨ s.gate.hasSpace = true) := by
  cases hrequest with
  | ask hask =>
      refine (firstAsk_gives h hask).mono ?_
      rintro ⟨_, s'⟩ events ⟨-, -, answer, rfl, hasked⟩
      refine ⟨?_, hasked.inside_iff (h.accounts hask.alive)⟩
      rw [← hasked.entered_iff, Reply.answer.injEq]
  | enter hslot hkept =>
      have haccounts := h.accounts (alive_iff.mpr (.inl hkept))
      refine (enter_gives h hslot hkept request).mono ?_
      rintro ⟨reply, s'⟩ events ⟨-, -, ⟨rfl, hasked⟩ | ⟨hinactive, hfull, heq⟩⟩
      · have hroom := hasked.entered_iff.mp rfl
        exact ⟨iff_of_true rfl hroom, iff_of_true ((hasked.inside_iff haccounts).mpr hroom) hroom⟩
      · cases heq
        have hnoroom := no_room hinactive hfull
        exact ⟨iff_of_false nofun hnoroom,
          iff_of_false (Accounts.not_inside_nextTicket haccounts) hnoroom⟩

/--
After every run: if anybody waits, the capacity is finite and used up; and a request for a flow that is not
active is let in exactly if there is room, whatever its priority, and never while anybody waits.
-/
theorem full_while_anyone_waits (settings : Settings) (clock : Clock) (timer : Bool)
    (steps : List Step) :
    (new settings clock timer).After steps fun s =>
      (s.gate.waiting.tickets ≠ .empty →
          ∃ m, s.gate.capacity = some m ∧ m ≤ s.gate.active.size) ∧
        ∀ request st, s.Requests request st → s.gate.active.contains request.flow = false →
          (s.step st).Gives fun next _ =>
            (next.1 = .answer (.entered s.nextId) ↔ s.gate.hasSpace = true) ∧
              (next.2.gate.Inside (s.nextTicket request) ↔ s.gate.hasSpace = true) ∧
                (s.gate.waiting.tickets ≠ .empty →
                  next.1 ≠ .answer (.entered s.nextId) ∧
                    ¬next.2.gate.Inside (s.nextTicket request)) := by
  refine (run_proceeds (sound_new settings clock timer) steps).mono ?_
  rintro ⟨replies, s⟩ events hrun
  have hsound : s.Sound [] := hrun.sound
  constructor
  · exact fun hwaiting => hasSpace_eq_false_iff.mp (hsound.gate.full_of_waiting hwaiting)
  · intro request st hrequest hinactive
    refine (request_gives hsound hrequest).mono ?_
    rintro ⟨reply, s'⟩ _ ⟨hentered, hinside⟩
    simp only [hinactive, Bool.false_eq_true, false_or] at hentered hinside
    refine ⟨hentered, hinside, ?_⟩
    intro hwaiting
    have hfull : ¬s.gate.hasSpace = true := by
      rw [hsound.gate.full_of_waiting hwaiting]
      exact Bool.false_ne_true
    exact ⟨fun heq => hfull (hentered.mp heq), fun hin => hfull (hinside.mp hin)⟩

end FlowGate.Session
