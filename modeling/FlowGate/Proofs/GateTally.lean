import FlowGate.Proofs.EventTally
import FlowGate.Proofs.GateMoves
import FlowGate.Proofs.GateRefill

namespace FlowGate

/-- How many tickets are active under a number of flows. -/
def ticketsIn (active : Catalog Flow Party) : Nat := (active.values.map Catalog.size).sum

section TicketsIn

variable {active : Catalog Flow Party} {flow : Flow} {party : Party}

end TicketsIn

namespace Gate

open Logged (Yields Gives gives_pure_iff gives_emit_bind_iff yields_self yields_pure)

/-- How many tickets are active at a gate. -/
def ticketCount (g : Gate) : Nat := ticketsIn g.active

/-- Events account for all that changes at a gate, and every count that they give is right. -/
structure Balances (g : Gate) (events : List Event) (g' : Gate) : Prop where
  flows : (g'.active.size : Int) = g.active.size + flowsTold events
  tickets : (g'.ticketCount : Int) = g.ticketCount + ticketsTold events
  waiting : (g'.waiting.size : Int) = g.waiting.size + waitingTold events
  announced : Announced g.active.size g.waiting.size events

/-- No event tells how many flows a change of the capacity called in. -/
def NoCallCount (events : List Event) : Prop :=
  ∀ event ∈ events, event.number? "woken" = none

/-- Events that account for what changes, where the capacity does not. -/
structure Tallies (g : Gate) (events : List Event) (g' : Gate) : Prop
    extends g.Balances events g' where
  noCallCount : NoCallCount events

variable {g g' g'' : Gate} {t u : Ticket} {event : Event} {events first later : List Event}

theorem Balances.append (h : g.Balances first g') (h' : g'.Balances later g'') :
    g.Balances (first ++ later) g'' := by
  refine ⟨?_, ?_, ?_, ?_⟩
  · rw [h'.flows, h.flows, flowsTold_append, Int.add_assoc]
  · rw [h'.tickets, h.tickets, ticketsTold_append, Int.add_assoc]
  · rw [h'.waiting, h.waiting, waitingTold_append, Int.add_assoc]
  · rw [announced_append_iff, ← h.flows, ← h.waiting]
    exact ⟨h.announced, h'.announced⟩

theorem NoCallCount.append (h : NoCallCount first) (h' : NoCallCount later) :
    NoCallCount (first ++ later) := by
  intro event hmem
  rcases List.mem_append.mp hmem with hmem | hmem
  · exact h event hmem
  · exact h' event hmem

theorem Tallies.append (h : g.Tallies first g') (h' : g'.Tallies later g'') :
    g.Tallies (first ++ later) g'' :=
  ⟨h.toBalances.append h'.toBalances, h.noCallCount.append h'.noCallCount⟩

theorem tallies_nil (hflows : g'.active.size = g.active.size)
    (htickets : g'.ticketCount = g.ticketCount) (hwaiting : g'.waiting.size = g.waiting.size) :
    g.Tallies [] g' := by
  refine ⟨⟨?_, ?_, ?_, trivial⟩, by simp [NoCallCount]⟩
  · rw [hflows, flowsTold_nil, Int.add_zero]
  · rw [htickets, ticketsTold_nil, Int.add_zero]
  · rw [hwaiting, waitingTold_nil, Int.add_zero]

theorem Tallies.refl (g : Gate) : g.Tallies [] g := tallies_nil rfl rfl rfl

theorem balances_single (hflows : (g'.active.size : Int) = g.active.size + event.flowChange)
    (htickets : (g'.ticketCount : Int) = g.ticketCount + event.ticketChange)
    (hwaiting : (g'.waiting.size : Int) = g.waiting.size + event.queueChange)
    (hflowsGiven : ∀ n, event.flowsGiven = some n → n = g'.active.size)
    (hwaitingGiven : ∀ n, event.waitingGiven = some n → n = g'.waiting.size) :
    g.Balances [event] g' := by
  refine ⟨?_, ?_, ?_, ?_, trivial⟩
  · rw [hflows, flowsTold_cons, flowsTold_nil, Int.add_zero]
  · rw [htickets, ticketsTold_cons, ticketsTold_nil, Int.add_zero]
  · rw [hwaiting, waitingTold_cons, waitingTold_nil, Int.add_zero]
  · rw [← hflows, ← hwaiting]
    exact Event.announces_of_given (fun n hn => congrArg _ (hflowsGiven n hn))
      fun n hn => congrArg _ (hwaitingGiven n hn)

section Operations

/-- Every change of the capacity that is told of gives the number of the calls that are told of. -/
def CountsCalls (events : List Event) : Prop :=
  ∀ event ∈ events, ∀ n, event.number? "woken" = some n → n = said "Woke queued entry" events

theorem said_eq_calledFlows_length (events : List Event) :
    said "Woke queued entry" events = (calledFlows events).length := by
  induction events with
  | nil => rfl
  | cons event events ih =>
      rw [said_cons, ih, calledFlows, calledFlows]
      cases event <;> simp [Event.record]

theorem Tallies.told (h : g.Tallies events g') {called : Nat}
    (hcalled : called = said "Woke queued entry" events)
    (hevent : (∃ capacity previous, event = .capacitySet capacity previous called g'.active.size) ∨
      event = .capacityLifted called) :
    g.Balances (events ++ [event]) g' ∧ CountsCalls (events ++ [event]) := by
  have hsingle : g'.Balances [event] g' := by
    rcases hevent with ⟨capacity, previous, rfl⟩ | rfl <;>
      exact balances_single (Int.add_zero _).symm (Int.add_zero _).symm (Int.add_zero _).symm
        (by simp [Event.flowsGiven]) (by simp [Event.waitingGiven])
  have hsaid : said "Woke queued entry" (events ++ [event]) = called := by
    rw [said_eq_calledFlows_length, calledFlows_append, hcalled, said_eq_calledFlows_length]
    rcases hevent with ⟨capacity, previous, rfl⟩ | rfl <;> simp [calledFlows]
  refine ⟨h.toBalances.append hsingle, ?_⟩
  intro other hmem n hn
  rw [hsaid]
  rcases List.mem_append.mp hmem with hmem | hmem
  · rw [h.noCallCount other hmem] at hn
    cases hn
  · obtain rfl := List.mem_singleton.mp hmem
    rw [Event.number?_woken] at hn
    rcases hevent with ⟨capacity, previous, rfl⟩ | rfl <;> exact (Option.some.inj hn).symm

end Operations

end Gate

end FlowGate
