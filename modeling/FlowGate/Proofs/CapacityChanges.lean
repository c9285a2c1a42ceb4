import FlowGate.Proofs.GateRefill
import FlowGate.Proofs.SessionRuns

namespace FlowGate

namespace Gate

variable {g g₁ g₂ : Gate}

theorem admissible_withCapacity (g : Gate) (capacity : Nat) :
    admissible { g with capacity := some capacity } =
      g.waiting.dueFlows.take (capacity - g.active.size) := by
  rw [admissible, callable, Nat.min_self, List.take_eq_take_iff]
  dsimp only
  omega

theorem Settles.setAgain (h : g.Sound) {first last : Nat} (hle : first ≤ last)
    (hfirst : Settles { g with capacity := some first } g₁)
    (hlast : Settles { g₁ with capacity := some last } g₂) :
    Settles { g with capacity := some last } g₂ := by
  have hlets := LetsIn.withCapacity hfirst (some last)
  have hopened := h.toConsistent.withCapacity (some last)
  refine (LetsIn.settles (g := { g with capacity := some last }) hopened.agree hopened.apart ?_ hlets
    hlast).2
  simp only [callable]
  omega

end Gate

namespace Session

open Logged (Gives gives_pure_iff)

variable {s : Session}

theorem step_setCapacity_settles (h : s.Sound []) (hkept : s.kept = true) (capacity : Nat) :
    (s.step (.setCapacity capacity)).Gives fun r events =>
      r.2.Sound [] ∧
        (∃ gate, r.2 = { s with gate } ∧ Gate.Settles { s.gate with capacity := some capacity } gate) ∧
        Gate.calledFlows events = Gate.admissible { s.gate with capacity := some capacity } ∧
          .capacitySet capacity s.gate.capacity (Gate.calledFlows events).length
            r.2.gate.active.size ∈ events := by
  obtain ⟨r, events, hok, hstep⟩ := step_gives h (.setCapacity capacity)
  refine ⟨r, events, hok, hstep.sound, ?_⟩
  rw [step, withGate, if_pos hkept] at hok
  obtain ⟨gate, first, _, hset, hpure, rfl⟩ := Logged.bind_eq_ok_iff.mp hok
  cases hpure
  obtain ⟨hsettles, hcalled, hsaid⟩ := (Gate.setCapacity_settles h.gate capacity).of_eq_ok hset
  rw [List.append_nil]
  exact ⟨⟨gate, rfl, hsettles⟩, hcalled, hsaid⟩

theorem step_liftCapacity_settles (h : s.Sound []) (hkept : s.kept = true) :
    (s.step .liftCapacity).Gives fun r events =>
      (∃ gate, r.2 = { s with gate } ∧ Gate.Settles { s.gate with capacity := none } gate) ∧
        Gate.calledFlows events = s.gate.waiting.dueFlows ∧
          .capacityLifted s.gate.waiting.dueFlows.length ∈ events := by
  rw [step, withGate, if_pos hkept]
  apply (Gate.liftCapacity_settles h.gate).bind
  rintro gate events ⟨hsettles, hcalled, hsaid⟩
  rw [gives_pure_iff, List.append_nil]
  exact ⟨⟨gate, rfl, hsettles⟩, hcalled, hsaid⟩

theorem after_setCapacity_of_not_kept (hkept : s.kept = false) (capacities : List Nat) :
    s.After (capacities.map .setCapacity) (· = s) := by
  induction capacities with
  | nil => exact after_nil rfl
  | cons capacity capacities ih =>
      have hrefused : s.step (.setCapacity capacity) = .ok (.refusal .noGate, s) [] := by
        rw [step, withGate, if_neg (Bool.eq_false_iff.mp hkept)]
        rfl
      exact .cons hrefused ih

theorem after_setCapacity (h : s.Sound []) (hkept : s.kept = true) {capacities : List Nat}
    {last : Nat} (hle : ∀ capacity ∈ capacities, capacity ≤ last) :
    s.After (capacities.map .setCapacity ++ [.setCapacity last]) fun s' =>
      ∃ gate, s' = { s with gate } ∧ Gate.Settles { s.gate with capacity := some last } gate := by
  induction capacities generalizing s with
  | nil =>
      apply after_single
      exact (step_setCapacity_settles h hkept last).mono fun r events hset => hset.2.1
  | cons capacity capacities ih =>
      obtain ⟨hcapacity, hle⟩ := List.forall_mem_cons.mp hle
      obtain ⟨⟨reply, _⟩, events, hok, hsound, ⟨gate₁, rfl, hfirst⟩, -⟩ :=
        step_setCapacity_settles h hkept capacity
      refine .cons hok ((ih hsound hkept hle).mono ?_)
      rintro ⟨replies, _⟩ later ⟨gate₂, rfl, hlast⟩
      exact ⟨gate₂, rfl, hfirst.setAgain h.gate hcapacity hlast⟩

/--
After every run: a capacity that is set calls in, of the flows that are waited for, those that are due
first, as many as there are places left, with all their tickets and no other; a capacity that is lifted
calls them all in. And of capacities set one after the other, none of them above the last, the last one
alone counts.
-/
theorem capacity_fills_places (settings : Settings) (clock : Clock) (timer : Bool) (steps : List Step) :
    (new settings clock timer).After steps fun s =>
      (s.kept = true →
        (∀ m, (s.step (.setCapacity m)).Gives fun next events =>
          Gate.calledFlows events = s.gate.waiting.dueFlows.take (m - s.gate.active.size) ∧
            (Gate.calledFlows events).length =
              min s.gate.waiting.dueFlows.length (m - s.gate.active.size) ∧
            .capacitySet m s.gate.capacity (Gate.calledFlows events).length
              next.2.gate.active.size ∈ events ∧
            Gate.LetsIn { s.gate with capacity := some m } (Gate.calledFlows events) next.2.gate) ∧
        (s.step .liftCapacity).Gives fun next events =>
          Gate.calledFlows events = s.gate.waiting.dueFlows ∧
            .capacityLifted s.gate.waiting.dueFlows.length ∈ events ∧
            Gate.LetsIn { s.gate with capacity := none } s.gate.waiting.dueFlows next.2.gate) ∧
      ∀ (ms : List Nat) (m : Nat), (∀ k ∈ ms, k ≤ m) →
        ∃ s', s.After (ms.map .setCapacity ++ [.setCapacity m]) (· = s') ∧
          s.After [.setCapacity m] (· = s') := by
  refine (run_proceeds (sound_new settings clock timer) steps).mono ?_
  rintro ⟨replies, s⟩ events hrun
  have hsound : s.Sound [] := hrun.sound
  refine ⟨fun hkept => ⟨fun m => ?_, ?_⟩, fun ms m hle => ?_⟩
  · refine (step_setCapacity_settles hsound hkept m).mono ?_
    rintro ⟨reply, _⟩ events ⟨-, ⟨gate, rfl, hsettles⟩, hcalled, hsaid⟩
    rw [Gate.Settles, ← hcalled] at hsettles
    rw [Gate.admissible_withCapacity] at hcalled
    refine ⟨hcalled, ?_, hsaid, hsettles⟩
    rw [hcalled, List.length_take, Nat.min_comm]
  · refine (step_liftCapacity_settles hsound hkept).mono ?_
    rintro ⟨reply, _⟩ events ⟨⟨gate, rfl, hsettles⟩, hcalled, hsaid⟩
    rw [Gate.Settles, Gate.admissible_of_unbounded rfl] at hsettles
    exact ⟨hcalled, hsaid, hsettles⟩
  · cases hkept : s.kept with
    | false =>
        have hrefused := after_setCapacity_of_not_kept hkept
        refine ⟨s, ?_, hrefused [m]⟩
        have hall := hrefused (ms ++ [m])
        rwa [List.map_append] at hall
    | true =>
        obtain ⟨r, first, hok, gate, hstate, hsettles⟩ := after_setCapacity hsound hkept hle
        have hnone : ∀ k ∈ ([] : List Nat), k ≤ m := by simp
        obtain ⟨r', later, hok', gate', hstate', hsettles'⟩ := after_setCapacity hsound hkept hnone
        have hgate : gate' = gate := hsettles'.unique hsettles
        refine ⟨r.2, ⟨r, first, hok, rfl⟩, r', later, hok', hstate'.trans ?_⟩
        rw [hgate]
        exact hstate.symm

end Session

end FlowGate
