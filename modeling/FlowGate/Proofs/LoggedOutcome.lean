import FlowGate.Logged

/-!
Computations that succeed. `Gives` says that no check fails in a computation, and that its result and its
events satisfy a condition; `Gives.bind` proves this of a computation in two parts. `Yields` says the same of
a computation in which a check may fail.
-/

namespace FlowGate.Logged

variable {α β : Type}

theorem bind_pure_eq_ok {x : Logged α} {f : α → β} {b : β} {events : List Event}
    (hok : (x >>= fun a => pure (f a)) = .ok b events) : ∃ a, x = .ok a events ∧ f a = b := by
  obtain ⟨a, first, later, hfirst, hpure, rfl⟩ := bind_eq_ok_iff.mp hok
  cases hpure
  exact ⟨a, by rw [hfirst, List.append_nil], rfl⟩

/-- No check fails, and the result and the events satisfy a condition. -/
def Gives (x : Logged α) (P : α → List Event → Prop) : Prop :=
  ∃ a events, x = .ok a events ∧ P a events

instance {x : Logged α} {P : α → List Event → Prop} [∀ a events, Decidable (P a events)] :
    Decidable (x.Gives P) :=
  match x with
  | .ok a events => decidable_of_iff (P a events)
    ⟨fun hP => ⟨a, events, rfl, hP⟩, fun ⟨_, _, hok, hP⟩ => by cases hok; exact hP⟩
  | .fail _ => .isFalse nofun

theorem gives_pure_iff {a : α} {P : α → List Event → Prop} :
    (pure a : Logged α).Gives P ↔ P a [] := by
  constructor
  · rintro ⟨b, events, hok, hP⟩
    cases hok
    exact hP
  · intro hP
    exact ⟨a, [], rfl, hP⟩

theorem gives_emit_iff {event : Event} {P : Unit → List Event → Prop} :
    (emit event).Gives P ↔ P () [event] := by
  constructor
  · rintro ⟨u, events, hok, hP⟩
    cases hok
    exact hP
  · intro hP
    exact ⟨(), [event], rfl, hP⟩

theorem Gives.mono {x : Logged α} {P Q : α → List Event → Prop} (hx : x.Gives P)
    (h : ∀ a events, P a events → Q a events) : x.Gives Q := by
  obtain ⟨a, events, hok, hP⟩ := hx
  exact ⟨a, events, hok, h a events hP⟩

theorem Gives.bind {x : Logged α} {next : α → Logged β} {P : α → List Event → Prop}
    {Q : β → List Event → Prop} (hx : x.Gives P)
    (hnext : ∀ a first, P a first → (next a).Gives fun b later => Q b (first ++ later)) :
    (x >>= next).Gives Q := by
  obtain ⟨a, first, hok, hP⟩ := hx
  obtain ⟨b, later, hlater, hQ⟩ := hnext a first hP
  exact ⟨b, first ++ later, bind_eq_ok_iff.mpr ⟨a, first, later, hok, hlater, rfl⟩, hQ⟩

theorem gives_emit_bind_iff {event : Event} {next : Unit → Logged β}
    {Q : β → List Event → Prop} :
    (emit event >>= next).Gives Q ↔ (next ()).Gives fun b later => Q b (event :: later) := by
  constructor
  · rintro ⟨b, events, hok, hQ⟩
    obtain ⟨u, first, later, hemit, hlater, rfl⟩ := bind_eq_ok_iff.mp hok
    cases hemit
    exact ⟨b, later, hlater, hQ⟩
  · intro hnext
    apply Gives.bind (gives_emit_iff.mpr rfl : (emit event).Gives fun _ first => first = [event])
    rintro u first rfl
    exact hnext

theorem Gives.of_eq_ok {x : Logged α} {P : α → List Event → Prop} {a : α} {events : List Event}
    (hx : x.Gives P) (hok : x = .ok a events) : P a events := by
  obtain ⟨b, later, hok', hP⟩ := hx
  rw [hok] at hok'
  cases hok'
  exact hP

/-- If no check fails, the result and the events satisfy a condition. -/
def Yields (x : Logged α) (P : α → List Event → Prop) : Prop :=
  ∀ a events, x = .ok a events → P a events

theorem yields_self (x : Logged α) : x.Yields fun a events => x = .ok a events :=
  fun _ _ hok => hok

theorem yields_pure {a : α} {P : α → List Event → Prop} (h : P a []) :
    (pure a : Logged α).Yields P := by
  rintro _ _ ⟨rfl, rfl⟩
  exact h

theorem yields_fail {fault : Fault} {P : α → List Event → Prop} :
    (fail fault : Logged α).Yields P := by
  rintro _ _ ⟨⟩

theorem Yields.mono {x : Logged α} {P Q : α → List Event → Prop} (hx : x.Yields P)
    (h : ∀ a events, P a events → Q a events) : x.Yields Q :=
  fun a events hok => h a events (hx a events hok)

theorem Yields.bind {x : Logged α} {next : α → Logged β} {P : α → List Event → Prop}
    {Q : β → List Event → Prop} (hx : x.Yields P)
    (hnext : ∀ a first, P a first → (next a).Yields fun b later => Q b (first ++ later)) :
    (x >>= next).Yields Q := by
  intro b events hok
  obtain ⟨a, first, later, hfirst, hlater, rfl⟩ := bind_eq_ok_iff.mp hok
  exact hnext a first (hx a first hfirst) b later hlater

theorem Gives.yields {x : Logged α} {P : α → List Event → Prop} (hx : x.Gives P) : x.Yields P :=
  fun _ _ hok => hx.of_eq_ok hok

end FlowGate.Logged
