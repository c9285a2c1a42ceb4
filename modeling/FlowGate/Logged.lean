import FlowGate.Event
import FlowGate.Fault

/-!
Computations that log events in order and stop at the first internal check that fails. They form a
lawful monad; `bind_eq_ok_iff` takes a computation in two parts apart.
-/

namespace FlowGate

/-- A result with the events on the way to it, or the check that failed. -/
inductive Logged (α : Type) where
  | ok (result : α) (events : List Event)
  | fail (fault : Fault)

namespace Logged

variable {α β γ : Type}

/-- Carry on with the result of a computation; its events come first. -/
protected def bind (x : Logged α) (next : α → Logged β) : Logged β :=
  match x with
  | .fail fault => .fail fault
  | .ok a events =>
    match next a with
    | .fail fault => .fail fault
    | .ok b later => .ok b (events ++ later)

instance : Monad Logged where
  pure a := .ok a []
  bind := Logged.bind

def emit (event : Event) : Logged Unit := .ok () [event]

theorem pure_eq (a : α) : (pure a : Logged α) = .ok a [] := rfl

theorem bind_eq (x : Logged α) (next : α → Logged β) : x >>= next = Logged.bind x next := rfl

theorem pure_bind (a : α) (next : α → Logged β) : pure a >>= next = next a := by
  rw [bind_eq, pure_eq, Logged.bind]
  cases next a <;> simp

theorem bind_pure (x : Logged α) : x >>= pure = x := by
  rw [bind_eq]
  cases x <;> simp [Logged.bind, pure_eq]

theorem bind_assoc (x : Logged α) (next : α → Logged β) (last : β → Logged γ) :
    x >>= next >>= last = x >>= fun a => next a >>= last := by
  simp only [bind_eq]
  rcases x with ⟨a, events⟩ | fault
  · simp only [Logged.bind]
    rcases next a with ⟨b, later⟩ | fault
    · rcases h : last b with _ | _ <;> simp [h]
    · rfl
  · rfl

instance : LawfulMonad Logged :=
  LawfulMonad.mk' Logged (fun x => bind_pure x) pure_bind bind_assoc

theorem bind_eq_ok_iff {x : Logged α} {next : α → Logged β} {b : β} {events : List Event} :
    x >>= next = ok b events ↔
      ∃ a first later, x = ok a first ∧ next a = ok b later ∧ events = first ++ later := by
  rw [bind_eq]
  rcases x with ⟨a, first⟩ | fault
  · rcases h : next a with ⟨b', later⟩ | fault
    · simp only [Logged.bind, h, ok.injEq]
      constructor
      · rintro ⟨rfl, rfl⟩
        exact ⟨a, first, later, ⟨rfl, rfl⟩, h, rfl⟩
      · rintro ⟨_, _, _, ⟨rfl, rfl⟩, hnext, rfl⟩
        rw [h, ok.injEq] at hnext
        simp [hnext]
    · simp [Logged.bind, h]
  · simp [Logged.bind]

end Logged

end FlowGate
