import FlowGate.Gate
import FlowGate.Proofs.WaitListViews

/-!
What holds of a gate between two operations, and the small changes that operations are made of. `Sound`
says that the views of the wait list agree, that active tickets are filed under their own flow and number,
that no flow is active and waited for, and that nobody waits while there is room.
-/

namespace FlowGate.Gate

variable {g g' : Gate} {t u : Ticket}

/-- A ticket is on the wait list. -/
def Waits (g : Gate) (t : Ticket) : Prop := g.waiting.tickets.get? t.id = some t

/-- A ticket is active, and due to go at a moment if one is set. -/
def Admits (g : Gate) (t : Ticket) (expiresAt : Option Nat) : Prop :=
  g.admission? t = some ⟨t, expiresAt⟩

/-- A ticket was called in, and its caller has not heard of it. -/
def Calling (g : Gate) (t : Ticket) : Prop := g.called.contains t.id = true

theorem admits_iff {e : Option Nat} :
    g.Admits t e ↔
      ∃ party, g.active.get? t.flow = some party ∧ party.get? t.id = some ⟨t, e⟩ :=
  Option.bind_eq_some_iff

theorem Waits.eq_of_id_eq (ht : g.Waits t) (hu : g.Waits u) (hid : t.id = u.id) : t = u := by
  rw [Waits, hid] at ht
  rw [Waits, ht] at hu
  exact Option.some.inj hu

theorem Admits.eq_of_place_eq {e e' : Option Nat} (ht : g.Admits t e) (hu : g.Admits u e')
    (hflow : t.flow = u.flow) (hid : t.id = u.id) : t = u ∧ e = e' := by
  obtain ⟨party, hparty, hget⟩ := admits_iff.mp ht
  obtain ⟨party', hparty', hget'⟩ := admits_iff.mp hu
  rw [hflow, hparty'] at hparty
  cases hparty
  rw [hid, hget'] at hget
  cases hget
  exact ⟨rfl, rfl⟩

theorem hasSpace_eq_false_iff :
    g.hasSpace = false ↔ ∃ m, g.capacity = some m ∧ m ≤ g.active.size := by
  unfold hasSpace
  cases g.capacity <;> simp

structure Consistent (g : Gate) : Prop where
  agree : g.waiting.Agree
  /-- An active flow has a ticket. -/
  inhabited : ∀ flow party, g.active.get? flow = some party → party ≠ .empty
  /-- An active ticket is filed under its own flow and number. -/
  filed : ∀ flow party id a, g.active.get? flow = some party → party.get? id = some a →
    a.ticket.flow = flow ∧ a.ticket.id = id
  /-- No flow is active and waited for. -/
  apart : ∀ t, g.Waits t → g.active.get? t.flow = none

/-- Nobody waits while there is room. -/
def Saturated (g : Gate) : Prop := ∀ t, g.Waits t → g.hasSpace = false

structure Sound (g : Gate) : Prop extends Consistent g where
  saturated : g.Saturated

theorem sound_new (capacity : Option Nat) : (new capacity).Sound := by
  refine ⟨⟨WaitList.agree_empty, ?_, ?_, ?_⟩, ?_⟩
  · simp [new]
  · simp [new]
  · simp [new]
  · intro t ht
    simp [Waits, new, WaitList.empty] at ht

theorem Consistent.admits_of_get? (h : g.Consistent) {flow : Flow} {party : Party} {id : Nat}
    {a : Admission} (hparty : g.active.get? flow = some party) (hget : party.get? id = some a) :
    g.Admits a.ticket a.expiresAt := by
  obtain ⟨rfl, rfl⟩ := h.filed flow party id a hparty hget
  exact admits_iff.mpr ⟨party, hparty, hget⟩

theorem Consistent.waits_of_get? (h : g.Consistent) {id : Nat}
    (ht : g.waiting.tickets.get? id = some t) : t.id = id ∧ g.Waits t := by
  have hid := h.agree.numbered id t ht
  refine ⟨hid, ?_⟩
  rwa [Waits, hid]

theorem Sound.not_waits_of_hasSpace (h : g.Sound) (hspace : g.hasSpace = true) :
    ¬g.Waits t := by
  intro ht
  rw [h.saturated t ht] at hspace
  cases hspace

theorem Sound.tickets_empty_of_hasSpace (h : g.Sound) (hspace : g.hasSpace = true) :
    g.waiting.tickets = .empty := by
  apply Catalog.eq_empty_iff.mpr
  intro id
  cases ht : g.waiting.tickets.get? id with
  | none => rfl
  | some t => exact absurd (h.waits_of_get? ht).2 (h.not_waits_of_hasSpace hspace)

theorem Sound.full_of_waiting (h : g.Sound) (hwaiting : g.waiting.tickets ≠ .empty) :
    g.hasSpace = false := by
  cases hspace : g.hasSpace with
  | false => rfl
  | true => exact absurd (h.tickets_empty_of_hasSpace hspace) hwaiting

def party (g : Gate) (flow : Flow) : Party := (g.active.get? flow).getD .empty

/-- File a ticket among the active ones, in place of what is filed there. -/
def file (g : Gate) (t : Ticket) (expiresAt : Option Nat) : Gate :=
  { g with active := g.active.insert t.flow ((g.party t.flow).insert t.id ⟨t, expiresAt⟩) }

theorem file_of_get? (e : Option Nat) {party : Party} (hparty : g.active.get? t.flow = some party) :
    g.file t e = { g with active := g.active.insert t.flow (party.insert t.id ⟨t, e⟩) } := by
  simp [file, Gate.party, hparty]

theorem file_of_get?_none (e : Option Nat) (hnone : g.active.get? t.flow = none) :
    g.file t e = { g with active := g.active.insert t.flow (.single t.id ⟨t, e⟩) } := by
  simp only [file, Gate.party, hnone, Option.getD_none]
  rfl

theorem get?_file_self (e : Option Nat) :
    (g.file t e).active.get? t.flow = some ((g.party t.flow).insert t.id ⟨t, e⟩) :=
  Catalog.get?_insert_self ..

theorem get?_file_of_ne {flow : Flow} (e : Option Nat) (h : flow ≠ t.flow) :
    (g.file t e).active.get? flow = g.active.get? flow :=
  Catalog.get?_insert_of_ne _ _ h

theorem get?_party_iff {flow : Flow} {id : Nat} {a : Admission} :
    (g.party flow).get? id = some a ↔
      ∃ party, g.active.get? flow = some party ∧ party.get? id = some a := by
  unfold party
  cases g.active.get? flow <;> simp

theorem admits_file_iff {e e' : Option Nat} :
    (g.file t e).Admits u e' ↔
      u = t ∧ e' = e ∨ ¬(u.flow = t.flow ∧ u.id = t.id) ∧ g.Admits u e' := by
  rw [admits_iff]
  rcases Classical.em (u.flow = t.flow) with hflow | hflow
  · rw [hflow, get?_file_self]
    simp only [Option.some.injEq, exists_eq_left', Catalog.get?_insert_eq_some_iff,
      get?_party_iff, Admission.mk.injEq, true_and, admits_iff, hflow]
    constructor
    · rintro (⟨-, rfl, rfl⟩ | hother)
      · exact .inl ⟨rfl, rfl⟩
      · exact .inr hother
    · rintro (⟨rfl, rfl⟩ | hother)
      · exact .inl ⟨rfl, rfl, rfl⟩
      · exact .inr hother
  · have hne : u ≠ t := fun h => hflow (by rw [h])
    rw [get?_file_of_ne e hflow]
    simp [hflow, hne, admits_iff]

theorem Consistent.file (h : g.Consistent) (e : Option Nat)
    (hfree : ∀ u, g.Waits u → u.flow ≠ t.flow) : (g.file t e).Consistent := by
  refine ⟨h.agree, ?_, ?_, ?_⟩
  · intro flow party hparty
    rcases Classical.em (flow = t.flow) with hflow | hflow
    · subst hflow
      rw [get?_file_self, Option.some.injEq] at hparty
      rintro rfl
      have hid := congrArg (fun c => Catalog.get? c t.id) hparty
      simp at hid
    · rw [get?_file_of_ne e hflow] at hparty
      exact h.inhabited flow party hparty
  · intro flow party id a hparty hget
    rcases Classical.em (flow = t.flow) with hflow | hflow
    · subst hflow
      rw [get?_file_self, Option.some.injEq] at hparty
      subst hparty
      rcases Catalog.get?_insert_eq_some_iff.mp hget with ⟨rfl, rfl⟩ | ⟨-, hold⟩
      · exact ⟨rfl, rfl⟩
      · obtain ⟨party, hparty, hget⟩ := get?_party_iff.mp hold
        exact h.filed t.flow party id a hparty hget
    · rw [get?_file_of_ne e hflow] at hparty
      exact h.filed flow party id a hparty hget
  · intro u hu
    rw [get?_file_of_ne e (hfree u hu)]
    exact h.apart u hu

/-- Strike a ticket from the active ones; the last one of a flow takes the flow along. -/
def strike (g : Gate) (t : Ticket) : Gate :=
  let rest := (g.party t.flow).erase t.id
  { g with active := if rest.isEmpty then g.active.erase t.flow else g.active.insert t.flow rest }

theorem strike_of_rest {party : Party} (hparty : g.active.get? t.flow = some party)
    (hrest : (party.erase t.id).isEmpty = false) :
    g.strike t = { g with active := g.active.insert t.flow (party.erase t.id) } := by
  simp [strike, Gate.party, hparty, hrest]

theorem strike_of_last {party : Party} (hparty : g.active.get? t.flow = some party)
    (hlast : (party.erase t.id).isEmpty = true) :
    g.strike t = { g with active := g.active.erase t.flow } := by
  simp [strike, Gate.party, hparty, hlast]

theorem get?_strike_self :
    (g.strike t).active.get? t.flow =
      if ((g.party t.flow).erase t.id).isEmpty then none
      else some ((g.party t.flow).erase t.id) := by
  simp only [strike]
  split
  · exact Catalog.get?_erase_self ..
  · exact Catalog.get?_insert_self ..

theorem get?_strike_of_ne {flow : Flow} (h : flow ≠ t.flow) :
    (g.strike t).active.get? flow = g.active.get? flow := by
  simp only [strike]
  split
  · exact Catalog.get?_erase_of_ne _ h
  · exact Catalog.get?_insert_of_ne _ _ h

theorem get?_strike_self_eq_some_iff {rest : Party} :
    (g.strike t).active.get? t.flow = some rest ↔
      rest ≠ .empty ∧ rest = (g.party t.flow).erase t.id := by
  rw [get?_strike_self]
  split
  · rename_i hempty
    rw [Catalog.isEmpty_iff.mp hempty]
    simp
  · rename_i hne
    rw [Catalog.isEmpty_iff] at hne
    constructor
    · rintro ⟨rfl⟩
      exact ⟨hne, rfl⟩
    · rintro ⟨-, rfl⟩
      rfl

theorem admits_strike_iff {e : Option Nat} (ht : g.Admits t e) {e' : Option Nat} :
    (g.strike t).Admits u e' ↔ u ≠ t ∧ g.Admits u e' := by
  rcases Classical.em (u.flow = t.flow) with hflow | hflow
  · have hplace : u.id = t.id → g.Admits u e' → u = t := fun hid hu =>
      (hu.eq_of_place_eq ht hflow hid).1
    rw [admits_iff, hflow]
    simp only [get?_strike_self_eq_some_iff]
    constructor
    · rintro ⟨rest, ⟨-, rfl⟩, hget⟩
      obtain ⟨hid, hold⟩ := Catalog.get?_erase_eq_some_iff.mp hget
      refine ⟨fun h => hid (by rw [h]), admits_iff.mpr ?_⟩
      rw [hflow]
      exact get?_party_iff.mp hold
    · rintro ⟨hne, hu⟩
      have hget : ((g.party t.flow).erase t.id).get? u.id = some ⟨u, e'⟩ := by
        apply Catalog.get?_erase_eq_some_iff.mpr
        refine ⟨fun hid => hne (hplace hid hu), get?_party_iff.mpr ?_⟩
        rw [← hflow]
        exact admits_iff.mp hu
      refine ⟨_, ⟨?_, rfl⟩, hget⟩
      intro hempty
      rw [hempty] at hget
      cases hget
  · have hne : u ≠ t := fun h => hflow (by rw [h])
    rw [admits_iff, admits_iff, get?_strike_of_ne hflow]
    simp [hne]

theorem Consistent.strike (h : g.Consistent) : (g.strike t).Consistent := by
  refine ⟨h.agree, ?_, ?_, ?_⟩
  · intro flow party hparty
    rcases Classical.em (flow = t.flow) with hflow | hflow
    · subst hflow
      exact (get?_strike_self_eq_some_iff.mp hparty).1
    · rw [get?_strike_of_ne hflow] at hparty
      exact h.inhabited flow party hparty
  · intro flow party id a hparty hget
    rcases Classical.em (flow = t.flow) with hflow | hflow
    · subst hflow
      obtain ⟨-, rfl⟩ := get?_strike_self_eq_some_iff.mp hparty
      obtain ⟨-, hold⟩ := Catalog.get?_erase_eq_some_iff.mp hget
      obtain ⟨party, hparty, hget⟩ := get?_party_iff.mp hold
      exact h.filed t.flow party id a hparty hget
    · rw [get?_strike_of_ne hflow] at hparty
      exact h.filed flow party id a hparty hget
  · intro u hu
    have hnone := h.apart u hu
    rcases Classical.em (u.flow = t.flow) with hflow | hflow
    · rw [hflow] at hnone ⊢
      rw [get?_strike_self, party, hnone]
      rfl
    · rw [get?_strike_of_ne hflow, hnone]

end FlowGate.Gate
