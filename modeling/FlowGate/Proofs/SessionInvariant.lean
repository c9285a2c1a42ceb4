import FlowGate.Proofs.TicketCustody
import FlowGate.Session.Step

/-!
What holds of a session between two steps, and how a session may change. `Sound` says that the gate is
sound and, as long as it lives, that every ticket at it has its owner in the session; `Evolves` says who may
come onto the wait list, who may be let in, and who may be put out.
-/

namespace FlowGate

namespace Gate

variable {g g' g'' : Gate} {t u : Ticket} {nextId : Nat} {ended ended' : Ticket → Prop}

/-- A ticket is active, released or not. -/
def Inside (g : Gate) (t : Ticket) : Prop := ∃ e, g.Admits t e

/--
Only tickets with new numbers come onto the wait list, only those and waiting tickets are let in, and of the
active tickets only the ended ones may go.
-/
structure Evolves (nextId : Nat) (ended : Ticket → Prop) (g g' : Gate) : Prop where
  waits : ∀ t, g'.Waits t → nextId ≤ t.id ∨ g.Waits t
  inside : ∀ t, g'.Inside t → nextId ≤ t.id ∨ g.Waits t ∨ g.Inside t
  keeps : ∀ t, g.Inside t → ended t ∨ g'.Inside t

theorem Evolves.refl (g : Gate) : Evolves nextId ended g g :=
  ⟨fun _ => .inr, fun _ ht => .inr (.inr ht), fun _ => .inr⟩

theorem Evolves.mono (h : Evolves nextId ended g g') (hended : ∀ t, ended t → ended' t) :
    Evolves nextId ended' g g' :=
  ⟨h.waits, h.inside, fun t ht => (h.keeps t ht).imp_left (hended t)⟩

theorem Evolves.trans {later : Nat} (h : Evolves nextId ended g g')
    (h' : Evolves later ended' g' g'') (hle : nextId ≤ later) :
    Evolves nextId (fun t => ended t ∨ ended' t) g g'' := by
  constructor
  · intro t ht
    rcases h'.waits t ht with hnew | ht
    · exact .inl (Nat.le_trans hle hnew)
    · exact h.waits t ht
  · intro t ht
    rcases h'.inside t ht with hnew | ht | ht
    · exact .inl (Nat.le_trans hle hnew)
    · exact (h.waits t ht).imp_right .inl
    · exact h.inside t ht
  · intro t ht
    rcases h.keeps t ht with hend | ht
    · exact .inl (.inl hend)
    · exact (h'.keeps t ht).imp_left .inr

theorem Calls.evolves (h : g.Calls g') : Evolves nextId ended g g' := by
  constructor
  · exact fun t ht => .inr (h.waits t ht)
  · rintro t ⟨e, ht⟩
    rcases (h.admits_iff t e).mp ht with hold | ⟨hwaits, -⟩
    · exact .inr (.inr ⟨e, hold⟩)
    · exact .inr (.inl hwaits)
  · rintro t ⟨e, ht⟩
    exact .inr ⟨e, (h.admits_iff t e).mpr (.inl ht)⟩

theorem evolves_file (e : Option Nat) (hnew : nextId ≤ t.id ∨ g.Inside t)
    (hplace : ∀ u, g.Inside u → u.flow = t.flow → u.id = t.id → u = t) :
    Evolves nextId ended g (g.file t e) := by
  constructor
  · exact fun u hu => .inr hu
  · rintro u ⟨e', hu⟩
    rcases admits_file_iff.mp hu with ⟨rfl, -⟩ | ⟨-, hold⟩
    · exact hnew.imp_right .inr
    · exact .inr (.inr ⟨e', hold⟩)
  · rintro u ⟨e', hu⟩
    rcases Classical.em (u.flow = t.flow ∧ u.id = t.id) with hsame | hother
    · obtain rfl := hplace u ⟨e', hu⟩ hsame.1 hsame.2
      exact .inr ⟨e, admits_file_iff.mpr (.inl ⟨rfl, rfl⟩)⟩
    · exact .inr ⟨e', admits_file_iff.mpr (.inr ⟨hother, hu⟩)⟩

theorem evolves_waiting {waiting : WaitList}
    (hwaits : ∀ u, Waits { g with waiting } u → nextId ≤ u.id ∨ g.Waits u) :
    Evolves nextId ended g { g with waiting } :=
  ⟨hwaits, fun _ ht => .inr (.inr ht), fun _ => .inr⟩

theorem evolves_hear : Evolves nextId ended g (g.hear t) :=
  ⟨fun _ => .inr, fun _ ht => .inr (.inr ht), fun _ => .inr⟩

theorem evolves_strike {e : Option Nat} (ht : g.Admits t e) :
    Evolves nextId (· = t) g (g.strike t) := by
  constructor
  · exact fun u hu => .inr hu
  · rintro u ⟨e', hu⟩
    exact .inr (.inr ⟨e', ((admits_strike_iff ht).mp hu).2⟩)
  · rintro u ⟨e', hu⟩
    rcases Classical.em (u = t) with heq | hne
    · exact .inl heq
    · exact .inr ⟨e', (admits_strike_iff ht).mpr ⟨hne, hu⟩⟩

theorem Sound.not_waits_of_inside (h : g.Sound) (ht : g.Inside t) : ¬g.Waits t := by
  intro hwaits
  obtain ⟨e, hadmits⟩ := ht
  obtain ⟨party, hparty, -⟩ := admits_iff.mp hadmits
  have hnone := h.apart t hwaits
  rw [hparty] at hnone
  cases hnone

end Gate

namespace Custody

variable {g : Gate} {owned : List (Ticket × Stake)} {nextId : Nat} {t u : Ticket}

theorem exists_stake (h : Custody g owned nextId) (ht : g.Inside t) : ∃ a, (t, a) ∈ owned := by
  obtain ⟨e, ht⟩ := ht
  exact h.exists_of_admits ht

theorem id_lt_of_inside (h : Custody g owned nextId) (ht : g.Inside t) : t.id < nextId := by
  obtain ⟨a, ha⟩ := h.exists_stake ht
  exact h.issued (t, a) ha

theorem id_lt_of_waits (h : Custody g owned nextId) (ht : g.Waits t) : t.id < nextId :=
  h.issued _ ((h.waits_iff t).mp ht).1

theorem id_ne_of_waits_of_inside (h : Custody g owned nextId) (ht : g.Waits t) (hu : g.Inside u) :
    t.id ≠ u.id := by
  intro hid
  obtain ⟨hawaited, hsilent⟩ := (h.waits_iff t).mp ht
  obtain ⟨a, howned⟩ := h.exists_stake hu
  obtain ⟨rfl, rfl⟩ := h.eq_of_id_eq hawaited howned hid
  obtain ⟨_ | e, hadmits⟩ := hu
  · rcases (h.admits_none_iff t).mp hadmits with hheld | ⟨-, hcalling⟩
    · cases (h.eq_of_id_eq hawaited hheld rfl).2
    · exact hsilent hcalling
  · cases (h.eq_of_id_eq hawaited ((h.admits_some_iff t e).mp hadmits) rfl).2

end Custody

namespace Session

variable {s s' s'' : Session} {ended ended' : Ticket → Prop} {loose : List (Ticket × Stake)}
  {slot : String} {content : Slot}

theorem alive_iff :
    s.alive = true ↔
      s.kept = true ∨ ∃ slot content, s.slots.get? slot = some content ∧ content.isOpen = true := by
  simp only [alive, Bool.or_eq_true, List.any_eq_true, Catalog.mem_values_iff]
  constructor
  · rintro (hkept | ⟨content, ⟨slot, hget⟩, hopen⟩)
    · exact .inl hkept
    · exact .inr ⟨slot, content, hget, hopen⟩
  · rintro (hkept | ⟨slot, content, hget, hopen⟩)
    · exact .inl hkept
    · exact .inr ⟨content, ⟨slot, hget⟩, hopen⟩

theorem alive_of_open (hslot : s.slots.get? slot = some content)
    (hopen : content.isOpen = true) : s.alive = true :=
  alive_iff.mpr (.inr ⟨slot, content, hslot, hopen⟩)

/-- The tickets at the gate are owned by slots, by running grace periods, and by those named here. -/
def Accounts (s : Session) (loose : List (Ticket × Stake)) : Prop :=
  Custody s.gate (loose ++ stakes s.slots s.expiries) s.nextId

/-- A session between two steps. Within a step, some tickets are on the way from one owner to the next. -/
structure Sound (s : Session) (loose : List (Ticket × Stake)) : Prop where
  gate : s.gate.Sound
  accounts : s.alive = true → s.Accounts loose

structure Evolves (ended : Ticket → Prop) (s s' : Session) : Prop where
  nextId_le : s.nextId ≤ s'.nextId
  gate : Gate.Evolves s.nextId ended s.gate s'.gate
  alive : s'.alive = true → s.alive = true
  frozen : s.alive = false → s'.gate = s.gate

theorem Evolves.of_gate_eq (hgate : s'.gate = s.gate) (hnext : s.nextId ≤ s'.nextId)
    (halive : s'.alive = true → s.alive = true) : s.Evolves ended s' := by
  refine ⟨hnext, ?_, halive, fun _ => hgate⟩
  rw [hgate]
  exact .refl s.gate

theorem Evolves.refl (s : Session) : s.Evolves ended s := .of_gate_eq rfl s.nextId.le_refl id

theorem Evolves.mono (h : s.Evolves ended s') (hended : ∀ t, ended t → ended' t) :
    s.Evolves ended' s' :=
  ⟨h.nextId_le, h.gate.mono hended, h.alive, h.frozen⟩

theorem Evolves.trans (h : s.Evolves ended s') (h' : s'.Evolves ended' s'') :
    s.Evolves (fun t => ended t ∨ ended' t) s'' := by
  refine ⟨Nat.le_trans h.nextId_le h'.nextId_le, h.gate.trans h'.gate h.nextId_le,
    fun halive => h.alive (h'.alive halive), ?_⟩
  intro hgone
  have hgone' : s'.alive = false := by
    apply Bool.eq_false_iff.mpr
    intro halive
    rw [h.alive halive] at hgone
    cases hgone
  rw [h'.frozen hgone', h.frozen hgone]

section Slots

theorem accounts_putSlot {owned : List (Ticket × Stake)}
    (howned : owned = content.stake?.toList ++ stakes (s.slots.erase slot) s.expiries)
    (h : Custody s.gate owned s.nextId) : (s.putSlot slot content).Accounts [] := by
  subst howned
  exact h.perm stakes_insert_perm.symm

theorem accounts_erase (haccounts : s.Accounts []) (slot : String) :
    Custody s.gate
      (((s.slots.get? slot).bind Slot.stake?).toList ++ stakes (s.slots.erase slot) s.expiries)
      s.nextId :=
  haccounts.perm (stakes_perm s.slots s.expiries slot)

theorem accounts_erase_of_get? (haccounts : s.Accounts [])
    (hslot : s.slots.get? slot = some content) :
    Custody s.gate (content.stake?.toList ++ stakes (s.slots.erase slot) s.expiries) s.nextId := by
  have hsplit := accounts_erase haccounts slot
  rwa [hslot] at hsplit

theorem alive_of_alive_clearSlot (halive : (s.clearSlot slot).alive = true) : s.alive = true := by
  rcases alive_iff.mp halive with hkept | ⟨other, content, hget, hopen⟩
  · exact alive_iff.mpr (.inl hkept)
  · obtain ⟨-, hget⟩ := Catalog.get?_erase_eq_some_iff.mp hget
    exact alive_iff.mpr (.inr ⟨other, content, hget, hopen⟩)

theorem evolves_clearSlot (s : Session) (slot : String) (ended : Ticket → Prop) :
    s.Evolves ended (s.clearSlot slot) :=
  .of_gate_eq rfl s.nextId.le_refl alive_of_alive_clearSlot

theorem Sound.clearSlot (h : s.Sound []) (hslot : s.slots.get? slot = some content) :
    (s.clearSlot slot).Sound content.stake?.toList :=
  ⟨h.gate, fun halive =>
    accounts_erase_of_get? (h.accounts (alive_of_alive_clearSlot halive)) hslot⟩

end Slots

end Session

end FlowGate
