import FlowGate.Proofs.GateOperations
import FlowGate.Session.Basic
import Mathlib.Data.List.Nodup

/-!
Who owns a ticket. Slots and running grace periods have stakes in tickets; `Custody` says that no two stakes
share a number, and that a gate has on its wait list and among its active tickets exactly the tickets that
somebody has a stake in, each where the stake says. Every change of a gate moves a stake along with it.
-/

namespace FlowGate

/--
How a ticket is owned: a caller waits for it, a holder has it or was lost with it, or its grace period is
running.
-/
inductive Stake where
  | awaited
  | held
  | leaving (expiresAt : Nat)
  deriving DecidableEq, Repr

def Slot.stake? : Slot → Option (Ticket × Stake)
  | .prepared .. => none
  | .waiting _ ticket => some (ticket, .awaited)
  | .holding ticket => some (ticket, .held)
  | .stranded ticket => some (ticket, .held)

def Expiry.stake (e : Expiry) : Ticket × Stake := (e.ticket, .leaving e.expiresAt)

/-- The stakes of slots and of running grace periods. -/
def stakes (slots : Catalog String Slot) (expiries : List Expiry) : List (Ticket × Stake) :=
  slots.values.filterMap Slot.stake? ++ expiries.map Expiry.stake

section Stakes

variable {slots : Catalog String Slot} {expiries : List Expiry} {slot : String} {content : Slot}

theorem stakes_insert_perm :
    (stakes (slots.insert slot content) expiries).Perm
      (content.stake?.toList ++ stakes (slots.erase slot) expiries) := by
  have hperm := (Catalog.values_insert_perm slots slot content).filterMap Slot.stake?
  rw [List.filterMap_cons] at hperm
  unfold stakes
  rw [← List.append_assoc]
  apply List.Perm.append_right
  cases hstake : content.stake? <;> simpa [hstake] using hperm

theorem stakes_perm (slots : Catalog String Slot) (expiries : List Expiry) (slot : String) :
    (stakes slots expiries).Perm
      (((slots.get? slot).bind Slot.stake?).toList ++ stakes (slots.erase slot) expiries) := by
  cases hget : slots.get? slot with
  | none => rw [Catalog.erase_eq_self hget, Option.bind_none, Option.toList_none, List.nil_append]
  | some content =>
      have hperm := @stakes_insert_perm slots expiries slot content
      rwa [Catalog.insert_eq_self hget] at hperm

theorem stakes_perm_of_expiries {other : List Expiry} (h : expiries.Perm other) :
    (stakes slots expiries).Perm (stakes slots other) :=
  (h.map Expiry.stake).append_left _

theorem stakes_append_perm {ended running : List Expiry} :
    (stakes slots (ended ++ running)).Perm (ended.map Expiry.stake ++ stakes slots running) := by
  simp only [stakes, List.map_append, ← List.append_assoc]
  exact List.perm_append_comm.append_right _

theorem mem_stakes_iff {stake : Ticket × Stake} :
    stake ∈ stakes slots expiries ↔
      (∃ slot content, slots.get? slot = some content ∧ content.stake? = some stake) ∨
        ∃ e ∈ expiries, e.stake = stake := by
  simp only [stakes, List.mem_append, List.mem_filterMap, Catalog.mem_values_iff, List.mem_map]
  constructor
  · rintro (⟨content, ⟨slot, hget⟩, hstake⟩ | hexpiry)
    · exact .inl ⟨slot, content, hget, hstake⟩
    · exact .inr hexpiry
  · rintro (⟨slot, content, hget, hstake⟩ | hexpiry)
    · exact .inl ⟨content, ⟨slot, hget⟩, hstake⟩
    · exact .inr hexpiry

theorem awaited_mem_stakes_iff {t : Ticket} :
    (t, .awaited) ∈ stakes slots expiries ↔
      ∃ slot token, slots.get? slot = some (.waiting token t) := by
  rw [mem_stakes_iff]
  constructor
  · rintro (⟨slot, content, hget, hstake⟩ | ⟨e, -, he⟩)
    · cases content <;> simp only [Slot.stake?, Option.some.injEq, Prod.mk.injEq, reduceCtorEq,
        and_true, and_false] at hstake
      subst hstake
      exact ⟨slot, _, hget⟩
    · simp [Expiry.stake] at he
  · rintro ⟨slot, token, hget⟩
    exact .inl ⟨slot, _, hget, rfl⟩

theorem held_mem_stakes_iff {t : Ticket} :
    (t, .held) ∈ stakes slots expiries ↔
      ∃ slot, slots.get? slot = some (.holding t) ∨ slots.get? slot = some (.stranded t) := by
  rw [mem_stakes_iff]
  constructor
  · rintro (⟨slot, content, hget, hstake⟩ | ⟨e, -, he⟩)
    · cases content <;> simp only [Slot.stake?, Option.some.injEq, Prod.mk.injEq, reduceCtorEq,
        and_true, and_false] at hstake
      · exact ⟨slot, .inl (hstake ▸ hget)⟩
      · exact ⟨slot, .inr (hstake ▸ hget)⟩
    · simp [Expiry.stake] at he
  · rintro ⟨slot, hget | hget⟩
    · exact .inl ⟨slot, _, hget, rfl⟩
    · exact .inl ⟨slot, _, hget, rfl⟩

theorem leaving_mem_stakes_iff {t : Ticket} {expiresAt : Nat} :
    (t, .leaving expiresAt) ∈ stakes slots expiries ↔
      ∃ e ∈ expiries, e.ticket = t ∧ e.expiresAt = expiresAt := by
  rw [mem_stakes_iff]
  constructor
  · rintro (⟨slot, content, hget, hstake⟩ | ⟨e, hmem, he⟩)
    · cases content <;> simp [Slot.stake?] at hstake
    · simp only [Expiry.stake, Prod.mk.injEq, Stake.leaving.injEq] at he
      exact ⟨e, hmem, he⟩
  · rintro ⟨e, hmem, rfl, rfl⟩
    exact .inr ⟨e, hmem, rfl⟩

end Stakes

/-- Every ticket at a gate has one owner, and is where its owner has it. -/
structure Custody (g : Gate) (stakes : List (Ticket × Stake)) (nextId : Nat) : Prop where
  distinct : (stakes.map fun stake => stake.1.id).Nodup
  issued : ∀ stake ∈ stakes, stake.1.id < nextId
  waits_iff : ∀ t, g.Waits t ↔ (t, .awaited) ∈ stakes ∧ ¬g.Calling t
  admits_none_iff : ∀ t,
    g.Admits t none ↔ (t, .held) ∈ stakes ∨ (t, .awaited) ∈ stakes ∧ g.Calling t
  admits_some_iff : ∀ t e, g.Admits t (some e) ↔ (t, .leaving e) ∈ stakes
  calling : ∀ id, g.called.contains id = true → ∃ t, (t, .awaited) ∈ stakes ∧ t.id = id

namespace Custody

open Gate

variable {g g' : Gate} {owned : List (Ticket × Stake)} {nextId : Nat} {t : Ticket}

theorem perm {other : List (Ticket × Stake)} (h : Custody g owned nextId)
    (hperm : owned.Perm other) : Custody g other nextId := by
  refine ⟨(hperm.map _).nodup_iff.mp h.distinct, ?_, ?_, ?_, ?_, ?_⟩
  · exact fun stake hstake => h.issued stake (hperm.mem_iff.mpr hstake)
  · simpa only [hperm.mem_iff] using h.waits_iff
  · simpa only [hperm.mem_iff] using h.admits_none_iff
  · simpa only [hperm.mem_iff] using h.admits_some_iff
  · simpa only [hperm.mem_iff] using h.calling

theorem eq_of_id_eq (h : Custody g owned nextId) {u : Ticket} {a b : Stake}
    (ht : (t, a) ∈ owned) (hu : (u, b) ∈ owned) (hid : t.id = u.id) : t = u ∧ a = b := by
  have heq : (t, a) = (u, b) := List.inj_on_of_nodup_map h.distinct ht hu hid
  exact Prod.mk.inj heq

theorem id_ne_of_mem {a : Stake} (h : Custody g ((t, a) :: owned) nextId) {u : Ticket} {b : Stake}
    (hu : (u, b) ∈ owned) : u.id ≠ t.id := by
  intro hid
  apply (List.nodup_cons.mp h.distinct).1
  exact List.mem_map.mpr ⟨(u, b), hu, hid⟩

theorem calls (h : Custody g owned nextId) (hcalls : g.Calls g') : Custody g' owned nextId := by
  have hcalling : ∀ t, g'.Calling t ↔ g.Calling t ∨ ∃ u, u.id = t.id ∧ g.Waits u ∧ ¬g'.Waits u :=
    fun t => hcalls.calling_iff t.id
  refine ⟨h.distinct, h.issued, ?_, ?_, ?_, ?_⟩
  · intro t
    constructor
    · intro ht
      obtain ⟨howned, hnot⟩ := (h.waits_iff t).mp (hcalls.waits t ht)
      refine ⟨howned, ?_⟩
      rw [hcalling]
      rintro (hold | ⟨u, hid, hu, hnew⟩)
      · exact hnot hold
      · rw [hu.eq_of_id_eq (hcalls.waits t ht) hid] at hnew
        exact hnew ht
    · rintro ⟨howned, hnot⟩
      rw [hcalling, not_or] at hnot
      have ht : g.Waits t := (h.waits_iff t).mpr ⟨howned, hnot.1⟩
      exact Classical.byContradiction fun hnew => hnot.2 ⟨t, rfl, ht, hnew⟩
  · intro t
    rw [hcalls.admits_iff, h.admits_none_iff, hcalling]
    constructor
    · rintro ((hheld | ⟨howned, hcalling⟩) | ⟨hwaits, hnew, -⟩)
      · exact .inl hheld
      · exact .inr ⟨howned, .inl hcalling⟩
      · exact .inr ⟨((h.waits_iff t).mp hwaits).1, .inr ⟨t, rfl, hwaits, hnew⟩⟩
    · rintro (hheld | ⟨howned, hcalling | ⟨u, hid, hwaits, hnew⟩⟩)
      · exact .inl (.inl hheld)
      · exact .inl (.inr ⟨howned, hcalling⟩)
      · obtain ⟨rfl, -⟩ := h.eq_of_id_eq ((h.waits_iff u).mp hwaits).1 howned hid
        exact .inr ⟨hwaits, hnew, rfl⟩
  · intro t e
    rw [hcalls.admits_iff, h.admits_some_iff]
    simp
  · intro id hid
    rcases (hcalls.calling_iff id).mp hid with hold | ⟨t, rfl, hwaits, -⟩
    · exact h.calling id hold
    · exact ⟨t, ((h.waits_iff t).mp hwaits).1, rfl⟩

theorem id_ne_of_issued (h : Custody g owned nextId) (hid : t.id = nextId) {u : Ticket} {a : Stake}
    (hu : (u, a) ∈ owned) : u.id ≠ t.id := by
  have hlt := h.issued (u, a) hu
  dsimp only at hlt
  omega

theorem issue (h : Custody g owned nextId) : Custody g owned (nextId + 1) :=
  { h with issued := fun stake hstake => Nat.lt_succ_of_lt (h.issued stake hstake) }

section Cons

variable {a b : Stake} {u : Ticket}

theorem mem_cons_iff : (u, a) ∈ (t, a) :: owned ↔ u = t ∨ (u, a) ∈ owned := by
  simp only [List.mem_cons, Prod.mk.injEq, and_true]

theorem mem_cons_of_ne (hne : a ≠ b) : (u, a) ∈ (t, b) :: owned ↔ (u, a) ∈ owned := by
  simp only [List.mem_cons, Prod.mk.injEq, hne, and_false, false_or]

theorem exists_of_admits (h : Custody g owned nextId) {e : Option Nat} (hu : g.Admits u e) :
    ∃ a, (u, a) ∈ owned := by
  cases e with
  | none =>
      rcases (h.admits_none_iff u).mp hu with hheld | ⟨hawaited, -⟩
      · exact ⟨_, hheld⟩
      · exact ⟨_, hawaited⟩
  | some e => exact ⟨_, (h.admits_some_iff u e).mp hu⟩

theorem nodup_cons (h : Custody g owned nextId) (hid : t.id = nextId) (a : Stake) :
    (((t, a) :: owned).map fun stake => stake.1.id).Nodup := by
  refine List.nodup_cons.mpr ⟨fun hmem => ?_, h.distinct⟩
  obtain ⟨⟨u, b⟩, hu, hsame⟩ := List.mem_map.mp hmem
  exact h.id_ne_of_issued hid hu hsame

theorem issued_cons (h : Custody g owned nextId) (hid : t.id = nextId) (a : Stake) :
    ∀ stake ∈ (t, a) :: owned, stake.1.id < nextId + 1 :=
  List.forall_mem_cons.mpr ⟨hid ▸ Nat.lt_succ_self _, h.issue.issued⟩

theorem issued_retag (h : Custody g ((t, a) :: owned) nextId) (b : Stake) :
    ∀ stake ∈ (t, b) :: owned, stake.1.id < nextId :=
  List.forall_mem_cons.mpr (List.forall_mem_cons.mp h.issued)

end Cons

theorem enter (h : Custody g owned nextId) (hid : t.id = nextId) :
    Custody (g.file t none) ((t, .held) :: owned) (nextId + 1) := by
  have hplace : ∀ u e, g.Admits u e → ¬(u.flow = t.flow ∧ u.id = t.id) := by
    intro u e hu hsame
    obtain ⟨a, ha⟩ := h.exists_of_admits hu
    exact h.id_ne_of_issued hid ha hsame.2
  refine ⟨h.nodup_cons hid _, h.issued_cons hid _, ?_, ?_, ?_, ?_⟩
  · exact fun u => (h.waits_iff u).trans (and_congr_left fun _ => (mem_cons_of_ne (by nofun)).symm)
  · intro u
    change _ ↔ _ ∨ _ ∧ g.Calling u
    rw [admits_file_iff, mem_cons_iff, mem_cons_of_ne (by nofun), or_assoc,
      ← h.admits_none_iff u]
    constructor
    · rintro (⟨rfl, -⟩ | ⟨-, hu⟩)
      · exact .inl rfl
      · exact .inr hu
    · rintro (rfl | hu)
      · exact .inl ⟨rfl, rfl⟩
      · exact .inr ⟨hplace u _ hu, hu⟩
  · intro u e
    rw [admits_file_iff, mem_cons_of_ne (by nofun), ← h.admits_some_iff u]
    constructor
    · rintro (⟨-, hnone⟩ | ⟨-, hu⟩)
      · cases hnone
      · exact hu
    · exact fun hu => .inr ⟨hplace u _ hu, hu⟩
  · intro id hcalled
    obtain ⟨u, hu, rfl⟩ := h.calling id hcalled
    exact ⟨u, List.mem_cons_of_mem _ hu, rfl⟩

theorem queue (h : Custody g owned nextId) (hid : t.id = nextId) {waiting : WaitList}
    (hqueue : ∀ u, Waits { g with waiting } u ↔ u = t ∨ g.Waits u) :
    Custody { g with waiting } ((t, .awaited) :: owned) (nextId + 1) := by
  have hsilent : ∀ u, g.Calling u → u ≠ t := by
    rintro u hcalled rfl
    obtain ⟨v, hv, hsame⟩ := h.calling u.id hcalled
    exact h.id_ne_of_issued hid hv hsame
  refine ⟨h.nodup_cons hid _, h.issued_cons hid _, ?_, ?_, ?_, ?_⟩
  · intro u
    change _ ↔ _ ∧ ¬g.Calling u
    rw [hqueue, mem_cons_iff, h.waits_iff]
    constructor
    · rintro (rfl | ⟨hu, hnot⟩)
      · exact ⟨.inl rfl, fun hcalled => hsilent u hcalled rfl⟩
      · exact ⟨.inr hu, hnot⟩
    · rintro ⟨rfl | hu, hnot⟩
      · exact .inl rfl
      · exact .inr ⟨hu, hnot⟩
  · intro u
    change g.Admits u none ↔ _ ∨ _ ∧ g.Calling u
    rw [h.admits_none_iff, mem_cons_of_ne (by nofun), mem_cons_iff]
    exact or_congr_right (and_congr_left fun hcalled => (or_iff_right (hsilent u hcalled)).symm)
  · exact fun u e => (h.admits_some_iff u e).trans (mem_cons_of_ne (by nofun)).symm
  · intro id hcalled
    obtain ⟨u, hu, rfl⟩ := h.calling id hcalled
    exact ⟨u, List.mem_cons_of_mem _ hu, rfl⟩

theorem hear (h : Custody g ((t, .awaited) :: owned) nextId) (hcalled : g.Calling t) :
    Custody (g.hear t) ((t, .held) :: owned) nextId := by
  have hother : ∀ u a, (u, a) ∈ owned → u.id ≠ t.id := fun u a => h.id_ne_of_mem
  have hcalling : ∀ u, (g.hear t).Calling u ↔ u.id ≠ t.id ∧ g.Calling u :=
    fun u => Catalog.contains_erase_iff
  refine ⟨h.distinct, h.issued_retag _, ?_, ?_, ?_, ?_⟩
  · intro u
    change g.Waits u ↔ _
    rw [h.waits_iff, mem_cons_iff, mem_cons_of_ne (by nofun), hcalling]
    constructor
    · rintro ⟨rfl | hu, hnot⟩
      · exact absurd hcalled hnot
      · exact ⟨hu, fun hcalled => hnot hcalled.2⟩
    · rintro ⟨hu, hnot⟩
      exact ⟨.inr hu, fun hcalled => hnot ⟨hother u _ hu, hcalled⟩⟩
  · intro u
    change g.Admits u none ↔ _
    rw [h.admits_none_iff, mem_cons_of_ne (by nofun), mem_cons_iff, mem_cons_iff,
      mem_cons_of_ne (by nofun), hcalling]
    constructor
    · rintro (hu | ⟨rfl | hu, hcalled⟩)
      · exact .inl (.inr hu)
      · exact .inl (.inl rfl)
      · exact .inr ⟨hu, hother u _ hu, hcalled⟩
    · rintro ((rfl | hu) | ⟨hu, -, hcalled⟩)
      · exact .inr ⟨.inl rfl, hcalled⟩
      · exact .inl hu
      · exact .inr ⟨.inr hu, hcalled⟩
  · intro u e
    exact (h.admits_some_iff u e).trans ((mem_cons_of_ne (by nofun)).trans (mem_cons_of_ne (by nofun)).symm)
  · intro id hid
    obtain ⟨hne, hold⟩ := Catalog.contains_erase_iff.mp hid
    obtain ⟨u, hu, rfl⟩ := h.calling id hold
    rcases mem_cons_iff.mp hu with rfl | hu
    · exact absurd rfl hne
    · exact ⟨u, List.mem_cons_of_mem _ hu, rfl⟩

theorem withdraw (h : Custody g ((t, .awaited) :: owned) nextId) (hwaiting : g.Waits t)
    {waiting : WaitList} (hwithdraw : ∀ u, Waits { g with waiting } u ↔ u ≠ t ∧ g.Waits u) :
    Custody { g with waiting } owned nextId := by
  have hsilent : ∀ u, g.Calling u → u ≠ t := by
    rintro u hcalled rfl
    exact ((h.waits_iff u).mp hwaiting).2 hcalled
  refine ⟨(List.nodup_cons.mp h.distinct).2, (List.forall_mem_cons.mp h.issued).2, ?_, ?_, ?_, ?_⟩
  · intro u
    change _ ↔ _ ∧ ¬g.Calling u
    rw [hwithdraw, h.waits_iff, mem_cons_iff]
    constructor
    · rintro ⟨hne, rfl | hu, hnot⟩
      · exact absurd rfl hne
      · exact ⟨hu, hnot⟩
    · rintro ⟨hu, hnot⟩
      exact ⟨fun hsame => h.id_ne_of_mem hu (hsame ▸ rfl), .inr hu, hnot⟩
  · intro u
    change g.Admits u none ↔ _ ∨ _ ∧ g.Calling u
    rw [h.admits_none_iff, mem_cons_of_ne (by nofun), mem_cons_iff]
    exact or_congr_right (and_congr_left fun hcalled => or_iff_right (hsilent u hcalled))
  · exact fun u e => (h.admits_some_iff u e).trans (mem_cons_of_ne (by nofun))
  · intro id hcalled
    obtain ⟨u, hu, rfl⟩ := h.calling id hcalled
    exact ⟨u, (mem_cons_iff.mp hu).resolve_left (hsilent u hcalled), rfl⟩

theorem strike {a : Stake} (h : Custody g ((t, a) :: owned) nextId) {e : Option Nat}
    (hadmits : g.Admits t e) (hsilent : ¬g.Calling t) : Custody (g.strike t) owned nextId := by
  have hother : ∀ u b, u ≠ t ∧ (u, b) ∈ (t, a) :: owned ↔ (u, b) ∈ owned := by
    intro u b
    constructor
    · rintro ⟨hne, hu⟩
      exact (List.mem_cons.mp hu).resolve_left fun hsame => hne (Prod.mk.inj hsame).1
    · exact fun hu => ⟨fun hsame => h.id_ne_of_mem hu (hsame ▸ rfl), List.mem_cons_of_mem _ hu⟩
  have hactive : Stake.awaited ≠ a := by
    rintro rfl
    have howner : ∀ {b}, (t, b) ∈ (t, .awaited) :: owned → b = .awaited := fun hmem =>
      Classical.byContradiction fun hb => h.id_ne_of_mem ((mem_cons_of_ne hb).mp hmem) rfl
    cases e with
    | none =>
        rcases (h.admits_none_iff t).mp hadmits with hheld | ⟨-, hcalled⟩
        · cases howner hheld
        · exact hsilent hcalled
    | some e => cases howner ((h.admits_some_iff t e).mp hadmits)
  refine ⟨(List.nodup_cons.mp h.distinct).2, (List.forall_mem_cons.mp h.issued).2, ?_, ?_, ?_, ?_⟩
  · exact fun u => (h.waits_iff u).trans (and_congr_left fun _ => mem_cons_of_ne hactive)
  · intro u
    change _ ↔ _ ∨ _ ∧ g.Calling u
    rw [admits_strike_iff hadmits, h.admits_none_iff, and_or_left, ← and_assoc, hother, hother]
  · intro u e
    rw [admits_strike_iff hadmits, h.admits_some_iff, hother]
  · intro id hcalled
    obtain ⟨u, hu, rfl⟩ := h.calling id hcalled
    exact ⟨u, (mem_cons_of_ne hactive).mp hu, rfl⟩

theorem schedule (h : Custody g ((t, .held) :: owned) nextId) (expiresAt : Nat) :
    Custody (g.file t (some expiresAt)) ((t, .leaving expiresAt) :: owned) nextId := by
  have hother : ∀ u a, (u, a) ∈ owned → ¬(u.flow = t.flow ∧ u.id = t.id) := fun u a hu hsame =>
    h.id_ne_of_mem hu hsame.2
  have hawaited : ∀ u, (u, .awaited) ∈ (t, .leaving expiresAt) :: owned ↔
      (u, .awaited) ∈ (t, .held) :: owned :=
    fun u => (mem_cons_of_ne (by nofun)).trans (mem_cons_of_ne (by nofun)).symm
  refine ⟨h.distinct, h.issued_retag _, ?_, ?_, ?_, ?_⟩
  · exact fun u => (h.waits_iff u).trans (and_congr_left fun _ => (hawaited u).symm)
  · intro u
    change _ ↔ _ ∨ _ ∧ g.Calling u
    rw [admits_file_iff, hawaited, mem_cons_of_ne (by nofun), h.admits_none_iff, mem_cons_iff]
    constructor
    · rintro (⟨-, hnone⟩ | ⟨hplace, (rfl | hu) | hcalled⟩)
      · cases hnone
      · exact absurd ⟨rfl, rfl⟩ hplace
      · exact .inl hu
      · exact .inr hcalled
    · rintro (hu | ⟨hu, hcalled⟩)
      · exact .inr ⟨hother u _ hu, .inl (.inr hu)⟩
      · exact .inr ⟨hother u _ ((mem_cons_of_ne (by nofun)).mp hu), .inr ⟨hu, hcalled⟩⟩
  · intro u e
    rw [admits_file_iff, h.admits_some_iff, mem_cons_of_ne (by nofun), List.mem_cons,
      Prod.mk.injEq, Stake.leaving.injEq, Option.some.injEq]
    exact or_congr_right ⟨And.right, fun hu => ⟨hother u _ hu, hu⟩⟩
  · intro id hcalled
    obtain ⟨u, hu, rfl⟩ := h.calling id hcalled
    exact ⟨u, List.mem_cons_of_mem _ ((mem_cons_of_ne (by nofun)).mp hu), rfl⟩

end Custody

end FlowGate
