import FlowGate.Proofs.BrokenReleases

namespace FlowGate

inductive Owner where
  | holder (slot : String)
  /-- A caller in a slot who was called in, and has not asked since. -/
  | called (slot : String)
  /-- A running grace period, by its place among them. -/
  | timer (index : Nat)
  /-- A holder in a slot that is lost, as its release broke off. -/
  | stranded (slot : String)
  deriving DecidableEq, Repr

inductive Seat where
  | slot (name : String)
  | timer (index : Nat)
  deriving DecidableEq, Repr

def Owner.seat : Owner → Seat
  | .holder slot => .slot slot
  | .called slot => .slot slot
  | .timer index => .timer index
  | .stranded slot => .slot slot

namespace Session

open Logged (Gives gives_pure_iff)

variable {s : Session} {a a' : Admission} {owner owner' : Owner} {t u : Ticket}

/-- Whether an active ticket belongs to an owner; only a grace period sets when it is due to go. -/
def Owns (s : Session) (a : Admission) : Owner → Prop
  | .holder slot => s.slots.get? slot = some (.holding a.ticket) ∧ a.expiresAt = none
  | .called slot =>
    (∃ token, s.slots.get? slot = some (.waiting token a.ticket)) ∧ s.gate.Calling a.ticket ∧
      a.expiresAt = none
  | .timer index =>
    ∃ e, s.expiries[index]? = some e ∧ e.ticket = a.ticket ∧ a.expiresAt = some e.expiresAt
  | .stranded slot => s.slots.get? slot = some (.stranded a.ticket) ∧ a.expiresAt = none

/-- The caller in a slot waits, and was not called in. -/
def Awaits (s : Session) (t : Ticket) (slot : String) : Prop :=
  (∃ token, s.slots.get? slot = some (.waiting token t)) ∧ ¬s.gate.Calling t

def stakeAt? (s : Session) : Seat → Option (Ticket × Stake)
  | .slot name => (s.slots.get? name).bind Slot.stake?
  | .timer index => s.expiries[index]?.map Expiry.stake

theorem id_ne_of_seat_ne (h : s.Accounts []) {name : String} {seat : Seat} {b c : Stake}
    (ht : s.stakeAt? (.slot name) = some (t, b)) (hu : s.stakeAt? seat = some (u, c))
    (hne : seat ≠ .slot name) : u.id ≠ t.id := by
  have hsplit := accounts_erase h name
  have hname : (s.slots.get? name).bind Slot.stake? = some (t, b) := ht
  rw [hname] at hsplit
  apply hsplit.id_ne_of_mem (b := c)
  apply mem_stakes_iff.mpr
  cases seat with
  | slot other =>
      obtain ⟨content, hget, hstake⟩ := Option.bind_eq_some_iff.mp hu
      have hother : other ≠ name := fun heq => hne (congrArg Seat.slot heq)
      exact .inl ⟨other, content, (Catalog.get?_erase_of_ne _ hother).trans hget, hstake⟩
  | timer index =>
      obtain ⟨e, hget, hstake⟩ := Option.map_eq_some_iff.mp hu
      exact .inr ⟨e, List.mem_of_getElem? hget, hstake⟩

theorem timer_eq_of_id_eq (h : s.Accounts []) {i j : Nat} {e e' : Expiry}
    (he : s.expiries[i]? = some e) (he' : s.expiries[j]? = some e')
    (hid : e.ticket.id = e'.ticket.id) : i = j := by
  have hdistinct : ((stakes s.slots s.expiries).map fun stake => stake.1.id).Nodup := h.distinct
  rw [stakes, List.map_append, List.map_map] at hdistinct
  have hids := (List.nodup_append.mp hdistinct).2.1
  have hlt := (List.getElem?_eq_some_iff.mp he).1
  apply (List.getElem?_inj (by simpa using hlt) hids).mp
  simp only [List.getElem?_map, he, he', Option.map_some, Function.comp_apply, Expiry.stake, hid]

theorem seat_eq_of_id_eq (h : s.Accounts []) {p q : Seat} {b c : Stake}
    (hp : s.stakeAt? p = some (t, b)) (hq : s.stakeAt? q = some (u, c)) (hid : t.id = u.id) :
    p = q := by
  rcases Classical.em (p = q) with heq | hne
  · exact heq
  · cases p with
    | slot name => exact absurd hid.symm (id_ne_of_seat_ne h hp hq (Ne.symm hne))
    | timer i =>
        cases q with
        | slot name => exact absurd hid (id_ne_of_seat_ne h hq hp hne)
        | timer j =>
            obtain ⟨e, he, hstake⟩ := Option.map_eq_some_iff.mp hp
            obtain ⟨e', he', hstake'⟩ := Option.map_eq_some_iff.mp hq
            obtain ⟨rfl, -⟩ := Prod.mk.inj hstake
            obtain ⟨rfl, -⟩ := Prod.mk.inj hstake'
            exact congrArg Seat.timer (timer_eq_of_id_eq h he he' hid)

theorem Owns.exists_stakeAt (h : s.Owns a owner) :
    ∃ stake, s.stakeAt? owner.seat = some (a.ticket, stake) := by
  cases owner with
  | holder slot =>
      obtain ⟨hslot, -⟩ := h
      exact ⟨.held, by simp [stakeAt?, Owner.seat, hslot, Slot.stake?]⟩
  | called slot =>
      obtain ⟨⟨token, hslot⟩, -⟩ := h
      exact ⟨.awaited, by simp [stakeAt?, Owner.seat, hslot, Slot.stake?]⟩
  | timer index =>
      obtain ⟨e, he, hticket, -⟩ := h
      exact ⟨.leaving e.expiresAt, by simp [stakeAt?, Owner.seat, he, Expiry.stake, hticket]⟩
  | stranded slot =>
      obtain ⟨hslot, -⟩ := h
      exact ⟨.held, by simp [stakeAt?, Owner.seat, hslot, Slot.stake?]⟩

def ownerAt? (s : Session) : Seat → Option Owner
  | .slot name =>
    match s.slots.get? name with
    | some (.waiting _ _) => some (.called name)
    | some (.holding _) => some (.holder name)
    | some (.stranded _) => some (.stranded name)
    | _ => none
  | .timer index => some (.timer index)

theorem Owns.ownerAt?_seat (h : s.Owns a owner) : s.ownerAt? owner.seat = some owner := by
  cases owner with
  | holder slot =>
      obtain ⟨hslot, -⟩ := h
      simp only [Owner.seat, ownerAt?, hslot]
  | called slot =>
      obtain ⟨⟨token, hslot⟩, -⟩ := h
      simp only [Owner.seat, ownerAt?, hslot]
  | timer index => rfl
  | stranded slot =>
      obtain ⟨hslot, -⟩ := h
      simp only [Owner.seat, ownerAt?, hslot]

theorem Owns.unique (haccounts : s.Accounts []) (h : s.Owns a owner) (h' : s.Owns a' owner')
    (hid : a.ticket.id = a'.ticket.id) : owner = owner' := by
  obtain ⟨b, hseat⟩ := h.exists_stakeAt
  obtain ⟨c, hseat'⟩ := h'.exists_stakeAt
  have hsame : owner.seat = owner'.seat := seat_eq_of_id_eq haccounts hseat hseat' hid
  have howner := h.ownerAt?_seat
  rw [hsame, h'.ownerAt?_seat] at howner
  exact (Option.some.inj howner).symm

theorem slot_eq_of_id_eq (haccounts : s.Accounts []) {slot other token token' : String}
    (hslot : s.slots.get? slot = some (.waiting token t))
    (hother : s.slots.get? other = some (.waiting token' u)) (hid : t.id = u.id) :
    slot = other := by
  have hseat : s.stakeAt? (.slot slot) = some (t, .awaited) := by simp [stakeAt?, hslot, Slot.stake?]
  have hseat' : s.stakeAt? (.slot other) = some (u, .awaited) := by
    simp [stakeAt?, hother, Slot.stake?]
  exact Seat.slot.inj (seat_eq_of_id_eq haccounts hseat hseat' hid)

theorem Awaits.unique (haccounts : s.Accounts []) {slot other : String} (h : s.Awaits t slot)
    (h' : s.Awaits t other) : other = slot := by
  obtain ⟨⟨token, hslot⟩, -⟩ := h
  obtain ⟨⟨token', hother⟩, -⟩ := h'
  exact slot_eq_of_id_eq haccounts hother hslot rfl

/-- Where nobody waits or holds a ticket and no grace period runs, only tickets of lost holders are left. -/
theorem gate_left (hgate : s.gate.Sound) (h : s.Accounts [])
    (hslots : ∀ slot content, s.slots.get? slot = some content →
      content.stake? = none ∨ ∃ t, content = .stranded t)
    (hexpiries : s.expiries = []) :
    s.gate.waiting = .empty ∧ ∀ t, s.gate.Inside t → ∃ slot, s.slots.get? slot = some (.stranded t) := by
  have hcustody : Custody s.gate (stakes s.slots s.expiries) s.nextId := h
  have hlost : ∀ stake ∈ stakes s.slots s.expiries,
      stake.2 = .held ∧ ∃ slot, s.slots.get? slot = some (.stranded stake.1) := by
    intro stake hmem
    rcases mem_stakes_iff.mp hmem with ⟨slot, content, hget, hstake⟩ | ⟨e, he, -⟩
    · rcases hslots slot content hget with hnone | ⟨t, rfl⟩
      · rw [hnone] at hstake
        cases hstake
      · cases hstake
        exact ⟨rfl, slot, hget⟩
    · rw [hexpiries] at he
      cases he
  constructor
  · apply hgate.agree.eq_of_tickets_eq WaitList.agree_empty
    apply Catalog.eq_empty_iff.mpr
    intro id
    apply Option.eq_none_iff_forall_not_mem.mpr
    intro t ht
    obtain ⟨hheld, -⟩ := hlost _ ((hcustody.waits_iff t).mp (hgate.waits_of_get? ht).2).1
    cases hheld
  · intro t hinside
    obtain ⟨stake, hmem⟩ := hcustody.exists_stake hinside
    exact (hlost _ hmem).2

theorem active_empty (hgate : s.gate.Sound) (hnobody : ∀ t, ¬s.gate.Inside t) :
    s.gate.active = .empty := by
  apply Catalog.eq_empty_iff.mpr
  intro flow
  apply Option.eq_none_iff_forall_not_mem.mpr
  intro party hparty
  obtain ⟨id, a, hget⟩ := Catalog.exists_get? (hgate.inhabited flow party hparty)
  exact hnobody a.ticket ⟨_, hgate.admits_of_get? hparty hget⟩

theorem gate_empty (hgate : s.gate.Sound) (h : s.Accounts [])
    (hslots : ∀ slot content, s.slots.get? slot = some content → content.stake? = none)
    (hexpiries : s.expiries = []) : s.gate.active = .empty ∧ s.gate.waiting = .empty := by
  obtain ⟨hwaiting, hlost⟩ :=
    gate_left hgate h (fun slot content hget => .inl (hslots slot content hget)) hexpiries
  refine ⟨active_empty hgate fun t hinside => ?_, hwaiting⟩
  obtain ⟨slot, hslot⟩ := hlost t hinside
  have hnone := hslots slot _ hslot
  cases hnone

end Session

end FlowGate
