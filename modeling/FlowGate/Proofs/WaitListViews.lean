import FlowGate.Proofs.ArrivalOrder
import FlowGate.Proofs.GroupingPairs
import FlowGate.Proofs.LoggedOutcome
import FlowGate.WaitList

/-!
The four views of a wait list. `Agree` says that each view files every waiting ticket under its own key
and nothing else; every operation keeps it, and no check of an operation fails. The next flow is that of the
ticket which precedes all others.
-/

namespace FlowGate

/-- A view files every waiting ticket under its key, and nothing else. -/
structure Grouping.Files {κ : Type} [Ord κ] [Std.TransOrd κ] (g : Grouping κ) (key : Ticket → κ)
    (tickets : Catalog Nat Ticket) : Prop where
  pair_iff : ∀ k id, g.contains k id = true ↔ ∃ t, tickets.get? id = some t ∧ key t = k
  noEmptyGroup : g.NoEmptyGroup

namespace Grouping.Files

variable {κ : Type} [Ord κ] [Std.TransOrd κ] {g : Grouping κ} {key : Ticket → κ}
  {tickets : Catalog Nat Ticket}

theorem insert_fst (h : g.Files key tickets) {t : Ticket} (hnew : tickets.get? t.id = none) :
    (g.insert (key t) t.id).1 = true := by
  have hnot : ¬g.contains (key t) t.id = true := by
    rw [h.pair_iff, hnew]
    simp
  simpa [Grouping.insert_fst] using hnot

theorem insert [Std.LawfulEqOrd κ] (h : g.Files key tickets) {t : Ticket}
    (hnew : tickets.get? t.id = none) :
    (g.insert (key t) t.id).2.Files key (tickets.insert t.id t) := by
  refine ⟨?_, h.noEmptyGroup.insert _ _⟩
  intro k id
  rw [contains_insert_iff, h.pair_iff]
  constructor
  · rintro (⟨rfl, rfl⟩ | ⟨u, hu, rfl⟩)
    · exact ⟨t, Catalog.get?_insert_self .., rfl⟩
    · have hne : id ≠ t.id := by
        rintro rfl
        rw [hnew] at hu
        cases hu
      exact ⟨u, by rw [Catalog.get?_insert_of_ne _ _ hne, hu], rfl⟩
  · rintro ⟨u, hu, rfl⟩
    rcases Catalog.get?_insert_eq_some_iff.mp hu with ⟨rfl, rfl⟩ | ⟨-, hold⟩
    · exact .inl ⟨rfl, rfl⟩
    · exact .inr ⟨u, hold, rfl⟩

theorem remove_fst (h : g.Files key tickets) {id : Nat} {t : Ticket}
    (ht : tickets.get? id = some t) : (g.remove (key t) id).1 = true := by
  rw [Grouping.remove_fst, h.pair_iff]
  exact ⟨t, ht, rfl⟩

theorem remove [Std.LawfulEqOrd κ] (h : g.Files key tickets) {id : Nat} {t : Ticket}
    (ht : tickets.get? id = some t) :
    (g.remove (key t) id).2.Files key (tickets.erase id) := by
  refine ⟨?_, h.noEmptyGroup.remove _ _⟩
  intro k i
  rw [contains_remove_iff, h.pair_iff]
  constructor
  · rintro ⟨hne, u, hu, rfl⟩
    have hid : i ≠ id := by
      rintro rfl
      rw [ht] at hu
      cases hu
      exact hne ⟨rfl, rfl⟩
    exact ⟨u, by rw [Catalog.get?_erase_of_ne _ hid, hu], rfl⟩
  · rintro ⟨u, hu, rfl⟩
    obtain ⟨hid, hold⟩ := Catalog.get?_erase_eq_some_iff.mp hu
    exact ⟨fun heq => hid heq.2, u, hold, rfl⟩

theorem eq [Std.LawfulEqOrd κ] {g' : Grouping κ} (h : g.Files key tickets)
    (h' : g'.Files key tickets) : g = g' := by
  apply h.noEmptyGroup.eq_of_contains h'.noEmptyGroup
  intro k id
  rw [Bool.eq_iff_iff, h.pair_iff, h'.pair_iff]

end Grouping.Files

namespace WaitList

open Logged (Gives emit gives_pure_iff gives_emit_bind_iff)

/-- The four views hold the same tickets, each under its own key. -/
structure Agree (w : WaitList) : Prop where
  byPriority : w.byPriority.Files (fun t => t.priority) w.tickets
  byReason : w.byReason.Files (fun t => t.reason) w.tickets
  byFlow : w.byFlow.Files (fun t => t.flow) w.tickets
  numbered : ∀ id t, w.tickets.get? id = some t → t.id = id

theorem agree_empty : empty.Agree := by
  constructor
  · exact ⟨by simp [empty, Grouping.contains_empty], Grouping.noEmptyGroup_empty⟩
  · exact ⟨by simp [empty, Grouping.contains_empty], Grouping.noEmptyGroup_empty⟩
  · exact ⟨by simp [empty, Grouping.contains_empty], Grouping.noEmptyGroup_empty⟩
  · simp [empty]

variable {w : WaitList}

theorem Agree.eq_of_tickets_eq {w' : WaitList} (h : w.Agree) (h' : w'.Agree)
    (htickets : w.tickets = w'.tickets) : w = w' := by
  have hpriority := (htickets ▸ h.byPriority).eq h'.byPriority
  have hreason := (htickets ▸ h.byReason).eq h'.byReason
  have hflow := (htickets ▸ h.byFlow).eq h'.byFlow
  cases w
  cases w'
  simp_all

theorem insert_gives (h : w.Agree) {t : Ticket} (hnew : w.tickets.get? t.id = none) :
    (w.insert t).Gives fun w' events =>
      w'.Agree ∧ w'.tickets = w.tickets.insert t.id t ∧ events = [.registered t] := by
  have habsent : w.contains t.id = false := Catalog.contains_eq_false_iff.mpr hnew
  have hpriority := h.byPriority.insert_fst hnew
  have hreason := h.byReason.insert_fst hnew
  have hflow := h.byFlow.insert_fst hnew
  simp only [insert, habsent, hpriority, hreason, hflow, Bool.and_self, Bool.not_true,
    Bool.false_eq_true, if_false]
  rw [gives_emit_bind_iff, gives_pure_iff]
  refine ⟨⟨h.byPriority.insert hnew, h.byReason.insert hnew, h.byFlow.insert hnew, ?_⟩, rfl, rfl⟩
  intro id u hu
  rcases Catalog.get?_insert_eq_some_iff.mp hu with ⟨rfl, rfl⟩ | ⟨-, hold⟩
  · rfl
  · exact h.numbered id u hold

theorem insert_eq_fail {t : Ticket} (h : w.contains t.id = true) :
    w.insert t = .fail (.registeredTwice t.id) := by
  simp [insert, h, Logged.bind_eq, Logged.bind]

theorem remove_gives_none {id : Nat} (hnone : w.tickets.get? id = none) :
    (w.remove id).Gives fun r events => r = none ∧ events = [] := by
  simp only [remove, hnone]
  exact gives_pure_iff.mpr ⟨rfl, rfl⟩

theorem remove_gives (h : w.Agree) {id : Nat} {t : Ticket} (ht : w.tickets.get? id = some t) :
    (w.remove id).Gives fun r events =>
      ∃ w', r = some (t, w') ∧ w'.Agree ∧ w'.tickets = w.tickets.erase id ∧
        events = [.deregistered t] := by
  have hpriority := h.byPriority.remove_fst ht
  have hreason := h.byReason.remove_fst ht
  have hflow := h.byFlow.remove_fst ht
  simp only [remove, ht, hpriority, hreason, hflow, Bool.and_self, Bool.not_true,
    Bool.false_eq_true, if_false]
  rw [gives_emit_bind_iff, gives_pure_iff]
  refine ⟨_, rfl, ⟨h.byPriority.remove ht, h.byReason.remove ht, h.byFlow.remove ht, ?_⟩,
    rfl, rfl⟩
  intro i u hu
  exact h.numbered i u (Catalog.get?_erase_eq_some_iff.mp hu).2

/-- A ticket waits, and precedes all others that wait. -/
def Leads (w : WaitList) (t : Ticket) : Prop :=
  w.tickets.get? t.id = some t ∧ ∀ u, w.tickets.get? u.id = some u → u = t ∨ t.Precedes u

theorem Leads.unique {t u : Ticket} (ht : w.Leads t) (hu : w.Leads u) : t = u := by
  rcases hu.2 t ht.1 with rfl | hut
  · rfl
  · rcases ht.2 u hu.1 with rfl | htu
    · rfl
    · exact absurd hut htu.asymm

theorem Agree.leads_of_last? (h : w.Agree) {p : Priority} {group : NumberSet} {id : Nat} {t : Ticket}
    (hlast : w.byPriority.last? = some (p, group)) (hfirst : group.first? = some (id, ()))
    (ht : w.tickets.get? id = some t) : t.priority = p ∧ w.Leads t := by
  obtain rfl : t.id = id := h.numbered id t ht
  have hgroup : w.byPriority.get? p = some group := Catalog.get?_of_last? hlast
  have hp : t.priority = p := by
    have hcontains : group.contains t.id = true :=
      Catalog.contains_iff.mpr ⟨(), Catalog.get?_of_first? hfirst⟩
    rw [← Grouping.contains_eq_of_get? hgroup, h.byPriority.pair_iff] at hcontains
    obtain ⟨u, hu, rfl⟩ := hcontains
    rw [ht] at hu
    cases hu
    rfl
  subst hp
  refine ⟨rfl, ht, ?_⟩
  intro u hu
  have hpair := (h.byPriority.pair_iff u.priority u.id).mpr ⟨u, hu, rfl⟩
  obtain ⟨group', hgroup', hmem⟩ := Grouping.contains_iff.mp hpair
  have hlevel := Priority.isLE_compare_iff.mp (Catalog.isLE_of_last? hlast hgroup')
  rcases Int.lt_or_eq_of_le hlevel with hlt | heq
  · exact .inr (.inl hlt)
  · rw [Priority.ext heq, hgroup] at hgroup'
    cases hgroup'
    obtain ⟨_, hget⟩ := Catalog.contains_iff.mp hmem
    rcases Nat.lt_or_eq_of_le (Nat.isLE_compare.mp (Catalog.isLE_of_first? hfirst hget)) with hlt | hid
    · exact .inr (.inr ⟨heq, hlt⟩)
    · rw [← hid, ht] at hu
      exact .inl (Option.some.inj hu).symm

theorem mostUrgent?_eq_none_iff (h : w.Agree) : w.mostUrgent? = none ↔ w.tickets = .empty := by
  rw [mostUrgent?, Option.map_eq_none_iff]
  constructor
  · intro hlast
    apply Catalog.eq_empty_iff.mpr
    intro id
    cases ht : w.tickets.get? id with
    | none => rfl
    | some t =>
        obtain ⟨row, hrow⟩ :=
          Grouping.exists_last? ((h.byPriority.pair_iff t.priority id).mpr ⟨t, ht, rfl⟩)
        rw [hlast] at hrow
        cases hrow
  · intro hempty
    cases hlast : w.byPriority.last? with
    | none => rfl
    | some row =>
        obtain ⟨id, -, hpair⟩ := h.byPriority.noEmptyGroup.contains_of_last? hlast
        obtain ⟨t, ht, -⟩ := (h.byPriority.pair_iff _ _).mp hpair
        rw [hempty] at ht
        cases ht

/-- Nobody waits, or somebody leads: its priority is the highest, and its flow is the next. -/
theorem Agree.empty_or_leads (h : w.Agree) :
    w.tickets = .empty ∧ w.mostUrgent? = none ∧ w.nextFlow? = pure none ∨
      ∃ t, w.Leads t ∧ w.mostUrgent? = some t.priority ∧ w.nextFlow? = pure (some t.flow) := by
  cases hlast : w.byPriority.last? with
  | none =>
      have hnone : w.mostUrgent? = none := by rw [mostUrgent?, hlast, Option.map_none]
      exact .inl ⟨(mostUrgent?_eq_none_iff h).mp hnone, hnone, by simp [nextFlow?, hlast]⟩
  | some row =>
      obtain ⟨id, hfirst, hpair⟩ := h.byPriority.noEmptyGroup.contains_of_last? hlast
      obtain ⟨t, ht, -⟩ := (h.byPriority.pair_iff _ _).mp hpair
      obtain ⟨hp, hleads⟩ := h.leads_of_last? hlast hfirst ht
      refine .inr ⟨t, hleads, by rw [mostUrgent?, hlast, Option.map_some, hp], ?_⟩
      simp only [nextFlow?, hlast, Option.bind_some, hfirst, ht]

theorem nextFlow?_gives (h : w.Agree) :
    w.nextFlow?.Gives fun r events =>
      events = [] ∧ (r = none → w.tickets = .empty) ∧
        ∀ flow, r = some flow → ∃ t, w.Leads t ∧ t.flow = flow := by
  rcases h.empty_or_leads with ⟨hempty, -, hnext⟩ | ⟨t, hleads, -, hnext⟩
  · rw [hnext, gives_pure_iff]
    exact ⟨rfl, fun _ => hempty, by simp⟩
  · rw [hnext, gives_pure_iff]
    refine ⟨rfl, by simp, ?_⟩
    rintro flow ⟨rfl⟩
    exact ⟨t, hleads, rfl⟩

/-- Tickets that wait are taken off the list, each once, and the others stay. -/
structure Takes (w : WaitList) (ts : List Ticket) (w' : WaitList) : Prop where
  agree : w'.Agree
  waiting : ∀ t ∈ ts, w.tickets.get? t.id = some t
  distinct : (ts.map fun t => t.id).Nodup
  rest_iff : ∀ id t, w'.tickets.get? id = some t ↔ w.tickets.get? id = some t ∧ t ∉ ts
  size_add : w'.size + ts.length = w.size

theorem Takes.cons (h : w.Agree) {t : Ticket} (ht : w.tickets.get? t.id = some t)
    {w' w'' : WaitList} {ts : List Ticket} (htickets : w'.tickets = w.tickets.erase t.id)
    (htakes : w'.Takes ts w'') : w.Takes (t :: ts) w'' := by
  have hwaiting : ∀ u ∈ ts, u.id ≠ t.id ∧ w.tickets.get? u.id = some u := by
    intro u hu
    have hrest := htakes.waiting u hu
    rw [htickets] at hrest
    exact Catalog.get?_erase_eq_some_iff.mp hrest
  refine ⟨htakes.agree, ?_, ?_, ?_, ?_⟩
  · intro u hu
    rcases List.mem_cons.mp hu with rfl | hu
    · exact ht
    · exact (hwaiting u hu).2
  · refine List.nodup_cons.mpr ⟨?_, htakes.distinct⟩
    intro hmem
    obtain ⟨u, hu, hid⟩ := List.mem_map.mp hmem
    exact (hwaiting u hu).1 hid
  · intro id u
    rw [htakes.rest_iff, htickets, Catalog.get?_erase_eq_some_iff, List.mem_cons, not_or]
    constructor
    · rintro ⟨⟨hid, hu⟩, hmem⟩
      refine ⟨hu, ?_, hmem⟩
      rintro rfl
      exact hid (h.numbered id u hu).symm
    · rintro ⟨hu, hne, hmem⟩
      refine ⟨⟨?_, hu⟩, hmem⟩
      rintro rfl
      rw [ht] at hu
      exact hne (Option.some.inj hu).symm
  · have hsize := htakes.size_add
    have herase := Catalog.size_erase_of_get? ht
    rw [← htickets] at herase
    simp only [size, List.length_cons] at hsize ⊢
    omega

theorem removeAll_gives (h : w.Agree) {ids : List Nat} (hnodup : ids.Nodup)
    (hall : ∀ id ∈ ids, w.contains id = true) :
    (w.removeAll ids).Gives fun r events =>
      w.Takes r.1 r.2 ∧ r.1.map (fun t => t.id) = ids ∧ events = r.1.map .deregistered := by
  induction ids generalizing w with
  | nil =>
      exact gives_pure_iff.mpr ⟨⟨h, by simp, by simp, by simp, by simp⟩, rfl, rfl⟩
  | cons id ids ih =>
      obtain ⟨hid, hids⟩ := List.nodup_cons.mp hnodup
      obtain ⟨t, ht⟩ := Catalog.contains_iff.mp (hall id (by simp))
      obtain rfl : t.id = id := h.numbered id t ht
      apply (remove_gives h ht).bind
      rintro _ _ ⟨w', rfl, hagree, htickets, rfl⟩
      have hrest : ∀ i ∈ ids, w'.contains i = true := by
        intro i hi
        rw [contains, htickets, Catalog.contains_erase_iff]
        refine ⟨?_, hall i (by simp [hi])⟩
        rintro rfl
        exact hid hi
      apply (ih hagree hids hrest).bind
      rintro ⟨ts, w''⟩ _ ⟨htakes, rfl, rfl⟩
      exact gives_pure_iff.mpr ⟨htakes.cons h ht htickets, by simp, by simp⟩

/-- Everyone who waits for a flow is taken off the list, in order of arrival. -/
theorem take_gives (h : w.Agree) {u : Ticket} (hu : w.tickets.get? u.id = some u) :
    (w.take u.flow).Gives fun r events =>
      w.Takes r.1 r.2 ∧ (∀ t, t ∈ r.1 ↔ w.tickets.get? t.id = some t ∧ t.flow = u.flow) ∧
        (r.1.map fun t => t.id).Pairwise (· < ·) ∧ events = r.1.map .deregistered := by
  obtain ⟨group, hgroup, hmem⟩ :=
    Grouping.contains_iff.mp ((h.byFlow.pair_iff u.flow u.id).mpr ⟨u, hu, rfl⟩)
  have hkeys : ∀ id, id ∈ group.keys ↔ ∃ t, w.tickets.get? id = some t ∧ t.flow = u.flow := by
    intro id
    rw [Catalog.mem_keys_iff, ← h.byFlow.pair_iff, Grouping.contains_iff, hgroup]
    simp
  have hascending : group.keys.Pairwise (· < ·) :=
    group.keys_ascending.imp fun hlt => Nat.compare_eq_lt.mp hlt
  have hsome : group.keys.isEmpty = false := by
    rw [List.isEmpty_eq_false_iff_exists_mem]
    exact ⟨u.id, Catalog.mem_keys_iff.mpr hmem⟩
  simp only [take, hgroup, Option.map_some, Option.getD_some, hsome, Bool.false_eq_true, if_false]
  have hnodup : group.keys.Nodup := hascending.imp fun hlt => Nat.ne_of_lt hlt
  have hall : ∀ id ∈ group.keys, w.contains id = true := by
    intro id hid
    obtain ⟨t, ht, -⟩ := (hkeys id).mp hid
    exact Catalog.contains_iff.mpr ⟨t, ht⟩
  refine (removeAll_gives h hnodup hall).mono ?_
  rintro ⟨ts, w'⟩ events ⟨htakes, hmap, hevents⟩
  dsimp only at htakes hmap hevents ⊢
  refine ⟨htakes, ?_, hmap ▸ hascending, hevents⟩
  intro t
  constructor
  · intro ht
    have hwaits := htakes.waiting t ht
    have hid : t.id ∈ group.keys := by
      rw [← hmap]
      exact List.mem_map_of_mem ht
    obtain ⟨t', ht', hflow⟩ := (hkeys t.id).mp hid
    rw [hwaits] at ht'
    cases ht'
    exact ⟨hwaits, hflow⟩
  · rintro ⟨hwaits, hflow⟩
    have hid : t.id ∈ ts.map fun t => t.id := by
      rw [hmap]
      exact (hkeys t.id).mpr ⟨t, hwaits, hflow⟩
    obtain ⟨t', ht', heq⟩ := List.mem_map.mp hid
    have hwaits' := htakes.waiting t' ht'
    rw [heq, hwaits] at hwaits'
    cases hwaits'
    exact ht'

end WaitList

end FlowGate
