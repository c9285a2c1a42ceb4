import FlowGate.Proofs.CallOrder

namespace FlowGate

namespace WaitList

theorem Agree.eq_of_get?_iff {w w' : WaitList} (h : w.Agree) (h' : w'.Agree)
    (hget : ∀ t, w.tickets.get? t.id = some t ↔ w'.tickets.get? t.id = some t) : w = w' := by
  apply h.eq_of_tickets_eq h'
  apply Catalog.ext_get?
  intro id
  apply Option.ext
  intro t
  constructor
  · intro ht
    obtain rfl := h.numbered id t ht
    exact (hget t).mp ht
  · intro ht
    obtain rfl := h'.numbered id t ht
    exact (hget t).mpr ht

theorem dueFlows_nodup (w : WaitList) : w.dueFlows.Nodup := Ticket.ranking_nodup _

theorem length_dueFlows_le (w : WaitList) : w.dueFlows.length ≤ w.size := by
  have hsub : w.dueFlows ⊆ w.tickets.values.map fun t => t.flow := by
    intro flow hmem
    obtain ⟨t, ht, hflow⟩ := Ticket.mem_ranking_iff.mp hmem
    exact List.mem_map.mpr ⟨t, ht, hflow⟩
  have hle := (List.subperm_of_subset w.dueFlows_nodup hsub).length_le
  rwa [List.length_map, Catalog.values, List.length_map] at hle

end WaitList

namespace Gate

open Logged (Gives gives_pure_iff gives_emit_bind_iff)

variable {g g' g'' : Gate} {t u : Ticket} {flows : List Flow} {capacity : Option Nat}

theorem LetsIn.unique (h : g.LetsIn flows g') (h' : g.LetsIn flows g'') : g' = g'' := by
  have hactive : g'.active = g''.active := by
    apply Catalog.ext_get?
    intro flow
    rcases Classical.em (flow ∈ flows) with hmem | hmem
    · obtain ⟨party, hparty, hget⟩ := h.party_iff flow hmem
      obtain ⟨party', hparty', hget'⟩ := h'.party_iff flow hmem
      rw [hparty, hparty', Option.some.injEq]
      apply Catalog.ext_get?
      intro id
      apply Option.ext
      intro a
      exact (hget id a).trans (hget' id a).symm
    · rw [h.active_eq flow hmem, h'.active_eq flow hmem]
  have hwaiting : g'.waiting = g''.waiting :=
    h.agree.eq_of_get?_iff h'.agree fun t => (h.waits_iff t).trans (h'.waits_iff t).symm
  have hcalled : g'.called = g''.called := by
    apply Catalog.eq_of_contains
    intro id
    rw [Bool.eq_iff_iff, h.calling_iff, h'.calling_iff]
  have hcapacity : g'.capacity = g''.capacity := h.capacity.trans h'.capacity.symm
  cases g'
  cases g''
  simp_all only

theorem LetsIn.withCapacity (h : g.LetsIn flows g') (capacity : Option Nat) :
    LetsIn { g with capacity } flows { g' with capacity } :=
  ⟨h.agree, rfl, h.party_iff, h.active_eq, h.waits_iff, h.calling_iff⟩

theorem LetsIn.strike (h : g.LetsIn flows g') (hnot : t.flow ∉ flows) :
    (g.strike t).LetsIn flows (g'.strike t) := by
  have hparty : g'.party t.flow = g.party t.flow := by
    rw [party, party, h.active_eq t.flow hnot]
  refine ⟨h.agree, h.capacity, ?_, ?_, h.waits_iff, h.calling_iff⟩
  · intro flow hmem
    have hne : flow ≠ t.flow := fun heq => hnot (heq ▸ hmem)
    rw [get?_strike_of_ne hne]
    exact h.party_iff flow hmem
  · intro flow hmem
    rcases Classical.em (flow = t.flow) with rfl | hne
    · rw [get?_strike_self, get?_strike_self, hparty]
    · rw [get?_strike_of_ne hne, get?_strike_of_ne hne, h.active_eq flow hmem]

theorem LetsIn.size_eq (h : g.LetsIn flows g') (hnodup : flows.Nodup)
    (hinactive : ∀ flow ∈ flows, g.active.get? flow = none) :
    g'.active.size = g.active.size + flows.length := by
  have hkeys : (flows ++ g.active.keys).Nodup := by
    refine List.nodup_append.mpr ⟨hnodup, g.active.keys_nodup, ?_⟩
    rintro flow hmem _ hactive rfl
    obtain ⟨party, hparty⟩ := Catalog.contains_iff.mp (Catalog.mem_keys_iff.mp hactive)
    rw [hinactive flow hmem] at hparty
    cases hparty
  have hmem : ∀ flow, g'.active.contains flow = true ↔ flow ∈ flows ++ g.active.keys := by
    intro flow
    rw [List.mem_append, Catalog.mem_keys_iff]
    rcases Classical.em (flow ∈ flows) with hin | hout
    · obtain ⟨party, hparty, -⟩ := h.party_iff flow hin
      exact iff_of_true (Catalog.contains_iff.mpr ⟨party, hparty⟩) (.inl hin)
    · simp only [Catalog.contains, h.active_eq flow hout, hout, false_or]
  rw [Catalog.size_eq_length hkeys hmem, List.length_append, Catalog.keys, List.length_map,
    Catalog.size, Nat.add_comm]

theorem LetsIn.dueFlows_eq (h : g.LetsIn flows g') (hagree : g.waiting.Agree) :
    g'.waiting.dueFlows = g.waiting.dueFlows.filter fun flow => flow ∉ flows := by
  apply Ticket.ranking_eq_filter (p := (· ∈ flows)) _ hagree.distinct h.agree.distinct
  intro t
  rw [h.agree.mem_values_iff, hagree.mem_values_iff]
  exact h.waits_iff t

theorem filter_not_mem_take {α : Type} [DecidableEq α] {l : List α} (h : l.Nodup) (n : Nat) :
    l.filter (fun a => a ∉ l.take n) = l.drop n := by
  have hsplit : (l.take n ++ l.drop n).Nodup := by rwa [List.take_append_drop]
  obtain ⟨-, -, hdisjoint⟩ := List.nodup_append.mp hsplit
  conv_lhs => rw [← List.take_append_drop n l, List.filter_append]
  rw [List.take_append_drop, List.filter_eq_nil_iff.mpr, List.filter_eq_self.mpr, List.nil_append]
  · intro a ha
    exact decide_eq_true fun hmem => hdisjoint a hmem a ha rfl
  · intro a ha
    simpa using ha

theorem callable_le (g : Gate) (limit : Nat) : g.callable limit ≤ g.waiting.dueFlows.length := by
  unfold callable
  cases g.capacity <;> simp only [] <;> omega

/-- The waiting flows that there is room for, in the order in which they are due. -/
def admissible (g : Gate) : List Flow :=
  g.waiting.dueFlows.take (g.callable g.waiting.dueFlows.length)

/-- A gate lets in every waiting flow that there is room for. -/
def Settles (g g' : Gate) : Prop := g.LetsIn g.admissible g'

theorem Settles.unique (h : g.Settles g') (h' : g.Settles g'') : g' = g'' := LetsIn.unique h h'

theorem length_admissible (g : Gate) :
    g.admissible.length = g.callable g.waiting.dueFlows.length :=
  List.length_take_of_le (g.callable_le _)

theorem admissible_of_unbounded (h : g.capacity = none) : g.admissible = g.waiting.dueFlows := by
  rw [admissible, callable, h]
  exact List.take_of_length_le (Nat.le_min.mpr ⟨Nat.le_refl _, Nat.le_refl _⟩)

theorem apart_of_mem_dueFlows (hagree : g.waiting.Agree)
    (hapart : ∀ t, g.Waits t → g.active.get? t.flow = none) {flow : Flow}
    (hmem : flow ∈ g.waiting.dueFlows) : g.active.get? flow = none := by
  obtain ⟨t, ht, rfl⟩ := hagree.mem_dueFlows_iff.mp hmem
  exact hapart t ht

/--
A gate that has let in some of the flows that there is room for, and then all that there is room for, has
let in all that there was room for.
-/
theorem LetsIn.settles (hagree : g.waiting.Agree)
    (hapart : ∀ t, g.Waits t → g.active.get? t.flow = none) {n : Nat}
    (hn : n ≤ g.callable g.waiting.dueFlows.length)
    (h : g.LetsIn (g.waiting.dueFlows.take n) g') (h' : g'.Settles g'') :
    g.admissible = g.waiting.dueFlows.take n ++ g'.admissible ∧ g.Settles g'' := by
  have hle : n ≤ g.waiting.dueFlows.length := Nat.le_trans hn (g.callable_le _)
  have hlength : (g.waiting.dueFlows.take n).length = n := List.length_take_of_le hle
  have hnodup : (g.waiting.dueFlows.take n).Nodup :=
    g.waiting.dueFlows_nodup.sublist (List.take_sublist ..)
  have hdue : g'.waiting.dueFlows = g.waiting.dueFlows.drop n := by
    rw [h.dueFlows_eq hagree, filter_not_mem_take g.waiting.dueFlows_nodup]
  have hsize : g'.active.size = g.active.size + n := by
    rw [h.size_eq hnodup, hlength]
    intro flow hmem
    exact apart_of_mem_dueFlows hagree hapart (List.mem_of_mem_take hmem)
  have hcallable : g.callable g.waiting.dueFlows.length =
      n + g'.callable g'.waiting.dueFlows.length := by
    rw [hdue, List.length_drop]
    unfold callable at hn ⊢
    rw [hdue, List.length_drop, hsize, h.capacity]
    cases hm : g.capacity <;> simp only [hm] at hn ⊢ <;> omega
  have hadmissible : g.admissible = g.waiting.dueFlows.take n ++ g'.admissible := by
    rw [admissible, hcallable, List.take_add, admissible, hdue]
  refine ⟨hadmissible, ?_⟩
  rw [Settles, hadmissible]
  apply h.append h'
  intro flow hmem hfirst
  obtain ⟨t, ht, rfl⟩ := h.agree.mem_dueFlows_iff.mp (List.mem_of_mem_take hmem)
  exact ((h.waits_iff t).mp ht).2 hfirst

theorem LetsIn.admits_iff (h : g.LetsIn flows g') (hnot : t.flow ∉ flows) {e : Option Nat} :
    g'.Admits t e ↔ g.Admits t e := by
  rw [Gate.admits_iff, Gate.admits_iff, h.active_eq t.flow hnot]

theorem Consistent.not_mem_admissible (h : g.Consistent) {e : Option Nat} (ht : g.Admits t e) :
    t.flow ∉ g.admissible := by
  intro hmem
  have hnone := apart_of_mem_dueFlows h.agree h.apart (List.mem_of_mem_take hmem)
  obtain ⟨party, hparty, -⟩ := Gate.admits_iff.mp ht
  rw [hnone] at hparty
  cases hparty

theorem settles_self (hagree : g.waiting.Agree)
    (hnone : g.hasSpace = false ∨ g.waiting.dueFlows = []) : g.admissible = [] ∧ g.Settles g := by
  have hnil : g.admissible = [] := by rw [admissible, callable_eq_zero hnone, List.take_zero]
  refine ⟨hnil, ?_⟩
  rw [Settles, hnil]
  exact .nil hagree

theorem Sound.settles_self (h : g.Sound) : g.admissible = [] ∧ g.Settles g := by
  apply Gate.settles_self h.agree
  cases hspace : g.hasSpace with
  | false => exact .inl rfl
  | true => exact .inr (h.agree.dueFlows_eq_nil (h.tickets_empty_of_hasSpace hspace))

/-- A call that may let in as many flows as there is room for lets them all in. -/
theorem callUpTo_settles (hagree : g.waiting.Agree)
    (hapart : ∀ t, g.Waits t → g.active.get? t.flow = none) {limit : Nat}
    (hlimit : g.callable limit = g.callable g.waiting.dueFlows.length) :
    (g.callUpTo limit).Gives fun r events =>
      r.1 = g.admissible.length ∧ calledFlows events = g.admissible ∧ g.Settles r.2 := by
  have hlets := callUpTo_lets_in hagree hapart limit
  rw [hlimit] at hlets
  refine hlets.mono ?_
  rintro r events ⟨hcount, hcalled, hrest⟩
  exact ⟨hcount.trans g.length_admissible.symm, hcalled, hrest⟩

theorem callable_eq_of_room {limit : Nat}
    (hroom : g.waiting.dueFlows ≠ [] → ∃ m, g.capacity = some m ∧ m - g.active.size ≤ limit) :
    g.callable limit = g.callable g.waiting.dueFlows.length := by
  rcases Classical.em (g.waiting.dueFlows = []) with hnil | hsome
  · rw [callable_eq_zero (.inr hnil), callable_eq_zero (.inr hnil)]
  · obtain ⟨m, hm, hlimit⟩ := hroom hsome
    simp only [callable, hm]
    omega

theorem Sound.full_of_dueFlows (h : g.Sound) (hsome : g.waiting.dueFlows ≠ []) :
    ∃ m, g.capacity = some m ∧ m ≤ g.active.size := by
  apply hasSpace_eq_false_iff.mp
  apply h.full_of_waiting
  intro hempty
  exact hsome (h.agree.dueFlows_eq_nil hempty)

theorem callUpTo_one (hspace : g.hasSpace = true) :
    g.callUpTo 1 = do
      let next ← g.callNext?
      return (if next.isSome then 1 else 0, next.getD g) := by
  rw [callUpTo, if_pos hspace]
  congr 1
  funext next
  cases next <;> rfl

theorem callNext?_settles (hagree : g.waiting.Agree)
    (hapart : ∀ t, g.Waits t → g.active.get? t.flow = none) (hspace : g.hasSpace = true)
    (hlimit : g.callable 1 = g.callable g.waiting.dueFlows.length) :
    g.callNext?.Gives fun r events =>
      calledFlows events = g.admissible ∧ g.Settles (r.getD g) := by
  have hcall := callUpTo_settles hagree hapart hlimit
  rw [callUpTo_one hspace] at hcall
  obtain ⟨_, _, hok, -, hcalled, hsettles⟩ := hcall
  obtain ⟨next, events, _, hnext, hpure, rfl⟩ := Logged.bind_eq_ok_iff.mp hok
  cases hpure
  rw [List.append_nil] at hcalled
  exact ⟨next, events, hnext, hcalled, hsettles⟩

theorem remove_found_settles (h : g.Sound) {party : Party}
    (hparty : g.active.get? t.flow = some party) (hcontains : party.contains t.id = true) :
    (g.remove t).Gives fun g' events =>
      calledFlows events = (g.strike t).admissible ∧ (g.strike t).Settles g' := by
  have hstrike : (g.strike t).Consistent := h.toConsistent.strike
  simp only [remove, hparty, Option.filter_some, hcontains, if_true]
  cases hempty : (party.erase t.id).isEmpty with
  | false =>
      simp only [Bool.not_false, if_true, ← Gate.strike_of_rest hparty hempty]
      obtain ⟨hnil, hsettles⟩ := (h.strike_of_rest hparty hempty).settles_self
      rw [gives_emit_bind_iff, gives_pure_iff]
      exact ⟨hnil.symm, hsettles⟩
  | true =>
      simp only [Bool.not_true, Bool.false_eq_true, if_false, ← strike_of_last hparty hempty]
      rw [gives_emit_bind_iff]
      cases hspace : (g.strike t).hasSpace with
      | false =>
          obtain ⟨hnil, hsettles⟩ := settles_self hstrike.agree (.inl hspace)
          exact gives_pure_iff.mpr ⟨hnil.symm, hsettles⟩
      | true =>
          have hsize : (g.strike t).active.size + 1 = g.active.size := by
            rw [strike_of_last hparty hempty]
            exact Catalog.size_erase_of_get? hparty
          have hlimit : (g.strike t).callable 1 =
              (g.strike t).callable (g.strike t).waiting.dueFlows.length := by
            apply callable_eq_of_room
            intro hsome
            obtain ⟨m, hm, hle⟩ := h.full_of_dueFlows hsome
            exact ⟨m, hm, by omega⟩
          apply (callNext?_settles hstrike.agree hstrike.apart hspace hlimit).bind
          rintro next events ⟨hcalled, hsettles⟩
          refine gives_pure_iff.mpr ⟨?_, hsettles⟩
          rw [List.append_nil]
          exact hcalled

theorem remove_settles (h : g.Sound) {e : Option Nat} (ht : g.Admits t e) :
    (g.remove t).Gives fun g' events =>
      calledFlows events = (g.strike t).admissible ∧ (g.strike t).Settles g' := by
  obtain ⟨party, hparty, hget⟩ := admits_iff.mp ht
  exact remove_found_settles h hparty (Catalog.contains_iff.mpr ⟨_, hget⟩)

/-- A capacity that is set is filled with the flows that are due first. -/
theorem setCapacity_settles (h : g.Sound) (capacity : Nat) :
    (g.setCapacity capacity).Gives fun g' events =>
      Settles { g with capacity := some capacity } g' ∧
        calledFlows events = admissible { g with capacity := some capacity } ∧
          .capacitySet capacity g.capacity (calledFlows events).length g'.active.size ∈ events := by
  have hopened := h.toConsistent.withCapacity (some capacity)
  refine (callUpTo_settles hopened.agree hopened.apart ?_).bind ?_
  · -- Whoever waits has found the old capacity used up, so the rise covers all the room there is.
    apply callable_eq_of_room
    intro hsome
    obtain ⟨previous, hm, hle⟩ := h.full_of_dueFlows hsome
    refine ⟨capacity, rfl, ?_⟩
    simp only [hm]
    omega
  · rintro ⟨called, g'⟩ events ⟨rfl, hcalled, hsettles⟩
    rw [gives_emit_bind_iff, gives_pure_iff]
    have hevents : ∀ event, calledFlows [event] = [] →
        calledFlows (events ++ [event]) = admissible { g with capacity := some capacity } := by
      intro event hevent
      rw [calledFlows_append, hcalled, hevent, List.append_nil]
    rw [hevents _ rfl]
    exact ⟨hsettles, rfl, List.mem_append_right _ List.mem_cons_self⟩

theorem liftCapacity_settles (h : g.Sound) :
    g.liftCapacity.Gives fun g' events =>
      Settles { g with capacity := none } g' ∧ calledFlows events = g.waiting.dueFlows ∧
        .capacityLifted g.waiting.dueFlows.length ∈ events := by
  have hlimit : callable { g with capacity := none } g.waiting.size =
      callable { g with capacity := none } g.waiting.dueFlows.length := by
    have hle := g.waiting.length_dueFlows_le
    simp only [callable]
    omega
  have hall : admissible { g with capacity := none } = g.waiting.dueFlows :=
    admissible_of_unbounded rfl
  have hopened := h.toConsistent.withCapacity none
  apply (callUpTo_settles hopened.agree hopened.apart hlimit).bind
  rintro ⟨called, g'⟩ events ⟨rfl, hcalled, hsettles⟩
  rw [gives_emit_bind_iff, gives_pure_iff, ← hall]
  refine ⟨hsettles, ?_, List.mem_append_right _ List.mem_cons_self⟩
  rw [calledFlows_append, hcalled]
  exact List.append_nil _

end Gate

end FlowGate
