import FlowGate.Proofs.FlowRanking
import FlowGate.Proofs.GateOperations

namespace FlowGate

namespace WaitList

variable {w : WaitList} {t : Ticket}

theorem Agree.mem_values_iff (h : w.Agree) :
    t ∈ w.tickets.values ↔ w.tickets.get? t.id = some t := by
  rw [Catalog.mem_values_iff]
  constructor
  · rintro ⟨id, ht⟩
    rwa [h.numbered id t ht]
  · exact fun ht => ⟨t.id, ht⟩

theorem Agree.distinct (h : w.Agree) : (w.tickets.values.map fun t => t.id).Nodup := by
  have hkeys : w.tickets.values.map (fun t => t.id) = w.tickets.keys := by
    rw [Catalog.values, Catalog.keys, List.map_map]
    apply List.map_congr_left
    rintro ⟨id, t⟩ hrow
    exact h.numbered id t (Catalog.mem_rows_iff.mp hrow)
  rw [hkeys]
  exact w.tickets.keys_nodup

/-- The flows that are waited for, in the order in which they are due. -/
def dueFlows (w : WaitList) : List Flow := Ticket.ranking w.tickets.values

theorem Agree.mem_dueFlows_iff (h : w.Agree) {flow : Flow} :
    flow ∈ w.dueFlows ↔ ∃ t, w.tickets.get? t.id = some t ∧ t.flow = flow := by
  simp only [dueFlows, Ticket.mem_ranking_iff, h.mem_values_iff]

theorem Agree.dueFlows_eq_nil (h : w.Agree) (hempty : w.tickets = .empty) : w.dueFlows = [] := by
  rw [List.eq_nil_iff_forall_not_mem]
  intro flow hmem
  obtain ⟨t, ht, -⟩ := h.mem_dueFlows_iff.mp hmem
  rw [hempty] at ht
  cases ht

theorem Agree.dueFlows_eq_cons {w' : WaitList} (h : w.Agree) (h' : w'.Agree) {u : Ticket}
    (hleads : w.Leads u)
    (hrest : ∀ t, w'.tickets.get? t.id = some t ↔
      w.tickets.get? t.id = some t ∧ t.flow ≠ u.flow) :
    w.dueFlows = u.flow :: w'.dueFlows := by
  apply Ticket.ranking_eq_cons _ h.distinct h'.distinct (h.mem_values_iff.mpr hleads.1)
  · exact fun t ht => hleads.2 t (h.mem_values_iff.mp ht)
  · intro t
    rw [h'.mem_values_iff, h.mem_values_iff, hrest]

end WaitList

namespace Gate

open Logged (Gives gives_pure_iff)

variable {g g' g'' : Gate} {flow : Flow} {flows : List Flow}

/-- How many flows a call lets in: as many as it may, as wait, and as there is room for. -/
def callable (g : Gate) (limit : Nat) : Nat :=
  let wanted := min limit g.waiting.dueFlows.length
  match g.capacity with
  | none => wanted
  | some capacity => min wanted (capacity - g.active.size)

/-- The flows that are said to be called in, in order. -/
def calledFlows (events : List Event) : List Flow :=
  events.filterMap fun
    | .calledIn flow .. => some flow
    | _ => none

/-- Flows are let in, each with all the tickets that wait for it, and nothing else changes. -/
structure LetsIn (g : Gate) (flows : List Flow) (g' : Gate) : Prop where
  agree : g'.waiting.Agree
  capacity : g'.capacity = g.capacity
  party_iff : ∀ flow ∈ flows, ∃ party, g'.active.get? flow = some party ∧
    ∀ id a, party.get? id = some a ↔ ∃ t, g.Waits t ∧ t.flow = flow ∧ t.id = id ∧ a = ⟨t, none⟩
  active_eq : ∀ flow, flow ∉ flows → g'.active.get? flow = g.active.get? flow
  waits_iff : ∀ t, g'.Waits t ↔ g.Waits t ∧ t.flow ∉ flows
  calling_iff : ∀ id, g'.called.contains id = true ↔
    g.called.contains id = true ∨ ∃ t, g.Waits t ∧ t.flow ∈ flows ∧ t.id = id

theorem LetsIn.nil (h : g.waiting.Agree) : g.LetsIn [] g := by
  constructor <;> simp [h]

theorem LetsIn.append {others : List Flow} (h : g.LetsIn flows g') (h' : g'.LetsIn others g'')
    (hdisjoint : ∀ flow ∈ others, flow ∉ flows) : g.LetsIn (flows ++ others) g'' := by
  have hwaits : ∀ t, t.flow ∈ others → (g'.Waits t ↔ g.Waits t) := by
    intro t ht
    rw [h.waits_iff]
    exact and_iff_left (hdisjoint t.flow ht)
  refine ⟨h'.agree, h'.capacity.trans h.capacity, ?_, ?_, ?_, ?_⟩
  · intro flow hmem
    rcases Classical.em (flow ∈ others) with hother | hother
    · obtain ⟨party, hparty, hget⟩ := h'.party_iff flow hother
      refine ⟨party, hparty, ?_⟩
      intro id a
      rw [hget]
      refine exists_congr fun t => ?_
      constructor
      · rintro ⟨ht, rfl, hrest⟩
        exact ⟨(hwaits t hother).mp ht, rfl, hrest⟩
      · rintro ⟨ht, rfl, hrest⟩
        exact ⟨(hwaits t hother).mpr ht, rfl, hrest⟩
    · rw [h'.active_eq flow hother]
      exact h.party_iff flow ((List.mem_append.mp hmem).resolve_right hother)
  · intro flow hmem
    obtain ⟨hfirst, hother⟩ := not_or.mp (mt List.mem_append.mpr hmem)
    rw [h'.active_eq flow hother, h.active_eq flow hfirst]
  · intro t
    rw [h'.waits_iff, h.waits_iff, and_assoc, ← not_or, ← List.mem_append]
  · intro id
    rw [h'.calling_iff, h.calling_iff, or_assoc]
    refine or_congr_right ?_
    constructor
    · rintro (⟨t, ht, hflow, rfl⟩ | ⟨t, ht, hflow, rfl⟩)
      · exact ⟨t, ht, List.mem_append_left _ hflow, rfl⟩
      · exact ⟨t, (hwaits t hflow).mp ht, List.mem_append_right _ hflow, rfl⟩
    · rintro ⟨t, ht, hflow, rfl⟩
      rcases Classical.em (t.flow ∈ others) with hother | hother
      · exact .inr ⟨t, (hwaits t hother).mpr ht, hother, rfl⟩
      · exact .inl ⟨t, ht, (List.mem_append.mp hflow).resolve_right hother, rfl⟩

theorem LetsIn.apart (h : g.LetsIn flows g')
    (hapart : ∀ t, g.Waits t → g.active.get? t.flow = none) (t : Ticket) (ht : g'.Waits t) :
    g'.active.get? t.flow = none := by
  obtain ⟨hold, hnot⟩ := (h.waits_iff t).mp ht
  rw [h.active_eq _ hnot]
  exact hapart t hold

theorem apart_erase (hapart : ∀ t, g.Waits t → g.active.get? t.flow = none) (flow : Flow)
    (t : Ticket) (ht : g.Waits t) : (g.active.erase flow).get? t.flow = none := by
  rw [Catalog.get?_erase]
  split
  · rfl
  · exact hapart t ht

theorem letsIn_letIn {ts : List Ticket} {waiting : WaitList}
    (htakes : g.waiting.Takes ts waiting) (hmem : ∀ t, t ∈ ts ↔ g.Waits t ∧ t.flow = flow) :
    g.LetsIn [flow] (g.letIn flow ts waiting) := by
  refine ⟨htakes.agree, rfl, ?_, ?_, ?_, ?_⟩
  · intro other hother
    obtain rfl := List.mem_singleton.mp hother
    refine ⟨_, Catalog.get?_insert_self .., ?_⟩
    intro id a
    rw [get?_ofList_tickets_iff htakes]
    simp only [hmem, and_assoc]
  · intro other hother
    exact Catalog.get?_insert_of_ne _ _ (mt List.mem_singleton.mpr hother)
  · intro t
    rw [waits_letIn_iff htakes, hmem, List.mem_singleton]
    exact and_congr_right fun ht => not_congr (and_iff_right ht)
  · intro id
    rw [letIn, contains_call_iff]
    simp only [hmem, List.mem_singleton, and_assoc]

theorem letsIn_of_callNext? (hagree : g.waiting.Agree)
    (hapart : ∀ t, g.Waits t → g.active.get? t.flow = none) {events : List Event}
    (hok : g.callNext? = .ok (some g') events) : ∃ flow, g.LetsIn [flow] g' := by
  rcases (callNext?_lets_in hagree hapart).of_eq_ok hok with
    ⟨hnone, -⟩ | ⟨u, ts, waiting, -, htakes, hmem, heq, -⟩
  · cases hnone
  · cases heq
    exact ⟨u.flow, letsIn_letIn htakes hmem⟩

theorem callable_eq_zero {limit : Nat} (h : g.hasSpace = false ∨ g.waiting.dueFlows = []) :
    g.callable limit = 0 := by
  rcases h with hfull | hnil
  · obtain ⟨m, hm, hle⟩ := hasSpace_eq_false_iff.mp hfull
    simp only [callable, hm]
    omega
  · unfold callable
    cases g.capacity <;> simp [hnil]

theorem callable_succ {limit : Nat} (hspace : g.hasSpace = true)
    (hflows : g.waiting.dueFlows = flow :: g'.waiting.dueFlows) (hcapacity : g'.capacity = g.capacity)
    (hsize : g'.active.size = g.active.size + 1) :
    g.callable (limit + 1) = g'.callable limit + 1 := by
  unfold hasSpace at hspace
  unfold callable
  rw [hcapacity, hflows, List.length_cons]
  cases hm : g.capacity with
  | none => simp only []; omega
  | some m =>
      simp only [hm, decide_eq_true_eq] at hspace
      simp only []
      omega

theorem calledFlows_append (first later : List Event) :
    calledFlows (first ++ later) = calledFlows first ++ calledFlows later :=
  List.filterMap_append

theorem calledFlows_call (ts : List Ticket) (flow : Flow) (n m k : Nat) :
    calledFlows (ts.map .deregistered ++ [.calledIn flow n m k]) = [flow] := by
  have hnone : calledFlows (ts.map .deregistered) = [] := by
    simp [calledFlows, List.filterMap_map]
  rw [calledFlows_append, hnone]
  rfl

/-- A call lets in the first flows of the ranking, as many as it may. -/
theorem callUpTo_lets_in (hagree : g.waiting.Agree)
    (hapart : ∀ t, g.Waits t → g.active.get? t.flow = none) (limit : Nat) :
    (g.callUpTo limit).Gives fun r events =>
      r.1 = g.callable limit ∧ calledFlows events = g.waiting.dueFlows.take (g.callable limit) ∧
        g.LetsIn (g.waiting.dueFlows.take (g.callable limit)) r.2 := by
  induction limit generalizing g with
  | zero =>
      have hzero : g.callable 0 = 0 := by
        unfold callable
        cases g.capacity <;> simp
      rw [hzero]
      exact gives_pure_iff.mpr ⟨rfl, rfl, .nil hagree⟩
  | succ limit ih =>
      rw [callUpTo]
      cases hspace : g.hasSpace with
      | false =>
          rw [callable_eq_zero (.inl hspace)]
          exact gives_pure_iff.mpr ⟨rfl, rfl, .nil hagree⟩
      | true =>
          simp only [if_true]
          apply (callNext?_lets_in hagree hapart).bind
          rintro _ _ (⟨rfl, rfl, hempty⟩ | ⟨u, ts, waiting, hleads, htakes, hmem, rfl, rfl⟩)
          · rw [callable_eq_zero (.inr (hagree.dueFlows_eq_nil hempty))]
            exact gives_pure_iff.mpr ⟨rfl, rfl, .nil hagree⟩
          · have hlets := letsIn_letIn htakes hmem
            have hwaits : ∀ t, (g.letIn u.flow ts waiting).Waits t ↔ g.Waits t ∧ t.flow ≠ u.flow := by
              intro t
              rw [hlets.waits_iff, List.mem_singleton]
            have hflows := hagree.dueFlows_eq_cons htakes.agree hleads hwaits
            have hsize : (g.letIn u.flow ts waiting).active.size = g.active.size + 1 :=
              Catalog.size_insert_of_get?_none _ (hapart u hleads.1)
            have hsucc : g.callable (limit + 1) = (g.letIn u.flow ts waiting).callable limit + 1 :=
              callable_succ hspace hflows rfl hsize
            apply (ih htakes.agree (hlets.apart hapart)).bind
            rintro ⟨called, g''⟩ later ⟨hcalled, hlater, hrest⟩
            dsimp only at hcalled hlater hrest
            rw [hsucc, hflows, List.take_succ_cons]
            refine gives_pure_iff.mpr ⟨congrArg (· + 1) hcalled, ?_, hlets.append hrest ?_⟩
            · rw [calledFlows_append, calledFlows_call, List.append_nil, hlater]
              rfl
            · intro flow hin
              obtain ⟨t, ht, rfl⟩ := htakes.agree.mem_dueFlows_iff.mp (List.mem_of_mem_take hin)
              exact mt List.mem_singleton.mp ((hwaits t).mp ht).2

end Gate

end FlowGate
