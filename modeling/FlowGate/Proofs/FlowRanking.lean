import FlowGate.Proofs.ArrivalOrder
import Mathlib.Data.List.Dedup

/-!
The order in which flows are due. A flow ranks by the highest priority among its tickets, and then by the
smallest number among its tickets of that priority. The flow of the ticket that precedes all others is due
first, and when that flow is taken off, the others rank as they did.
-/

namespace FlowGate.Ticket

def forFlow (ts : List Ticket) (flow : Flow) : List Ticket := ts.filter fun t => t.flow = flow

/-- The highest priority among the tickets for a flow. -/
def urgency (ts : List Ticket) (flow : Flow) : Int :=
  ((forFlow ts flow).map fun t => t.priority.level).max?.getD 0

/-- The smallest number among the tickets for a flow that have the highest priority. -/
def arrival (ts : List Ticket) (flow : Flow) : Nat :=
  (((forFlow ts flow).filter fun t => t.priority.level = urgency ts flow).map fun t => t.id).min?.getD 0

/-- Whether one flow is due no later than another. -/
def dueBy (ts : List Ticket) (a b : Flow) : Bool :=
  urgency ts b < urgency ts a || urgency ts a == urgency ts b && arrival ts a ≤ arrival ts b

/-- The flows that tickets are for, each once, in the order in which they are due. -/
def ranking (ts : List Ticket) : List Flow := (ts.map fun t => t.flow).dedup.mergeSort (dueBy ts)

variable {ts us : List Ticket} {t u : Ticket} {flow other : Flow}

theorem mem_forFlow_iff : t ∈ forFlow ts flow ↔ t ∈ ts ∧ t.flow = flow := by
  simp [forFlow]

/-- A ticket precedes all others for its flow. -/
def Heads (ts : List Ticket) (flow : Flow) (u : Ticket) : Prop :=
  u ∈ forFlow ts flow ∧ ∀ t ∈ forFlow ts flow, t = u ∨ u.Precedes t

theorem Heads.urgency_eq (h : Heads ts flow u) : urgency ts flow = u.priority.level := by
  have hmax : ((forFlow ts flow).map fun t => t.priority.level).max? = some u.priority.level := by
    apply List.max?_eq_some_iff.mpr
    refine ⟨List.mem_map_of_mem h.1, ?_⟩
    intro level hlevel
    obtain ⟨t, ht, rfl⟩ := List.mem_map.mp hlevel
    rcases h.2 t ht with rfl | hlt | ⟨heq, -⟩
    · exact Int.le_refl _
    · exact Int.le_of_lt hlt
    · exact Int.le_of_eq heq
  rw [urgency, hmax, Option.getD_some]

theorem Heads.arrival_eq (h : Heads ts flow u) : arrival ts flow = u.id := by
  have hmin : (((forFlow ts flow).filter fun t => t.priority.level = urgency ts flow).map
      fun t => t.id).min? = some u.id := by
    apply List.min?_eq_some_iff.mpr
    constructor
    · exact List.mem_map_of_mem (List.mem_filter.mpr ⟨h.1, by simp [h.urgency_eq]⟩)
    · intro id hid
      obtain ⟨t, ht, rfl⟩ := List.mem_map.mp hid
      obtain ⟨ht, hlevel⟩ := List.mem_filter.mp ht
      rw [decide_eq_true_eq, h.urgency_eq] at hlevel
      rcases h.2 t ht with rfl | hlt | ⟨-, hlt⟩
      · exact Nat.le_refl _
      · omega
      · exact Nat.le_of_lt hlt
  rw [arrival, hmin, Option.getD_some]

theorem exists_first (hdistinct : (us.map fun t => t.id).Nodup) (hsome : us ≠ []) :
    ∃ u ∈ us, ∀ t ∈ us, t = u ∨ u.Precedes t := by
  induction us with
  | nil => exact absurd rfl hsome
  | cons v us ih =>
      obtain ⟨hv, hdistinct⟩ := List.nodup_cons.mp hdistinct
      rcases Classical.em (us = []) with rfl | hne
      · exact ⟨v, by simp, by simp⟩
      · obtain ⟨u, hu, hfirst⟩ := ih hdistinct hne
        have hid : v.id ≠ u.id := fun heq => hv (List.mem_map.mpr ⟨u, hu, heq.symm⟩)
        rcases precedes_or_precedes hid with hvu | huv
        · refine ⟨v, List.mem_cons_self, ?_⟩
          intro t ht
          rcases List.mem_cons.mp ht with rfl | ht
          · exact .inl rfl
          · rcases hfirst t ht with rfl | hut
            · exact .inr hvu
            · exact .inr (hvu.trans hut)
        · refine ⟨u, List.mem_cons_of_mem v hu, ?_⟩
          intro t ht
          rcases List.mem_cons.mp ht with rfl | ht
          · exact .inr huv
          · exact hfirst t ht

theorem exists_heads (hdistinct : (ts.map fun t => t.id).Nodup) (ht : t ∈ ts) :
    ∃ u, Heads ts t.flow u :=
  exists_first (hdistinct.sublist (List.filter_sublist.map _))
    (List.ne_nil_of_mem (mem_forFlow_iff.mpr ⟨ht, rfl⟩))

theorem Heads.dueBy_iff {v : Ticket} (hu : Heads ts flow u) (hv : Heads ts other v) :
    dueBy ts flow other = true ↔
      v.priority.level < u.priority.level ∨
        u.priority.level = v.priority.level ∧ u.id ≤ v.id := by
  simp [dueBy, hu.urgency_eq, hv.urgency_eq, hu.arrival_eq, hv.arrival_eq]

theorem mem_ranking_iff : flow ∈ ranking ts ↔ ∃ t ∈ ts, t.flow = flow := by
  rw [ranking, List.mem_mergeSort, List.mem_dedup, List.mem_map]

theorem ranking_nodup (ts : List Ticket) : (ranking ts).Nodup :=
  (List.mergeSort_perm ..).nodup_iff.mpr (List.nodup_dedup _)

theorem ranking_pairwise (ts : List Ticket) :
    (ranking ts).Pairwise fun a b => dueBy ts a b = true := by
  apply List.pairwise_mergeSort
  · intro a b c hab hbc
    simp only [dueBy, Bool.or_eq_true, Bool.and_eq_true, decide_eq_true_eq, beq_iff_eq] at *
    omega
  · intro a b
    simp only [dueBy, Bool.or_eq_true, Bool.and_eq_true, decide_eq_true_eq, beq_iff_eq]
    omega

theorem eq_ranking (hdistinct : (ts.map fun t => t.id).Nodup) {flows : List Flow}
    (hnodup : flows.Nodup) (hmem : ∀ flow, flow ∈ flows ↔ ∃ t ∈ ts, t.flow = flow)
    (hdue : flows.Pairwise fun a b => dueBy ts a b = true) : flows = ranking ts := by
  have hperm : flows.Perm (ranking ts) :=
    (List.perm_ext_iff_of_nodup hnodup (ranking_nodup ts)).mpr fun flow =>
      (hmem flow).trans mem_ranking_iff.symm
  refine hperm.eq_of_pairwise ?_ hdue (ranking_pairwise ts)
  intro a b ha hb hab hba
  obtain ⟨t, ht, rfl⟩ := (hmem a).mp ha
  obtain ⟨u, hu, rfl⟩ := mem_ranking_iff.mp hb
  obtain ⟨v, hv⟩ := exists_heads hdistinct ht
  obtain ⟨v', hv'⟩ := exists_heads hdistinct hu
  rw [hv.dueBy_iff hv'] at hab
  rw [hv'.dueBy_iff hv] at hba
  have hid : v.id = v'.id := by omega
  obtain ⟨hmem, hflow⟩ := mem_forFlow_iff.mp hv.1
  obtain ⟨hmem', hflow'⟩ := mem_forFlow_iff.mp hv'.1
  rw [← hflow, ← hflow', List.inj_on_of_nodup_map hdistinct hmem hmem' hid]

section Rest

variable {p : Flow → Prop} (hrest : ∀ t, t ∈ us ↔ t ∈ ts ∧ ¬p t.flow)

include hrest

theorem heads_of_rest (hflow : ¬p flow) : Heads us flow t ↔ Heads ts flow t := by
  have hsame : ∀ v, v ∈ forFlow us flow ↔ v ∈ forFlow ts flow := by
    intro v
    rw [mem_forFlow_iff, mem_forFlow_iff, hrest, and_assoc]
    refine and_congr_right fun _ => and_iff_right_of_imp ?_
    rintro rfl
    exact hflow
  simp only [Heads, hsame]

theorem mem_ranking_of_rest : flow ∈ ranking us ↔ flow ∈ ranking ts ∧ ¬p flow := by
  rw [mem_ranking_iff, mem_ranking_iff]
  constructor
  · rintro ⟨t, ht, rfl⟩
    obtain ⟨hmem, hstays⟩ := (hrest t).mp ht
    exact ⟨⟨t, hmem, rfl⟩, hstays⟩
  · rintro ⟨⟨t, ht, rfl⟩, hstays⟩
    exact ⟨t, (hrest t).mpr ⟨ht, hstays⟩, rfl⟩

theorem ranking_eq_filter (hts : (ts.map fun t => t.id).Nodup) (hus : (us.map fun t => t.id).Nodup)
    [DecidablePred p] : ranking us = (ranking ts).filter fun flow => ¬p flow := by
  have hheads : ∀ {flow}, flow ∈ ranking ts → ¬p flow →
      ∃ v, Heads ts flow v ∧ Heads us flow v := by
    intro flow hmem hstays
    obtain ⟨t, ht, rfl⟩ := mem_ranking_iff.mp hmem
    obtain ⟨v, hv⟩ := exists_heads hts ht
    exact ⟨v, hv, (heads_of_rest hrest hstays).mpr hv⟩
  symm
  apply eq_ranking hus
  · exact (ranking_nodup ts).filter _
  · intro flow
    rw [← mem_ranking_iff, mem_ranking_of_rest hrest, List.mem_filter, decide_eq_true_eq]
  · refine ((ranking_pairwise ts).filter _).imp_of_mem ?_
    intro a b ha hb hdue
    obtain ⟨ha, hastays⟩ := List.mem_filter.mp ha
    obtain ⟨hb, hbstays⟩ := List.mem_filter.mp hb
    obtain ⟨v, hv, hv'⟩ := hheads ha (of_decide_eq_true hastays)
    obtain ⟨w, hw, hw'⟩ := hheads hb (of_decide_eq_true hbstays)
    rw [hv.dueBy_iff hw] at hdue
    exact (hv'.dueBy_iff hw').mpr hdue

end Rest

/-- The flow of the ticket that precedes all others is due first, and the others rank as before. -/
theorem ranking_eq_cons (hrest : ∀ t, t ∈ us ↔ t ∈ ts ∧ t.flow ≠ u.flow)
    (hts : (ts.map fun t => t.id).Nodup) (hus : (us.map fun t => t.id).Nodup)
    (hu : u ∈ ts) (hfirst : ∀ t ∈ ts, t = u ∨ u.Precedes t) :
    ranking ts = u.flow :: ranking us := by
  have hmem : ∀ {flow}, flow ∈ ranking us ↔ flow ∈ ranking ts ∧ flow ≠ u.flow :=
    mem_ranking_of_rest (p := (· = u.flow)) hrest
  have hheads : Heads ts u.flow u :=
    ⟨mem_forFlow_iff.mpr ⟨hu, rfl⟩, fun t ht => hfirst t (mem_forFlow_iff.mp ht).1⟩
  symm
  apply eq_ranking hts
  · exact List.nodup_cons.mpr ⟨fun hin => (hmem.mp hin).2 rfl, ranking_nodup us⟩
  · intro flow
    rw [List.mem_cons, hmem, ← mem_ranking_iff]
    constructor
    · rintro (rfl | ⟨hin, -⟩)
      · exact mem_ranking_iff.mpr ⟨u, hu, rfl⟩
      · exact hin
    · intro hin
      rcases Classical.em (flow = u.flow) with heq | hne
      · exact .inl heq
      · exact .inr ⟨hin, hne⟩
  · rw [ranking_eq_filter (p := (· = u.flow)) hrest hts hus]
    refine List.pairwise_cons.mpr ⟨?_, (ranking_pairwise ts).filter _⟩
    intro flow hin
    obtain ⟨t, ht, rfl⟩ := mem_ranking_iff.mp (List.mem_filter.mp hin).1
    obtain ⟨v, hv⟩ := exists_heads hts ht
    rw [hheads.dueBy_iff hv]
    rcases hfirst v (mem_forFlow_iff.mp hv.1).1 with rfl | hlt | ⟨heq, hlt⟩
    · exact .inr ⟨rfl, Nat.le_refl _⟩
    · exact .inl hlt
    · exact .inr ⟨heq.symm, Nat.le_of_lt hlt⟩

end FlowGate.Ticket
