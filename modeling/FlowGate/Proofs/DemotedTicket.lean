import FlowGate.Proofs.GateRefill

/-!
A gate at which one waiting ticket has a lower priority. Its flow is due no earlier than before, and all
other flows are due in the same order; so as long as the ticket is not called in, the same flows are
called in at both gates.
-/

namespace FlowGate

namespace Ticket

/-- A ticket, at another priority if it is the one of a number. -/
def demote (n : Option Nat) (q : Priority) (t : Ticket) : Ticket :=
  if n = some t.id then { t with priority := q } else t

variable {n : Option Nat} {q : Priority} {t u : Ticket} {ts us : List Ticket} {flow other : Flow}

@[simp] theorem demote_id : (t.demote n q).id = t.id := by
  unfold demote
  split <;> rfl

@[simp] theorem demote_flow : (t.demote n q).flow = t.flow := by
  unfold demote
  split <;> rfl

@[simp] theorem demote_reason : (t.demote n q).reason = t.reason := by
  unfold demote
  split <;> rfl

theorem demote_self (t : Ticket) (q : Priority) :
    t.demote (some t.id) q = { t with priority := q } := if_pos rfl

theorem demote_of_ne (h : n ≠ some t.id) : t.demote n q = t := if_neg h

section Ranking

variable (hmem : ∀ u, u ∈ us ↔ ∃ t ∈ ts, t.demote n q = u)

include hmem

theorem mem_ranking_demote : flow ∈ ranking us ↔ flow ∈ ranking ts := by
  rw [mem_ranking_iff, mem_ranking_iff]
  constructor
  · rintro ⟨u, hu, rfl⟩
    obtain ⟨t, ht, rfl⟩ := (hmem u).mp hu
    exact ⟨t, ht, demote_flow.symm⟩
  · rintro ⟨t, ht, rfl⟩
    exact ⟨t.demote n q, (hmem _).mpr ⟨t, ht, rfl⟩, demote_flow⟩

theorem heads_demote_iff (hother : ∀ t ∈ ts, n = some t.id → t.flow ≠ flow) :
    Heads us flow u ↔ Heads ts flow u := by
  have hsame : ∀ t, t ∈ forFlow us flow ↔ t ∈ forFlow ts flow := by
    intro t
    rw [mem_forFlow_iff, mem_forFlow_iff, hmem]
    constructor
    · rintro ⟨⟨v, hv, rfl⟩, hflow⟩
      rw [demote_flow] at hflow
      rw [demote_of_ne fun hid => hother v hv hid hflow]
      exact ⟨hv, hflow⟩
    · rintro ⟨ht, hflow⟩
      exact ⟨⟨t, ht, demote_of_ne fun hid => hother t ht hid hflow⟩, hflow⟩
  simp only [Heads, hsame]

variable (hlower : ∀ t ∈ ts, n = some t.id → q.level ≤ t.priority.level)

include hlower

theorem dueBy_demote (hts : (ts.map fun t => t.id).Nodup) (hus : (us.map fun t => t.id).Nodup)
    (hflow : flow ∈ ranking ts) (hotherflow : other ∈ ranking ts)
    (hother : ∀ t ∈ ts, n = some t.id → t.flow ≠ flow) (hdue : dueBy ts flow other = true) :
    dueBy us flow other = true := by
  obtain ⟨_, ht, rfl⟩ := mem_ranking_iff.mp hflow
  obtain ⟨_, hu, rfl⟩ := mem_ranking_iff.mp hotherflow
  obtain ⟨v, hv⟩ := exists_heads hts ht
  obtain ⟨w, hw⟩ := exists_heads hts hu
  obtain ⟨w', hw'⟩ := exists_heads hus ((hmem _).mpr ⟨_, hu, rfl⟩)
  rw [demote_flow] at hw'
  rw [hv.dueBy_iff hw] at hdue
  rw [((heads_demote_iff hmem hother).mpr hv).dueBy_iff hw']
  obtain ⟨hmem', hflow'⟩ := mem_forFlow_iff.mp hw'.1
  obtain ⟨y, hy, rfl⟩ := (hmem w').mp hmem'
  rw [demote_flow] at hflow'
  have hfirst : y = w ∨ w.Precedes y := hw.2 y (mem_forFlow_iff.mpr ⟨hy, hflow'⟩)
  have hdemoted : (y.demote n q).priority.level ≤ y.priority.level := by
    unfold demote
    split
    · rename_i hid
      exact hlower y hy hid
    · exact Int.le_refl _
  rw [demote_id]
  rcases hfirst with rfl | hlt | ⟨heq, hlt⟩ <;> omega

/-- As long as the flow of the demoted ticket is not among them, the first flows are the same. -/
theorem take_ranking_demote (hts : (ts.map fun t => t.id).Nodup)
    (hus : (us.map fun t => t.id).Nodup) {k : Nat}
    (hout : ∀ t ∈ ts, n = some t.id → t.flow ∉ (ranking ts).take k) :
    (ranking us).take k = (ranking ts).take k := by
  have hsame : ∀ flow, flow ∈ ranking us ↔ flow ∈ ranking ts := fun flow => mem_ranking_demote hmem
  have hlength : (ranking us).length = (ranking ts).length :=
    ((List.perm_ext_iff_of_nodup (ranking_nodup us) (ranking_nodup ts)).mpr hsame).length_eq
  have hdue : ∀ a ∈ (ranking ts).take k, ∀ b ∈ ranking ts, dueBy ts a b = true →
      dueBy us a b = true := by
    intro a ha b hb
    refine dueBy_demote hmem hlower hts hus (List.mem_of_mem_take ha) hb ?_
    rintro t ht hid rfl
    exact hout t ht hid ha
  have hpairwise := ranking_pairwise ts
  rw [← List.take_append_drop k (ranking ts), List.pairwise_append] at hpairwise
  have hprefix : (ranking ts).take k ++ (ranking us).filter (fun a => a ∉ (ranking ts).take k) =
      ranking us := by
    apply eq_ranking hus
    · refine List.nodup_append.mpr ⟨?_, (ranking_nodup us).filter _, ?_⟩
      · exact (ranking_nodup ts).sublist (List.take_sublist ..)
      · rintro a ha b hb rfl
        exact of_decide_eq_true (List.mem_filter.mp hb).2 ha
    · intro flow
      rw [← mem_ranking_iff, List.mem_append, List.mem_filter, decide_eq_true_eq]
      constructor
      · rintro (hin | ⟨hin, -⟩)
        · exact (hsame flow).mpr (List.mem_of_mem_take hin)
        · exact hin
      · intro hin
        exact (Classical.em _).imp_right fun hout => ⟨hin, hout⟩
    · refine List.pairwise_append.mpr ⟨?_, (ranking_pairwise us).filter _, ?_⟩
      · exact hpairwise.1.imp_of_mem fun ha hb => hdue _ ha _ (List.mem_of_mem_take hb)
      · intro a ha b hb
        obtain ⟨hb, hnot⟩ := List.mem_filter.mp hb
        have hin := (hsame b).mp hb
        have hdrop : b ∈ (ranking ts).drop k := by
          rw [← List.take_append_drop k (ranking ts), List.mem_append] at hin
          exact hin.resolve_left (of_decide_eq_true hnot)
        exact hdue a ha b ((hsame b).mp hb) (hpairwise.2.2 a ha b hdrop)
  have htake := List.prefix_iff_eq_take.mp ⟨_, hprefix⟩
  rw [List.length_take, ← hlength, ← List.take_eq_take_min] at htake
  exact htake.symm

end Ranking

end Ticket

namespace Gate

variable {n : Option Nat} {q : Priority} {g g' a b : Gate} {t u : Ticket} {flows : List Flow}
  {events events' : List Event}

/-- A gate differs from another one at most in a waiting ticket, which has no higher priority there. -/
structure Demotes (n : Option Nat) (q : Priority) (g g' : Gate) : Prop where
  agree : g'.waiting.Agree
  waits_iff : ∀ u, g'.Waits u ↔ ∃ t, g.Waits t ∧ t.demote n q = u
  lower : ∀ t, g.Waits t → n = some t.id → q.level ≤ t.priority.level
  rest : g' = { g with waiting := g'.waiting }

theorem Demotes.refl (hagree : g.waiting.Agree) (q : Priority) : g.Demotes none q g :=
  ⟨hagree, by simp [Ticket.demote], by simp, rfl⟩

theorem Demotes.active_eq (h : g.Demotes n q g') : g'.active = g.active := by
  rw [h.rest]

theorem Demotes.called_eq (h : g.Demotes n q g') : g'.called = g.called := by
  rw [h.rest]

theorem Demotes.capacity_eq (h : g.Demotes n q g') : g'.capacity = g.capacity := by
  rw [h.rest]

theorem Demotes.hasSpace_eq (h : g.Demotes n q g') : g'.hasSpace = g.hasSpace := by
  rw [h.rest]
  rfl

theorem Demotes.waits_iff_of_ne (h : g.Demotes n q g') (hne : n ≠ some u.id) :
    g'.Waits u ↔ g.Waits u := by
  rw [h.waits_iff]
  constructor
  · rintro ⟨t, ht, rfl⟩
    rw [Ticket.demote_id] at hne
    rwa [Ticket.demote_of_ne hne]
  · exact fun hu => ⟨u, hu, Ticket.demote_of_ne hne⟩

theorem Demotes.sound (hsound : g.Sound) (h : g.Demotes n q g') : g'.Sound := by
  refine ⟨⟨h.agree, ?_, ?_, ?_⟩, ?_⟩
  · rw [h.active_eq]
    exact hsound.inhabited
  · rw [h.active_eq]
    exact hsound.filed
  · intro u hu
    obtain ⟨t, ht, rfl⟩ := (h.waits_iff u).mp hu
    rw [h.active_eq, Ticket.demote_flow]
    exact hsound.apart t ht
  · intro u hu
    obtain ⟨t, ht, -⟩ := (h.waits_iff u).mp hu
    rw [h.hasSpace_eq]
    exact hsound.saturated t ht

theorem Demotes.withActive (h : g.Demotes n q g') (active : Catalog Flow Party) :
    Demotes n q { g with active } { g' with active } :=
  ⟨h.agree, h.waits_iff, h.lower, by rw [h.rest]⟩

theorem Demotes.withCapacity (h : g.Demotes n q g') (capacity : Option Nat) :
    Demotes n q { g with capacity } { g' with capacity } :=
  ⟨h.agree, h.waits_iff, h.lower, by rw [h.rest]⟩

theorem Demotes.hear (h : g.Demotes n q g') (u : Ticket) : (g.hear u).Demotes n q (g'.hear u) :=
  ⟨h.agree, h.waits_iff, h.lower, by rw [h.rest]; rfl⟩

theorem Demotes.setExpiry (h : g.Demotes n q g') (u : Ticket) (expiresAt : Nat) :
    (g.setExpiry u expiresAt).Demotes n q (g'.setExpiry u expiresAt) := by
  unfold Gate.setExpiry
  rw [h.active_eq]
  split
  · exact h
  · split
    · exact h
    · exact h.withActive _

theorem Demotes.file (h : g.Demotes n q g') (u : Ticket) (e : Option Nat) :
    (g.file u e).Demotes n q (g'.file u e) := by
  unfold Gate.file party
  rw [h.active_eq]
  exact h.withActive _

theorem Demotes.strike (h : g.Demotes n q g') (u : Ticket) :
    (g.strike u).Demotes n q (g'.strike u) := by
  unfold Gate.strike party
  rw [h.active_eq]
  exact h.withActive _

theorem demotes_of_queue (hfresh : ∀ u, g.Waits u → u.id ≠ t.id)
    (hlower : q.level ≤ t.priority.level) {waiting waiting' : WaitList} (hagree' : waiting'.Agree)
    (hwaits : ∀ u, Waits { g with waiting } u ↔ u = t ∨ g.Waits u)
    (hwaits' : ∀ u, Waits { g with waiting := waiting' } u ↔
      u = { t with priority := q } ∨ g.Waits u) :
    Demotes (some t.id) q { g with waiting } { g with waiting := waiting' } := by
  have hsame : ∀ u, g.Waits u → u.demote (some t.id) q = u := fun u hu =>
    Ticket.demote_of_ne fun hid => hfresh u hu (Option.some.inj hid).symm
  refine ⟨hagree', ?_, ?_, rfl⟩
  · intro u
    rw [hwaits']
    constructor
    · rintro (rfl | hold)
      · exact ⟨t, (hwaits t).mpr (.inl rfl), Ticket.demote_self t q⟩
      · exact ⟨u, (hwaits u).mpr (.inr hold), hsame u hold⟩
    · rintro ⟨v, hv, rfl⟩
      rcases (hwaits v).mp hv with rfl | hold
      · exact .inl (Ticket.demote_self v q)
      · rw [hsame v hold]
        exact .inr hold
  · intro v hv hid
    rcases (hwaits v).mp hv with rfl | hold
    · exact hlower
    · exact absurd (Option.some.inj hid).symm (hfresh v hold)

theorem Demotes.queue (h : g.Demotes n q g') (hne : n ≠ some u.id) {waiting waiting' : WaitList}
    (hagree' : waiting'.Agree) (hwaits : ∀ v, Waits { g with waiting } v ↔ v = u ∨ g.Waits v)
    (hwaits' : ∀ v, Waits { g' with waiting := waiting' } v ↔ v = u ∨ g'.Waits v) :
    Demotes n q { g with waiting } { g' with waiting := waiting' } := by
  refine ⟨hagree', ?_, ?_, by rw [h.rest]⟩
  · intro v
    rw [hwaits', h.waits_iff]
    simp only [hwaits, or_and_right, exists_or, exists_eq_left, Ticket.demote_of_ne hne]
    rw [eq_comm]
  · intro v hv hid
    rcases (hwaits v).mp hv with rfl | hold
    · exact absurd hid hne
    · exact h.lower v hold hid

theorem Demotes.withdraw (h : g.Demotes n q g') (hne : n ≠ some u.id) {waiting waiting' : WaitList}
    (hagree' : waiting'.Agree) (hwaits : ∀ v, Waits { g with waiting } v ↔ v ≠ u ∧ g.Waits v)
    (hwaits' : ∀ v, Waits { g' with waiting := waiting' } v ↔ v ≠ u ∧ g'.Waits v) :
    Demotes n q { g with waiting } { g' with waiting := waiting' } := by
  have hsame : ∀ t, t.demote n q = u ↔ t = u := by
    intro t
    constructor
    · rintro rfl
      rw [Ticket.demote_id] at hne
      exact (Ticket.demote_of_ne hne).symm
    · rintro rfl
      exact Ticket.demote_of_ne hne
  refine ⟨hagree', ?_, fun v hv hid => h.lower v ((hwaits v).mp hv).2 hid, by rw [h.rest]⟩
  intro v
  rw [hwaits', h.waits_iff]
  constructor
  · rintro ⟨hv, t, ht, rfl⟩
    exact ⟨t, (hwaits t).mpr ⟨mt (hsame t).mpr hv, ht⟩, rfl⟩
  · rintro ⟨t, ht, rfl⟩
    obtain ⟨htu, ht⟩ := (hwaits t).mp ht
    exact ⟨mt (hsame t).mp htu, t, ht, rfl⟩

theorem Demotes.eq (h : g.Demotes none q g') (hagree : g.waiting.Agree) : g' = g := by
  have hwaiting : g'.waiting = g.waiting := by
    refine h.agree.eq_of_get?_iff hagree fun u => (h.waits_iff u).trans ?_
    simp [Ticket.demote, Waits]
  rw [h.rest, hwaiting]

theorem Demotes.withdraw_self (h : g.Demotes (some t.id) q g') (ht : g.Waits t)
    {waiting waiting' : WaitList} (hagree : waiting.Agree) (hagree' : waiting'.Agree)
    (hwaits : ∀ u, Waits { g with waiting } u ↔ u ≠ t ∧ g.Waits u)
    (hwaits' : ∀ u, Waits { g' with waiting := waiting' } u ↔
      u ≠ { t with priority := q } ∧ g'.Waits u) :
    ({ g' with waiting := waiting' } : Gate) = { g with waiting } := by
  have hwaiting : waiting' = waiting := by
    refine hagree'.eq_of_get?_iff hagree fun u => ?_
    refine (hwaits' u).trans (Iff.trans ?_ (hwaits u).symm)
    rcases Classical.em (u.id = t.id) with hid | hid
    · refine iff_of_false ?_ fun hu => hu.1 (hu.2.eq_of_id_eq ht hid)
      rintro ⟨hne, hu⟩
      obtain ⟨v, hv, rfl⟩ := (h.waits_iff u).mp hu
      rw [Ticket.demote_id] at hid
      obtain rfl := hv.eq_of_id_eq ht hid
      exact hne (Ticket.demote_self v q)
    · have hne : some t.id ≠ some u.id := fun heq => hid (Option.some.inj heq).symm
      rw [h.waits_iff_of_ne hne]
      refine and_congr_left fun _ => iff_of_true ?_ ?_
      · rintro rfl
        exact hid rfl
      · rintro rfl
        exact hid rfl
  rw [hwaiting, h.rest]

/-- The same flows are let in at both gates, and the flow of the demoted ticket is not among them. -/
theorem Demotes.letsIn (h : g.Demotes n q g') (hlets : g.LetsIn flows a) (hlets' : g'.LetsIn flows b)
    (hout : ∀ t, g.Waits t → n = some t.id → t.flow ∉ flows) : a.Demotes n q b := by
  have hsame : ∀ t, t.flow ∈ flows → (g'.Waits t ↔ g.Waits t) := by
    intro t hflow
    rw [h.waits_iff]
    constructor
    · rintro ⟨v, hv, rfl⟩
      rw [Ticket.demote_flow] at hflow
      rwa [Ticket.demote_of_ne fun hid => hout v hv hid hflow]
    · exact fun ht => ⟨t, ht, Ticket.demote_of_ne fun hid => hout t ht hid hflow⟩
  have hrest : g.LetsIn flows { b with waiting := a.waiting } := by
    refine ⟨hlets.agree, hlets'.capacity.trans h.capacity_eq, ?_, ?_, hlets.waits_iff, ?_⟩
    · intro flow hmem
      obtain ⟨party, hparty, hget⟩ := hlets'.party_iff flow hmem
      refine ⟨party, hparty, fun id x => (hget id x).trans (exists_congr fun t => ?_)⟩
      constructor
      · rintro ⟨ht, rfl, hrest⟩
        exact ⟨(hsame t hmem).mp ht, rfl, hrest⟩
      · rintro ⟨ht, rfl, hrest⟩
        exact ⟨(hsame t hmem).mpr ht, rfl, hrest⟩
    · intro flow hmem
      rw [← h.active_eq]
      exact hlets'.active_eq flow hmem
    · intro id
      rw [← h.called_eq]
      refine (hlets'.calling_iff id).trans (or_congr_right (exists_congr fun t => ?_))
      constructor
      · rintro ⟨ht, hflow, hid⟩
        exact ⟨(hsame t hflow).mp ht, hflow, hid⟩
      · rintro ⟨ht, hflow, hid⟩
        exact ⟨(hsame t hflow).mpr ht, hflow, hid⟩
  refine ⟨hlets'.agree, ?_, fun t ht hid => h.lower t ((hlets.waits_iff t).mp ht).1 hid, ?_⟩
  · intro u
    rw [hlets'.waits_iff, h.waits_iff]
    constructor
    · rintro ⟨⟨t, ht, rfl⟩, hflow⟩
      rw [Ticket.demote_flow] at hflow
      exact ⟨t, (hlets.waits_iff t).mpr ⟨ht, hflow⟩, rfl⟩
    · rintro ⟨t, ht, rfl⟩
      obtain ⟨ht, hflow⟩ := (hlets.waits_iff t).mp ht
      exact ⟨⟨t, ht, rfl⟩, by rwa [Ticket.demote_flow]⟩
  · exact (congrArg (fun g => { g with waiting := b.waiting }) (hlets.unique hrest)).symm

theorem Demotes.mem_values_iff (h : g.Demotes n q g') (hagree : g.waiting.Agree) (u : Ticket) :
    u ∈ g'.waiting.tickets.values ↔ ∃ t ∈ g.waiting.tickets.values, t.demote n q = u := by
  rw [h.agree.mem_values_iff]
  refine (h.waits_iff u).trans (exists_congr fun t => ?_)
  rw [hagree.mem_values_iff, Waits]

theorem Demotes.exists_get?_iff (h : g.Demotes n q g') (hagree : g.waiting.Agree) {p : Ticket → Prop}
    (hp : ∀ t : Ticket, p (t.demote n q) ↔ p t) {id : Nat} :
    (∃ u, g'.waiting.tickets.get? id = some u ∧ p u) ↔
      ∃ t, g.waiting.tickets.get? id = some t ∧ p t := by
  constructor
  · rintro ⟨u, hu, hpu⟩
    obtain rfl := h.agree.numbered id u hu
    obtain ⟨t, ht, rfl⟩ := (h.waits_iff u).mp hu
    rw [Ticket.demote_id]
    exact ⟨t, ht, (hp t).mp hpu⟩
  · rintro ⟨t, ht, hpt⟩
    obtain rfl := hagree.numbered id t ht
    have hu : g'.Waits (t.demote n q) := (h.waits_iff _).mpr ⟨t, ht, rfl⟩
    rw [Waits, Ticket.demote_id] at hu
    exact ⟨_, hu, (hp t).mpr hpt⟩

theorem Demotes.contains_eq (h : g.Demotes n q g') (hagree : g.waiting.Agree) (id : Nat) :
    g'.waiting.contains id = g.waiting.contains id := by
  rw [Bool.eq_iff_iff, WaitList.contains, WaitList.contains, Catalog.contains_iff,
    Catalog.contains_iff]
  simpa using h.exists_get?_iff hagree (p := fun _ => True) fun _ => Iff.rfl

theorem Demotes.size_eq (h : g.Demotes n q g') (hagree : g.waiting.Agree) :
    g'.waiting.size = g.waiting.size := by
  have hkeys : ∀ id, g'.waiting.tickets.contains id = true ↔ id ∈ g.waiting.tickets.keys := by
    intro id
    rw [Catalog.mem_keys_iff]
    exact Bool.eq_iff_iff.mp (h.contains_eq hagree id)
  rw [WaitList.size, Catalog.size_eq_length g.waiting.tickets.keys_nodup hkeys, Catalog.keys,
    List.length_map]
  rfl

theorem Demotes.reasonCounts_eq (h : g.Demotes n q g') (hagree : g.waiting.Agree) :
    g'.waiting.reasonCounts = g.waiting.reasonCounts := by
  have hsame : g'.waiting.byReason = g.waiting.byReason := by
    apply h.agree.byReason.noEmptyGroup.eq_of_contains hagree.byReason.noEmptyGroup
    intro reason id
    rw [Bool.eq_iff_iff, h.agree.byReason.pair_iff, hagree.byReason.pair_iff]
    apply h.exists_get?_iff hagree
    intro t
    rw [Ticket.demote_reason]
  rw [WaitList.reasonCounts, WaitList.reasonCounts, hsame]

theorem Demotes.admissible_eq (h : g.Demotes n q g') (hagree : g.waiting.Agree)
    (hout : ∀ t, g.Waits t → n = some t.id → t.flow ∉ g.admissible) :
    g'.admissible = g.admissible := by
  have hmem := h.mem_values_iff hagree
  have hlength : g'.waiting.dueFlows.length = g.waiting.dueFlows.length := by
    apply List.Perm.length_eq
    apply (List.perm_ext_iff_of_nodup g'.waiting.dueFlows_nodup g.waiting.dueFlows_nodup).mpr
    exact fun flow => Ticket.mem_ranking_demote hmem
  have hcallable : g'.callable g'.waiting.dueFlows.length = g.callable g.waiting.dueFlows.length := by
    rw [callable, callable, hlength, h.capacity_eq, h.active_eq]
  rw [admissible, hcallable]
  apply Ticket.take_ranking_demote hmem _ hagree.distinct h.agree.distinct
  · exact fun t ht => hout t (hagree.mem_values_iff.mp ht)
  · exact fun t ht => h.lower t (hagree.mem_values_iff.mp ht)

/-- The ticket of a number that waits at one gate waits at another one, too. -/
def Keeps (n : Option Nat) (g a : Gate) : Prop := ∀ t, g.Waits t → n = some t.id → a.Waits t

/-- As long as the demoted ticket is not called in, the same flows are called in at both gates. -/
theorem Demotes.settles (h : g.Demotes n q g') (hagree : g.waiting.Agree) (hsettles : g.Settles a)
    (hsettles' : g'.Settles b) (hkeeps : g.Keeps n a) : a.Demotes n q b := by
  have hout : ∀ t, g.Waits t → n = some t.id → t.flow ∉ g.admissible := fun t ht hid =>
    ((hsettles.waits_iff t).mp (hkeeps t ht hid)).2
  rw [Settles, h.admissible_eq hagree hout] at hsettles'
  exact h.letsIn hsettles hsettles' hout

theorem Demotes.remove (hsound : g.Sound) (h : g.Demotes n q g') (hok : g.remove u = .ok a events)
    (hok' : g'.remove u = .ok b events') (hkeeps : g.Keeps n a) : a.Demotes n q b := by
  cases hfound : (g.active.get? u.flow).filter (·.contains u.id) with
  | none =>
      rw [Gate.remove, hfound] at hok
      rw [Gate.remove, h.active_eq, hfound] at hok'
      cases hok
      cases hok'
      exact h
  | some party =>
      obtain ⟨hparty, hcontains⟩ := Option.filter_eq_some_iff.mp hfound
      obtain ⟨-, hsettles⟩ := (remove_found_settles hsound hparty hcontains).of_eq_ok hok
      rw [← h.active_eq] at hparty
      obtain ⟨-, hsettles'⟩ := (remove_found_settles (h.sound hsound) hparty hcontains).of_eq_ok hok'
      exact (h.strike u).settles hsound.agree hsettles hsettles' hkeeps

theorem Demotes.setCapacity (hsound : g.Sound) (h : g.Demotes n q g') {capacity : Nat}
    (hok : g.setCapacity capacity = .ok a events) (hok' : g'.setCapacity capacity = .ok b events')
    (hkeeps : g.Keeps n a) : a.Demotes n q b := by
  obtain ⟨hsettles, -⟩ := (setCapacity_settles hsound capacity).of_eq_ok hok
  obtain ⟨hsettles', -⟩ := (setCapacity_settles (h.sound hsound) capacity).of_eq_ok hok'
  exact (h.withCapacity (some capacity)).settles hsound.agree hsettles hsettles' hkeeps

theorem Demotes.liftCapacity (hsound : g.Sound) (h : g.Demotes n q g')
    (hok : g.liftCapacity = .ok a events) (hok' : g'.liftCapacity = .ok b events')
    (hkeeps : g.Keeps n a) : a.Demotes n q b := by
  obtain ⟨hsettles, -⟩ := (liftCapacity_settles hsound).of_eq_ok hok
  obtain ⟨hsettles', -⟩ := (liftCapacity_settles (h.sound hsound)).of_eq_ok hok'
  exact (h.withCapacity none).settles hsound.agree hsettles hsettles' hkeeps

end Gate

end FlowGate
