import FlowGate.Proofs.WaitListViews
import Mathlib.Data.List.Nodup

namespace FlowGate

/-- Tickets with distinct numbers, in no order that counts. -/
structure Crowd where
  members : List Ticket
  distinct : (members.map fun t => t.id).Nodup

namespace WaitList

inductive Action where
  | insert (t : Ticket)
  | remove (id : Nat)
  | take (flow : Flow)
  deriving DecidableEq, Repr

inductive Outcome where
  | inserted
  | removed (t : Option Ticket)
  | taken (tickets : List Ticket)
  deriving DecidableEq, Repr

def act (w : WaitList) : Action → Logged (Outcome × WaitList)
  | .insert t => do return (.inserted, ← w.insert t)
  | .remove id => do
    match ← w.remove id with
    | none => return (.removed none, w)
    | some (t, w) => return (.removed (some t), w)
  | .take flow => do
    let (tickets, w) ← w.take flow
    return (.taken tickets, w)

def actEach (w : WaitList) : List Action → Logged (List Outcome × WaitList)
  | [] => return ([], w)
  | action :: actions => do
    let (outcome, w) ← w.act action
    let (outcomes, w) ← actEach w actions
    return (outcome :: outcomes, w)

end WaitList

namespace Crowd

open WaitList (Action Outcome)

def empty : Crowd := ⟨[], .nil⟩

def keep (q : Crowd) (p : Ticket → Bool) : Crowd :=
  ⟨q.members.filter p, q.distinct.sublist (List.filter_sublist.map _)⟩

/-- What an action does to a plain set; the two errors are the only ones. -/
def act (q : Crowd) : Action → Except Fault (Outcome × Crowd)
  | .insert t =>
    if h : t.id ∈ q.members.map fun u => u.id then .error (.registeredTwice t.id)
    else .ok (.inserted, ⟨t :: q.members, List.nodup_cons.mpr ⟨h, q.distinct⟩⟩)
  | .remove id =>
    .ok (.removed (q.members.find? fun t => t.id = id), q.keep fun t => t.id ≠ id)
  | .take flow =>
    let tickets := q.members.filter fun t => t.flow = flow
    if tickets = [] then .error (.nobodyWaiting flow)
    else .ok (.taken (tickets.mergeSort fun t u => t.id ≤ u.id), q.keep fun t => t.flow ≠ flow)

def actEach (q : Crowd) : List Action → Except Fault (List Outcome × Crowd)
  | [] => .ok ([], q)
  | action :: actions => do
    let (outcome, q) ← q.act action
    let (outcomes, q) ← actEach q actions
    return (outcome :: outcomes, q)

/-- The member of the highest priority, and of those the one with the smallest number. -/
def leader? (q : Crowd) : Option Ticket :=
  q.members.find? fun t => q.members.all fun u => u = t ∨ t.Precedes u

def count (q : Crowd) (reason : String) : Nat := q.members.countP fun t => t.reason = reason

variable {q : Crowd} {t u : Ticket}

theorem eq_of_id_eq (ht : t ∈ q.members) (hu : u ∈ q.members) (hid : t.id = u.id) : t = u :=
  List.inj_on_of_nodup_map q.distinct ht hu hid

theorem mem_keep_iff {p : Ticket → Bool} : t ∈ (q.keep p).members ↔ t ∈ q.members ∧ p t = true :=
  List.mem_filter

theorem find?_eq_some_iff {id : Nat} :
    (q.members.find? fun t => t.id = id) = some t ↔ t ∈ q.members ∧ t.id = id := by
  constructor
  · intro hfind
    exact ⟨List.mem_of_find?_eq_some hfind, by simpa using List.find?_some hfind⟩
  · rintro ⟨ht, rfl⟩
    obtain ⟨u, hfind⟩ : ∃ u, (q.members.find? fun u => u.id = t.id) = some u := by
      apply Option.isSome_iff_exists.mp
      exact List.find?_isSome.mpr ⟨t, ht, by simp⟩
    have hid : u.id = t.id := by simpa using List.find?_some hfind
    rw [hfind, eq_of_id_eq (List.mem_of_find?_eq_some hfind) ht hid]

theorem leader?_eq_some_iff :
    q.leader? = some t ↔ t ∈ q.members ∧ ∀ u ∈ q.members, u = t ∨ t.Precedes u := by
  have hleads : ∀ {t : Ticket}, q.leader? = some t →
      t ∈ q.members ∧ ∀ u ∈ q.members, u = t ∨ t.Precedes u := fun hfind =>
    ⟨List.mem_of_find?_eq_some hfind, by simpa using List.find?_some hfind⟩
  refine ⟨hleads, ?_⟩
  rintro ⟨ht, hfirst⟩
  obtain ⟨u, hfind⟩ : ∃ u, q.leader? = some u := by
    apply Option.isSome_iff_exists.mp
    exact List.find?_isSome.mpr ⟨t, ht, by simpa using hfirst⟩
  obtain ⟨hu, hfirst'⟩ := hleads hfind
  rcases hfirst' t ht with rfl | hut
  · exact hfind
  · rcases hfirst u hu with rfl | htu
    · exact hfind
    · exact absurd hut htu.asymm

end Crowd

namespace WaitList

open Logged (Gives gives_pure_iff)

variable {w : WaitList} {q : Crowd} {t : Ticket} {α β : Type}

/-- The views agree, and the tickets that wait are the members of a crowd. -/
structure Lists (w : WaitList) (q : Crowd) : Prop where
  agree : w.Agree
  get?_iff : ∀ t, w.tickets.get? t.id = some t ↔ t ∈ q.members

/-- A computation on a wait list comes out as it does on a crowd. -/
def Follows (x : Logged (α × WaitList)) : Except Fault (α × Crowd) → Prop
  | .error fault => x = .fail fault
  | .ok (a, q) => x.Gives fun r _ => r.1 = a ∧ r.2.Lists q

theorem follows_pure {a : α} (h : w.Lists q) : Follows (pure (a, w)) (pure (a, q)) :=
  gives_pure_iff.mpr ⟨rfl, h⟩

theorem Follows.bind {x : Logged (α × WaitList)} {y : Except Fault (α × Crowd)}
    {next : α × WaitList → Logged (β × WaitList)} {next' : α × Crowd → Except Fault (β × Crowd)}
    (hx : Follows x y)
    (hnext : ∀ a w q, w.Lists q → Follows (next (a, w)) (next' (a, q))) :
    Follows (x >>= next) (y >>= next') := by
  cases y with
  | error fault =>
      have hfail : x = .fail fault := hx
      rw [hfail]
      rfl
  | ok r =>
      obtain ⟨a', q⟩ := r
      obtain ⟨⟨a, w⟩, first, rfl, heq, hlists⟩ := hx
      obtain rfl : a = a' := heq
      have hfollows := hnext a w q hlists
      change Follows _ (next' (a, q))
      cases hplain : next' (a, q) with
      | error fault =>
          rw [hplain] at hfollows
          have hfail : next (a, w) = .fail fault := hfollows
          simp [Follows, hfail, Logged.bind_eq, Logged.bind]
      | ok r' =>
          rw [hplain] at hfollows
          obtain ⟨r, later, hok, hr⟩ := hfollows
          exact ⟨r, first ++ later, Logged.bind_eq_ok_iff.mpr ⟨_, first, later, rfl, hok, rfl⟩, hr⟩

theorem lists_empty : empty.Lists .empty :=
  ⟨agree_empty, fun t => by simp [empty, Crowd.empty]⟩

theorem Lists.get?_eq_find? (h : w.Lists q) (id : Nat) :
    w.tickets.get? id = q.members.find? fun t => t.id = id := by
  apply Option.ext
  intro t
  rw [Crowd.find?_eq_some_iff, ← h.get?_iff]
  constructor
  · intro ht
    obtain rfl : t.id = id := h.agree.numbered id t ht
    exact ⟨ht, rfl⟩
  · rintro ⟨ht, rfl⟩
    exact ht

theorem Lists.contains_iff (h : w.Lists q) (id : Nat) :
    w.contains id = true ↔ id ∈ q.members.map fun t => t.id := by
  rw [contains, Catalog.contains_iff, h.get?_eq_find?, List.mem_map]
  simp only [Crowd.find?_eq_some_iff]

theorem take_eq_fail (h : w.Agree) {flow : Flow}
    (hnobody : ∀ t, w.tickets.get? t.id = some t → t.flow ≠ flow) :
    w.take flow = .fail (.nobodyWaiting flow) := by
  have hnone : w.byFlow.get? flow = none := by
    apply Option.eq_none_iff_forall_not_mem.mpr
    intro group hgroup
    obtain ⟨id, hpair⟩ := h.byFlow.noEmptyGroup.exists_contains hgroup
    obtain ⟨t, ht, hflow⟩ := (h.byFlow.pair_iff flow id).mp hpair
    obtain rfl : t.id = id := h.numbered id t ht
    exact hnobody t ht hflow
  simp [take, hnone, Logged.bind_eq, Logged.bind]

theorem Lists.insert (h : w.Lists q) (t : Ticket) :
    Follows (w.act (.insert t)) (q.act (.insert t)) := by
  simp only [act, Crowd.act]
  split
  · rename_i hmem
    rw [insert_eq_fail ((h.contains_iff t.id).mpr hmem)]
    rfl
  · rename_i hnot
    rw [← h.contains_iff, Bool.not_eq_true, contains, Catalog.contains_eq_false_iff] at hnot
    apply (insert_gives h.agree hnot).bind
    rintro w' _ ⟨hagree, htickets, -⟩
    refine gives_pure_iff.mpr ⟨rfl, hagree, ?_⟩
    intro u
    rw [htickets, Catalog.get?_insert_eq_some_iff, List.mem_cons, h.get?_iff]
    constructor
    · rintro (⟨-, rfl⟩ | ⟨-, hu⟩)
      · exact .inl rfl
      · exact .inr hu
    · rintro (rfl | hu)
      · exact .inl ⟨rfl, rfl⟩
      · refine .inr ⟨fun hid => ?_, hu⟩
        have hold := (h.get?_iff u).mpr hu
        rw [hid, hnot] at hold
        cases hold

theorem Lists.remove (h : w.Lists q) (id : Nat) :
    Follows (w.act (.remove id)) (q.act (.remove id)) := by
  simp only [act, Crowd.act]
  rw [← h.get?_eq_find? id]
  cases ht : w.tickets.get? id with
  | none =>
      apply (remove_gives_none ht).bind
      rintro _ _ ⟨rfl, -⟩
      refine gives_pure_iff.mpr ⟨rfl, h.agree, ?_⟩
      intro u
      rw [Crowd.mem_keep_iff, decide_eq_true_eq, h.get?_iff]
      refine ⟨fun hu => ⟨hu, ?_⟩, And.left⟩
      rintro rfl
      rw [(h.get?_iff u).mpr hu] at ht
      cases ht
  | some t =>
      apply (remove_gives h.agree ht).bind
      rintro _ _ ⟨w', rfl, hagree, htickets, -⟩
      refine gives_pure_iff.mpr ⟨rfl, hagree, ?_⟩
      intro u
      rw [htickets, Catalog.get?_erase_eq_some_iff, Crowd.mem_keep_iff, decide_eq_true_eq,
        h.get?_iff, and_comm]

theorem eq_mergeSort {ts us : List Ticket} (hts : (ts.map fun t => t.id).Pairwise (· < ·))
    (hus : (us.map fun t => t.id).Nodup) (hmem : ∀ t, t ∈ ts ↔ t ∈ us) :
    ts = us.mergeSort fun t u => t.id ≤ u.id := by
  have hascending : ts.Pairwise fun t u => t.id < u.id := List.pairwise_map.mp hts
  have hnodup : ts.Nodup := hascending.imp fun hlt heq => by simp [heq] at hlt
  have hsorted : (us.mergeSort fun t u => t.id ≤ u.id).Pairwise fun t u => t.id ≤ u.id := by
    have hle := @List.pairwise_mergeSort Ticket (fun t u => t.id ≤ u.id)
      (fun _ _ _ => by simpa using Nat.le_trans) (fun t u => by simpa using Nat.le_total t.id u.id) us
    simpa using hle
  have hperm : ts.Perm (us.mergeSort fun t u => t.id ≤ u.id) :=
    ((List.perm_ext_iff_of_nodup hnodup hus.of_map).mpr hmem).trans (List.mergeSort_perm ..).symm
  refine hperm.eq_of_pairwise ?_ (hascending.imp Nat.le_of_lt) hsorted
  intro t u ht hu hle hge
  exact List.inj_on_of_nodup_map hus ((hmem t).mp ht) (List.mem_mergeSort.mp hu)
    (Nat.le_antisymm hle hge)

theorem Lists.take (h : w.Lists q) (flow : Flow) :
    Follows (w.act (.take flow)) (q.act (.take flow)) := by
  simp only [act, Crowd.act]
  split
  · rename_i hnobody
    rw [take_eq_fail h.agree]
    · rfl
    · intro t ht
      have hnot := List.filter_eq_nil_iff.mp hnobody t ((h.get?_iff t).mp ht)
      simpa using hnot
  · rename_i hsome
    obtain ⟨u, hmem⟩ := List.exists_mem_of_ne_nil _ hsome
    obtain ⟨hu, hflow⟩ := List.mem_filter.mp hmem
    obtain rfl : u.flow = flow := by simpa using hflow
    apply (take_gives h.agree ((h.get?_iff u).mpr hu)).bind
    rintro ⟨ts, w'⟩ _ ⟨htakes, htaken, hascending, -⟩
    dsimp only at htakes htaken hascending
    refine gives_pure_iff.mpr ⟨?_, htakes.agree, ?_⟩
    · refine congrArg Outcome.taken (eq_mergeSort hascending ?_ ?_)
      · exact q.distinct.sublist (List.filter_sublist.map _)
      · intro t
        rw [htaken, h.get?_iff, List.mem_filter, decide_eq_true_eq]
    · intro t
      rw [htakes.rest_iff, htaken, h.get?_iff, Crowd.mem_keep_iff, decide_eq_true_eq]
      exact and_congr_right fun ht => not_congr (and_iff_right ht)

theorem Lists.act (h : w.Lists q) (action : Action) : Follows (w.act action) (q.act action) := by
  cases action with
  | insert t => exact h.insert t
  | remove id => exact h.remove id
  | take flow => exact h.take flow

theorem Lists.actEach (h : w.Lists q) (actions : List Action) :
    Follows (w.actEach actions) (q.actEach actions) := by
  induction actions generalizing w q with
  | nil => exact follows_pure h
  | cons action actions ih =>
      apply (h.act action).bind
      intro outcome w' q' h'
      apply (ih h').bind
      intro outcomes w'' q'' h''
      exact follows_pure h''

/-- What can be read off a wait list, said of the members of a crowd. -/
structure Shows (w : WaitList) (q : Crowd) : Prop where
  size : w.size = q.members.length
  get? : ∀ id, w.tickets.get? id = q.members.find? fun t => t.id = id
  mostUrgent : w.mostUrgent?.map Priority.level = (q.members.map fun t => t.priority.level).max?
  nextFlow : w.nextFlow? = pure (q.leader?.map fun t => t.flow)
  reasonCounts : ∀ reason, w.reasonCounts.get? reason =
    if q.count reason = 0 then none else some (q.count reason)
  byPriority : ∀ priority id,
    w.byPriority.contains priority id = true ↔ ∃ t ∈ q.members, t.id = id ∧ t.priority = priority
  byReason : ∀ reason id,
    w.byReason.contains reason id = true ↔ ∃ t ∈ q.members, t.id = id ∧ t.reason = reason
  byFlow : ∀ flow id,
    w.byFlow.contains flow id = true ↔ ∃ t ∈ q.members, t.id = id ∧ t.flow = flow
  noEmptyGroup : w.byPriority.NoEmptyGroup ∧ w.byReason.NoEmptyGroup ∧ w.byFlow.NoEmptyGroup

theorem Lists.size (h : w.Lists q) : w.size = q.members.length := by
  rw [WaitList.size, Catalog.size_eq_length q.distinct h.contains_iff, List.length_map]

theorem Lists.leads_iff (h : w.Lists q) : w.Leads t ↔ q.leader? = some t := by
  rw [Leads, Crowd.leader?_eq_some_iff]
  simp only [h.get?_iff]

theorem Lists.mostUrgent (h : w.Lists q) :
    w.mostUrgent?.map Priority.level = (q.members.map fun t => t.priority.level).max? := by
  rcases h.agree.empty_or_leads with ⟨hempty, hnone, -⟩ | ⟨t, hleads, hsome, -⟩
  · have hnil : q.members = [] := by
      rw [List.eq_nil_iff_forall_not_mem]
      intro t ht
      rw [← h.get?_iff, hempty] at ht
      cases ht
    rw [hnone, hnil]
    rfl
  · rw [hsome, eq_comm]
    apply List.max?_eq_some_iff.mpr
    obtain ⟨ht, hfirst⟩ := hleads
    refine ⟨List.mem_map.mpr ⟨t, (h.get?_iff t).mp ht, rfl⟩, ?_⟩
    intro level hlevel
    obtain ⟨u, hu, rfl⟩ := List.mem_map.mp hlevel
    rcases hfirst u ((h.get?_iff u).mpr hu) with rfl | hlt | ⟨heq, -⟩
    · exact Int.le_refl _
    · exact Int.le_of_lt hlt
    · exact Int.le_of_eq heq

theorem Lists.nextFlow (h : w.Lists q) :
    w.nextFlow? = pure (q.leader?.map fun t => t.flow) := by
  rcases h.agree.empty_or_leads with ⟨hempty, -, hnext⟩ | ⟨t, hleads, -, hnext⟩
  · have hnone : q.leader? = none := by
      apply Option.eq_none_iff_forall_not_mem.mpr
      intro t ht
      obtain ⟨ht, -⟩ := h.leads_iff.mpr ht
      rw [hempty] at ht
      cases ht
    rw [hnext, hnone, Option.map_none]
  · rw [hnext, h.leads_iff.mp hleads, Option.map_some]

theorem Lists.pair_iff {κ : Type} [Ord κ] [Std.TransOrd κ] {g : Grouping κ} {key : Ticket → κ}
    (h : w.Lists q) (hfiles : g.Files key w.tickets) (k : κ) (id : Nat) :
    g.contains k id = true ↔ ∃ t ∈ q.members, t.id = id ∧ key t = k := by
  rw [hfiles.pair_iff, h.get?_eq_find?]
  simp only [Crowd.find?_eq_some_iff, and_assoc]

theorem Lists.reasonCounts (h : w.Lists q) (reason : String) :
    w.reasonCounts.get? reason =
      if q.count reason = 0 then none else some (q.count reason) := by
  have hpairs := h.pair_iff h.agree.byReason reason
  have hcount : q.count reason = (q.members.filter fun t => t.reason = reason).length :=
    List.countP_eq_length_filter
  rw [WaitList.reasonCounts, Grouping.counts, Catalog.get?_mapValues]
  cases hgroup : w.byReason.groups.get? reason with
  | none =>
      have hnobody : q.count reason = 0 := by
        rw [hcount, List.length_eq_zero_iff, List.filter_eq_nil_iff]
        intro t ht hreason
        have hpair := (hpairs t.id).mpr ⟨t, ht, rfl, by simpa using hreason⟩
        rw [Grouping.contains, Grouping.get?, hgroup] at hpair
        cases hpair
      rw [Option.map_none, if_pos hnobody]
  | some group =>
      have hids : ∀ id, group.contains id = true ↔
          id ∈ (q.members.filter fun t => t.reason = reason).map fun t => t.id := by
        intro id
        rw [← Grouping.contains_eq_of_get? hgroup, hpairs, List.mem_map]
        simp only [List.mem_filter, decide_eq_true_eq, and_assoc]
        exact exists_congr fun t => and_congr_right fun _ => and_comm
      have hsize : group.size = q.count reason := by
        rw [hcount, Catalog.size_eq_length (q.distinct.sublist (List.filter_sublist.map _)) hids,
          List.length_map]
      have hsome : q.count reason ≠ 0 := by
        rw [← hsize, Ne, Catalog.size_eq_zero_iff]
        exact h.agree.byReason.noEmptyGroup reason group hgroup
      rw [Option.map_some, if_neg hsome, hsize]

theorem Lists.shows (h : w.Lists q) : w.Shows q :=
  ⟨h.size, h.get?_eq_find?, h.mostUrgent, h.nextFlow, h.reasonCounts,
    h.pair_iff h.agree.byPriority, h.pair_iff h.agree.byReason, h.pair_iff h.agree.byFlow,
    h.agree.byPriority.noEmptyGroup, h.agree.byReason.noEmptyGroup, h.agree.byFlow.noEmptyGroup⟩

/-- Wait lists with the same tickets are equal. -/
theorem Lists.eq {w' : WaitList} {q' : Crowd} (h : w.Lists q) (h' : w'.Lists q')
    (hmem : ∀ t, t ∈ q.members ↔ t ∈ q'.members) : w = w' := by
  apply h.agree.eq_of_tickets_eq h'.agree
  apply Catalog.ext_get?
  intro id
  rw [h.get?_eq_find?, h'.get?_eq_find?]
  apply Option.ext
  intro t
  rw [Crowd.find?_eq_some_iff, Crowd.find?_eq_some_iff, hmem]

/--
Every sequence of actions on a wait list fails where it fails on one plain set of tickets, and with the same
words, or else has the same outcomes and leaves a list that shows the set in all its views. Sequences that
leave the same set leave the same list.
-/
theorem behaves_as_one_set (actions : List Action) :
    match Crowd.empty.actEach actions with
    | .error fault => empty.actEach actions = .fail fault
    | .ok (outcomes, q) =>
      (empty.actEach actions).Gives fun r _ => r.1 = outcomes ∧ r.2.Shows q ∧
        ∀ others outcomes' q', Crowd.empty.actEach others = .ok (outcomes', q') →
          (∀ t, t ∈ q.members ↔ t ∈ q'.members) →
            (empty.actEach others).Gives fun r' _ => r'.2 = r.2 := by
  have hfollows := lists_empty.actEach actions
  cases hplain : Crowd.empty.actEach actions with
  | error fault =>
      rw [hplain] at hfollows
      exact hfollows
  | ok r =>
      obtain ⟨outcomes, q⟩ := r
      rw [hplain] at hfollows
      refine hfollows.mono ?_
      rintro ⟨_, w⟩ _ ⟨rfl, hlists⟩
      refine ⟨rfl, hlists.shows, ?_⟩
      intro others outcomes' q' hothers hmem
      have hfollows' := lists_empty.actEach others
      rw [hothers] at hfollows'
      refine hfollows'.mono ?_
      rintro ⟨_, w'⟩ _ ⟨-, hlists'⟩
      exact (hlists.eq hlists' hmem).symm

end WaitList

end FlowGate
