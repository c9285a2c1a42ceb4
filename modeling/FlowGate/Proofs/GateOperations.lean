import FlowGate.Proofs.GateInvariant

namespace FlowGate.Gate

open Logged (Gives emit gives_pure_iff gives_emit_bind_iff)

variable {g g' : Gate} {t u : Ticket}

/-- No ticket was looked for among the active ones in vain. -/
def Quiet (events : List Event) : Prop := ∀ t, Event.alreadyRemoved t ∉ events

theorem quiet_nil : Quiet [] := by
  simp [Quiet]

theorem Quiet.append {first later : List Event} (hfirst : Quiet first) (hlater : Quiet later) :
    Quiet (first ++ later) := by
  intro t ht
  rcases List.mem_append.mp ht with ht | ht
  · exact hfirst t ht
  · exact hlater t ht

theorem Quiet.cons {event : Event} {events : List Event} (h : Quiet events)
    (hevent : ∀ t, event ≠ .alreadyRemoved t) : Quiet (event :: events) := by
  intro t ht
  rcases List.mem_cons.mp ht with heq | ht
  · exact hevent t heq.symm
  · exact h t ht

/-- Tickets that waited are called in, and nothing else changes. -/
structure Calls (g g' : Gate) : Prop where
  waits : ∀ t, g'.Waits t → g.Waits t
  admits_iff : ∀ t e, g'.Admits t e ↔ g.Admits t e ∨ g.Waits t ∧ ¬g'.Waits t ∧ e = none
  calling_iff : ∀ id, g'.called.contains id = true ↔
    g.called.contains id = true ∨ ∃ t, t.id = id ∧ g.Waits t ∧ ¬g'.Waits t

theorem Calls.refl (g : Gate) : g.Calls g := by
  constructor
  · exact fun _ h => h
  · intro t e
    constructor
    · exact .inl
    · rintro (hold | ⟨hwaits, hnot, -⟩)
      · exact hold
      · exact absurd hwaits hnot
  · intro id
    simp

theorem Calls.trans {g'' : Gate} (h : g.Calls g') (h' : g'.Calls g'') : g.Calls g'' := by
  constructor
  · exact fun t ht => h.waits t (h'.waits t ht)
  · intro t e
    rw [h'.admits_iff, h.admits_iff]
    constructor
    · rintro ((hold | ⟨hg, hg', he⟩) | ⟨hg', hg'', he⟩)
      · exact .inl hold
      · exact .inr ⟨hg, fun hg'' => hg' (h'.waits t hg''), he⟩
      · exact .inr ⟨h.waits t hg', hg'', he⟩
    · rintro (hold | ⟨hg, hg'', he⟩)
      · exact .inl (.inl hold)
      · rcases Classical.em (g'.Waits t) with hg' | hg'
        · exact .inr ⟨hg', hg'', he⟩
        · exact .inl (.inr ⟨hg, hg', he⟩)
  · intro id
    rw [h'.calling_iff, h.calling_iff]
    constructor
    · rintro ((hold | ⟨t, rfl, hg, hg'⟩) | ⟨t, rfl, hg', hg''⟩)
      · exact .inl hold
      · exact .inr ⟨t, rfl, hg, fun hg'' => hg' (h'.waits t hg'')⟩
      · exact .inr ⟨t, rfl, h.waits t hg', hg''⟩
    · rintro (hold | ⟨t, rfl, hg, hg''⟩)
      · exact .inl (.inl hold)
      · rcases Classical.em (g'.Waits t) with hg' | hg'
        · exact .inr ⟨t, rfl, hg', hg''⟩
        · exact .inl (.inr ⟨t, rfl, hg, hg'⟩)

theorem contains_call_iff {called : NumberSet} {ts : List Ticket} {id : Nat} :
    (call called ts).contains id = true ↔ called.contains id = true ∨ ∃ t ∈ ts, t.id = id := by
  induction ts generalizing called with
  | nil => simp [call]
  | cons t ts ih =>
      rw [call, List.foldl_cons, ← call, ih, Catalog.contains_insert_iff]
      constructor
      · rintro ((rfl | hold) | ⟨u, hu, hid⟩)
        · exact .inr ⟨t, by simp, rfl⟩
        · exact .inl hold
        · exact .inr ⟨u, by simp [hu], hid⟩
      · rintro (hold | ⟨u, hu, rfl⟩)
        · exact .inl (.inr hold)
        · rcases List.mem_cons.mp hu with rfl | hu
          · exact .inl (.inl rfl)
          · exact .inr ⟨u, hu, rfl⟩

/-- Tickets taken off the wait list become the party of their flow, and are called. -/
def letIn (g : Gate) (flow : Flow) (ts : List Ticket) (waiting : WaitList) : Gate :=
  { g with
    active := g.active.insert flow
      (Catalog.ofList (ts.map fun t => (t.id, (⟨t, none⟩ : Admission))))
    waiting := waiting
    called := call g.called ts }

section LetIn

variable {flow : Flow} {ts : List Ticket} {waiting : WaitList}

theorem get?_ofList_tickets_iff (htakes : g.waiting.Takes ts waiting) {id : Nat} {a : Admission} :
    (Catalog.ofList (ts.map fun t => (t.id, (⟨t, none⟩ : Admission)))).get? id = some a ↔
      ∃ t ∈ ts, t.id = id ∧ a = ⟨t, none⟩ := by
  have hkeys : ((ts.map fun t => (t.id, (⟨t, none⟩ : Admission))).map (·.1)).Nodup := by
    rw [List.map_map]
    exact htakes.distinct
  rw [Catalog.get?_ofList_iff hkeys]
  simp [eq_comm]

theorem waits_letIn_iff (htakes : g.waiting.Takes ts waiting) :
    (g.letIn flow ts waiting).Waits t ↔ g.Waits t ∧ t ∉ ts :=
  htakes.rest_iff t.id t

theorem admits_letIn_iff (htakes : g.waiting.Takes ts waiting)
    (hmem : ∀ t, t ∈ ts ↔ g.Waits t ∧ t.flow = flow) (hinactive : g.active.get? flow = none)
    {e : Option Nat} :
    (g.letIn flow ts waiting).Admits t e ↔ g.Admits t e ∨ t ∈ ts ∧ e = none := by
  rw [admits_iff, admits_iff]
  rcases Classical.em (t.flow = flow) with hflow | hflow
  · rw [hflow, hinactive]
    simp only [letIn, Catalog.get?_insert_self, Option.some.injEq, exists_eq_left',
      get?_ofList_tickets_iff htakes, Admission.mk.injEq, reduceCtorEq, false_and, exists_false,
      false_or]
    constructor
    · rintro ⟨u, hu, -, rfl, rfl⟩
      exact ⟨hu, rfl⟩
    · rintro ⟨ht, rfl⟩
      exact ⟨t, ht, rfl, rfl, rfl⟩
  · have hnot : t ∉ ts := fun ht => hflow ((hmem t).mp ht).2
    simp [letIn, Catalog.get?_insert_of_ne, hflow, hnot]

theorem calls_letIn (htakes : g.waiting.Takes ts waiting)
    (hmem : ∀ t, t ∈ ts ↔ g.Waits t ∧ t.flow = flow) (hinactive : g.active.get? flow = none) :
    g.Calls (g.letIn flow ts waiting) := by
  have hnew : ∀ t, t ∈ ts ↔ g.Waits t ∧ ¬(g.letIn flow ts waiting).Waits t := by
    intro t
    rw [waits_letIn_iff htakes, not_and, Decidable.not_not]
    constructor
    · exact fun ht => ⟨((hmem t).mp ht).1, fun _ => ht⟩
    · exact fun ht => ht.2 ht.1
  constructor
  · exact fun t ht => ((waits_letIn_iff htakes).mp ht).1
  · intro t e
    rw [admits_letIn_iff htakes hmem hinactive, hnew t, and_assoc]
  · intro id
    change (call g.called ts).contains id = true ↔ _
    rw [contains_call_iff]
    simp only [hnew, and_comm]

theorem Consistent.letIn (h : g.Consistent) (htakes : g.waiting.Takes ts waiting)
    (hmem : ∀ t, t ∈ ts ↔ g.Waits t ∧ t.flow = flow) (hsome : ts ≠ []) :
    (g.letIn flow ts waiting).Consistent := by
  refine ⟨htakes.agree, ?_, ?_, ?_⟩
  · intro f party hparty
    rcases Catalog.get?_insert_eq_some_iff.mp hparty with ⟨rfl, rfl⟩ | ⟨-, hold⟩
    · obtain ⟨t, ht⟩ := List.exists_mem_of_ne_nil ts hsome
      have hget := (get?_ofList_tickets_iff htakes).mpr ⟨t, ht, rfl, rfl⟩
      intro hempty
      rw [hempty] at hget
      cases hget
    · exact h.inhabited f party hold
  · intro f party id a hparty hget
    rcases Catalog.get?_insert_eq_some_iff.mp hparty with ⟨rfl, rfl⟩ | ⟨-, hold⟩
    · obtain ⟨t, ht, rfl, rfl⟩ := (get?_ofList_tickets_iff htakes).mp hget
      exact ⟨((hmem t).mp ht).2, rfl⟩
    · exact h.filed f party id a hold hget
  · intro t ht
    obtain ⟨hwaits, hnot⟩ := (waits_letIn_iff htakes).mp ht
    have hflow : t.flow ≠ flow := fun hflow => hnot ((hmem t).mpr ⟨hwaits, hflow⟩)
    exact (Catalog.get?_insert_of_ne _ _ hflow).trans (h.apart t hwaits)

end LetIn

/-- Nobody waits, or the flow of the ticket that leads is let in with all its tickets. -/
theorem callNext?_lets_in (hagree : g.waiting.Agree)
    (hapart : ∀ t, g.Waits t → g.active.get? t.flow = none) :
    g.callNext?.Gives fun r events =>
      r = none ∧ events = [] ∧ g.waiting.tickets = .empty ∨
        ∃ u ts waiting, g.waiting.Leads u ∧ g.waiting.Takes ts waiting ∧
          (∀ t, t ∈ ts ↔ g.Waits t ∧ t.flow = u.flow) ∧
          r = some (g.letIn u.flow ts waiting) ∧
          events = ts.map .deregistered ++
            [.calledIn u.flow ts.length (g.letIn u.flow ts waiting).active.size waiting.size] := by
  apply (WaitList.nextFlow?_gives hagree).bind
  rintro (_ | flow) _ ⟨rfl, hnone, hsome⟩
  · exact gives_pure_iff.mpr (.inl ⟨rfl, rfl, hnone rfl⟩)
  · obtain ⟨u, hleads, rfl⟩ := hsome flow rfl
    have habsent : g.active.contains u.flow = false :=
      Catalog.contains_eq_false_iff.mpr (hapart u hleads.1)
    simp only [habsent, Bool.false_eq_true, if_false]
    apply (WaitList.take_gives hagree hleads.1).bind
    rintro ⟨ts, waiting⟩ _ ⟨htakes, hmem, -, rfl⟩
    rw [gives_emit_bind_iff, gives_pure_iff]
    exact .inr ⟨u, ts, waiting, hleads, htakes, hmem, rfl, rfl⟩

theorem quiet_call (ts : List Ticket) (flow : Flow) (n m k : Nat) :
    Quiet (ts.map .deregistered ++ [.calledIn flow n m k]) := by
  simp [Quiet]

theorem callNext?_gives (h : g.Consistent) :
    g.callNext?.Gives fun r events =>
      Quiet events ∧ (r = none → g.waiting.tickets = .empty) ∧
        ∀ g', r = some g' → g'.Consistent ∧ g.Calls g' ∧ g'.capacity = g.capacity ∧
          g'.active.size = g.active.size + 1 ∧ g'.waiting.size < g.waiting.size := by
  refine (callNext?_lets_in h.agree h.apart).mono ?_
  rintro _ _ (⟨rfl, rfl, hnobody⟩ | ⟨u, ts, waiting, ⟨hu, -⟩, htakes, hmem, rfl, rfl⟩)
  · exact ⟨quiet_nil, fun _ => hnobody, by simp⟩
  · have hinactive : g.active.get? u.flow = none := h.apart u hu
    have hsome : ts ≠ [] := List.ne_nil_of_mem ((hmem u).mpr ⟨hu, rfl⟩)
    have hlength := List.length_pos_iff.mpr hsome
    have hsize := htakes.size_add
    refine ⟨quiet_call ts _ _ _ _, by simp, ?_⟩
    rintro _ ⟨rfl⟩
    refine ⟨h.letIn htakes hmem hsome, calls_letIn htakes hmem hinactive, rfl,
      Catalog.size_insert_of_get?_none _ hinactive, ?_⟩
    change waiting.size < g.waiting.size
    omega

theorem callUpTo_gives (h : g.Consistent) (limit : Nat) :
    (g.callUpTo limit).Gives fun r events =>
      Quiet events ∧ r.2.Consistent ∧ g.Calls r.2 ∧ r.2.capacity = g.capacity ∧
        r.2.active.size = g.active.size + r.1 ∧ r.1 + r.2.waiting.size ≤ g.waiting.size ∧
        (r.1 = limit ∨ r.2.Saturated) := by
  induction limit generalizing g with
  | zero =>
      exact gives_pure_iff.mpr
        ⟨quiet_nil, h, .refl g, rfl, rfl, by simp, .inl rfl⟩
  | succ limit ih =>
      rw [callUpTo]
      cases hspace : g.hasSpace with
      | false =>
          exact gives_pure_iff.mpr
            ⟨quiet_nil, h, .refl g, rfl, rfl, by simp, .inr fun _ _ => hspace⟩
      | true =>
          simp only [if_true]
          apply (callNext?_gives h).bind
          rintro (_ | g') first ⟨hquiet, hnone, hsome⟩
          · refine gives_pure_iff.mpr
              ⟨hquiet.append quiet_nil, h, .refl g, rfl, rfl, by simp, .inr ?_⟩
            intro t ht
            rw [Waits, hnone rfl] at ht
            cases ht
          · obtain ⟨h', hcalls, hcapacity, hactive, hwaiting⟩ := hsome g' rfl
            apply (ih h').bind
            rintro ⟨called, g''⟩ later ⟨hquiet', h'', hcalls', hcapacity', hactive', hwaiting', hend⟩
            dsimp only at h'' hcalls' hcapacity' hactive' hwaiting' hend
            refine gives_pure_iff.mpr ⟨hquiet.append (hquiet'.append quiet_nil), h'',
              hcalls.trans hcalls', hcapacity'.trans hcapacity, ?_, ?_, ?_⟩
            · dsimp only
              omega
            · dsimp only
              omega
            · exact hend.imp (congrArg (· + 1)) id

theorem Sound.file_of_active (h : g.Sound) {party : Party}
    (hparty : g.active.get? t.flow = some party) (e : Option Nat) : (g.file t e).Sound := by
  refine ⟨h.toConsistent.file e ?_, ?_⟩
  · intro u hu hflow
    have hnone := h.apart u hu
    rw [hflow, hparty] at hnone
    cases hnone
  · intro u hu
    have hspace := h.saturated u hu
    rw [hasSpace_eq_false_iff] at hspace ⊢
    obtain ⟨m, hm, hle⟩ := hspace
    refine ⟨m, hm, ?_⟩
    rwa [file, Catalog.size_insert_of_get? _ hparty]

theorem enter?_gives (h : g.Sound) (t : Ticket) :
    (g.enter? t).Gives fun r events =>
      Quiet events ∧ (r = none → events = [] ∧ g.active.get? t.flow = none ∧ g.hasSpace = false) ∧
        ∀ g', r = some g' → (g.active.contains t.flow = true ∨ g.hasSpace = true) ∧
          g' = g.file t none ∧ g'.Sound := by
  unfold enter?
  cases hparty : g.active.get? t.flow with
  | some party =>
      simp only [← file_of_get? none hparty]
      rw [gives_emit_bind_iff, gives_pure_iff]
      refine ⟨by simp [Quiet], by simp, ?_⟩
      rintro _ ⟨rfl⟩
      exact ⟨.inl (Catalog.contains_iff.mpr ⟨party, hparty⟩), rfl, h.file_of_active hparty none⟩
  | none =>
      cases hspace : g.hasSpace with
      | false => exact gives_pure_iff.mpr ⟨quiet_nil, fun _ => ⟨rfl, rfl, rfl⟩, by simp⟩
      | true =>
          have hnobody : ∀ u, ¬g.Waits u := fun u => h.not_waits_of_hasSpace hspace
          have houtranks : g.outranks t.priority = false := by
            have hnone : g.waiting.mostUrgent? = none :=
              (WaitList.mostUrgent?_eq_none_iff h.agree).mpr (h.tickets_empty_of_hasSpace hspace)
            simp [outranks, hnone]
          simp only [houtranks, Bool.not_false, Bool.and_self, if_true,
            ← file_of_get?_none none hparty]
          rw [gives_emit_bind_iff, gives_pure_iff]
          refine ⟨by simp [Quiet], by simp, ?_⟩
          rintro _ ⟨rfl⟩
          exact ⟨.inr trivial, rfl, h.toConsistent.file none fun u hu => absurd hu (hnobody u),
            fun u hu => absurd hu (hnobody u)⟩

theorem enqueue_gives (h : g.Sound) (hnew : g.waiting.tickets.get? t.id = none)
    (hinactive : g.active.get? t.flow = none) (hfull : g.hasSpace = false) :
    (g.enqueue t).Gives fun g' events =>
      Quiet events ∧ g'.Sound ∧ (∃ waiting, g' = { g with waiting }) ∧
        ∀ u, g'.Waits u ↔ u = t ∨ g.Waits u := by
  apply (WaitList.insert_gives h.agree hnew).bind
  rintro waiting _ ⟨hagree, htickets, rfl⟩
  have hwaits : ∀ u, Waits { g with waiting } u ↔ u = t ∨ g.Waits u := by
    intro u
    simp only [Waits, htickets, Catalog.get?_insert_eq_some_iff]
    constructor
    · rintro (⟨-, rfl⟩ | ⟨-, hold⟩)
      · exact .inl rfl
      · exact .inr hold
    · rintro (rfl | hold)
      · exact .inl ⟨rfl, rfl⟩
      · refine .inr ⟨fun hid => ?_, hold⟩
        rw [hid, hnew] at hold
        cases hold
  rw [gives_emit_bind_iff, gives_pure_iff]
  refine ⟨by simp [Quiet], ⟨⟨hagree, h.inhabited, h.filed, ?_⟩, fun u _ => hfull⟩,
    ⟨waiting, rfl⟩, hwaits⟩
  intro u hu
  rcases (hwaits u).mp hu with rfl | hold
  · exact hinactive
  · exact h.apart u hold

theorem withdraw?_gives_none (hnone : g.waiting.tickets.get? t.id = none) :
    (g.withdraw? t).Gives fun r events => r = none ∧ events = [] := by
  apply (WaitList.remove_gives_none hnone).bind
  rintro _ _ ⟨rfl, rfl⟩
  exact gives_pure_iff.mpr ⟨rfl, rfl⟩

theorem withdraw?_gives (h : g.Sound) (ht : g.Waits t) :
    (g.withdraw? t).Gives fun r events =>
      Quiet events ∧ ∃ waiting, r = some { g with waiting } ∧ Sound { g with waiting } ∧
        ∀ u, Waits { g with waiting } u ↔ u ≠ t ∧ g.Waits u := by
  apply (WaitList.remove_gives h.agree ht).bind
  rintro _ _ ⟨waiting, rfl, hagree, htickets, rfl⟩
  have hwaits : ∀ u, Waits { g with waiting } u ↔ u ≠ t ∧ g.Waits u := by
    intro u
    simp only [Waits, htickets, Catalog.get?_erase_eq_some_iff]
    constructor
    · rintro ⟨hid, hold⟩
      exact ⟨fun heq => hid (by rw [heq]), hold⟩
    · rintro ⟨hne, hold⟩
      exact ⟨fun hid => hne (Waits.eq_of_id_eq hold ht hid), hold⟩
  refine gives_pure_iff.mpr ⟨by simp [Quiet], waiting, rfl, ?_, hwaits⟩
  exact ⟨⟨hagree, h.inhabited, h.filed, fun u hu => h.apart u ((hwaits u).mp hu).2⟩,
    fun u hu => h.saturated u ((hwaits u).mp hu).2⟩

theorem Sound.strike_of_rest (h : g.Sound) {party : Party}
    (hparty : g.active.get? t.flow = some party) (hrest : (party.erase t.id).isEmpty = false) :
    (g.strike t).Sound := by
  refine ⟨h.toConsistent.strike, ?_⟩
  intro u hu
  have hspace := h.saturated u hu
  rw [hasSpace_eq_false_iff] at hspace ⊢
  obtain ⟨m, hm, hle⟩ := hspace
  refine ⟨m, hm, ?_⟩
  rwa [Gate.strike_of_rest hparty hrest, Catalog.size_insert_of_get? _ hparty]

theorem callNext?_refills {g₀ : Gate} (h : g.Consistent)
    (hsize : g.active.size + 1 = g₀.active.size) (hcapacity : g.capacity = g₀.capacity)
    (hfull : ∀ t, g.Waits t → g₀.hasSpace = false) :
    g.callNext?.Gives fun r events =>
      Quiet events ∧ (r.getD g).Sound ∧ g.Calls (r.getD g) := by
  refine (callNext?_gives h).mono ?_
  rintro (_ | g') events ⟨hquiet, hnone, hsome⟩
  · refine ⟨hquiet, ⟨h, ?_⟩, .refl g⟩
    intro u hu
    rw [Option.getD_none, Waits, hnone rfl] at hu
    cases hu
  · obtain ⟨h', hcalls, hcapacity', hactive, -⟩ := hsome g' rfl
    refine ⟨hquiet, ⟨h', ?_⟩, hcalls⟩
    intro u hu
    obtain ⟨m, hm, hle⟩ := hasSpace_eq_false_iff.mp (hfull u (hcalls.waits u hu))
    refine hasSpace_eq_false_iff.mpr ⟨m, (hcapacity'.trans hcapacity).trans hm, ?_⟩
    rw [Option.getD_some]
    omega

/-- An active ticket is found and struck, and a place that it leaves free is taken if anyone waits. -/
theorem remove_gives (h : g.Sound) {party : Party} (hparty : g.active.get? t.flow = some party)
    (hcontains : party.contains t.id = true) :
    (g.remove t).Gives fun g' events => Quiet events ∧ g'.Sound ∧ (g.strike t).Calls g' := by
  simp only [remove, hparty, Option.filter_some, hcontains, if_true]
  cases hempty : (party.erase t.id).isEmpty with
  | false =>
      simp only [Bool.not_false, if_true, ← Gate.strike_of_rest hparty hempty]
      rw [gives_emit_bind_iff, gives_pure_iff]
      exact ⟨by simp [Quiet], h.strike_of_rest hparty hempty, .refl _⟩
  | true =>
      have hstrike : (g.strike t).Consistent := h.toConsistent.strike
      simp only [Bool.not_true, Bool.false_eq_true, if_false, ← strike_of_last hparty hempty]
      rw [gives_emit_bind_iff]
      cases hspace : (g.strike t).hasSpace with
      | false => exact gives_pure_iff.mpr ⟨by simp [Quiet], ⟨hstrike, fun _ _ => hspace⟩, .refl _⟩
      | true =>
          have hsize : (g.strike t).active.size + 1 = g.active.size := by
            rw [strike_of_last hparty hempty]
            exact Catalog.size_erase_of_get? hparty
          simp only [if_true]
          apply (callNext?_refills hstrike hsize rfl fun u hu => h.saturated u hu).bind
          rintro r events ⟨hquiet, hsound, hcalls⟩
          exact gives_pure_iff.mpr ⟨(hquiet.append quiet_nil).cons (by simp), hsound, hcalls⟩

theorem remove_sound (h : g.Sound) (t : Ticket) :
    (g.remove t).Gives fun g' _ => g'.Sound ∧ ∀ u, g'.Waits u → g.Waits u := by
  cases hfound : (g.active.get? t.flow).filter (·.contains t.id) with
  | none =>
      simp only [remove, hfound]
      rw [gives_emit_bind_iff, gives_pure_iff]
      exact ⟨h, fun _ hu => hu⟩
  | some party =>
      obtain ⟨hparty, hcontains⟩ := Option.filter_eq_some_iff.mp hfound
      refine (remove_gives h hparty hcontains).mono ?_
      rintro g' events ⟨-, h', hcalls⟩
      exact ⟨h', hcalls.waits⟩

theorem Consistent.withCapacity (h : g.Consistent) (capacity : Option Nat) :
    Consistent { g with capacity } :=
  ⟨h.agree, h.inhabited, h.filed, h.apart⟩

theorem setCapacity_gives (h : g.Sound) (capacity : Nat) :
    (g.setCapacity capacity).Gives fun g' events => Quiet events ∧ g'.Sound ∧ g.Calls g' := by
  apply (callUpTo_gives (h.toConsistent.withCapacity (some capacity)) _).bind
  rintro ⟨called, g'⟩ events ⟨hquiet, h', hcalls, hcapacity, hactive, -, hend⟩
  have hcalls' : g.Calls g' := ⟨hcalls.waits, hcalls.admits_iff, hcalls.calling_iff⟩
  rw [gives_emit_bind_iff, gives_pure_iff]
  refine ⟨hquiet.append (by simp [Quiet]), ⟨h', ?_⟩, hcalls'⟩
  rcases hend with hlimit | hsaturated
  · intro t ht
    obtain ⟨previous, hprevious, hfull⟩ :=
      hasSpace_eq_false_iff.mp (h.saturated t (hcalls'.waits t ht))
    simp only [hprevious] at hlimit
    refine hasSpace_eq_false_iff.mpr ⟨capacity, hcapacity, ?_⟩
    dsimp only at hactive
    omega
  · exact hsaturated

theorem liftCapacity_gives (h : g.Sound) :
    g.liftCapacity.Gives fun g' events => Quiet events ∧ g'.Sound ∧ g.Calls g' := by
  apply (callUpTo_gives (h.toConsistent.withCapacity none) _).bind
  rintro ⟨called, g'⟩ events ⟨hquiet, h', hcalls, -, -, hwaiting, hend⟩
  rw [gives_emit_bind_iff, gives_pure_iff]
  refine ⟨hquiet.append (by simp [Quiet]), ⟨h', ?_⟩,
    ⟨hcalls.waits, hcalls.admits_iff, hcalls.calling_iff⟩⟩
  rcases hend with hlimit | hsaturated
  · have hnobody : g'.waiting.tickets = .empty := by
      apply Catalog.size_eq_zero_iff.mp
      simp only [WaitList.size] at hlimit hwaiting
      omega
    intro t ht
    rw [Waits, hnobody] at ht
    cases ht
  · exact hsaturated

theorem setExpiry_eq_file {e : Option Nat} (ht : g.Admits t e) (expiresAt : Nat) :
    g.setExpiry t expiresAt = g.file t (some expiresAt) := by
  obtain ⟨party, hparty, hget⟩ := admits_iff.mp ht
  simp [setExpiry, file_of_get? _ hparty, hparty, hget]

theorem Sound.file_of_admits (h : g.Sound) {e : Option Nat} (ht : g.Admits t e)
    (e' : Option Nat) : (g.file t e').Sound := by
  obtain ⟨party, hparty, -⟩ := admits_iff.mp ht
  exact h.file_of_active hparty e'

theorem Sound.hear (h : g.Sound) (t : Ticket) : (g.hear t).Sound :=
  ⟨⟨h.agree, h.inhabited, h.filed, h.apart⟩, h.saturated⟩

end FlowGate.Gate
