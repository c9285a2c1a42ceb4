import FlowGate.Proofs.CallOrder

namespace FlowGate

open Logged (Gives gives_pure_iff gives_emit_bind_iff)

variable {x : Option Ticket} {t u : Ticket} {flow : Flow}

namespace WaitList

variable {w w' : WaitList}

/-- A wait list has all tickets of another one, save for one that may be named. -/
structure Lacks (w : WaitList) (x : Option Ticket) (w' : WaitList) : Prop where
  agree : w'.Agree
  get?_iff : ∀ id u, w'.tickets.get? id = some u ↔ w.tickets.get? id = some u ∧ x ≠ some u

theorem Lacks.refl (h : w.Agree) : w.Lacks none w := ⟨h, by simp⟩

theorem Lacks.eq (h : w.Lacks none w') (hagree : w.Agree) : w' = w := by
  apply h.agree.eq_of_tickets_eq hagree
  apply Catalog.ext_get?
  intro id
  apply Option.ext
  intro u
  rw [h.get?_iff]
  simp

theorem get?_erase_iff_ne (h : w.Agree) (ht : w.tickets.get? t.id = some t) {id : Nat} :
    (w.tickets.erase t.id).get? id = some u ↔ w.tickets.get? id = some u ∧ some t ≠ some u := by
  rw [Catalog.get?_erase_eq_some_iff, and_comm]
  refine and_congr_right fun hu => not_congr ?_
  obtain rfl := h.numbered id u hu
  constructor
  · intro hid
    rwa [hid, ht] at hu
  · rintro ⟨rfl⟩
    rfl

theorem lacks_some_iff (h : w.Agree) (h' : w'.Agree) (ht : w.tickets.get? t.id = some t) :
    w.Lacks (some t) w' ↔ w'.tickets = w.tickets.erase t.id := by
  constructor
  · intro hlacks
    apply Catalog.ext_get?
    intro id
    apply Option.ext
    intro u
    rw [hlacks.get?_iff, get?_erase_iff_ne h ht]
  · intro htickets
    refine ⟨h', fun id u => ?_⟩
    rw [htickets, get?_erase_iff_ne h ht]

theorem Lacks.leads (h : w.Lacks x w') (hleads : w.Leads u) (hne : x ≠ some u) : w'.Leads u :=
  ⟨(h.get?_iff u.id u).mpr ⟨hleads.1, hne⟩,
    fun v hv => hleads.2 v ((h.get?_iff v.id v).mp hv).1⟩

theorem Lacks.contains_eq (h : w.Lacks x w') (hagree : w.Agree) {id : Nat}
    (hid : ∀ t, x = some t → t.id ≠ id) : w'.contains id = w.contains id := by
  rw [Bool.eq_iff_iff, contains, contains, Catalog.contains_iff, Catalog.contains_iff]
  refine exists_congr fun u => (h.get?_iff id u).trans (and_iff_left_of_imp fun hu hx => ?_)
  exact hid u hx (hagree.numbered id u hu)

theorem Lacks.get?_eq_none (h : w.Lacks x w') {id : Nat} (hnone : w.tickets.get? id = none) :
    w'.tickets.get? id = none := by
  apply Option.eq_none_iff_forall_not_mem.mpr
  intro u hu
  have hold := ((h.get?_iff id u).mp hu).1
  rw [hnone] at hold
  cases hold

theorem Lacks.tickets_eq_empty (h : w.Lacks x w') (hempty : w.tickets = .empty) :
    w'.tickets = .empty := by
  apply Catalog.eq_empty_iff.mpr
  intro id
  apply h.get?_eq_none
  rw [hempty]
  rfl

end WaitList

namespace Gate

variable {g g' next : Gate} {events : List Event} {r : Option Gate}

/-- A gate differs from another one by a waiting ticket at most. -/
structure Lacks (x : Option Ticket) (g g' : Gate) : Prop where
  waiting : g.waiting.Lacks x g'.waiting
  rest : g' = { g with waiting := g'.waiting }

theorem Lacks.refl (h : g.waiting.Agree) : g.Lacks none g := ⟨.refl h, rfl⟩

theorem Lacks.eq (h : g.Lacks none g') (hagree : g.waiting.Agree) : g' = g := by
  rw [h.rest, h.waiting.eq hagree]

theorem Lacks.waits_iff (h : g.Lacks x g') : g'.Waits u ↔ g.Waits u ∧ x ≠ some u :=
  h.waiting.get?_iff u.id u

theorem lacks_of_waits {waiting : WaitList} (hagree : g.waiting.Agree) (hagree' : waiting.Agree)
    (hwaits : ∀ u, Waits { g with waiting } u ↔ g.Waits u ∧ x ≠ some u) :
    g.Lacks x { g with waiting } := by
  refine ⟨⟨hagree', fun id u => ?_⟩, rfl⟩
  constructor
  · intro hu
    obtain rfl := hagree'.numbered id u hu
    exact (hwaits u).mp hu
  · rintro ⟨hu, hne⟩
    obtain rfl := hagree.numbered id u hu
    exact (hwaits u).mpr ⟨hu, hne⟩

theorem Lacks.active_eq (h : g.Lacks x g') : g'.active = g.active := by
  rw [h.rest]

theorem Lacks.apart (h : g.Lacks x g') (hapart : ∀ t, g.Waits t → g.active.get? t.flow = none)
    (t : Ticket) (ht : g'.Waits t) : g'.active.get? t.flow = none := by
  rw [h.active_eq]
  exact hapart t (h.waits_iff.mp ht).1

theorem Lacks.withActive (h : g.Lacks x g') (active : Catalog Flow Party) :
    Lacks x { g with active } { g' with active } :=
  ⟨h.waiting, by rw [h.rest]⟩

theorem Lacks.withCapacity (h : g.Lacks x g') (capacity : Option Nat) :
    Lacks x { g with capacity } { g' with capacity } :=
  ⟨h.waiting, by rw [h.rest]⟩

theorem Lacks.hasSpace_eq (h : g.Lacks x g') : g'.hasSpace = g.hasSpace := by
  rw [h.rest]
  rfl

theorem Lacks.hear (h : g.Lacks x g') (u : Ticket) : (g.hear u).Lacks x (g'.hear u) :=
  ⟨h.waiting, by rw [h.rest]; rfl⟩

theorem Lacks.setExpiry (h : g.Lacks x g') (u : Ticket) (expiresAt : Nat) :
    (g.setExpiry u expiresAt).Lacks x (g'.setExpiry u expiresAt) := by
  unfold Gate.setExpiry
  rw [h.active_eq]
  split
  · exact h
  · split
    · exact h
    · exact h.withActive _

theorem Lacks.sound (hsound : g.Sound) (h : g.Lacks x g') : g'.Sound := by
  refine ⟨⟨h.waiting.agree, ?_, ?_, h.apart hsound.apart⟩, ?_⟩
  · rw [h.active_eq]
    exact hsound.inhabited
  · rw [h.active_eq]
    exact hsound.filed
  · intro u hu
    rw [h.hasSpace_eq]
    exact hsound.saturated u (h.waits_iff.mp hu).1

theorem Lacks.file (h : g.Lacks x g') (u : Ticket) (e : Option Nat) :
    (g.file u e).Lacks x (g'.file u e) := by
  unfold Gate.file party
  rw [h.active_eq]
  exact h.withActive _

/-- Nobody is let in past a ticket that waits, so it makes no difference to who is let in. -/
theorem Lacks.enter? (hsound : g.Sound) (h : g.Lacks x g') (hok : g.enter? u = .ok r events) :
    (g'.enter? u).Gives fun r' _ => Option.Rel (Lacks x) r r' := by
  obtain ⟨-, hnone, hsome⟩ := (enter?_gives hsound u).of_eq_ok hok
  refine (enter?_gives (h.sound hsound) u).mono ?_
  rintro r' _ ⟨-, hnone', hsome'⟩
  rw [h.active_eq, h.hasSpace_eq] at hnone' hsome'
  cases r with
  | none =>
      obtain ⟨-, hinactive, hfull⟩ := hnone rfl
      cases r' with
      | none => exact .none
      | some next' =>
          have hroom := (hsome' next' rfl).1
          simp [Catalog.contains, hinactive, hfull] at hroom
  | some next =>
      obtain ⟨hroom, rfl, -⟩ := hsome next rfl
      cases r' with
      | none =>
          obtain ⟨-, hinactive, hfull⟩ := hnone' rfl
          simp [Catalog.contains, hinactive, hfull] at hroom
      | some next' =>
          obtain ⟨-, rfl, -⟩ := hsome' next' rfl
          exact .some (h.file u none)

theorem Lacks.enqueue (hagree : g.waiting.Agree) (h : g.Lacks x g') (hne : x ≠ some u)
    (hok : g.enqueue u = .ok next events) :
    (g'.enqueue u).Gives fun next' _ => next.Lacks x next' := by
  obtain ⟨waiting, first, _, hinsert, hrest, -⟩ := Logged.bind_eq_ok_iff.mp hok
  obtain ⟨_, _, _, -, hpure, -⟩ := Logged.bind_eq_ok_iff.mp hrest
  cases hpure
  have hnew : g.waiting.tickets.get? u.id = none := by
    apply Catalog.contains_eq_false_iff.mp
    apply Bool.eq_false_iff.mpr
    intro hcontains
    rw [WaitList.insert_eq_fail hcontains] at hinsert
    cases hinsert
  have hnew' := h.waiting.get?_eq_none hnew
  obtain ⟨-, htickets, -⟩ := (WaitList.insert_gives hagree hnew).of_eq_ok hinsert
  apply (WaitList.insert_gives h.waiting.agree hnew').bind
  rintro waiting' _ ⟨hagree', htickets', -⟩
  rw [gives_emit_bind_iff, gives_pure_iff]
  refine ⟨⟨hagree', fun id v => ?_⟩, by rw [h.rest]⟩
  rw [htickets', htickets, Catalog.get?_insert_eq_some_iff, Catalog.get?_insert_eq_some_iff,
    h.waiting.get?_iff, or_and_right, and_assoc (a := id ≠ u.id)]
  refine or_congr_left (and_iff_left_of_imp ?_).symm
  rintro ⟨-, rfl⟩
  exact hne

theorem Lacks.withdraw? (hagree : g.waiting.Agree) (h : g.Lacks x g')
    (hne : ∀ t, x = some t → t.id ≠ u.id) (hok : g.withdraw? u = .ok r events) :
    (g'.withdraw? u).Gives fun r' _ => Option.Rel (Lacks x) r r' := by
  cases hfound : g.waiting.tickets.get? u.id with
  | none =>
      obtain ⟨rfl, -⟩ := (withdraw?_gives_none hfound).of_eq_ok hok
      refine (withdraw?_gives_none (h.waiting.get?_eq_none hfound)).mono ?_
      rintro _ _ ⟨rfl, -⟩
      exact .none
  | some v =>
      have hid := hagree.numbered u.id v hfound
      have hfound' : g'.waiting.tickets.get? u.id = some v :=
        (h.waiting.get?_iff u.id v).mpr ⟨hfound, fun hx => hne v hx hid⟩
      obtain ⟨removed, first, _, hremove, hrest, -⟩ := Logged.bind_eq_ok_iff.mp hok
      obtain ⟨waiting, rfl, -, htickets, -⟩ :=
        (WaitList.remove_gives hagree hfound).of_eq_ok hremove
      cases hrest
      apply (WaitList.remove_gives h.waiting.agree hfound').bind
      rintro _ _ ⟨waiting', rfl, hagree', htickets', -⟩
      refine gives_pure_iff.mpr (.some ⟨⟨hagree', fun id y => ?_⟩, by rw [h.rest]⟩)
      rw [htickets', htickets, Catalog.get?_erase_eq_some_iff, Catalog.get?_erase_eq_some_iff,
        h.waiting.get?_iff, and_assoc]

theorem Lacks.letIn (h : g.Lacks x g') {ts ts' : List Ticket} {waiting waiting' : WaitList}
    (htakes : g.waiting.Takes ts waiting) (htakes' : g'.waiting.Takes ts' waiting')
    (hmem : ∀ t, t ∈ ts' ↔ t ∈ ts) :
    (g.letIn flow ts waiting).Lacks x (g'.letIn flow ts' waiting') := by
  have hparty : Catalog.ofList (ts'.map fun t => (t.id, (⟨t, none⟩ : Admission))) =
      Catalog.ofList (ts.map fun t => (t.id, (⟨t, none⟩ : Admission))) := by
    apply Catalog.ext_get?
    intro id
    apply Option.ext
    intro a
    rw [get?_ofList_tickets_iff htakes, get?_ofList_tickets_iff htakes']
    simp only [hmem]
  have hcalled : call g.called ts' = call g.called ts := by
    apply Catalog.eq_of_contains
    intro id
    rw [Bool.eq_iff_iff, contains_call_iff, contains_call_iff]
    simp only [hmem]
  constructor
  · refine ⟨htakes'.agree, fun id u => ?_⟩
    change waiting'.tickets.get? id = some u ↔ waiting.tickets.get? id = some u ∧ _
    rw [htakes'.rest_iff, htakes.rest_iff, h.waiting.get?_iff, hmem, and_right_comm]
  · unfold Gate.letIn
    rw [hparty, h.rest, hcalled]

/-- A ticket that is not called in makes no difference to who is. -/
theorem Lacks.callNext? (hagree : g.waiting.Agree)
    (hapart : ∀ t, g.Waits t → g.active.get? t.flow = none) (h : g.Lacks x g')
    (hok : g.callNext? = .ok r events)
    (hstays : ∀ next, r = some next → ∀ t, x = some t → next.Waits t) :
    g'.callNext?.Gives fun r' _ => Option.Rel (Lacks x) r r' := by
  refine (callNext?_lets_in h.waiting.agree (h.apart hapart)).mono ?_
  rcases (callNext?_lets_in hagree hapart).of_eq_ok hok with
    ⟨rfl, -, hempty⟩ | ⟨u, ts, waiting, hleads, htakes, hmem, rfl, -⟩
  · have hempty' := h.waiting.tickets_eq_empty hempty
    rintro _ _ (⟨rfl, -, -⟩ | ⟨u', -, -, ⟨hu', -⟩, -⟩)
    · exact .none
    · rw [hempty'] at hu'
      cases hu'
  · have hout : ∀ t ∈ ts, x ≠ some t := by
      rintro t ht rfl
      exact ((waits_letIn_iff htakes).mp (hstays _ rfl t rfl)).2 ht
    have hleads' := h.waiting.leads hleads (hout u ((hmem u).mpr ⟨hleads.1, rfl⟩))
    rintro _ _ (⟨-, -, hempty'⟩ | ⟨u', ts', waiting', hleads'', htakes', hmem', rfl, -⟩)
    · have hu := hleads'.1
      rw [hempty'] at hu
      cases hu
    · obtain rfl := hleads'.unique hleads''
      refine .some (h.letIn htakes htakes' fun t => ?_)
      rw [hmem', hmem, h.waits_iff, and_right_comm]
      refine and_iff_left_of_imp fun ht => hout t ((hmem t).mpr ht)

theorem waits_of_callUpTo (hagree : g.waiting.Agree)
    (hapart : ∀ t, g.Waits t → g.active.get? t.flow = none) {limit : Nat} {called : Nat × Gate}
    (hok : g.callUpTo limit = .ok called events) (ht : called.2.Waits t) : g.Waits t := by
  obtain ⟨-, -, hlets⟩ := (callUpTo_lets_in hagree hapart limit).of_eq_ok hok
  exact ((hlets.waits_iff t).mp ht).1

theorem Lacks.callUpTo (hagree : g.waiting.Agree)
    (hapart : ∀ t, g.Waits t → g.active.get? t.flow = none) (h : g.Lacks x g') {limit : Nat}
    {called : Nat × Gate} (hok : g.callUpTo limit = .ok called events)
    (hstays : ∀ t, x = some t → called.2.Waits t) :
    (g'.callUpTo limit).Gives fun called' _ =>
      called'.1 = called.1 ∧ called.2.Lacks x called'.2 := by
  induction limit generalizing g g' called events with
  | zero =>
      cases hok
      exact gives_pure_iff.mpr ⟨rfl, h⟩
  | succ limit ih =>
      rw [Gate.callUpTo] at hok ⊢
      rw [h.hasSpace_eq]
      split at hok
      · rename_i hspace
        simp only [hspace, if_true]
        obtain ⟨r, first, _, hnext, hrest, -⟩ := Logged.bind_eq_ok_iff.mp hok
        cases r with
        | none =>
            cases hrest
            apply (h.callNext? hagree hapart hnext (by simp)).bind
            rintro _ _ ⟨⟩
            exact gives_pure_iff.mpr ⟨rfl, h⟩
        | some next =>
            obtain ⟨flow, hlets⟩ := letsIn_of_callNext? hagree hapart hnext
            obtain ⟨called', later, _, hcall, hpure, -⟩ := Logged.bind_eq_ok_iff.mp hrest
            cases hpure
            have hstays' : ∀ t, x = some t → next.Waits t := fun t ht =>
              waits_of_callUpTo hlets.agree (hlets.apart hapart) hcall (hstays t ht)
            have hrel := h.callNext? hagree hapart hnext (by rintro _ ⟨rfl⟩; exact hstays')
            apply hrel.bind
            rintro _ _ ⟨hnext'⟩
            apply (ih hlets.agree (hlets.apart hapart) hnext' hcall hstays).bind
            rintro ⟨n, last⟩ _ ⟨rfl, hlast⟩
            exact gives_pure_iff.mpr ⟨rfl, hlast⟩
      · rename_i hfull
        cases hok
        simp only [hfull]
        exact gives_pure_iff.mpr ⟨rfl, h⟩

theorem Lacks.remove (hsound : g.Sound) (h : g.Lacks x g') (hok : g.remove u = .ok next events)
    (hstays : ∀ t, x = some t → next.Waits t) :
    (g'.remove u).Gives fun next' _ => next.Lacks x next' := by
  unfold Gate.remove at hok ⊢
  rw [h.active_eq]
  split at hok
  · rename_i hfound
    obtain ⟨_, _, _, -, hpure, -⟩ := Logged.bind_eq_ok_iff.mp hok
    cases hpure
    rw [gives_emit_bind_iff, gives_pure_iff]
    exact h
  · rename_i party hfound
    dsimp only at hok ⊢
    split at hok
    · rename_i hrest
      obtain ⟨_, _, _, -, hpure, -⟩ := Logged.bind_eq_ok_iff.mp hok
      cases hpure
      rw [if_pos hrest, gives_emit_bind_iff, gives_pure_iff]
      exact h.withActive _
    · rename_i hlast
      have hfreed := h.withActive (g.active.erase u.flow)
      obtain ⟨_, _, _, -, hnext, -⟩ := Logged.bind_eq_ok_iff.mp hok
      rw [if_neg hlast, gives_emit_bind_iff, hfreed.hasSpace_eq]
      split at hnext
      · rename_i hspace
        obtain ⟨r, first, _, hcall, hpure, -⟩ := Logged.bind_eq_ok_iff.mp hnext
        cases hpure
        simp only [hspace, if_true]
        have hcalled := Lacks.callNext? (g := { g with active := g.active.erase u.flow })
          hsound.agree (apart_erase hsound.apart u.flow) hfreed hcall
        cases r with
        | none =>
            apply (hcalled (by simp)).bind
            rintro _ _ ⟨⟩
            exact gives_pure_iff.mpr hfreed
        | some next =>
            apply (hcalled (by rintro _ ⟨rfl⟩; exact hstays)).bind
            rintro _ _ ⟨hnext⟩
            exact gives_pure_iff.mpr hnext
      · rename_i hfull
        cases hnext
        simp only [hfull]
        exact gives_pure_iff.mpr hfreed

theorem Lacks.setCapacity (hsound : g.Sound) (h : g.Lacks x g') {capacity : Nat}
    (hok : g.setCapacity capacity = .ok next events) (hstays : ∀ t, x = some t → next.Waits t) :
    (g'.setCapacity capacity).Gives fun next' _ => next.Lacks x next' := by
  have hcapacity : g'.capacity = g.capacity := by rw [h.rest]
  obtain ⟨called, first, _, hcall, hrest, -⟩ := Logged.bind_eq_ok_iff.mp hok
  obtain ⟨_, _, _, -, hpure, -⟩ := Logged.bind_eq_ok_iff.mp hrest
  cases hpure
  unfold Gate.setCapacity
  rw [hcapacity]
  apply (Lacks.callUpTo (g := { g with capacity := some capacity }) hsound.agree hsound.apart
    (h.withCapacity (some capacity)) hcall hstays).bind
  rintro ⟨n, last⟩ _ ⟨-, hlast⟩
  rw [gives_emit_bind_iff, gives_pure_iff]
  exact hlast

theorem Lacks.liftCapacity (hsound : g.Sound) (h : g.Lacks x g')
    (hok : g.liftCapacity = .ok next events) (hstays : ∀ t, x = some t → next.Waits t) :
    (g'.liftCapacity).Gives fun next' _ => next.Lacks x next' := by
  obtain ⟨-, hsound', -⟩ := (liftCapacity_gives hsound).of_eq_ok hok
  cases x with
  | none =>
      obtain rfl := h.eq hsound.agree
      exact ⟨next, events, hok, .refl hsound'.agree⟩
  | some t =>
      obtain ⟨called, first, _, hcall, hrest, -⟩ := Logged.bind_eq_ok_iff.mp hok
      obtain ⟨_, _, _, -, hpure, -⟩ := Logged.bind_eq_ok_iff.mp hrest
      cases hpure
      obtain ⟨-, -, hlets⟩ := (callUpTo_lets_in (g := { g with capacity := none })
        hsound.agree hsound.apart _).of_eq_ok hcall
      have hfull := hsound'.saturated t (hstays t rfl)
      simp [hasSpace, hlets.capacity] at hfull

end Gate

end FlowGate
