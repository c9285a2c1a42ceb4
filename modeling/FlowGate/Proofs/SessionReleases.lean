import FlowGate.Proofs.SessionInvariant

namespace FlowGate

section Remove

variable {g : Gate} {owned : List (Ticket × Stake)} {nextId : Nat} {t : Ticket}

theorem Custody.silent {a : Stake} (h : Custody g ((t, a) :: owned) nextId) (ha : a ≠ .awaited) :
    ¬g.Calling t := by
  intro hcalling
  obtain ⟨u, hu, hid⟩ := h.calling t.id hcalling
  exact ha (h.eq_of_id_eq List.mem_cons_self hu hid.symm).2

theorem Custody.get?_eq_none_of_calling (h : Custody g owned nextId) (hsound : g.Sound)
    (hcalling : g.Calling t) : g.waiting.tickets.get? t.id = none := by
  apply Option.eq_none_iff_forall_not_mem.mpr
  intro u hu
  obtain ⟨hid, hwaits⟩ := hsound.waits_of_get? hu
  have hsilent := ((h.waits_iff u).mp hwaits).2
  rw [Gate.Calling, hid] at hsilent
  exact hsilent hcalling

theorem Gate.remove_gives_custody {a : Stake} (h : g.Sound)
    (hcustody : Custody g ((t, a) :: owned) nextId) {e : Option Nat} (hadmits : g.Admits t e)
    (hsilent : ¬g.Calling t) :
    (g.remove t).Gives fun g' events =>
      Quiet events ∧ g'.Sound ∧ Custody g' owned nextId ∧ Evolves nextId (· = t) g g' := by
  obtain ⟨party, hparty, hget⟩ := admits_iff.mp hadmits
  refine (remove_gives h hparty (Catalog.contains_iff.mpr ⟨_, hget⟩)).mono ?_
  rintro g' events ⟨hquiet, h', hcalls⟩
  refine ⟨hquiet, h', (hcustody.strike hadmits hsilent).calls hcalls, ?_⟩
  have hstrike : Evolves nextId (· = t) g (g.strike t) := evolves_strike hadmits
  have hcall : Evolves nextId (fun _ => False) (g.strike t) g' := hcalls.evolves
  exact (hstrike.trans hcall nextId.le_refl).mono fun u hend => hend.resolve_right id

end Remove

namespace Session

open Gate (Quiet)
open Logged (Gives gives_pure_iff gives_emit_bind_iff)

variable {s s' : Session} {slot : String} {t : Ticket} {loose : List (Ticket × Stake)}

/-- A step by which a ticket goes: its own holder, caller or grace period ends it. -/
inductive Ends (s : Session) : Step → Ticket → Prop where
  | done {slot : String} {t : Ticket} (hslot : s.slots.get? slot = some (.holding t))
      (hgrace : s.grace.span t.flow = 0) : Ends s (.done slot) t
  | forget {slot : String} {t : Ticket} (hslot : s.slots.get? slot = some (.holding t)) :
      Ends s (.forget slot) t
  | drop {slot : String} {t : Ticket} (hslot : s.slots.get? slot = some (.holding t))
      (hgrace : s.grace.span t.flow = 0) : Ends s (.drop slot) t
  | abandon {slot token : String} {t : Ticket}
      (hslot : s.slots.get? slot = some (.waiting token t)) : Ends s (.drop slot) t
  | advance {nanos : Nat} {e : Expiry} (hmem : e ∈ s.expiries) (hdue : e.due ≤ s.now + nanos) :
      Ends s (.advance nanos) e.ticket
  | shutdown {ranks : List Nat} {e : Expiry} (hmem : e ∈ s.expiries) (htimer : e.onTimer = true) :
      Ends s (.shutdown ranks) e.ticket

theorem insertExpiry_perm (e : Expiry) (expiries : List Expiry) :
    (insertExpiry e expiries).Perm (e :: expiries) := by
  induction expiries with
  | nil => exact .refl [e]
  | cons other rest ih =>
      rw [insertExpiry]
      split
      · exact .refl _
      · exact (ih.cons other).trans (.swap e other rest)

theorem stakes_insertExpiry_perm (e : Expiry) :
    (e.stake :: (loose ++ stakes s.slots s.expiries)).Perm
      (loose ++ stakes s.slots (insertExpiry e s.expiries)) := by
  refine List.perm_middle.symm.trans (List.Perm.append_left loose ?_)
  refine List.perm_middle.symm.trans (List.Perm.append_left _ ?_)
  exact ((insertExpiry_perm e s.expiries).map Expiry.stake).symm

theorem letGo_gives (h : s.Sound ((t, .held) :: loose)) :
    (s.letGo t).Gives fun s' events =>
      Quiet events ∧ s'.Sound loose ∧
        s.Evolves (fun u => u = t ∧ s.grace.span t.flow = 0) s' ∧
          s'.slots = s.slots ∧ s'.kept = s.kept := by
  unfold letGo
  cases halive : s.alive with
  | false =>
      refine gives_pure_iff.mpr ⟨Gate.quiet_nil, ⟨h.gate, ?_⟩, .refl s, rfl, rfl⟩
      simp [halive]
  | true =>
      have haccounts : Custody s.gate ((t, .held) :: (loose ++ stakes s.slots s.expiries)) s.nextId :=
        h.accounts halive
      have hadmits : s.gate.Admits t none :=
        (haccounts.admits_none_iff t).mpr (.inl List.mem_cons_self)
      simp only [Bool.not_true, Bool.false_eq_true, if_false]
      split
      · rename_i hgrace
        apply (Gate.remove_gives_custody h.gate haccounts hadmits (haccounts.silent nofun)).bind
        rintro g' first ⟨hquiet, h', hcustody, hevolves⟩
        refine gives_pure_iff.mpr ⟨hquiet.append Gate.quiet_nil, ⟨h', fun _ => hcustody⟩, ?_, rfl, rfl⟩
        exact ⟨s.nextId.le_refl, hevolves.mono fun u hu => ⟨hu, hgrace⟩, fun _ => halive,
          by simp [halive]⟩
      · rw [gives_emit_bind_iff, gives_pure_iff, Gate.setExpiry_eq_file hadmits]
        refine ⟨by simp [Quiet], ⟨h.gate.file_of_admits hadmits _, fun _ => ?_⟩, ?_, rfl, rfl⟩
        · exact (haccounts.schedule _).perm (stakes_insertExpiry_perm ⟨t, _, _⟩)
        · refine ⟨s.nextId.le_refl, ?_, fun _ => halive, by simp [halive]⟩
          apply Gate.evolves_file _ (.inr ⟨none, hadmits⟩)
          rintro u ⟨e, hu⟩ hflow hid
          exact (hu.eq_of_place_eq hadmits hflow hid).1

/-- Nothing changes at the gate when a release breaks off, and nothing but the slot in the session. -/
theorem Sound.strand (h : s.Sound []) (hslot : s.slots.get? slot = some (.holding t)) :
    (s.putSlot slot (.stranded t)).Sound [] ∧
      s.Evolves (fun _ => False) (s.putSlot slot (.stranded t)) := by
  have halive : (s.putSlot slot (.stranded t)).alive = true → s.alive = true := by
    intro halive
    rcases alive_iff.mp halive with hkept | ⟨other, content, hget, hopen⟩
    · exact alive_iff.mpr (.inl hkept)
    · rcases Catalog.get?_insert_eq_some_iff.mp hget with ⟨rfl, rfl⟩ | ⟨-, hget⟩
      · cases hopen
      · exact alive_iff.mpr (.inr ⟨other, content, hget, hopen⟩)
  refine ⟨⟨h.gate, fun hgone => ?_⟩, .of_gate_eq rfl s.nextId.le_refl halive⟩
  have hrest := accounts_erase_of_get? (h.accounts (halive hgone)) hslot
  exact accounts_putSlot rfl hrest

/-- What a slot comes to whose caller or holder goes away. -/
inductive Leaves (s : Session) (slot : String) : Reply × Session → Prop where
  | gone {s' : Session} (hslot : ∀ t, s.slots.get? slot ≠ some (.stranded t))
      (hslots : s'.slots = s.slots.erase slot) : Leaves s slot (.done, s')
  | strands {t : Ticket} (hslot : s.slots.get? slot = some (.holding t)) (hbreaks : s.breaksOff t = true) :
      Leaves s slot (.brokenOff, s.putSlot slot (.stranded t))
  | nobody {t : Ticket} (hslot : s.slots.get? slot = some (.stranded t)) :
      Leaves s slot (.refusal .emptySlot, s)

theorem release_gives (h : s.Sound []) (hslot : s.slots.get? slot = some (.holding t)) :
    (s.release slot t).Gives fun r events =>
      Quiet events ∧ r.2.Sound [] ∧ s.Evolves (fun u => u = t ∧ s.grace.span t.flow = 0) r.2 ∧
        s.Leaves slot r ∧ r.2.kept = s.kept := by
  unfold release
  split
  · rename_i hbreaks
    obtain ⟨hsound, hevolves⟩ := h.strand hslot
    exact gives_pure_iff.mpr
      ⟨Gate.quiet_nil, hsound, hevolves.mono fun _ => False.elim, .strands hslot hbreaks, rfl⟩
  · have hevolves := s.evolves_clearSlot slot fun _ => False
    apply (letGo_gives (h.clearSlot hslot)).bind
    rintro s' first ⟨hquiet, h', hrelease, hslots, hkept⟩
    refine gives_pure_iff.mpr ⟨hquiet.append Gate.quiet_nil, h', ?_, .gone (by simp [hslot]) hslots, hkept⟩
    exact (hevolves.trans hrelease).mono fun u hend => hend.resolve_left id

theorem expire_gives {e : Expiry} (h : s.Sound (e.stake :: loose)) :
    (s.expire e).Gives fun s' events =>
      Quiet events ∧ s'.Sound loose ∧ s.Evolves (· = e.ticket) s' ∧
        ∃ gate, s' = { s with gate } := by
  unfold expire
  cases halive : s.alive with
  | false =>
      simp only [Bool.not_false, if_true]
      rw [gives_emit_bind_iff, gives_pure_iff]
      refine ⟨by simp [Quiet], ⟨h.gate, ?_⟩, .refl s, s.gate, rfl⟩
      simp [halive]
  | true =>
      have haccounts : Custody s.gate (e.stake :: (loose ++ stakes s.slots s.expiries)) s.nextId :=
        h.accounts halive
      have hadmits : s.gate.Admits e.ticket (some e.expiresAt) :=
        (haccounts.admits_some_iff _ _).mpr List.mem_cons_self
      have hremove := Gate.remove_gives_custody h.gate haccounts hadmits (haccounts.silent (by simp))
      have hlast : (do return { s with gate := ← s.gate.remove e.ticket }).Gives
          fun s' events => Quiet events ∧ s'.Sound loose ∧ s.Evolves (· = e.ticket) s' ∧
            ∃ gate, s' = { s with gate } := by
        apply hremove.bind
        rintro g' first ⟨hquiet, h', hcustody, hevolves⟩
        refine gives_pure_iff.mpr ⟨hquiet.append Gate.quiet_nil, ⟨h', fun _ => hcustody⟩, ?_, g', rfl⟩
        exact ⟨s.nextId.le_refl, hevolves, fun _ => halive, by simp [halive]⟩
      simp only [Bool.not_true, Bool.false_eq_true, if_false]
      split
      · rw [gives_emit_bind_iff]
        refine hlast.mono ?_
        rintro s' events ⟨hquiet, hrest⟩
        exact ⟨hquiet.cons (by simp), hrest⟩
      · exact hlast

/-- To end a grace period is to take its ticket out, whatever the log says of it. -/
theorem expire_eq_ok (halive : s.alive = true) {e : Expiry} {a : Session}
    {events : List Event} (hok : s.expire e = .ok a events) :
    ∃ gate first, s.gate.remove e.ticket = .ok gate first ∧ a = { s with gate } := by
  unfold Session.expire at hok
  simp only [halive, Bool.not_true, Bool.false_eq_true, if_false] at hok
  have hremoved : ∀ {later},
      (do return { s with gate := ← s.gate.remove e.ticket }) = Logged.ok a later →
        ∃ gate first, s.gate.remove e.ticket = .ok gate first ∧ a = { s with gate } := by
    intro later hok
    obtain ⟨gate, first, _, hremove, hpure, -⟩ := Logged.bind_eq_ok_iff.mp hok
    cases hpure
    exact ⟨gate, first, hremove, rfl⟩
  split at hok
  · obtain ⟨_, _, _, -, hrest, -⟩ := Logged.bind_eq_ok_iff.mp hok
    exact hremoved hrest
  · exact hremoved hok

theorem expireEach_gives (expiries : List Expiry)
    (h : s.Sound (expiries.map Expiry.stake ++ loose)) :
    (s.expireEach expiries).Gives fun s' events =>
      Quiet events ∧ s'.Sound loose ∧ s.Evolves (fun u => ∃ e ∈ expiries, u = e.ticket) s' ∧
        ∃ gate, s' = { s with gate } := by
  induction expiries generalizing s with
  | nil => exact gives_pure_iff.mpr ⟨Gate.quiet_nil, h, .refl s, s.gate, rfl⟩
  | cons e expiries ih =>
      rw [expireEach]
      apply (expire_gives h).bind
      rintro _ first ⟨hquiet, h', hevolves, gate, rfl⟩
      refine (ih h').mono ?_
      rintro _ later ⟨hquiet', h'', hevolves', gate', rfl⟩
      refine ⟨hquiet.append hquiet', h'', (hevolves.trans hevolves').mono ?_, gate', rfl⟩
      rintro u (rfl | ⟨e', hmem, rfl⟩)
      · exact ⟨e, List.mem_cons_self, rfl⟩
      · exact ⟨e', List.mem_cons_of_mem e hmem, rfl⟩

theorem waits_of_expireEach (halive : s.alive = true) (hsound : s.gate.Sound) {ended : List Expiry}
    {a : Session} {events : List Event} (hok : s.expireEach ended = .ok a events) (t : Ticket)
    (ht : a.gate.Waits t) : s.gate.Waits t := by
  induction ended generalizing s events with
  | nil =>
      cases hok
      exact ht
  | cons e rest ih =>
      obtain ⟨s', first, later, hexpire, hrest, -⟩ := Logged.bind_eq_ok_iff.mp hok
      obtain ⟨gate, _, hremove, rfl⟩ := expire_eq_ok halive hexpire
      obtain ⟨hsound', hwaits⟩ := (Gate.remove_sound hsound e.ticket).of_eq_ok hremove
      exact hwaits t (ih (s := { s with gate }) halive hsound' hrest)

theorem Sound.endExpiries (h : s.Sound []) {ended running : List Expiry}
    (hperm : s.expiries.Perm (ended ++ running)) :
    Sound { s with expiries := running } (ended.map Expiry.stake ++ []) := by
  refine ⟨h.gate, fun halive => ?_⟩
  rw [List.append_nil]
  exact (h.accounts halive).perm ((stakes_perm_of_expiries hperm).trans stakes_append_perm)

theorem due_perm (expiries : List Expiry) (now : Nat) :
    expiries.Perm ((expiries.filter fun e => e.due ≤ now) ++
      expiries.filter fun e => !decide (e.due ≤ now)) :=
  (List.filter_append_perm _ _).symm

/-- The grace periods on the timer, in the order in which it ends them as it stops. -/
def timedOut (s : Session) (ranks : List Nat) : List Expiry :=
  (s.expiries.filter Expiry.onTimer).mergeSort fun a b => a.rank ranks ≤ b.rank ranks

theorem mem_timedOut_iff {ranks : List Nat} {e : Expiry} :
    e ∈ s.timedOut ranks ↔ e ∈ s.expiries ∧ e.onTimer = true :=
  List.mem_mergeSort.trans List.mem_filter

theorem timedOut_perm (s : Session) (ranks : List Nat) :
    s.expiries.Perm (s.timedOut ranks ++ s.expiries.filter fun e => !e.onTimer) :=
  (List.filter_append_perm Expiry.onTimer s.expiries).symm.trans
    ((List.mergeSort_perm _ _).symm.append_right _)

theorem shutdown_eq (s : Session) (ranks : List Nat) :
    s.shutdown ranks =
      expireEach { s with timer := false, expiries := s.expiries.filter fun e => !e.onTimer }
        (s.timedOut ranks) := by
  simp only [shutdown, timedOut, List.partition_eq_filter_filter]
  rfl

theorem advance_eq (s : Session) (nanos : Nat) :
    s.advance nanos =
      expireEach
        { s with
          now := s.now + nanos
          expiries := s.expiries.filter fun e => !decide (e.due ≤ s.now + nanos) }
        (s.expiries.filter fun e => e.due ≤ s.now + nanos) := by
  simp only [advance, expireDue, List.partition_eq_filter_filter]
  rfl

theorem advance_gives (h : s.Sound []) (nanos : Nat) :
    (s.advance nanos).Gives fun s' events =>
      Quiet events ∧ s'.Sound [] ∧ s.Evolves (s.Ends (.advance nanos)) s' ∧
        s'.slots = s.slots ∧ s'.kept = s.kept ∧
          s'.expiries = s.expiries.filter fun e => !decide (e.due ≤ s.now + nanos) := by
  have h' : (s.pass nanos).Sound [] := ⟨h.gate, h.accounts⟩
  rw [advance_eq]
  refine (expireEach_gives _ (h'.endExpiries (due_perm _ _))).mono ?_
  rintro _ events ⟨hquiet, hsound, hevolves, gate, rfl⟩
  refine ⟨hquiet, hsound, ?_, rfl, rfl, rfl⟩
  refine ⟨hevolves.nextId_le, hevolves.gate.mono ?_, hevolves.alive, hevolves.frozen⟩
  rintro u ⟨e, hmem, rfl⟩
  obtain ⟨hmem, hdue⟩ := List.mem_filter.mp hmem
  exact .advance hmem (of_decide_eq_true hdue)

theorem shutdown_gives (h : s.Sound []) (ranks : List Nat) :
    (s.shutdown ranks).Gives fun s' events =>
      Quiet events ∧ s'.Sound [] ∧ s.Evolves (s.Ends (.shutdown ranks)) s' ∧ s'.slots = s.slots := by
  have h' : Sound { s with timer := false } [] := ⟨h.gate, h.accounts⟩
  rw [shutdown_eq]
  refine (expireEach_gives _ (h'.endExpiries (s.timedOut_perm ranks))).mono ?_
  rintro _ events ⟨hquiet, hsound, hevolves, gate, rfl⟩
  refine ⟨hquiet, hsound, ?_, rfl⟩
  refine ⟨hevolves.nextId_le, hevolves.gate.mono ?_, hevolves.alive, hevolves.frozen⟩
  rintro u ⟨e, hmem, rfl⟩
  obtain ⟨hmem, htimer⟩ := mem_timedOut_iff.mp hmem
  exact .shutdown hmem htimer

theorem abandon_gives {owned : List (Ticket × Stake)} (h : s.gate.Sound)
    (hcustody : Custody s.gate ((t, .awaited) :: owned) s.nextId) :
    (s.abandon t).Gives fun s' events =>
      Quiet events ∧ s'.gate.Sound ∧ Custody s'.gate owned s.nextId ∧
        Gate.Evolves s.nextId (· = t) s.gate s'.gate ∧ ∃ gate, s' = { s with gate } := by
  unfold abandon
  rcases Classical.em (s.gate.Calling t) with hcalling | hsilent
  · have hheard := hcustody.hear hcalling
    have hadmits : (s.gate.hear t).Admits t none :=
      (hheard.admits_none_iff t).mpr (.inl List.mem_cons_self)
    apply (Gate.withdraw?_gives_none (hcustody.get?_eq_none_of_calling h hcalling)).bind
    rintro _ _ ⟨rfl, rfl⟩
    simp only
    rw [gives_emit_bind_iff]
    apply (Gate.remove_gives_custody (h.hear t) hheard hadmits (hheard.silent nofun)).bind
    rintro g' events ⟨hquiet, h', hcustody', hevolves⟩
    refine gives_pure_iff.mpr ⟨by simpa [Quiet] using hquiet, h', hcustody', ?_, g', rfl⟩
    exact ⟨hevolves.waits, hevolves.inside, hevolves.keeps⟩
  · have hwaiting : s.gate.Waits t := (hcustody.waits_iff t).mpr ⟨List.mem_cons_self, hsilent⟩
    apply (Gate.withdraw?_gives h hwaiting).bind
    rintro _ first ⟨hquiet, waiting, rfl, h', hwaits⟩
    simp only
    rw [gives_emit_bind_iff, gives_pure_iff]
    refine ⟨hquiet.append (by simp [Quiet]), h', hcustody.withdraw hwaiting hwaits, ?_,
      { s.gate with waiting }, rfl⟩
    exact Gate.evolves_waiting fun u hu => .inr ((hwaits u).mp hu).2

theorem leave_gives (h : s.Sound []) {content : Slot} (hslot : s.slots.get? slot = some content) :
    (s.leave slot content).Gives fun r events =>
      Quiet events ∧ r.2.Sound [] ∧ s.Evolves (s.Ends (.drop slot)) r.2 ∧ s.Leaves slot r ∧
        r.2.kept = s.kept := by
  cases content with
  | prepared token request =>
      exact gives_pure_iff.mpr ⟨Gate.quiet_nil, h.clearSlot hslot, s.evolves_clearSlot slot _,
        .gone (by simp [hslot]) rfl, rfl⟩
  | waiting token t =>
      have halive := alive_of_open hslot rfl
      have hcustody := accounts_erase_of_get? (h.accounts halive) hslot
      apply (abandon_gives h.gate hcustody).bind
      rintro _ first ⟨hquiet, h', hcustody', hgate, gate, rfl⟩
      refine gives_pure_iff.mpr
        ⟨hquiet.append Gate.quiet_nil, ⟨h', fun _ => hcustody'⟩, ?_, .gone (by simp [hslot]) rfl, rfl⟩
      refine ⟨s.nextId.le_refl, hgate.mono ?_, fun _ => halive, by simp [halive]⟩
      rintro u rfl
      exact .abandon hslot
  | holding t =>
      rw [leave, gives_emit_bind_iff]
      refine (release_gives h hslot).mono ?_
      rintro r events ⟨hquiet, h', hevolves, hleaves, hkept⟩
      refine ⟨hquiet.cons (by simp), h', hevolves.mono ?_, hleaves, hkept⟩
      rintro u ⟨rfl, hgrace⟩
      exact .drop hslot hgrace
  | stranded t => exact gives_pure_iff.mpr ⟨Gate.quiet_nil, h, .refl s, .nobody hslot, rfl⟩

end Session

end FlowGate
