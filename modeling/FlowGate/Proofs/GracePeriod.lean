import FlowGate.Proofs.BrokenReleases
import FlowGate.Proofs.GateSafety
import FlowGate.Proofs.SnapshotHoldings
import FlowGate.Proofs.WaitOutcomes

namespace FlowGate

theorem Gate.Consistent.active_iff {g : Gate} (h : g.Consistent) (flow : Flow) :
    g.active.contains flow = true ↔ ∃ t, g.Inside t ∧ t.flow = flow := by
  rw [Catalog.contains_iff]
  constructor
  · rintro ⟨party, hparty⟩
    obtain ⟨id, a, hget⟩ := Catalog.exists_get? (h.inhabited flow party hparty)
    exact ⟨a.ticket, ⟨a.expiresAt, h.admits_of_get? hparty hget⟩, (h.filed flow party id a hparty hget).1⟩
  · rintro ⟨t, ⟨e, ht⟩, rfl⟩
    obtain ⟨party, hparty, -⟩ := Gate.admits_iff.mp ht
    exact ⟨party, hparty⟩

namespace Session

open Logged (Gives gives_pure_iff)

variable {s s' s'' s₀ : Session} {slot : String} {t u : Ticket} {e e' : Expiry} {st : Step}

section Stakes

theorem Sound.not_inside_of_no_stake (h : s.Sound []) (halive : s.alive = true)
    (hnone : ∀ a, (t, a) ∉ stakes s.slots s.expiries) : ¬s.gate.Inside t := by
  intro hinside
  obtain ⟨a, ha⟩ := (h.accounts halive).exists_stake hinside
  exact hnone a ha

theorem expiry_eq_of_id_eq (haccounts : s.Accounts []) (he : e ∈ s.expiries) (he' : e' ∈ s.expiries)
    (hid : e.ticket.id = e'.ticket.id) : e = e' := by
  have hdistinct : ((stakes s.slots s.expiries).map fun stake => stake.1.id).Nodup :=
    haccounts.distinct
  rw [stakes, List.map_append, List.map_map, List.nodup_append] at hdistinct
  exact List.inj_on_of_nodup_map hdistinct.2.1 he he' hid

/-- A grace period that runs no more has taken its ticket along. -/
theorem Sound.not_inside_of_ended (h : s.Sound []) (h' : s'.Sound []) (halive : s.alive = true)
    (halive' : s'.alive = true) (hslots : s'.slots = s.slots)
    (hsub : ∀ e ∈ s'.expiries, e ∈ s.expiries) (he : e ∈ s.expiries) (hended : e ∉ s'.expiries) :
    ¬s'.gate.Inside e.ticket := by
  apply h'.not_inside_of_no_stake halive'
  intro a ha
  have haccounts := h.accounts halive
  have hleaving : e.stake ∈ [] ++ stakes s.slots s.expiries := mem_stakes_iff.mpr (.inr ⟨e, he, rfl⟩)
  rcases mem_stakes_iff.mp ha with ⟨name, content, hget, hstake⟩ | ⟨e', he', hstake⟩
  · rw [hslots] at hget
    have hheld : (e.ticket, a) ∈ [] ++ stakes s.slots s.expiries :=
      mem_stakes_iff.mpr (.inl ⟨name, content, hget, hstake⟩)
    obtain ⟨-, rfl⟩ := haccounts.eq_of_id_eq hheld hleaving rfl
    cases content <;> cases hstake
  · have hid : e'.ticket.id = e.ticket.id := congrArg (fun stake => stake.1.id) hstake
    rw [expiry_eq_of_id_eq haccounts (hsub e' he') he hid] at he'
    exact hended he'

theorem Sound.not_inside_of_cleared (h : s.Sound []) (h' : s'.Sound []) (halive : s.alive = true)
    (halive' : s'.alive = true) (hslot : s.slots.get? slot = some (.holding t))
    (hslots : s'.slots = s.slots.erase slot) (hexpiries : s'.expiries = s.expiries) :
    ¬s'.gate.Inside t := by
  have hsplit := accounts_erase_of_get? (h.accounts halive) hslot
  apply h'.not_inside_of_no_stake halive'
  intro a ha
  rw [hslots, hexpiries] at ha
  exact hsplit.id_ne_of_mem ha rfl

theorem Sound.eq_of_inside_later {ended : Ticket → Prop} (h : s.Sound []) (halive : s.alive = true)
    (hevolves : s.Evolves ended s') (ht : s.gate.Inside t) (hu : s'.gate.Inside u)
    (hid : u.id = t.id) : u = t := by
  have haccounts := h.accounts halive
  rcases hevolves.gate.inside u hu with hnew | hwaits | hinside
  · have hlt := haccounts.id_lt_of_inside ht
    omega
  · exact absurd hid (haccounts.id_ne_of_waits_of_inside hwaits ht)
  · obtain ⟨a, ha⟩ := haccounts.exists_stake hinside
    obtain ⟨b, hb⟩ := haccounts.exists_stake ht
    exact (haccounts.eq_of_id_eq ha hb hid).1

end Stakes

theorem shutdown_removes (h : s.Sound []) (ranks : List Nat) :
    (s.step (.shutdown ranks)).Gives fun next _ =>
      next.2.alive = true → ∀ e ∈ s.expiries, e.onTimer = true → ¬next.2.gate.Inside e.ticket := by
  obtain ⟨s', events, hok, -, h', hevolves, -⟩ := shutdown_gives h ranks
  obtain ⟨-, -, -, hslots, hexpiries⟩ := shutdown_ends s ranks s' events hok
  refine ⟨(.done, s'), events ++ [], Logged.bind_eq_ok_iff.mpr ⟨s', events, [], hok, rfl, rfl⟩, ?_⟩
  intro halive' e he htimer
  apply h.not_inside_of_ended h' (hevolves.alive halive') halive' hslots ?_ he ?_
  · intro e he
    rw [hexpiries] at he
    exact (List.mem_filter.mp he).1
  · intro he'
    rw [hexpiries, List.mem_filter, htimer] at he'
    cases he'.2

theorem advance_removes (h : s.Sound []) (nanos : Nat) :
    (s.step (.advance nanos)).Gives fun next _ =>
      next.2.alive = true → ∀ e ∈ s.expiries, e.due ≤ next.2.now → ¬next.2.gate.Inside e.ticket := by
  obtain ⟨s', events, hok, -, h', hevolves, -⟩ := advance_gives h nanos
  obtain ⟨-, hnow, -, -, hslots, hexpiries⟩ := advance_ends s nanos s' events hok
  refine ⟨(.done, s'), events ++ [], Logged.bind_eq_ok_iff.mpr ⟨s', events, [], hok, rfl, rfl⟩, ?_⟩
  intro halive' e he hdue
  apply h.not_inside_of_ended h' (hevolves.alive halive') halive' hslots ?_ he ?_
  · intro e he
    rw [hexpiries] at he
    exact (List.mem_filter.mp he).1
  · intro he'
    rw [hexpiries, List.mem_filter, decide_eq_true (hnow ▸ hdue)] at he'
    cases he'.2

/-- A grace period runs, or is over and its ticket gone. -/
structure Serves (s₀ : Session) (e : Expiry) (s : Session) : Prop where
  sound : s.Sound []
  evolves : s₀.Evolves (fun _ => True) s
  now_le : s₀.now ≤ s.now
  phase : e ∈ s.expiries ∧ s.now < e.due ∨
    e.due ≤ s.now ∧ (s.alive = true → ¬s.gate.Inside e.ticket)

theorem Serves.step (h₀ : s₀.Sound []) (hinside : s₀.gate.Inside e.ticket) (h : s₀.Serves e s)
    (hst : st.stopsTimer = false ∨ e.onTimer = false) : (s.step st).Gives fun r _ => s₀.Serves e r.2 := by
  obtain ⟨⟨reply, s'⟩, events, hok, hstep⟩ := step_gives h.sound st
  have hticks : s.Ticks st s' := step_ticks s st _ _ hok
  have hnow : s.now ≤ s'.now := by
    rw [hticks.now]
    exact Nat.le_add_right _ _
  refine ⟨(reply, s'), events, hok, hstep.sound, ?_, Nat.le_trans h.now_le hnow, ?_⟩
  · exact (h.evolves.trans hstep.evolves).mono fun _ _ => trivial
  · rcases h.phase with ⟨he, hruns⟩ | ⟨hdue, hgone⟩
    · rcases Nat.lt_or_ge s'.now e.due with hlt | hdue
      · rcases hticks.goesOn e he with hmem | hdue | ⟨hstops, htimer⟩
        · exact .inl ⟨hmem, hlt⟩
        · exact absurd hdue (Nat.not_le_of_lt hlt)
        · rw [hstops, htimer] at hst
          cases hst with
          | inl hst => cases hst
          | inr hst => cases hst
      · refine .inr ⟨hdue, fun halive' => ?_⟩
        cases st with
        | advance nanos => exact (advance_removes h.sound nanos).of_eq_ok hok halive' e he hdue
        | _ =>
          have hsame : s'.now = s.now := hticks.now
          omega
    · refine .inr ⟨Nat.le_trans hdue hnow, fun halive' => ?_⟩
      have hout := hgone (hstep.evolves.alive halive')
      exact h₀.not_inside_later h.evolves hstep.evolves hinside hout

/-- What every step keeps, a run keeps, by induction. -/
theorem Serves.run (h₀ : s₀.Sound []) (hinside : s₀.gate.Inside e.ticket) (h : s₀.Serves e s)
    {steps : List Step} (hsteps : ∀ st ∈ steps, st.stopsTimer = false ∨ e.onTimer = false) :
    s.After steps (s₀.Serves e) := by
  induction steps generalizing s with
  | nil => exact after_nil h
  | cons st steps ih =>
      obtain ⟨hst, hsteps⟩ := List.forall_mem_cons.mp hsteps
      obtain ⟨⟨reply, s'⟩, events, hok, h'⟩ := h.step h₀ hinside hst
      exact .cons hok (ih h' hsteps)

theorem Serves.admits_iff (h₀ : s₀.Sound []) (hinside : s₀.gate.Inside e.ticket)
    (h : s₀.Serves e s) (halive : s.alive = true) {expiresAt : Option Nat}
    (hid : u.id = e.ticket.id) :
    s.gate.Admits u expiresAt ↔ s.now < e.due ∧ u = e.ticket ∧ expiresAt = some e.expiresAt := by
  have haccounts := h.sound.accounts halive
  have hleaving : e ∈ s.expiries → s.gate.Admits e.ticket (some e.expiresAt) := fun he =>
    (haccounts.admits_some_iff _ _).mpr (leaving_mem_stakes_iff.mpr ⟨e, he, rfl, rfl⟩)
  constructor
  · intro hadmits
    obtain rfl : u = e.ticket :=
      h₀.eq_of_inside_later (h.evolves.alive halive) h.evolves hinside ⟨_, hadmits⟩ hid
    rcases h.phase with ⟨he, hruns⟩ | ⟨-, hgone⟩
    · exact ⟨hruns, rfl, (hadmits.eq_of_place_eq (hleaving he) rfl rfl).2⟩
    · exact absurd ⟨_, hadmits⟩ (hgone halive)
  · rintro ⟨hruns, rfl, rfl⟩
    rcases h.phase with ⟨he, -⟩ | ⟨hdue, -⟩
    · exact hleaving he
    · exact absurd hruns (Nat.not_lt_of_le hdue)

/--
A released ticket is active exactly until the first whole millisecond at which its time is up, and a
snapshot shows it that long, with the time that is left.
-/
structure LeavesOnTime (s : Session) (t : Ticket) (deadline : Nat) : Prop where
  inside_iff : s.gate.Inside t ↔ s.now < Span.ceilMillis deadline
  shown_iff : (∃ x ∈ s.snapshot.holdings, x.id = t.id) ↔ s.now < Span.ceilMillis deadline
  timeLeft : ∀ x ∈ s.snapshot.holdings, x.id = t.id →
    x.expiresInMillis = some (Span.wholeMillis (deadline - s.now))

theorem Serves.leavesOnTime (h₀ : s₀.Sound []) (hinside : s₀.gate.Inside e.ticket)
    (h : s₀.Serves e s) (halive : s.alive = true) : s.LeavesOnTime e.ticket e.expiresAt := by
  have hadmits : ∀ {u expiresAt}, u.id = e.ticket.id → (s.gate.Admits u expiresAt ↔
      s.now < Span.ceilMillis e.expiresAt ∧ u = e.ticket ∧ expiresAt = some e.expiresAt) :=
    h.admits_iff h₀ hinside halive
  have hshown : ∀ x, x ∈ s.snapshot.holdings ↔
      ∃ a : Admission, s.gate.Admits a.ticket a.expiresAt ∧ x = a.holding s.clock.start s.now := fun x =>
    h.sound.gate.mem_holdings_iff (.refl _)
  refine ⟨⟨?_, ?_⟩, ⟨?_, ?_⟩, ?_⟩
  · rintro ⟨expiresAt, hactive⟩
    exact ((hadmits rfl).mp hactive).1
  · intro hruns
    exact ⟨_, (hadmits rfl).mpr ⟨hruns, rfl, rfl⟩⟩
  · rintro ⟨x, hx, hid⟩
    obtain ⟨a, hactive, rfl⟩ := (hshown x).mp hx
    exact ((hadmits hid).mp hactive).1
  · intro hruns
    exact ⟨_, (hshown _).mpr ⟨⟨e.ticket, some e.expiresAt⟩, (hadmits rfl).mpr ⟨hruns, rfl, rfl⟩, rfl⟩, rfl⟩
  · intro x hx hid
    obtain ⟨a, hactive, rfl⟩ := (hshown x).mp hx
    obtain ⟨-, -, hexpires⟩ := (hadmits hid).mp hactive
    rw [Admission.holding, hexpires]
    rfl

theorem Serves.shutdown_removes (h₀ : s₀.Sound []) (hinside : s₀.gate.Inside e.ticket)
    (h : s₀.Serves e s) (htimer : e.onTimer = true) (ranks : List Nat) :
    (s.step (.shutdown ranks)).Gives fun next _ =>
      next.2.alive = true → ¬next.2.gate.Inside e.ticket := by
  obtain ⟨next, events, hok, hstep⟩ := step_gives h.sound (.shutdown ranks)
  refine ⟨next, events, hok, fun halive' => ?_⟩
  rcases h.phase with ⟨he, -⟩ | ⟨-, hgone⟩
  · exact (Session.shutdown_removes h.sound ranks).of_eq_ok hok halive' e he htimer
  · have hout := hgone (hstep.evolves.alive halive')
    exact h₀.not_inside_later h.evolves hstep.evolves hinside hout

/-- A step by which the holder of a ticket releases it: it is done, or goes away. -/
inductive Releases (s : Session) (t : Ticket) : Step → Prop where
  | done {slot : String} (hslot : s.slots.get? slot = some (.holding t)) : Releases s t (.done slot)
  | drop {slot : String} (hslot : s.slots.get? slot = some (.holding t)) : Releases s t (.drop slot)

theorem alive_clearSlot (hslot : s.slots.get? slot = some (.holding t)) :
    (s.clearSlot slot).alive = s.alive := by
  rw [Bool.eq_iff_iff]
  refine ⟨alive_of_alive_clearSlot, ?_⟩
  intro halive
  rcases alive_iff.mp halive with hkept | ⟨other, content, hget, hopen⟩
  · exact alive_iff.mpr (.inl hkept)
  · refine alive_iff.mpr (.inr ⟨other, content, Catalog.get?_erase_eq_some_iff.mpr ⟨?_, hget⟩, hopen⟩)
    rintro rfl
    rw [hslot] at hget
    cases hget
    cases hopen

theorem Releases.inside (h : s.Sound []) (hrelease : s.Releases t st) (halive : s.alive = true) :
    s.gate.Inside t := by
  cases hrelease with
  | done hslot => exact ⟨none, Accounts.admits_of_holding (h.accounts halive) hslot⟩
  | drop hslot => exact ⟨none, Accounts.admits_of_holding (h.accounts halive) hslot⟩

/-- What a release comes to: the ticket is gone at once, or its grace period runs, or its holder is lost. -/
structure Released (s : Session) (t : Ticket) (r : Reply × Session) : Prop where
  sound : r.2.Sound []
  gone : s.grace.span t.flow = 0 → r.2.alive = true → ¬r.2.gate.Inside t
  runs : s.grace.span t.flow ≠ 0 → s.now + s.grace.span t.flow ≤ s.clock.last → s.alive = true →
    s.graceOf t ∈ r.2.expiries ∧ r.2.now = s.now
  strands : s.grace.span t.flow ≠ 0 → s.clock.last < s.now + s.grace.span t.flow → s.alive = true →
    r.1 = .brokenOff ∧ ∃ slot, r.2.slots.get? slot = some (.stranded t)

theorem release_released (h : s.Sound []) (hslot : s.slots.get? slot = some (.holding t)) :
    (s.release slot t).Gives fun r _ => s.Released t r := by
  unfold release
  split
  · rename_i hbreaks
    obtain ⟨halive, hgrace, hlate⟩ := breaksOff_iff.mp hbreaks
    refine gives_pure_iff.mpr ⟨(h.strand hslot).1, fun hzero => absurd hzero hgrace, ?_, ?_⟩
    · exact fun _ hfits => absurd hlate (Nat.not_lt_of_le hfits)
    · exact fun _ _ _ => ⟨rfl, slot, Catalog.get?_insert_self ..⟩
  · rename_i hwhole
    obtain ⟨s', events, hok, -, h', hevolves, hslots, -⟩ := letGo_gives (h.clearSlot hslot)
    obtain ⟨-, hnow, -, -, hexpiries⟩ := letGo_schedules _ _ s' events hok
    rw [alive_clearSlot hslot] at hexpiries
    have hletGo : ((s.clearSlot slot).letGo t).Gives fun a _ => a = s' := ⟨s', events, hok, rfl⟩
    apply hletGo.bind
    rintro _ _ rfl
    refine gives_pure_iff.mpr ⟨h', ?_, ?_, ?_⟩
    · intro hgrace halive'
      have halive : s.alive = true := alive_clearSlot hslot ▸ hevolves.alive halive'
      rw [if_neg fun hstarts => hstarts.2 hgrace] at hexpiries
      exact h.not_inside_of_cleared h' halive halive' hslot hslots hexpiries
    · intro hgrace _ halive
      rw [if_pos ⟨halive, hgrace⟩] at hexpiries
      refine ⟨?_, hnow⟩
      rw [hexpiries]
      exact (insertExpiry_perm _ _).mem_iff.mpr List.mem_cons_self
    · exact fun hgrace hlate halive => absurd (breaksOff_iff.mpr ⟨halive, hgrace, hlate⟩) hwhole

theorem Releases.released (h : s.Sound []) (hrelease : s.Releases t st) :
    (s.step st).Gives fun r _ => s.Released t r := by
  cases hrelease with
  | done hslot =>
      simp only [step, withTicket, held?, hslot, Option.bind_some, Slot.held?]
      exact release_released h hslot
  | drop hslot =>
      simp only [step, hslot, leave]
      rw [Logged.gives_emit_bind_iff]
      exact release_released h hslot

theorem Releases.serves (h : s.Sound []) (hrelease : s.Releases t st) (halive : s.alive = true)
    (hgrace : s.grace.span t.flow ≠ 0) (hfits : s.now + s.grace.span t.flow ≤ s.clock.last)
    {later : List Step} (hlater : (∀ st ∈ later, st.stopsTimer = false) ∨ s.timer = false) :
    s.After (st :: later) (s.Serves (s.graceOf t)) := by
  obtain ⟨⟨reply, s'⟩, events, hok, hreleased⟩ := hrelease.released h
  have hevolves := ((step_gives h st).of_eq_ok hok).evolves
  obtain ⟨hmem, hnow⟩ := hreleased.runs hgrace hfits halive
  have hserves : s.Serves (s.graceOf t) s' := by
    refine ⟨hreleased.sound, hevolves.mono fun _ _ => trivial, Nat.le_of_eq hnow.symm, .inl ⟨hmem, ?_⟩⟩
    rw [hnow]
    exact now_lt_due_graceOf s hgrace
  refine .cons hok (hserves.run h (hrelease.inside h halive) ?_)
  intro st' hst'
  refine hlater.imp (fun hnone => hnone st' hst') ?_
  intro htimer
  simp [graceOf, Expiry.onTimer, htimer]

/-- The holder of a ticket whose release breaks off is lost from then on. -/
theorem Releases.strands (h : s.Sound []) (hrelease : s.Releases t st) (hbreaks : s.breaksOff t = true)
    (later : List Step) :
    s.After (st :: later) fun s' => s'.Sound [] ∧ ∃ slot, s'.slots.get? slot = some (.stranded t) := by
  obtain ⟨halive, hgrace, hlate⟩ := breaksOff_iff.mp hbreaks
  obtain ⟨⟨reply, s'⟩, events, hok, hreleased⟩ := hrelease.released h
  obtain ⟨-, slot, hslot⟩ := hreleased.strands hgrace hlate halive
  obtain ⟨r, events', hrest, hproceeds⟩ := run_proceeds hreleased.sound later
  have hlost := run_keeps_stranded hreleased.sound hslot later r events' hrest
  exact .cons hok ⟨r, events', hrest, hproceeds.sound, slot, hlost⟩

theorem Serves.leavesOnTime_graceOf (h₀ : s₀.Sound []) (hinside : s₀.gate.Inside t)
    (h : s₀.Serves (s₀.graceOf t) s) (halive : s.alive = true) :
    s.LeavesOnTime t (s₀.now + s₀.grace.span t.flow) := by
  have hleaves := Serves.leavesOnTime h₀ (e := s₀.graceOf t) hinside h halive
  simpa only [graceOf] using hleaves

theorem wholeMillis_left {grace now now' : Nat} (hgrace : grace < Span.ofMillis Text.Numeral.wordLimit)
    (hnow : now ≤ now') :
    Span.wholeMillis (now + grace - now') = (now + grace - now') / 1000000 := by
  rw [Span.ofMillis, Text.Numeral.wordLimit] at hgrace
  exact Nat.min_eq_left (by omega)

/-- A ticket that is released with a grace period leaves on time, at the latest as the timer stops. -/
theorem Releases.leavesOnTime (h : s.Sound []) (hrelease : s.Releases t st)
    (hgrace : s.grace.span t.flow ≠ 0) (hfits : s.now + s.grace.span t.flow ≤ s.clock.last)
    {later : List Step} (hlater : (∀ st ∈ later, st.stopsTimer = false) ∨ s.timer = false) :
    s.After (st :: later) fun s' => s'.alive = true →
      s'.LeavesOnTime t (s.now + s.grace.span t.flow) ∧
      (s.grace.span t.flow < Span.ofMillis Text.Numeral.wordLimit →
        Span.wholeMillis (s.now + s.grace.span t.flow - s'.now) =
          (s.now + s.grace.span t.flow - s'.now) / 1000000) ∧
      (s.timer = true → ∀ ranks, (s'.step (.shutdown ranks)).Gives fun next _ =>
        next.2.alive = true → ¬next.2.gate.Inside t) := by
  cases halive : s.alive with
  | false =>
      refine (run_proceeds h (st :: later)).mono fun r _ hproceeds halive' => ?_
      rw [hproceeds.evolves.alive halive'] at halive
      cases halive
  | true =>
      have hinside : s.gate.Inside t := hrelease.inside h halive
      refine (hrelease.serves h halive hgrace hfits hlater).mono fun r _ hserves halive' => ?_
      refine ⟨hserves.leavesOnTime_graceOf h hinside halive', ?_, fun htimer ranks => ?_⟩
      · exact fun hword => wholeMillis_left hword hserves.now_le
      · have honTimer : (s.graceOf t).onTimer = true := by
          rw [graceOf, Expiry.onTimer, if_pos htimer, Option.isSome_some]
        have hremoves := Serves.shutdown_removes h (e := s.graceOf t) hinside hserves honTimer ranks
        exact hremoves

end Session

end FlowGate
