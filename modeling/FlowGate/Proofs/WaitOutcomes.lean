import FlowGate.Proofs.SessionRuns

namespace FlowGate.Session

open Gate (Quiet)
open Logged (Gives gives_pure_iff)

variable {s s' : Session} {slot token : String} {request : Request} {t : Ticket}

theorem calling_iff_admits (haccounts : s.Accounts [])
    (hslot : s.slots.get? slot = some (.waiting token t)) :
    s.gate.Calling t ↔ s.gate.Admits t none := by
  have hawaited : (t, .awaited) ∈ [] ++ stakes s.slots s.expiries :=
    awaited_mem_stakes_iff.mpr ⟨slot, token, hslot⟩
  rw [haccounts.admits_none_iff]
  constructor
  · exact fun hcalling => .inr ⟨hawaited, hcalling⟩
  · rintro (hheld | ⟨-, hcalling⟩)
    · cases (haccounts.eq_of_id_eq hawaited hheld rfl).2
    · exact hcalling

theorem waits_iff_not_calling (haccounts : s.Accounts [])
    (hslot : s.slots.get? slot = some (.waiting token t)) :
    s.gate.Waits t ↔ ¬s.gate.Calling t := by
  rw [haccounts.waits_iff]
  exact and_iff_right (awaited_mem_stakes_iff.mpr ⟨slot, token, hslot⟩)

theorem waits_of_not_inside (haccounts : s.Accounts [])
    (hslot : s.slots.get? slot = some (.waiting token t)) (hout : ¬s.gate.Inside t) :
    s.gate.Waits t :=
  (waits_iff_not_calling haccounts hslot).mpr fun hcalling =>
    hout ⟨none, (calling_iff_admits haccounts hslot).mp hcalling⟩

theorem firstAsk_outcome (h : s.Sound []) {st : Step} (hask : s.FirstAsk slot token request st) :
    (s.step st).Gives fun next _ =>
      next.1 ≠ .answer (.entered s.nextId) →
        (s.isCancelled token = true → next.1 = .answer .refused ∧ next.2.gate = s.gate) ∧
          (s.isCancelled token = false → next.1 = .answer .pending ∧
            next.2.gate.Waits (s.nextTicket request) ∧
              next.2.slots.get? slot = some (.waiting token (s.nextTicket request))) := by
  refine (firstAsk_gives h hask).mono ?_
  rintro ⟨_, s'⟩ events ⟨-, -, answer, rfl, hasked⟩ hnot
  cases hasked with
  | entered hroom => exact absurd rfl hnot
  | refused hinactive hfull hcancelled =>
      refine ⟨fun _ => ⟨rfl, rfl⟩, ?_⟩
      simp [hcancelled]
  | pending hinactive hfull hcancelled waiting hwaits =>
      refine ⟨by simp [hcancelled], fun _ => ⟨rfl, (hwaits _).mpr (.inl rfl), ?_⟩⟩
      exact Catalog.get?_insert_self ..

theorem poll_waiting_outcome (h : s.Sound [])
    (hslot : s.slots.get? slot = some (.waiting token t)) :
    (s.step (.poll slot)).Gives fun next _ =>
      (next.1 = .answer (.entered t.id) ↔ s.gate.Calling t) ∧
        (next.1 = .answer .refused ↔ s.gate.Waits t ∧ s.isCancelled token = true) ∧
          (next.1 = .answer .refused →
            ∀ u, u.id = t.id → ¬next.2.gate.Waits u ∧ ¬next.2.gate.Inside u) ∧
            (next.1 ≠ .answer (.entered t.id) → next.1 ≠ .answer .refused →
              next = (.answer .pending, s)) := by
  have haccounts := h.accounts (alive_of_open hslot rfl)
  have hwaits := waits_iff_not_calling haccounts hslot
  refine (poll_waiting_gives h hslot).mono ?_
  rintro ⟨_, s'⟩ events ⟨-, -, answer, rfl, hasked⟩
  cases hasked with
  | entered hcalling =>
      refine ⟨iff_of_true rfl hcalling, iff_of_false nofun ?_, nofun, fun hne => absurd rfl hne⟩
      exact fun hqueued => hwaits.mp hqueued.1 hcalling
  | pending hwaiting hcancelled =>
      refine ⟨iff_of_false nofun (hwaits.mp hwaiting), iff_of_false nofun ?_, nofun,
        fun _ _ => rfl⟩
      simp [hcancelled]
  | refused hwaiting hcancelled waiting hrest =>
      refine ⟨iff_of_false nofun (hwaits.mp hwaiting), iff_of_true rfl ⟨hwaiting, hcancelled⟩, ?_,
        fun _ hne => absurd rfl hne⟩
      intro _ u hid
      constructor
      · intro hu
        obtain ⟨hne, hold⟩ := (hrest u).mp hu
        exact hne (hold.eq_of_id_eq hwaiting hid)
      · rintro ⟨e, hu⟩
        exact haccounts.id_ne_of_waits_of_inside hwaiting ⟨e, hu⟩ hid.symm

section History

variable {s'' : Session} {ended ended' : Ticket → Prop}

theorem Sound.not_waits_later (h : s.Sound []) (hevolves : s.Evolves ended s')
    (hinside : s.gate.Inside t) : ¬s'.gate.Waits t := by
  intro hwaits
  cases halive : s.alive with
  | false =>
      rw [hevolves.frozen halive] at hwaits
      exact h.gate.not_waits_of_inside hinside hwaits
  | true =>
      rcases hevolves.gate.waits t hwaits with hnew | hold
      · exact Nat.not_le_of_lt ((h.accounts halive).id_lt_of_inside hinside) hnew
      · exact h.gate.not_waits_of_inside hinside hold

theorem Sound.not_inside_later (h : s.Sound []) (hevolves : s.Evolves ended s')
    (hlater : s'.Evolves ended' s'') (hinside : s.gate.Inside t) (hout : ¬s'.gate.Inside t) :
    ¬s''.gate.Inside t := by
  intro hback
  cases halive : s.alive with
  | false =>
      rw [hevolves.frozen halive] at hout
      exact hout hinside
  | true =>
      rcases hlater.gate.inside t hback with hnew | hwaits | hin
      · have hlt := (h.accounts halive).id_lt_of_inside hinside
        have hle := hevolves.nextId_le
        omega
      · exact h.not_waits_later hevolves hinside hwaits
      · exact hout hin

theorem Sound.inside_of_waits (h : s.Sound []) (hevolves : s.Evolves ended s')
    (hlater : s'.Evolves ended' s'') (hwaits : s.gate.Waits t) (hout : ¬s'.gate.Waits t)
    (hinside : s''.gate.Inside t) : s'.gate.Inside t := by
  cases halive : s.alive with
  | false =>
      rw [hevolves.frozen halive] at hout
      exact absurd hwaits hout
  | true =>
      rcases hlater.gate.inside t hinside with hnew | hstill | hin
      · have hlt := (h.accounts halive).id_lt_of_waits hwaits
        have hle := hevolves.nextId_le
        omega
      · exact absurd hstill hout
      · exact hin

theorem Sound.calling_of_inside_before (h : s.Sound []) (hevolves : s.Evolves ended s')
    (h' : s'.Sound []) (hslot : s'.slots.get? slot = some (.waiting token t))
    (hinside : s.gate.Inside t) : s'.gate.Calling t := by
  have haccounts := h'.accounts (alive_of_open hslot rfl)
  apply Classical.byContradiction
  intro hsilent
  exact h.not_waits_later hevolves hinside ((waits_iff_not_calling haccounts hslot).mpr hsilent)

theorem exists_queued (h : s.Sound []) {steps : List Step} {r : List Reply × Session}
    {events : List Event} (hok : s.run steps = .ok r events)
    (hslot : r.2.slots.get? slot = some (.waiting token t)) :
    s.slots.get? slot = some (.waiting token t) ∨ ∃ earlier later, steps = earlier ++ later ∧
      s.After earlier fun past => past.gate.Waits t := by
  induction steps generalizing s r events with
  | nil =>
      cases hok
      exact .inl hslot
  | cons st steps ih =>
      obtain ⟨reply, past, first, replies, rest, hstep, hrest, -⟩ := run_cons_eq_ok hok
      have hpast := (step_gives h st).of_eq_ok hstep
      rcases ih hpast.sound hrest hslot with hbefore | ⟨earlier, later, rfl, hqueued⟩
      · rcases hpast.fills slot _ hbefore with hold | hwaits
        · exact .inl hold
        · exact .inr ⟨[st], steps, rfl, .cons hstep (after_nil hwaits)⟩
      · exact .inr ⟨st :: earlier, later, rfl, .cons hstep hqueued⟩

/-- A step at which a queued ticket is let in. -/
def CalledBy (s : Session) (t : Ticket) (earlier : List Step) (st : Step) : Prop :=
  (s.After earlier fun past => past.gate.Waits t) ∧
    s.After (earlier ++ [st]) fun past => past.gate.Inside t

/-- A queued ticket that is active later is let in by a step in between. -/
theorem exists_call (h : s.Sound []) (hwaits : s.gate.Waits t) {steps : List Step}
    {r : List Reply × Session} {events : List Event} (hok : s.run steps = .ok r events)
    (hinside : r.2.gate.Inside t) :
    ∃ earlier st later, steps = earlier ++ st :: later ∧ s.CalledBy t earlier st := by
  induction steps generalizing s r events with
  | nil =>
      cases hok
      exact absurd hwaits (h.gate.not_waits_of_inside hinside)
  | cons st steps ih =>
      obtain ⟨reply, past, first, replies, rest, hstep, hrest, -⟩ := run_cons_eq_ok hok
      have hpast := (step_gives h st).of_eq_ok hstep
      have hsince := (run_proceeds hpast.sound steps).of_eq_ok hrest
      rcases Classical.em (past.gate.Waits t) with hstill | hmoved
      · obtain ⟨earlier, st', later, rfl, hbefore, hafter⟩ := ih hpast.sound hstill hrest hinside
        exact ⟨st :: earlier, st', later, rfl, .cons hstep hbefore, .cons hstep hafter⟩
      · have hin := h.inside_of_waits hpast.evolves hsince.evolves hwaits hmoved hinside
        exact ⟨[], st, steps, rfl, after_nil hwaits, .cons hstep (after_nil hin)⟩

theorem calling_iff_exists_call {settings : Settings} {clock : Clock} {timer : Bool}
    {steps : List Step} {r : List Reply × Session} {events : List Event}
    (hok : (new settings clock timer).run steps = .ok r events) (h : r.2.Sound [])
    (hslot : r.2.slots.get? slot = some (.waiting token t)) :
    r.2.gate.Calling t ↔ ∃ earlier st later, steps = earlier ++ st :: later ∧
      (new settings clock timer).CalledBy t earlier st := by
  have hnew := sound_new settings clock timer
  constructor
  · intro hcalling
    have hinside : r.2.gate.Inside t :=
      ⟨none, (calling_iff_admits (h.accounts (alive_of_open hslot rfl)) hslot).mp hcalling⟩
    rcases exists_queued hnew hok hslot with hnone | ⟨before, since, rfl, hqueued⟩
    · cases hnone
    · obtain ⟨past, first, replies, rest, hfirst, hrest⟩ := run_append_eq_ok hok
      have hpast := (run_proceeds hnew before).of_eq_ok hfirst
      obtain ⟨earlier, st, later, rfl, hwaits, hin⟩ :=
        exists_call hpast.sound (hqueued.of_run_eq_ok hfirst) hrest hinside
      refine ⟨before ++ earlier, st, later, by simp, ?_, ?_⟩
      · exact .append ⟨past, first, hfirst, hwaits⟩
      · rw [List.append_assoc]
        exact .append ⟨past, first, hfirst, hin⟩
  · rintro ⟨earlier, st, later, rfl, -, hbefore⟩
    rw [List.append_cons] at hok
    obtain ⟨past, first, replies, rest, hfirst, hrest⟩ := run_append_eq_ok hok
    have hpast := (run_proceeds hnew (earlier ++ [st])).of_eq_ok hfirst
    have hsince := (run_proceeds hpast.sound later).of_eq_ok hrest
    exact hpast.sound.calling_of_inside_before hsince.evolves h hslot (hbefore.of_run_eq_ok hfirst)

end History

/--
However calls, cancellations, requests and departures follow on each other: a first request that is not let
in is refused if it has been told to give up, and queued if not; a later one is let in exactly if a step let
its ticket in before, refused exactly if its ticket is still queued and it has been told to give up, and
changes nothing otherwise; to have every caller ask is to have them ask one after the other; a ticket is active
for one stretch of time only; and whoever is told that it entered holds its ticket.
-/
theorem waits_end_one_way (settings : Settings) (clock : Clock) (timer : Bool) (steps : List Step) :
    (new settings clock timer).After steps fun s =>
      (∀ slot token request st, s.FirstAsk slot token request st →
        (s.step st).Gives fun next _ =>
          next.1 ≠ .answer (.entered s.nextId) →
            (s.isCancelled token = true → next.1 = .answer .refused ∧ next.2.gate = s.gate) ∧
            (s.isCancelled token = false → next.1 = .answer .pending ∧
              next.2.gate.Waits (s.nextTicket request) ∧
              next.2.slots.get? slot = some (.waiting token (s.nextTicket request)))) ∧
      (∀ slot token t, s.slots.get? slot = some (.waiting token t) →
        (s.step (.poll slot)).Gives fun next _ =>
          (next.1 = .answer (.entered t.id) ↔ ∃ earlier st later,
            steps = earlier ++ st :: later ∧
              (new settings clock timer).CalledBy t earlier st) ∧
          (next.1 = .answer .refused ↔ s.gate.Waits t ∧ s.isCancelled token = true) ∧
          (next.1 = .answer .refused →
            ∀ u, u.id = t.id → ¬next.2.gate.Waits u ∧ ¬next.2.gate.Inside u) ∧
          (next.1 ≠ .answer (.entered t.id) → next.1 ≠ .answer .refused →
            next = (.answer .pending, s))) ∧
      ((s.step .pollAll).Gives fun next events =>
        ∃ answers : List (String × Answer), next.1 = .answers answers ∧
          answers.map (·.1) = s.openSlots ∧
            s.run (s.openSlots.map .poll) =
              .ok (answers.map fun row => .answer row.2, next.2) events) ∧
      (∀ between after, s.After between fun s' => s'.After after fun s'' =>
        ∀ t, s.gate.Inside t → ¬s'.gate.Inside t →
          ¬s''.gate.Waits t ∧ ¬s''.gate.Inside t) ∧
      ∀ st, (s.step st).Gives fun next _ => next.2.Tells next.1 := by
  obtain ⟨r, events, hok, hrun⟩ := run_proceeds (sound_new settings clock timer) steps
  have hsound : r.2.Sound [] := hrun.sound
  refine ⟨r, events, hok, ?_, ?_, pollAll_eq_run hsound, ?_, ?_⟩
  · exact fun slot token request st => firstAsk_outcome hsound
  · intro slot token t hslot
    refine (poll_waiting_outcome hsound hslot).mono ?_
    rintro next _ ⟨hentered, hrest⟩
    exact ⟨hentered.trans (calling_iff_exists_call hok hsound hslot), hrest⟩
  · intro between after
    refine (run_proceeds hsound between).mono ?_
    rintro r' _ hbetween
    refine (run_proceeds hbetween.sound after).mono ?_
    rintro r'' _ hafter t hinside hout
    constructor
    · exact hsound.not_waits_later (hbetween.evolves.trans hafter.evolves) hinside
    · exact hsound.not_inside_later hbetween.evolves hafter.evolves hinside hout
  · intro st
    exact (step_gives hsound st).mono fun next _ hstep => hstep.tells

end FlowGate.Session
