import FlowGate.CommandLine
import FlowGate.Proofs.SimulationRuns
import Mathlib.Algebra.Order.BigOperators.Group.List
import Mathlib.Algebra.Order.Group.Nat

namespace FlowGate.Simulation

open Logged (Gives)
open Session (graceLeft)

variable {o : Options} {settings : Settings} {schedule : Schedule} {graceMillis now : Nat}

theorem sum_map_add_le {α : Type} {l : List α} {a : α} {f g : α → Nat} {n : Nat}
    (hle : ∀ a ∈ l, f a ≤ g a) (hmem : a ∈ l) (hgap : f a + n ≤ g a) :
    (l.map f).sum + n ≤ (l.map g).sum := by
  obtain ⟨first, rest, rfl⟩ := List.append_of_mem hmem
  have hfirst : (first.map f).sum ≤ (first.map g).sum :=
    List.sum_le_sum fun b hb => hle b (List.mem_append_left _ hb)
  have hrest : (rest.map f).sum ≤ (rest.map g).sum :=
    List.sum_le_sum fun b hb => hle b (List.mem_append_right _ (List.mem_cons_of_mem a hb))
  simp only [List.map_append, List.map_cons, List.sum_append, List.sum_cons]
  omega

namespace Client

variable {client left ends : Nat} {c : Client} {s : Session}

theorem lt_of_stays (hphase : c.phase = .holding left ends) (h : ¬canMove s client c = true) :
    s.now < ends := by
  rw [canMove, hphase, Bool.or_eq_true, not_or, decide_eq_true_iff, Nat.not_le] at h
  exact h.1

theorem busyFor_later (c : Client) : c.busyFor o graceMillis (now + 1000000) ≤ c.busyFor o graceMillis now := by
  unfold busyFor
  split <;> omega

theorem busyFor_holding (hphase : c.phase = .holding left ends) (hlt : now < ends)
    (haligned : now % 1000000 = 0) (hends : ends % 1000000 = 0) :
    c.busyFor o graceMillis (now + 1000000) + 1000000 ≤ c.busyFor o graceMillis now := by
  simp only [busyFor, hphase]
  omega

end Client

namespace State

variable {st : State} {client : Nat} {c : Client}

/-- A client holds a ticket for a while yet. -/
def SomeoneHolds (st : State) : Prop :=
  ∃ (client : Nat) (c : Client) (left ends : Nat), st.clients[client]? = some c ∧ c.phase = .holding left ends ∧
    st.session.now < ends

/-- Nobody is lost as long as no more time has passed than all rounds take. -/
theorem Orderly.none_lost_in_time (h : st.Orderly o settings) {total : Nat}
    (hgrace : ∀ flow, settings.grace.span flow ≤ Span.ofMillis graceMillis)
    (htotal : o.clients * o.rounds * (o.holdMillis + graceMillis) = total) (hword : total < 2 ^ 64)
    (hnow : st.session.now ≤ Span.ofMillis total) : ∀ c ∈ st.clients, c.phase ≠ .lost := by
  intro c hc hphase
  obtain ⟨client, hget⟩ := List.getElem?_of_mem hc
  obtain ⟨-, hsome, hle, flow, hlate⟩ := (h.seated client c hget).fits_of_phase hphase
  have hrounds : 0 < o.clients * o.rounds :=
    Nat.mul_pos (Nat.lt_of_le_of_lt (Nat.zero_le _) (h.client_lt hget)) (Nat.lt_of_lt_of_le hsome hle)
  have hround : o.holdMillis + graceMillis ≤ total := htotal ▸ Nat.le_mul_of_pos_left _ hrounds
  have hspan := hgrace flow
  have hclock := st.session.clock.two_words_le_last
  rw [h.grace] at hlate
  simp only [Span.ofMillis, Text.Numeral.wordLimit] at hspan hnow hclock
  omega

/-- A ticket that is active when nobody can go on is held for a while yet, or its grace period is running. -/
theorem Orderly.busy_of_inside (h : st.Orderly o settings) (hsettled : st.movable = [])
    (hwhole : ∀ c ∈ st.clients, c.phase ≠ .lost) {t : Ticket} (hinside : st.session.gate.Inside t) :
    st.SomeoneHolds ∨ ∃ e, e ∈ st.session.expiries := by
  have haccounts := h.accounts
  obtain ⟨stake, hstake⟩ := haccounts.exists_stake hinside
  rcases mem_stakes_iff.mp hstake with ⟨slot, content, hslot, hcontent⟩ | ⟨e, he, -⟩
  · obtain ⟨client, hlt, rfl⟩ := h.slots slot content hslot
    rw [← h.length] at hlt
    have hget := List.getElem?_eq_getElem hlt
    generalize st.clients[client] = c at hget
    have hstays := stays_of_settled hsettled hget
    have hseated := h.seated client c hget
    cases hphase : c.phase with
    | fresh | finished =>
        have hempty := (hseated.fits_of_phase hphase).1
        rw [hslot] at hempty
        cases hempty
    | lost => exact absurd hphase (hwhole c (List.mem_of_getElem? hget))
    | holding left ends =>
        exact .inl ⟨client, c, left, ends, hget, hphase, Client.lt_of_stays hphase hstays⟩
    | waiting left =>
        obtain ⟨⟨u, hu⟩, -⟩ := hseated.fits_of_phase hphase
        rw [hslot] at hu
        cases hu
        cases hcontent
        rw [Client.canMove_waiting_iff hphase hslot, not_or] at hstays
        rcases Session.waits_or_calling haccounts hslot with hwaits | hcalling
        · exact absurd hwaits (h.sound.gate.not_waits_of_inside hinside)
        · exact absurd hcalling hstays.1
  · exact .inr ⟨e, he⟩

theorem Orderly.busy_of_unfinished (h : st.Orderly o settings) (hsettled : st.movable = [])
    (hwhole : ∀ c ∈ st.clients, c.phase ≠ .lost) (hcapacity : settings.capacity ≠ some 0)
    (hget : st.clients[client]? = some c) (hunfinished : c.isFinished = false) :
    st.SomeoneHolds ∨ ∃ e, e ∈ st.session.expiries := by
  have hstays := stays_of_settled hsettled hget
  cases hphase : c.phase with
  | fresh => exact absurd (by rw [Client.canMove, hphase]) hstays
  | finished =>
      rw [Client.isFinished, hphase] at hunfinished
      cases hunfinished
  | lost => exact absurd hphase (hwhole c (List.mem_of_getElem? hget))
  | holding left ends =>
      exact .inl ⟨client, c, left, ends, hget, hphase, Client.lt_of_stays hphase hstays⟩
  | waiting left =>
      obtain ⟨⟨t, hslot⟩, -⟩ := (h.seated client c hget).fits_of_phase hphase
      rw [Client.canMove_waiting_iff hphase hslot, not_or] at hstays
      rcases Session.waits_or_calling h.accounts hslot with hwaits | hcalling
      · -- The gate is full, and it has a place, so a flow is active.
        obtain ⟨m, hm, hfull⟩ := Gate.hasSpace_eq_false_iff.mp (h.sound.gate.saturated t hwaits)
        have hplace : m ≠ 0 := by
          rintro rfl
          exact hcapacity (h.capacity.symm.trans hm)
        have hactive : st.session.gate.active ≠ .empty := by
          intro hempty
          rw [hempty, Catalog.size_empty] at hfull
          omega
        obtain ⟨flow, party, hparty⟩ := Catalog.exists_get? hactive
        obtain ⟨id, a, hadmission⟩ := Catalog.exists_get? (h.sound.gate.inhabited flow party hparty)
        exact h.busy_of_inside hsettled hwhole ⟨_, h.sound.gate.admits_of_get? hparty hadmission⟩
      · exact absurd hcalling hstays.1

theorem exists_unfinished (h : st.isFinished = false) :
    ∃ (client : Nat) (c : Client), st.clients[client]? = some c ∧ c.isFinished = false := by
  obtain ⟨c, hc, hunfinished⟩ := List.all_eq_false.mp h
  obtain ⟨client, hget⟩ := List.getElem?_of_mem hc
  exact ⟨client, c, hget, Bool.eq_false_iff.mpr hunfinished⟩

/-- A millisecond in which something takes its time is taken off the time that is left. -/
theorem Orderly.busyFor_pass (h : st.Orderly o settings) (hrunning : Running st.session)
    (hbusy : st.SomeoneHolds ∨ ∃ e, e ∈ st.session.expiries) :
    busyFor o graceMillis { st with session := st.session.pass (Span.ofMillis 1) } + 1000000 ≤
      st.busyFor o graceMillis := by
  have haligned := h.aligned
  have hclients : ∀ c ∈ st.clients, c.busyFor o graceMillis (st.session.now + 1000000) ≤
      c.busyFor o graceMillis st.session.now := fun c _ => c.busyFor_later
  have hexpiries : ∀ e ∈ st.session.expiries,
      e.due - (st.session.now + 1000000) ≤ e.due - st.session.now := fun e _ => by omega
  simp only [busyFor, Session.pass, Span.ofMillis, Nat.mul_one, graceLeft]
  rcases hbusy with ⟨client, c, left, ends, hget, hphase, hlt⟩ | ⟨e, he⟩
  · obtain ⟨-, -, -, -, -, hends⟩ := (h.seated client c hget).fits_of_phase hphase
    have hgap := sum_map_add_le hclients (List.mem_of_getElem? hget)
      (Client.busyFor_holding hphase hlt haligned hends)
    have hrest := List.sum_le_sum hexpiries
    omega
  · have hlt := hrunning e he
    have hdue : e.due % 1000000 = 0 := by
      simp only [Expiry.due, Span.ceilMillis]
      omega
    have hgap := sum_map_add_le (n := 1000000) hexpiries he (by omega)
    have hrest := List.sum_le_sum hclients
    omega

/-- What holds of a client when a moment has passed in which it could not go on. -/
def Rests (o : Options) (graceMillis : Nat) (s : Session) (c : Client) : Prop :=
  match c.phase with
  | .fresh => False
  | .waiting _ => 0 < o.holdMillis + graceMillis
  | .holding _ ends => s.now ≤ ends
  | .finished => True
  | .lost => False

theorem Orderly.rounds_take_time (h : st.Orderly o settings)
    (hgrace : ∀ flow, settings.grace.span flow ≤ Span.ofMillis graceMillis)
    (hbusy : st.SomeoneHolds ∨ ∃ e, e ∈ st.session.expiries) : 0 < o.holdMillis + graceMillis := by
  rcases hbusy with ⟨client, c, left, ends, hget, hphase, -⟩ | ⟨e, he⟩
  · obtain ⟨-, -, -, -, hhold, -⟩ := (h.seated client c hget).fits_of_phase hphase
    omega
  · have htimed := h.timed e he
    have hle := hgrace e.ticket.flow
    simp only [Span.ofMillis] at hle
    omega

theorem Orderly.rests (h : st.Orderly o settings) (hsettled : st.movable = [])
    (hwhole : ∀ c ∈ st.clients, c.phase ≠ .lost)
    (hgrace : ∀ flow, settings.grace.span flow ≤ Span.ofMillis graceMillis)
    (hcapacity : settings.capacity ≠ some 0) (hget : st.clients[client]? = some c) :
    Rests o graceMillis (st.session.pass (Span.ofMillis 1)) c := by
  have hstays := stays_of_settled hsettled hget
  have haligned := h.aligned
  unfold Rests
  cases hphase : c.phase with
  | fresh => exact absurd (by rw [Client.canMove, hphase]) hstays
  | waiting left =>
      have hunfinished : c.isFinished = false := by rw [Client.isFinished, hphase]; rfl
      exact h.rounds_take_time hgrace (h.busy_of_unfinished hsettled hwhole hcapacity hget hunfinished)
  | holding left ends =>
      have hlt := Client.lt_of_stays hphase hstays
      obtain ⟨-, -, -, -, -, hends⟩ := (h.seated client c hget).fits_of_phase hphase
      simp only [Session.pass, Span.ofMillis]
      omega
  | finished => trivial
  | lost => exact absurd hphase (hwhole c (List.mem_of_getElem? hget))

/-- What holds before each moment of a simulation in which nobody is told to give up. -/
structure OnSchedule (o : Options) (settings : Settings) (graceMillis total : Nat) (st : State) :
    Prop where
  orderly : st.Orderly o settings
  untold : st.session.isCancelled Client.token = false
  /-- The time that has passed and the time that is left come to no more than all rounds take. -/
  budget : st.busyFor o graceMillis + st.session.now ≤ Span.ofMillis total
  rests : 0 < st.session.now → ∀ c ∈ st.clients, Rests o graceMillis st.session c

theorem OnSchedule.instant {total : Nat} (h : st.OnSchedule o settings graceMillis total)
    (hgrace : ∀ flow, settings.grace.span flow ≤ Span.ofMillis graceMillis)
    (hcapacity : settings.capacity ≠ some 0)
    (htotal : o.clients * o.rounds * (o.holdMillis + graceMillis) = total) (hword : total < 2 ^ 64) :
    (st.instant o schedule none).Gives fun st' _ =>
      st'.session.now = st.session.now ∧
        (st'.isFinished = true → st'.Orderly o settings ∧
          st'.session.isCancelled Client.token = false ∧ st'.session.now ≤ Span.ofMillis total) ∧
        (st'.isFinished = false → OnSchedule o settings graceMillis total
          { st' with session := st'.session.pass (Span.ofMillis 1) }) := by
  refine (instant_gives h.orderly).mono ?_
  rintro st' events hpasses
  have huntold : st'.session.isCancelled Client.token = false := by
    rw [Session.isCancelled, hpasses.untold (Option.some_ne_none _).symm]
    exact h.untold
  have hbudget : st'.busyFor o graceMillis + st'.session.now ≤ Span.ofMillis total := by
    have hle := hpasses.busy graceMillis hgrace
    have hbefore := h.budget
    rw [hpasses.now]
    omega
  refine ⟨hpasses.now, fun _ => ⟨hpasses.orderly, huntold, by omega⟩, fun hunfinished => ?_⟩
  have hwhole := hpasses.orderly.none_lost_in_time hgrace htotal hword (by omega)
  obtain ⟨client, c, hget, hc⟩ := exists_unfinished hunfinished
  have hbusy := hpasses.orderly.busy_of_unfinished hpasses.settled hwhole hcapacity hget hc
  refine ⟨pass_orderly hpasses.orderly, huntold, ?_, fun _ c hc => ?_⟩
  · have hpass : _ ≤ st'.busyFor o graceMillis :=
      hpasses.orderly.busyFor_pass hpasses.running hbusy
    refine Nat.le_trans ?_ hbudget
    change _ + (st'.session.now + 1000000) ≤ _
    rw [Nat.add_comm st'.session.now, ← Nat.add_assoc]
    exact Nat.add_le_add_right hpass _
  · obtain ⟨client, hget⟩ := List.getElem?_of_mem hc
    exact hpasses.orderly.rests hpasses.settled hwhole hgrace hcapacity hget

theorem sum_map_eq_zero {α : Type} {l : List α} {f : α → Nat} (h : (l.map f).sum = 0) {a : α}
    (hmem : a ∈ l) : f a = 0 :=
  Nat.le_zero.mp (h ▸ List.single_le_sum (fun _ _ => Nat.zero_le _) _ (List.mem_map_of_mem hmem))

theorem OnSchedule.finished_or_last {total : Nat} (h : st.OnSchedule o settings graceMillis total)
    (hpos : 0 < st.session.now) (hover : Span.ofMillis total ≤ st.session.now) (hc : c ∈ st.clients) :
    c.isFinished = true ∨ graceMillis = 0 ∧ c.phase = .holding 1 st.session.now := by
  have hnone : st.busyFor o graceMillis = 0 := by
    have hbudget := h.budget
    omega
  have hclient : c.busyFor o graceMillis st.session.now = 0 :=
    sum_map_eq_zero (Nat.eq_zero_of_add_eq_zero_right hnone) hc
  have hrests := h.rests hpos c hc
  obtain ⟨client, hget⟩ := List.getElem?_of_mem hc
  have hseated := h.orderly.seated client c hget
  unfold Rests at hrests
  cases hphase : c.phase with
  | fresh | lost =>
      rw [hphase] at hrests
      exact hrests.elim
  | waiting left =>
      rw [hphase] at hrests
      obtain ⟨-, hleft, -⟩ := hseated.fits_of_phase hphase
      simp only [Client.busyFor, hphase, Client.roundSpan, Span.ofMillis, Nat.mul_eq_zero] at hclient
      omega
  | holding left ends =>
      rw [hphase] at hrests
      obtain ⟨-, -, hleft, -, hhold, -⟩ := hseated.fits_of_phase hphase
      simp only [Client.busyFor, hphase, Client.roundSpan, Span.ofMillis, Nat.add_eq_zero_iff,
        Nat.mul_eq_zero] at hclient
      dsimp only at hrests
      refine .inr ⟨by omega, ?_⟩
      obtain rfl : left = 1 := by omega
      obtain rfl : ends = st.session.now := by omega
      rfl
  | finished =>
      left
      rw [Client.isFinished, hphase]
      rfl

theorem Orderly.entered_eq (h : st.Orderly o settings)
    (huntold : st.session.isCancelled Client.token = false) (hc : c ∈ st.clients)
    (hend : c.isFinished = true ∨ ∃ ends, c.phase = .holding 1 ends) :
    c.entered = o.rounds ∧ c.cancelled = false := by
  obtain ⟨client, hget⟩ := List.getElem?_of_mem hc
  have hseated := h.seated client c hget
  have hcancelled : c.cancelled = false := by
    apply Bool.eq_false_iff.mpr
    intro hcancelled
    rw [hseated.told hcancelled] at huntold
    cases huntold
  refine ⟨?_, hcancelled⟩
  rcases hend with hfinished | ⟨ends, hphase⟩
  · exact (hseated.fits_of_phase (beq_iff_eq.mp hfinished)).2.2 hcancelled
  · exact Nat.succ.inj (hseated.fits_of_phase hphase).2.2.2.1

theorem new_onSchedule (o : Options) (settings : Settings) (clock : Clock) (graceMillis : Nat) :
    (State.new o settings clock).OnSchedule o settings graceMillis
      (o.clients * o.rounds * (o.holdMillis + graceMillis)) := by
  refine ⟨new_orderly o settings clock, rfl, ?_, fun hpos => absurd hpos (Nat.lt_irrefl 0)⟩
  have hclient : Client.busyFor o graceMillis 0 .new = o.rounds * Client.roundSpan o graceMillis := rfl
  have hsum : (State.new o settings clock).busyFor o graceMillis =
      o.clients * (o.rounds * Client.roundSpan o graceMillis) := by
    change ((List.replicate o.clients Client.new).map (Client.busyFor o graceMillis 0)).sum + 0 = _
    rw [List.map_replicate, List.sum_replicate_nat, hclient, Nat.add_zero]
  have hnow : (State.new o settings clock).session.now = 0 := rfl
  rw [hsum, hnow, Nat.add_zero]
  simp only [Client.roundSpan, Span.ofMillis, Nat.mul_assoc, Nat.mul_left_comm _ 1000000, Nat.le_refl]

end State

/--
Where nobody is told to give up, the gate has a place, and all rounds of all clients, one after the other,
fit into the run, every client is let in for each of its rounds, no later than that. All clients are finished,
unless the rounds fill the run to its last millisecond and tickets go at once: then the last one may still be
held. The run may last for any number of milliseconds of 64 bits; every clock outlasts it.
-/
theorem clients_get_through (o : Options) (settings : Settings) (clock : Clock) (schedule : Schedule)
    {graceMillis millis : Nat} (hgrace : ∀ flow, settings.grace.span flow ≤ Span.ofMillis graceMillis)
    (hcapacity : settings.capacity ≠ some 0) (hmillis : 0 < millis) (hword : millis < 2 ^ 64)
    (hfits : o.clients * o.rounds * (o.holdMillis + graceMillis) ≤ millis) :
    (run o settings clock schedule none millis).Gives fun st _ =>
      st.elapsedMillis ≤ o.clients * o.rounds * (o.holdMillis + graceMillis) ∧
        st.clients.length = o.clients ∧
        ∀ c ∈ st.clients, c.entered = o.rounds ∧ c.cancelled = false ∧
          (c.isFinished = true ∨
            graceMillis = 0 ∧ o.clients * o.rounds * (o.holdMillis + graceMillis) = millis ∧
              c.phase = .holding 1 (Span.ofMillis millis)) := by
  generalize htotal : o.clients * o.rounds * (o.holdMillis + graceMillis) = total at hfits
  have hnew := State.new_onSchedule o settings clock graceMillis
  rw [htotal] at hnew
  refine (State.runFor_gives (State.OnSchedule o settings graceMillis total) _ hnew
    fun st h => h.instant hgrace hcapacity htotal (Nat.lt_of_le_of_lt hfits hword)).mono ?_
  rintro st events (⟨hfinished, horderly, huntold, hnow⟩ | ⟨h, hnow⟩)
  · refine ⟨?_, horderly.length, fun c hc => ?_⟩
    · simp only [State.elapsedMillis, Span.ofMillis] at hnow ⊢
      omega
    · have hdone := List.all_eq_true.mp hfinished c hc
      obtain ⟨hentered, hcancelled⟩ := horderly.entered_eq huntold hc (.inl hdone)
      exact ⟨hentered, hcancelled, .inl hdone⟩
  · have hend : st.session.now = Span.ofMillis millis := hnow.trans (Nat.zero_add _)
    have hbudget := h.budget
    simp only [Span.ofMillis] at hend hbudget
    obtain rfl : total = millis := by omega
    refine ⟨?_, h.orderly.length, fun c hc => ?_⟩
    · simp only [State.elapsedMillis]
      omega
    · have hlast := h.finished_or_last (by omega) (by simp only [Span.ofMillis]; omega) hc
      obtain ⟨hentered, hcancelled⟩ :=
        h.orderly.entered_eq h.untold hc (hlast.imp_right fun hlast => ⟨_, hlast.2⟩)
      refine ⟨hentered, hcancelled, hlast.imp_right fun hlast => ⟨hlast.1, rfl, ?_⟩⟩
      rw [hlast.2, hend]
      rfl

/-- Two clients, two rounds each, and one place with a grace period: all is over within 16 milliseconds. -/
theorem two_clients_share_a_place :
    Options.settings ⟨2, 2, 2, 3, .limit 1, some 1, false⟩ (fun _ => none) =
        .ok ((Settings.default.withCapacity 1).withGrace (.fixed (Span.ofMillis 1))) ∧
      2 * 2 * (3 + 1) ≤ 300 ∧
      (run ⟨2, 2, 2, 3, .limit 1, some 1, false⟩
          ((Settings.default.withCapacity 1).withGrace (.fixed (Span.ofMillis 1))) CommandLine.clock
          .inOrder none 300).Gives fun st _ =>
        st.elapsedMillis ≤ 16 ∧ st.clients.length = 2 ∧
          ∀ c ∈ st.clients, c.entered = 2 ∧ c.cancelled = false ∧ c.isFinished = true := by
  refine ⟨rfl, by decide, ?_⟩
  refine (clients_get_through ⟨2, 2, 2, 3, .limit 1, some 1, false⟩
    ((Settings.default.withCapacity 1).withGrace (.fixed (Span.ofMillis 1))) CommandLine.clock .inOrder
    (fun _ => Nat.le_refl _) (by decide) (by decide) (by decide) (by decide)).mono ?_
  rintro st events ⟨helapsed, hlength, hclients⟩
  refine ⟨helapsed, hlength, fun c hc => ?_⟩
  obtain ⟨hentered, hcancelled, hfinished | ⟨hgrace, -⟩⟩ := hclients c hc
  · exact ⟨hentered, hcancelled, hfinished⟩
  · cases hgrace

/-- A round that lasts as long as the run is not over when the run ends. -/
theorem round_fills_the_run :
    Options.settings ⟨1, 8, 1, 300, .unset, some 0, false⟩ (fun _ => none) =
        .ok (Settings.default.withGrace (.fixed 0)) ∧
      1 * 1 * (300 + 0) ≤ 300 ∧
      (run ⟨1, 8, 1, 300, .unset, some 0, false⟩ (Settings.default.withGrace (.fixed 0))
          CommandLine.clock .inOrder none 300).Gives fun st _ =>
        st.isFinished = false := by
  refine ⟨rfl, by decide, ?_⟩
  decide +kernel

end FlowGate.Simulation
