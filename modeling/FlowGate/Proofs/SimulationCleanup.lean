import FlowGate.CommandLine
import FlowGate.Proofs.EffectiveSettings
import FlowGate.Proofs.Ownership
import FlowGate.Proofs.SimulationRuns
import FlowGate.Proofs.SnapshotHoldings

namespace FlowGate.Simulation

open Logged (Gives)

variable {o : Options} {settings : Settings} {clock : Clock} {schedule : Schedule} {cancelAt : Option Int}

namespace State

variable {st : State}

/-- What all clients that are finished leave behind. -/
structure CleanedUp (o : Options) (settings : Settings) (st : State) : Prop where
  nobodyWaits : st.session.snapshot.waiting = 0
  /-- An active ticket has been released, and its grace period is running. -/
  expiring : ∀ h ∈ st.session.snapshot.holdings, h.expiresInMillis.isSome = true
  empty : (∀ flow, settings.grace.span flow = 0) →
    st.session.snapshot.flows = 0 ∧ st.session.snapshot.holdings = []
  entered_le : ∀ c ∈ st.clients, c.entered ≤ o.rounds
  entered_eq : ∀ c ∈ st.clients, c.cancelled = false → c.entered = o.rounds

theorem phase_eq_finished (hfinished : st.isFinished = true) {c : Client} (hc : c ∈ st.clients) :
    c.phase = .finished :=
  beq_iff_eq.mp (List.all_eq_true.mp hfinished c hc)

theorem Orderly.slots_empty (h : st.Orderly o settings) (hfinished : st.isFinished = true)
    (slot : String) : st.session.slots.get? slot = none := by
  apply Option.eq_none_iff_forall_not_mem.mpr
  intro content hslot
  obtain ⟨client, hlt, rfl⟩ := h.slots slot content hslot
  rw [← h.length] at hlt
  have hphase := phase_eq_finished hfinished (List.getElem_mem hlt)
  have hfits := (h.seated client _ (List.getElem?_eq_getElem hlt)).fits_of_phase hphase
  rw [hfits.1] at hslot
  cases hslot

theorem Orderly.cleanedUp (h : st.Orderly o settings) (hfinished : st.isFinished = true) :
    st.CleanedUp o settings := by
  have haccounts := h.accounts
  have hempty := h.slots_empty hfinished
  have hunawaited : ∀ t, (t, Stake.awaited) ∉ stakes st.session.slots st.session.expiries := by
    intro t hmem
    obtain ⟨slot, token, hslot⟩ := awaited_mem_stakes_iff.mp hmem
    rw [hempty slot] at hslot
    cases hslot
  have hclient : ∀ c ∈ st.clients, c.entered ≤ o.rounds ∧ (c.cancelled = false → c.entered = o.rounds) := by
    intro c hc
    obtain ⟨client, hget⟩ := List.getElem?_of_mem hc
    exact ((h.seated client c hget).fits_of_phase (phase_eq_finished hfinished hc)).2
  refine ⟨?_, ?_, ?_, fun c hc => (hclient c hc).1, fun c hc => (hclient c hc).2⟩
  · apply Catalog.size_eq_zero_iff.mpr
    apply Catalog.eq_empty_iff.mpr
    intro id
    apply Option.eq_none_iff_forall_not_mem.mpr
    intro t ht
    exact hunawaited t ((haccounts.waits_iff t).mp (h.sound.gate.waits_of_get? ht).2).1
  · intro x hx
    obtain ⟨⟨t, e⟩, hadmits, rfl⟩ := (h.sound.gate.mem_holdings_iff (.refl _)).mp hx
    cases e with
    | some e => rfl
    | none =>
        rcases (haccounts.admits_none_iff t).mp hadmits with hheld | ⟨hawaited, -⟩
        · obtain ⟨slot, hslot | hslot⟩ := held_mem_stakes_iff.mp hheld <;> rw [hempty slot] at hslot <;>
            cases hslot
        · exact absurd hawaited (hunawaited t)
  · intro hgrace
    have hexpiries : st.session.expiries = [] :=
      List.eq_nil_iff_forall_not_mem.mpr fun e he => h.timed e he (hgrace _)
    have hgate := Session.gate_empty h.sound.gate haccounts
      (fun slot content hslot => by rw [hempty slot] at hslot; cases hslot) hexpiries
    refine ⟨Catalog.size_eq_zero_iff.mpr hgate.1, List.eq_nil_iff_forall_not_mem.mpr fun x hx => ?_⟩
    obtain ⟨a, hadmits, -⟩ := (h.sound.gate.mem_holdings_iff (.refl _)).mp hx
    obtain ⟨party, hparty, -⟩ := Gate.admits_iff.mp hadmits
    rw [hgate.1] at hparty
    cases hparty

theorem elapsedMillis_pass (st : State) :
    elapsedMillis { st with session := st.session.pass (Span.ofMillis 1) } =
      st.elapsedMillis + 1 := by
  simp only [elapsedMillis, Session.pass, Span.ofMillis]
  omega

theorem Orderly.now_eq (h : st.Orderly o settings) : st.session.now = Span.ofMillis st.elapsedMillis := by
  have haligned := h.aligned
  simp only [elapsedMillis, Span.ofMillis]
  omega

/-- No later moment begins than the one at which clients are told to give up. -/
structure InTime (o : Options) (settings : Settings) (clock : Clock) (when : Nat) (st : State) : Prop where
  orderly : st.Orderly o settings
  clock : st.session.clock = clock
  early : st.elapsedMillis ≤ when

theorem InTime.instant {when : Nat} (h : st.InTime o settings clock when)
    (hcancel : cancelAt = some (when : Int))
    (hroom : ∀ flow, Span.ofMillis when + settings.grace.span flow ≤ clock.last) :
    (st.instant o schedule cancelAt).Gives fun st' _ => st'.session.now = st.session.now ∧
      (st'.isFinished = true → st'.elapsedMillis ≤ when) ∧
      (st'.isFinished = false →
        InTime o settings clock when { st' with session := st'.session.pass (Span.ofMillis 1) }) := by
  refine (instant_gives h.orderly).mono ?_
  rintro st' events hpasses
  have hsame : st'.elapsedMillis = st.elapsedMillis := by rw [elapsedMillis, hpasses.now, elapsedMillis]
  have hclock : st'.session.clock = clock := hpasses.clock.trans h.clock
  refine ⟨hpasses.now, fun _ => hsame ▸ h.early, fun hunfinished => ?_⟩
  refine ⟨pass_orderly hpasses.orderly, hclock, ?_⟩
  rw [elapsedMillis_pass, hsame]
  rcases Nat.lt_or_eq_of_le h.early with hlt | heq
  · exact hlt
  · have htold := hpasses.told (by rw [hcancel, heq])
    have hwhole : ∀ c ∈ st'.clients, c.phase ≠ .lost := by
      refine hpasses.orderly.none_lost fun flow => ?_
      rw [hpasses.now, hclock, h.orderly.now_eq, heq]
      exact hroom flow
    rw [finished_of_settled hpasses.settled hwhole htold] at hunfinished
    cases hunfinished

/-- Clients that are told to give up finish then, or before that, unless the run ends first. -/
theorem run_gives_up {when millis : Nat} (h : st.InTime o settings clock when) (hnow : st.session.now = 0)
    (hcancel : cancelAt = some (when : Int)) (hle : when ≤ millis)
    (hroom : ∀ flow, Span.ofMillis when + settings.grace.span flow ≤ clock.last) :
    (st.runFor o schedule cancelAt millis).Gives fun st' _ =>
      st'.elapsedMillis ≤ when ∧
        (st'.isFinished = true ∨ when = millis ∧ st'.elapsedMillis = millis) := by
  refine (runFor_gives (InTime o settings clock when) (fun st => st.elapsedMillis ≤ when) h
    fun st hst => hst.instant hcancel hroom).mono ?_
  rintro st' events (⟨hfinished, hearly⟩ | ⟨⟨-, -, hearly⟩, hlate⟩)
  · exact ⟨hearly, .inl hfinished⟩
  · refine ⟨hearly, .inr ?_⟩
    have helapsed : st'.elapsedMillis = millis := by
      simp only [elapsedMillis, hlate, hnow, Span.ofMillis]
      omega
    omega

end State

/--
If clients are told to give up within a run, none of them is left unfinished at that moment, except where
the run ends at the same moment. This asks for a clock that shows when every grace period ends, as every clock
does where the settings come from arguments and an environment. Whenever all clients are finished, nobody
waits, every active ticket is about to go, the gate is empty where there are no grace periods, and clients that
have not given up have entered every round.
-/
theorem clients_clean_up (o : Options) (settings : Settings) (clock : Clock) (schedule : Schedule)
    (cancelAt : Option Int) (millis : Nat) :
    ((run o settings clock schedule cancelAt millis).Gives fun st _ =>
      ((∀ flow, Span.ofMillis millis + settings.grace.span flow ≤ clock.last) →
        ∀ when : Nat, cancelAt = some (when : Int) → when ≤ millis →
          st.elapsedMillis ≤ when ∧
            (st.isFinished = true ∨ when = millis ∧ st.elapsedMillis = millis)) ∧
      (st.isFinished = true → st.CleanedUp o settings)) ∧
    ∀ arguments environment, Options.read arguments = .ok o → o.settings environment = .ok settings →
      millis < 2 ^ 64 → ∀ flow, Span.ofMillis millis + settings.grace.span flow ≤ clock.last := by
  refine ⟨?_, fun arguments environment hread hsettings hmillis flow => ?_⟩
  · obtain ⟨st, events, hok, horderly⟩ := run_orderly o settings clock schedule cancelAt millis
    refine ⟨st, events, hok, fun hroom when hcancel hle => ?_, horderly.cleanedUp⟩
    have hintime : (State.new o settings clock).InTime o settings clock when :=
      ⟨State.new_orderly o settings clock, rfl, by simp [State.elapsedMillis, State.new, Session.new]⟩
    refine (State.run_gives_up hintime rfl hcancel hle fun flow => ?_).of_eq_ok hok
    exact Nat.le_trans (Nat.add_le_add_right (Nat.mul_le_mul_left _ hle) _) (hroom flow)
  · have hgrace := Options.grace_lt_of_read hread hsettings flow
    have hclock := clock.two_words_le_last
    simp only [Span.ofMillis, Text.Numeral.wordLimit] at hgrace hclock ⊢
    omega

/-- Told to give up at the moment at which the run ends, a client that cannot get in still waits. -/
theorem told_when_the_run_ends :
    Options.settings ⟨1, 8, 10, 5, .limit 0, none, false⟩ (fun _ => none) =
        .ok (Settings.default.withCapacity 0) ∧
      (run ⟨1, 8, 10, 5, .limit 0, none, false⟩ (Settings.default.withCapacity 0)
          CommandLine.clock .inOrder (some 300) 300).Gives fun st _ =>
        st.isFinished = false := by
  refine ⟨rfl, ?_⟩
  decide +kernel

end FlowGate.Simulation
