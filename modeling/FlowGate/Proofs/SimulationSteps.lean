import FlowGate.Proofs.LoggedOutcome
import FlowGate.Simulation.Run

namespace FlowGate.Simulation

open Logged (Yields yields_self yields_pure bind_eq_ok_iff)

/-- The steps that a simulation takes in its session. -/
inductive Options.Takes (o : Options) : Step → Prop where
  | wait (slot token : String) (client round : Nat) :
      Takes o (.wait slot token (o.request client round))
  | poll (slot : String) : Takes o (.poll slot)
  | done (slot : String) : Takes o (.done slot)
  | cancel (token : String) : Takes o (.cancel token)
  /-- Grace periods that are over end, and no time passes. -/
  | expire : Takes o (.advance 0)

/-- A condition on sessions that no step of a simulation ends, and no time that passes. -/
structure Options.Keeps (o : Options) (P : Session → Prop) : Prop where
  step : ∀ s st, P s → o.Takes st → (s.step st).Yields fun r _ => P r.2
  pass : ∀ s nanos, P s → P (s.pass nanos)

variable {o : Options} {P : Session → Prop} {schedule : Schedule} {cancelAt : Option Int}

namespace Client

variable {goesOn : Nat → Nat → Bool} {s : Session} {c : Client} {client left entered : Nat}
  {next : Session → Logged (Client × Session)}

theorem release_yields (h : o.Keeps P) (hs : P s)
    (hnext : ∀ s', P s' → (next s').Yields fun r _ => P r.2) :
    (release client entered s next).Yields fun r _ => P r.2 := by
  refine (h.step s _ hs (.done _)).bind ?_
  rintro ⟨reply, s'⟩ _ hs'
  cases reply with
  | brokenOff => exact yields_pure hs'
  | _ => exact hnext s' hs'

theorem answered_yields (h : o.Keeps P) (hs : P s) (answer : Answer)
    (hnext : ∀ s', P s' → (next s').Yields fun r _ => P r.2) :
    (answered o goesOn client left entered answer s next).Yields fun r _ => P r.2 := by
  cases answer with
  | pending => exact yields_pure hs
  | refused => exact (yields_self _).bind fun _ _ _ => yields_pure hs
  | entered id =>
      rw [answered]
      split
      · exact release_yields h hs fun _ hs' => yields_pure hs'
      · split
        · exact release_yields h hs hnext
        · exact yields_pure hs

theorem start_yields (h : o.Keeps P) (hs : P s) :
    (start o goesOn client left entered s).Yields fun r _ => P r.2 := by
  induction left generalizing entered s with
  | zero => exact yields_pure hs
  | succ left ih =>
      rw [start]
      refine (h.step s _ hs (.wait ..)).bind fun r _ hr => ?_
      exact answered_yields h hr _ fun s' hs' => ih hs'

theorem move_yields (h : o.Keeps P) (hs : P s) :
    (c.move o goesOn client s).Yields fun r _ => P r.2 := by
  unfold move
  split
  · exact start_yields h hs
  · refine (h.step s _ hs (.poll _)).bind fun r _ hr => ?_
    exact answered_yields h hr _ fun s' hs' => start_yields h hs'
  · split
    · exact release_yields h hs fun _ hs' => yields_pure hs'
    · exact release_yields h hs fun _ hs' => start_yields h hs'
  · exact yields_pure hs
  · exact yields_pure hs

end Client

namespace State

variable {st : State}

theorem move_yields (h : o.Keeps P) (hst : P st.session) (client : Nat) :
    (st.move o schedule client).Yields fun st' _ => P st'.session := by
  unfold move
  split
  · exact yields_pure hst
  · exact (Client.move_yields h hst).bind fun _ _ hr => yields_pure hr

theorem settleWithin_yields (h : o.Keeps P) (hst : P st.session) (moves : Nat) :
    (settleWithin o schedule moves st).Yields fun st' _ => P st'.session := by
  induction moves generalizing st with
  | zero => exact yields_pure hst
  | succ moves ih =>
      rw [settleWithin]
      split
      · exact yields_pure hst
      · exact (move_yields h hst _).bind fun st' _ hst' => ih hst'

theorem expireDue_yields (h : o.Keeps P) {s : Session} (hs : P s) :
    s.expireDue.Yields fun s' _ => P s' := by
  intro s' events hok
  have hstep : s.step (.advance 0) = .ok (.done, s') (events ++ []) :=
    bind_eq_ok_iff.mpr ⟨s', events, [], hok, rfl, rfl⟩
  exact h.step s _ hs .expire _ _ hstep

theorem tellToGiveUp_yields (h : o.Keeps P) (hst : P st.session) :
    (st.tellToGiveUp o schedule cancelAt).Yields fun st' _ => P st'.session := by
  unfold tellToGiveUp
  split
  · refine (h.step _ _ hst (.cancel _)).bind fun r _ hr => ?_
    exact settleWithin_yields h hr _
  · exact yields_pure hst

theorem instant_yields (h : o.Keeps P) (hst : P st.session) :
    (st.instant o schedule cancelAt).Yields fun st' _ => P st'.session := by
  refine (tellToGiveUp_yields h hst).bind fun told _ htold => ?_
  refine (expireDue_yields h htold).bind fun s' _ hs' => ?_
  exact settleWithin_yields h hs' _

theorem runFor_yields (h : o.Keeps P) (hst : P st.session) (millis : Nat) :
    (st.runFor o schedule cancelAt millis).Yields fun st' _ => P st'.session := by
  induction millis generalizing st with
  | zero => exact yields_pure hst
  | succ millis ih =>
      refine (instant_yields h hst).bind fun st' _ hst' => ?_
      split
      · exact yields_pure hst'
      · exact ih (h.pass _ _ hst')

end State

/-- What every step of a simulation keeps, and time that passes, a whole simulation keeps. -/
theorem run_yields (h : o.Keeps P) {settings : Settings} {clock : Clock}
    (hnew : P (.new settings clock true)) (schedule : Schedule) (cancelAt : Option Int) (millis : Nat) :
    (run o settings clock schedule cancelAt millis).Yields fun st _ => P st.session :=
  State.runFor_yields h hnew millis

end FlowGate.Simulation
