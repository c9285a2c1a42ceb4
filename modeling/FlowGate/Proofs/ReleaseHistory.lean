import FlowGate.Proofs.GracePeriod

namespace FlowGate.Session

open Logged (Gives gives_pure_iff)

variable {s s' s₀ : Session} {t u : Ticket} {e : Expiry} {st : Step} {steps rest : List Step}

/-- Some step of a run released a ticket. -/
def ReleasedIn (s : Session) (steps : List Step) (t : Ticket) : Prop :=
  ∃ before st later, steps = before ++ st :: later ∧ s.After before fun past => past.Releases t st

theorem ReleasedIn.cons {reply : Reply} {events : List Event} (h : s'.ReleasedIn rest t)
    (hok : s.step st = .ok (reply, s') events) : s.ReleasedIn (st :: rest) t := by
  obtain ⟨before, st', later, rfl, hbefore⟩ := h
  exact ⟨st :: before, st', later, rfl, .cons hok hbefore⟩

/-- A grace period runs, or its ticket is gone. -/
structure RunsOut (s₀ : Session) (e : Expiry) (s : Session) : Prop where
  sound : s.Sound []
  evolves : s₀.Evolves (fun _ => True) s
  onTime : ∀ e ∈ s.expiries, s.now < e.due
  phase : e ∈ s.expiries ∨ (s.alive = true → ¬s.gate.Inside e.ticket)

theorem RunsOut.step (h₀ : s₀.Sound []) (hinside : s₀.gate.Inside e.ticket) (h : s₀.RunsOut e s)
    (st : Step) : (s.step st).Gives fun r _ => s₀.RunsOut e r.2 := by
  obtain ⟨⟨reply, s'⟩, events, hok, hstep⟩ := step_gives h.sound st
  have hticks : s.Ticks st s' := step_ticks s st _ _ hok
  refine ⟨(reply, s'), events, hok, hstep.sound, ?_, hticks.runs h.onTime, ?_⟩
  · exact (h.evolves.trans hstep.evolves).mono fun _ _ => trivial
  · rcases h.phase with he | hgone
    · rcases hticks.goesOn e he with hruns | hdue | ⟨hstops, htimer⟩
      · exact .inl hruns
      · refine .inr fun halive' => ?_
        have hnow := h.onTime e he
        cases st with
        | advance nanos => exact (advance_removes h.sound nanos).of_eq_ok hok halive' e he hdue
        | _ =>
          have hsame : s'.now = s.now := hticks.now
          omega
      · cases st with
        | shutdown ranks =>
            exact .inr fun halive' => (shutdown_removes h.sound ranks).of_eq_ok hok halive' e he htimer
        | _ => cases hstops
    · refine .inr fun halive' => ?_
      have hout := hgone (hstep.evolves.alive halive')
      exact h₀.not_inside_later h.evolves hstep.evolves hinside hout

theorem RunsOut.run (h₀ : s₀.Sound []) (hinside : s₀.gate.Inside e.ticket) (h : s₀.RunsOut e s)
    (steps : List Step) : s.After steps (s₀.RunsOut e) := by
  induction steps generalizing s with
  | nil => exact after_nil h
  | cons st steps ih =>
      obtain ⟨⟨reply, s'⟩, events, hok, h'⟩ := h.step h₀ hinside st
      exact .cons hok (ih h')

end FlowGate.Session
