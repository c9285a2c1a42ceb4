import FlowGate.Proofs.CallerCourse
import FlowGate.Proofs.SessionClock

/-!
Releases that break off. A step breaks off only at a release whose grace period ends later than the clock can
show. Its holder is lost for good, and nobody is lost otherwise.
-/

namespace FlowGate

/-- Two words of milliseconds, one after the other, are over before the clock is. -/
theorem Clock.two_words_le_last (c : Clock) : 2 * Span.ofMillis Text.Numeral.wordLimit ≤ c.last :=
  Nat.le_trans (by decide) c.longLived

namespace Session

open Logged (Yields yields_self yields_pure)
open Slot (Course)

variable {s s' : Session} {slot : String} {t : Ticket} {st : Step} {steps : List Step}
  {r : List Reply × Session} {events : List Event}

theorem breaksOff_iff :
    s.breaksOff t = true ↔
      s.alive = true ∧ s.grace.span t.flow ≠ 0 ∧ s.clock.last < s.now + s.grace.span t.flow := by
  simp [breaksOff, Clock.after?, and_assoc]

/-- A holder that is lost is lost for good, with its ticket. -/
theorem run_keeps_stranded (h : s.Sound []) (hslot : s.slots.get? slot = some (.stranded t))
    (steps : List Step) : (s.run steps).Yields fun r _ => r.2.slots.get? slot = some (.stranded t) := by
  induction steps generalizing s with
  | nil => exact yields_pure hslot
  | cons st steps ih =>
      intro r events hok
      obtain ⟨_, past, _, replies, _, hstep, hrun, -⟩ := run_cons_eq_ok hok
      have hsound : past.Sound [] := ((step_gives h st).of_eq_ok hstep).sound
      have hcourse : Course (s.slots.get? slot) (past.slots.get? slot) :=
        step_course h (.inr (by simp [hslot])) _ _ hstep
      rw [hslot] at hcourse
      exact ih hsound hcourse.eq_of_stranded (replies, r.2) _ hrun

example : ((new ⟨some 1, .fixed (Text.Numeral.signedWordLimit * 1000000000)⟩ (.starting 0) true).run
    [.enter "a" (.plain ⟨"udp", "", ""⟩), .done "a"]).Gives fun r _ =>
      r.2.slots.get? "a" = some (.stranded ⟨.plain ⟨"udp", "", ""⟩, 1, 0⟩) := by decide +kernel

end Session

end FlowGate
