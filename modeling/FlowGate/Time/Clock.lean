import FlowGate.Time.Span

namespace FlowGate

structure Clock where
  /-- When the clock starts, in seconds since 1970. -/
  start : Int
  last : Nat
  /-- The clock outlasts every span of milliseconds in a word of 64 bits many times over. -/
  longLived : Text.Numeral.signedWordLimit / 2 * 1000000000 ≤ last

namespace Clock

/-- A clock that counts its seconds in 63 bits. -/
def starting (start : Int) : Clock := ⟨start, Text.Numeral.signedWordLimit * 1000000000 - 1, by decide⟩

/-- The moment a span after another; `none` if the clock cannot show it. -/
def after? (c : Clock) (moment span : Nat) : Option Nat :=
  if moment + span ≤ c.last then some (moment + span) else none

end Clock

end FlowGate
