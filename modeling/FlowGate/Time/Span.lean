import FlowGate.Text.Numeral

namespace FlowGate.Span

def ofMillis (ms : Nat) : Nat := 1000000 * ms

/-- The whole milliseconds of a span, as far as a word of 64 bits goes. -/
def wholeMillis (nanos : Nat) : Nat := min (nanos / 1000000) 18446744073709551615

/-- The first whole millisecond that is not before a moment. -/
def ceilMillis (nanos : Nat) : Nat := 1000000 * ((nanos + 999999) / 1000000)

/-- A part of a unit of `scale` as decimals, without zeros at the end. -/
def decimals (scale part : Nat) : List Char :=
  ((Text.Numeral.decimal (part + scale)).tail.reverse.dropWhile (· == '0')).reverse

def inUnit (nanos scale : Nat) (name : String) : String :=
  let rest := decimals scale (nanos % scale)
  Text.Numeral.text (nanos / scale) ++ (if rest.isEmpty then "" else "." ++ String.ofList rest) ++ name

/-- A span in the largest of four units of which it holds one. -/
def text (nanos : Nat) : String :=
  if 1000000000 ≤ nanos then inUnit nanos 1000000000 "s"
  else if 1000000 ≤ nanos then inUnit nanos 1000000 "ms"
  else if 1000 ≤ nanos then inUnit nanos 1000 "µs"
  else inUnit nanos 1 "ns"

end FlowGate.Span
