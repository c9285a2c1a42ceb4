namespace FlowGate.Text.Numeral

def decimal (n : Nat) : List Char := Nat.toDigits 10 n

def signedDecimal : Int → List Char
  | .ofNat n => decimal n
  | .negSucc n => '-' :: decimal (n + 1)

def text (n : Nat) : String := String.ofList (decimal n)

def describeLimit : Option Nat → String
  | none => "None"
  | some limit => "Some(" ++ text limit ++ ")"

/-- The value of a digit in a base of at most sixteen; letters count in either case. -/
def digit? (base : Nat) (c : Char) : Option Nat :=
  let value :=
    if '0' ≤ c ∧ c ≤ '9' then c.toNat - '0'.toNat
    else if 'a' ≤ c ∧ c ≤ 'f' then c.toNat - 'a'.toNat + 10
    else if 'A' ≤ c ∧ c ≤ 'F' then c.toNat - 'A'.toNat + 10
    else base
  if value < base then some value else none

def readOn (base : Nat) (sofar : Nat) : List Char → Option Nat
  | [] => some sofar
  | c :: rest =>
    match digit? base c with
    | some d => readOn base (base * sofar + d) rest
    | none => none

def digits? (base : Nat) (cs : List Char) : Option Nat :=
  if cs.isEmpty then none else readOn base 0 cs

/-- A whole number from zero up to a limit, the limit excluded: digits after an optional plus. -/
def unsigned? (limit : Nat) (cs : List Char) : Option Nat :=
  (digits? 10 (match cs with | '+' :: rest => rest | _ => cs)).filter (· < limit)

/-- A whole number from `-limit` up to `limit`, the latter excluded: digits after an optional sign. -/
def signed? (limit : Nat) (cs : List Char) : Option Int :=
  match cs with
  | '-' :: rest => ((digits? 10 rest).filter (· ≤ limit)).map fun n => -(n : Int)
  | _ => (unsigned? limit cs).map fun n => (n : Int)

/-- The first number that an unsigned word of 64 bits cannot hold. -/
def wordLimit : Nat := 18446744073709551616

def signedWordLimit : Nat := 9223372036854775808

end FlowGate.Text.Numeral
