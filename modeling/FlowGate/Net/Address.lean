import FlowGate.Text.Numeral

namespace FlowGate.Net

open FlowGate.Text

/-- An address of version 4, its four octets, or of version 6, its eight groups. -/
inductive Address where
  | v4 (a b c d : UInt8)
  | v6 (a b c d e f g h : UInt16)
  deriving DecidableEq, Repr

namespace Address

def isV4 : Address → Bool
  | .v4 .. => true
  | .v6 .. => false

def groupOctets (group : UInt16) : List Nat := [group.toNat / 256, group.toNat % 256]

/-- The sixteen octets of an address; one of version 4 stands behind `::ffff`. -/
def octets : Address → List Nat
  | .v4 a b c d =>
    [0, 0, 0, 0, 0, 0, 0, 0, 0, 0, 255, 255] ++ [a.toNat, b.toNat, c.toNat, d.toNat]
  | .v6 a b c d e f g h => [a, b, c, d, e, f, g, h].flatMap groupOctets

def expect (c : Char) : List Char → Option (List Char)
  | [] => none
  | head :: rest => if head = c then some rest else none

/-- All the digits in front, one or more but at most so many, and what is left. -/
def digits (base most : Nat) (cs : List Char) : Option (List Char × List Char) :=
  let front := cs.takeWhile fun c => (Numeral.digit? base c).isSome
  if front.isEmpty || most < front.length then none else some (front, cs.drop front.length)

/-- One of four decimal numbers: at most 255, with no zero in front of another digit. -/
def octet (cs : List Char) : Option (UInt8 × List Char) := do
  let (front, rest) ← digits 10 3 cs
  let n ← Numeral.digits? 10 front
  if 255 < n ∨ (front.head? = some '0' ∧ 1 < front.length) then none
  else some (UInt8.ofNat n, rest)

/-- Four decimal numbers parted by dots, and what is left. -/
def dotted (cs : List Char) : Option ((UInt8 × UInt8 × UInt8 × UInt8) × List Char) := do
  let (a, rest) ← octet cs
  let (b, rest) ← octet (← expect '.' rest)
  let (c, rest) ← octet (← expect '.' rest)
  let (d, rest) ← octet (← expect '.' rest)
  some ((a, b, c, d), rest)

def group (cs : List Char) : Option (UInt16 × List Char) := do
  let (front, rest) ← digits 16 4 cs
  some (UInt16.ofNat (← Numeral.digits? 16 front), rest)

/-- Groups read from the front of a text, whether four decimal numbers end them, and what is left. -/
structure Groups where
  found : List UInt16
  endsDotted : Bool
  rest : List Char

/-- Read at most so many groups parted by colons; a colon leads each group but the first of all. -/
def groups (most : Nat) (leading : Bool) (cs : List Char) : Groups :=
  match most with
  | 0 => ⟨[], false, cs⟩
  | most + 1 =>
    match (if leading then some cs else expect ':' cs) with
    | none => ⟨[], false, cs⟩
    | some body =>
      match (if most = 0 then none else dotted body) with
      | some ((a, b, c, d), rest) =>
        ⟨[UInt16.ofNat (a.toNat * 256 + b.toNat), UInt16.ofNat (c.toNat * 256 + d.toNat)],
          true, rest⟩
      | none =>
        match group body with
        | none => ⟨[], false, cs⟩
        | some (first, rest) =>
          let others := groups most false rest
          ⟨first :: others.found, others.endsDotted, others.rest⟩

def ofGroups : List UInt16 → Option Address
  | [a, b, c, d, e, f, g, h] => some (.v6 a b c d e f g h)
  | _ => none

/--
Read groups up to `::`, which stands for at least one group, and then those behind it. Four decimal
numbers may end the address but not the part in front of `::`.
-/
def parseV6 (cs : List Char) : Option Address :=
  let front := groups 8 true cs
  if front.found.length = 8 then
    if front.rest.isEmpty then ofGroups front.found else none
  else if front.endsDotted then none
  else
    match front.rest with
    | ':' :: ':' :: rest =>
      let back := groups (7 - front.found.length) true rest
      let zeros := List.replicate (8 - front.found.length - back.found.length) 0
      if back.rest.isEmpty then ofGroups (front.found ++ zeros ++ back.found) else none
    | _ => none

/-- The address that a whole text writes. -/
def parse (cs : List Char) : Option Address :=
  match dotted cs with
  | some ((a, b, c, d), rest) => if rest.isEmpty then some (.v4 a b c d) else none
  | none => parseV6 cs

end Address

end FlowGate.Net
