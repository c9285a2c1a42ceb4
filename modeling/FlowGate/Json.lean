import FlowGate.Text.Numeral

namespace FlowGate

inductive Json where
  | null
  | bool (value : Bool)
  | int (value : Int)
  | text (value : String)
  | array (items : List Json)
  | object (fields : List (String × Json))
  deriving Inhabited

namespace Json

def nat (n : Nat) : Json := .int n

def ofOption {α : Type} (encode : α → Json) : Option α → Json
  | none => .null
  | some x => encode x

def escape (c : Char) : List Char :=
  if c = '"' then ['\\', '"']
  else if c = '\\' then ['\\', '\\']
  else if c = '\n' then ['\\', 'n']
  else if c = '\r' then ['\\', 'r']
  else if c = '\t' then ['\\', 't']
  else if c = '\x08' then ['\\', 'b']
  else if c = '\x0c' then ['\\', 'f']
  else if c.toNat < 32 then
    ['\\', 'u', '0', '0', Nat.digitChar (c.toNat / 16), Nat.digitChar (c.toNat % 16)]
  else [c]

def quoted (s : String) : List Char := '"' :: s.toList.flatMap escape ++ ['"']

def ofBool (b : Bool) : List Char := if b then "true".toList else "false".toList

mutual

def compact : Json → List Char
  | .null => "null".toList
  | .bool value => ofBool value
  | .int value => Text.Numeral.signedDecimal value
  | .text value => quoted value
  | .array items => '[' :: compactItems items ++ [']']
  | .object fields => '\x7b' :: compactFields fields ++ ['\x7d']

def compactItems : List Json → List Char
  | [] => []
  | [item] => compact item
  | item :: rest => compact item ++ ',' :: compactItems rest

def compactFields : List (String × Json) → List Char
  | [] => []
  | [(name, value)] => quoted name ++ ':' :: compact value
  | (name, value) :: rest => quoted name ++ ':' :: compact value ++ ',' :: compactFields rest

end

def newline (depth : Nat) : List Char := '\n' :: List.replicate (2 * depth) ' '

mutual

/-- The characters of a document with one item or field a line; the empty ones stay closed up. -/
def indented (depth : Nat) : Json → List Char
  | .null => "null".toList
  | .bool value => ofBool value
  | .int value => Text.Numeral.signedDecimal value
  | .text value => quoted value
  | .array [] => ['[', ']']
  | .array items => '[' :: indentedItems (depth + 1) items ++ newline depth ++ [']']
  | .object [] => ['\x7b', '\x7d']
  | .object fields => '\x7b' :: indentedFields (depth + 1) fields ++ newline depth ++ ['\x7d']

def indentedItems (depth : Nat) : List Json → List Char
  | [] => []
  | [item] => newline depth ++ indented depth item
  | item :: rest => newline depth ++ indented depth item ++ ',' :: indentedItems depth rest

def indentedFields (depth : Nat) : List (String × Json) → List Char
  | [] => []
  | [(name, value)] => newline depth ++ quoted name ++ ':' :: ' ' :: indented depth value
  | (name, value) :: rest =>
    newline depth ++ quoted name ++ ':' :: ' ' :: indented depth value ++
      ',' :: indentedFields depth rest

end

def compress (document : Json) : String := String.ofList document.compact

def pretty (document : Json) : String := String.ofList (document.indented 0)

end Json

end FlowGate
