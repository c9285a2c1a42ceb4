import FlowGate.Text.GraphemeExtend
import FlowGate.Text.Unprintable

namespace FlowGate.Text.Quoted

/-- The letters with the property Default_Ignorable_Code_Point: they fill a place and show nothing. -/
def fillers : CodeRanges := [(0x115f, 0x1160), (0x3164, 0x3164), (0xffa0, 0xffa0)]

/-- The letters with the property Grapheme_Extend: two marks of sound that stand by themselves. -/
def soundMarks : CodeRanges := [(0xff9e, 0xff9f)]

/-- Whether a character shows plainly: it is printed, and is no mark on the one before it. -/
def showsPlainly (c : Char) : Bool :=
  !unprintable.contains c && !fillers.contains c &&
    (!graphemeExtend.contains c || soundMarks.contains c)

/-- An escape by code point: the number in lower-case hexadecimal between braces. -/
def codePoint (c : Char) : List Char :=
  '\\' :: 'u' :: '\x7b' :: Nat.toDigits 16 c.toNat ++ ['\x7d']

def escape (c : Char) : List Char :=
  if c = '\x00' then ['\\', '0']
  else if c = '\t' then ['\\', 't']
  else if c = '\r' then ['\\', 'r']
  else if c = '\n' then ['\\', 'n']
  else if c = '"' then ['\\', '"']
  else if c = '\\' then ['\\', '\\']
  else if showsPlainly c then [c]
  else codePoint c

/-- The characters of a text, quoted. -/
def encode (cs : List Char) : List Char := '"' :: cs.flatMap escape ++ ['"']

def quote (s : String) : String := String.ofList (encode s.toList)

end FlowGate.Text.Quoted
