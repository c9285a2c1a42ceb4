import FlowGate.Net.Address

namespace FlowGate.Net.Endpoint

open FlowGate.Text

def atColon : List Char → Option (List Char × List Char)
  | [] => none
  | ':' :: rest => some ([], rest)
  | c :: rest => (atColon rest).map fun (host, port) => (c :: host, port)

def atBracket : List Char → Option (List Char × List Char)
  | [] => none
  | ']' :: ':' :: rest => some ([], rest)
  | c :: rest => (atBracket rest).map fun (host, port) => (c :: host, port)

/--
Host and port. Behind an opening bracket the host goes up to the first `]:`; otherwise the text has
exactly one colon, and it parts the two.
-/
def split? : List Char → Option (List Char × List Char)
  | '[' :: rest => atBracket rest
  | cs => (atColon cs).filter fun (_, port) => !port.contains ':'

/-- What an endpoint is ordered by, the weightiest part first. -/
structure Key where
  malformed : Bool
  notV4 : Bool
  address : Option (List Nat)
  portMalformed : Bool
  portNumber : Int
  port : String
  deriving DecidableEq, Repr

instance : Ord Key where
  compare :=
    compareLex (compareOn Key.malformed) <| compareLex (compareOn Key.notV4) <|
      compareLex (compareOn Key.address) <| compareLex (compareOn Key.portMalformed) <|
        compareLex (compareOn Key.portNumber) (compareOn Key.port)

def key (text : String) : Key :=
  let parts := split? text.toList
  let (host, port) := parts.getD ([], [])
  let address := Address.parse host
  let number := Numeral.signed? Numeral.signedWordLimit port
  { malformed := parts.isNone
    notV4 := !address.any Address.isV4
    address := address.map Address.octets
    portMalformed := number.isNone
    portNumber := number.getD 0
    port := String.ofList port }

end FlowGate.Net.Endpoint
