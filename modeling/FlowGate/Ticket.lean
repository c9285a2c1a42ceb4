import FlowGate.Flow

/-!
Tickets. A request for a flow gets a number when it is made; numbers ascend, so to compare them is to
compare the order of arrival.
-/

namespace FlowGate

/-- How urgent a request is: the larger level wins when room is short. Levels fit 32 bits. -/
structure Priority where
  level : Int
  inRange : -2147483648 ≤ level ∧ level ≤ 2147483647
  deriving DecidableEq, Repr

namespace Priority

def ofLevel? (level : Int) : Option Priority :=
  if h : -2147483648 ≤ level ∧ level ≤ 2147483647 then some ⟨level, h⟩ else none

def lowest : Priority := ⟨-2147483648, by decide⟩

def highest : Priority := ⟨2147483647, by decide⟩

def normal : Priority := ⟨0, by decide⟩

@[ext] theorem ext {a b : Priority} (h : a.level = b.level) : a = b := by
  cases a; cases b; simp_all

instance : Ord Priority := ⟨compareOn Priority.level⟩

instance : Std.TransOrd Priority := inferInstanceAs (Std.TransCmp (compareOn Priority.level))

instance : Std.LawfulEqOrd Priority where
  eq_of_compare h := ext (Std.LawfulEqOrd.eq_of_compare (α := Int) h)

def text (p : Priority) : String := String.ofList (Text.Numeral.signedDecimal p.level)

def describe (p : Priority) : String := "Priority(" ++ p.text ++ ")"

end Priority

/-- What a caller asks for: a flow, the reason why, and how urgent it is. -/
structure Request where
  flow : Flow
  reason : String
  priority : Priority
  deriving DecidableEq, Repr

def Request.plain (flow : Flow) : Request := ⟨flow, "", .normal⟩

/-- A numbered request, and when it was made, in nanoseconds on the clock. -/
structure Ticket extends Request where
  id : Nat
  issued : Nat
  deriving DecidableEq, Repr

namespace Ticket

def label (id : Nat) : String := "#" ++ Text.Numeral.text id

def describe (t : Ticket) : String :=
  "EntryHandle \x7b id: HandleId(" ++ Text.Numeral.text t.id ++ "), entry: " ++ t.flow.describe ++
    ", reason: " ++ Text.Quoted.quote t.reason ++ ", priority: " ++ t.priority.describe ++ " \x7d"

end Ticket

end FlowGate
