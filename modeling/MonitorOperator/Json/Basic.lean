import MonitorOperator.Decimal.Magnitude

/-!
JSON values. Numbers are integers in the range of 64-bit words, signed or not, and binary64
numbers outside it or with a fraction.
-/

namespace MonitorOperator

namespace Json

inductive Number where
  | integer (value : Int)
  | real (negative : Bool) (magnitude : Decimal.Magnitude)
deriving DecidableEq, Repr

end Json

inductive Json where
  | null
  | bool (value : Bool)
  | number (value : Json.Number)
  | string (value : String)
  | array (items : List Json)
  | object (members : List (String × Json))
deriving Repr

namespace Json

instance : Inhabited Json := ⟨.null⟩

def ofNat (n : Nat) : Json := .number (.integer n)

def ofInt (i : Int) : Json := .number (.integer i)

def ofOption {α : Type} (encode : α → Json) : Option α → Json
  | none => .null
  | some a => encode a

def string? : Json → Option String
  | .string s => some s
  | _ => none

def integer? : Json → Option Int
  | .number (.integer i) => some i
  | _ => none

def bool? : Json → Option Bool
  | .bool b => some b
  | _ => none

def items? : Json → Option (List Json)
  | .array items => some items
  | _ => none

def members? : Json → Option (List (String × Json))
  | .object members => some members
  | _ => none

def member? (name : String) : Json → Option Json
  | .object members => (members.find? (·.1 == name)).map (·.2)
  | _ => none

end Json

end MonitorOperator
