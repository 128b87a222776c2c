import MonitorOperator.Decimal.Real

/-!
Values of environment variables. A text is taken for the first of these that it spells: a truth
value, an integer of 64 bits, a real number, or itself. A field then asks for a number or a text, and
gets what the value is as one.
-/

namespace MonitorOperator.Config

inductive Setting where
  | flag (value : Bool)
  | integer (value : Int)
  | real (value : Decimal.Real)
  | text (value : String)
deriving DecidableEq, Repr

namespace Setting

/-- Letters in lower case, as far as they matter for the names and words looked for here: ASCII, and
the sign of the kelvin, which is a capital k. -/
def lowered (s : String) : List Char :=
  s.toList.map (fun c => if c = '\u212a' then 'k' else c.toLower)

def ofText (s : String) : Setting :=
  if lowered s = "true".toList then .flag true
  else if lowered s = "false".toList then .flag false
  else
    match Text.integer? Int64.minValue.toInt Int64.maxValue.toInt s.toList with
    | some i => .integer i
    | none =>
      match Decimal.Real.ofText? s.toList with
      | some r => .real r
      | none => .text s

def wordValue? (s : String) : Option Nat :=
  if lowered s = "on".toList ∨ lowered s = "yes".toList then some 1
  else if lowered s = "off".toList ∨ lowered s = "no".toList then some 0
  else none

/-- The value as a number of 64 bits. A real number is rounded, and kept within the range. -/
def number? : Setting → Option UInt64
  | .flag true => some 1
  | .flag false => some 0
  | .integer i => if 0 ≤ i then some (UInt64.ofNat i.toNat) else none
  | .real r => some (UInt64.ofNat (r.nearestNat (UInt64.size - 1)))
  | .text s => (wordValue? s).map UInt64.ofNat

def written : Setting → String
  | .flag true => "true"
  | .flag false => "false"
  | .integer i => toString i
  | .real r => String.ofList r.text
  | .text s => s

end Setting

end MonitorOperator.Config
