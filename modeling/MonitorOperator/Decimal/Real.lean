import MonitorOperator.Decimal.Shortest
import MonitorOperator.Text.Integer

/-!
Real numbers of the binary64 format in text: digits with a point and a power of ten, either of which
may be missing, or the words for infinity and for what is no number. Writing uses the fewest digits
that read back, all of them in place.
-/

namespace MonitorOperator.Decimal

inductive Real where
  | finite (negative : Bool) (magnitude : Magnitude)
  | infinite (negative : Bool)
  | notANumber
deriving DecidableEq, Repr

namespace Real

/-- The powers of ten beyond which nothing but zero or infinity is near. -/
def farthestPower : Int := 400

def ofDecimal (negative : Bool) (digits : Nat) (power : Int) : Real :=
  let leading := power + (Nat.toDigits 10 digits).length
  if digits = 0 ∨ leading < -farthestPower then .finite negative .zero
  else if farthestPower < leading then .infinite negative
  else
    match Magnitude.nearest? (digits * Nat.pow 10 power.toNat) (Nat.pow 10 (-power).toNat) with
    | some m => .finite negative m
    | none => .infinite negative

def powerOf? : List Char → Option Int
  | [] => some 0
  | c :: rest =>
    if c = 'e' ∨ c = 'E' then
      match rest with
      | '-' :: ds => (Text.digits? ds).map (fun n => -(n : Int))
      | '+' :: ds => (Text.digits? ds).map (fun n => (n : Int))
      | ds => (Text.digits? ds).map (fun n => (n : Int))
    else none

def ofDigits? (negative : Bool) (cs : List Char) : Option Real :=
  let whole := cs.takeWhile Char.isDigit
  let rest := cs.dropWhile Char.isDigit
  let (fraction, rest) := match rest with
    | '.' :: rest => (rest.takeWhile Char.isDigit, rest.dropWhile Char.isDigit)
    | rest => ([], rest)
  match Text.digits? (whole ++ fraction), powerOf? rest with
  | some digits, some power => some (ofDecimal negative digits (power - fraction.length))
  | _, _ => none

def ofUnsigned? (negative : Bool) (cs : List Char) : Option Real :=
  let word := cs.map Char.toLower
  if word = "inf".toList ∨ word = "infinity".toList then some (.infinite negative)
  else if word = "nan".toList then some .notANumber
  else ofDigits? negative cs

def ofText? : List Char → Option Real
  | '-' :: cs => ofUnsigned? true cs
  | '+' :: cs => ofUnsigned? false cs
  | cs => ofUnsigned? false cs

def text : Real → List Char
  | .finite false m => m.shortest.positional
  | .finite true m => '-' :: m.shortest.positional
  | .infinite false => ['i', 'n', 'f']
  | .infinite true => ['-', 'i', 'n', 'f']
  | .notANumber => ['N', 'a', 'N']

def nearestNat (bound : Nat) : Real → Nat
  | .finite false m =>
    let (num, den) := m.fraction
    min ((2 * num + den) / (2 * den)) bound
  | .finite true _ => 0
  | .infinite false => bound
  | .infinite true => 0
  | .notANumber => 0

end Real

end MonitorOperator.Decimal
