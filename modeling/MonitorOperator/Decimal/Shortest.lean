import MonitorOperator.Decimal.Magnitude

/-!
The fewest decimal digits that read back as a given magnitude and, of those, the nearest to it;
two layouts for them.
-/

namespace MonitorOperator.Decimal

structure Digits where
  digits : Nat
  exponent : Int
deriving DecidableEq, Repr

namespace Digits

def text (d : Digits) : List Char := Nat.toDigits 10 d.digits

def strip : Nat → Digits → Digits
  | 0, d => d
  | n + 1, d =>
    if d.digits ≠ 0 ∧ d.digits % 10 = 0 then strip n ⟨d.digits / 10, d.exponent + 1⟩ else d

def leading (d : Digits) : Int := d.exponent + d.text.length - 1

def positional (d : Digits) : List Char :=
  let cs := d.text
  let whole := d.exponent + cs.length
  if 0 ≤ d.exponent then cs ++ List.replicate d.exponent.toNat '0'
  else if 0 < whole then cs.take whole.toNat ++ '.' :: cs.drop whole.toNat
  else '0' :: '.' :: List.replicate (-whole).toNat '0' ++ cs

def scientific (d : Digits) : List Char :=
  let mantissa := match d.text with
    | [] => []
    | [c] => [c]
    | c :: rest => c :: '.' :: rest
  mantissa ++ 'e' :: (if d.leading < 0 then '-' else '+') :: Nat.toDigits 10 d.leading.natAbs

end Digits

namespace Magnitude

def leadingPower (num den : Nat) : Int :=
  if den ≤ num then (Nat.toDigits 10 (num / den)).length - 1
  else
    let ratio := (den + num - 1) / num
    if ratio ≤ 1 then 0 else -((Nat.toDigits 10 (ratio - 1)).length : Int)

/-- Of the two neighbours of the magnitude with `count` digits, the one that reads back; the
nearer one if both do. -/
def grid? (m : Magnitude) (count : Nat) : Option Digits :=
  let (num, den) := m.fraction
  let unit : Int := leadingPower num den + 1 - count
  let scale (x : Nat) : Nat × Nat :=
    (x * Nat.pow 2 (m.exponent - 2).toNat * Nat.pow 10 (-unit).toNat,
      Nat.pow 2 (2 - m.exponent).toNat * Nat.pow 10 unit.toNat)
  let low :=
    if m.mantissa = leastNormal ∧ -1074 < m.exponent then 4 * m.mantissa - 1 else 4 * m.mantissa - 2
  let (lowest, _) := scale low
  let (middle, d) := scale (4 * m.mantissa)
  let (highest, _) := scale (4 * m.mantissa + 2)
  let readsBack (c : Nat) : Bool :=
    if m.mantissa % 2 = 0 then lowest ≤ c * d && c * d ≤ highest
    else lowest < c * d && c * d < highest
  let below := middle / d
  let above := below + 1
  match readsBack below, readsBack above with
  | true, true =>
    let down := middle - below * d
    let up := above * d - middle
    some ⟨if down < up || (down == up && below % 2 == 0) then below else above, unit⟩
  | true, false => some ⟨below, unit⟩
  | false, true => some ⟨above, unit⟩
  | false, false => none

/-- The fewest digits that read back as the magnitude. Seventeen always do. -/
def shortest (m : Magnitude) : Digits :=
  if m.mantissa = 0 then ⟨0, 0⟩
  else
    let found := (List.range 17).findSome? (fun n => m.grid? (n + 1))
    (found.getD ⟨m.mantissa, m.exponent⟩).strip 20

end Magnitude

end MonitorOperator.Decimal
