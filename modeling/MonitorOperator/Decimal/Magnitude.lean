/-!
Magnitudes of the binary64 format and exact rounding to it. A magnitude stands for
`mantissa * 2 ^ exponent`; every operation rounds the exact result to the nearest magnitude,
halves to the even mantissa.
-/

namespace MonitorOperator.Decimal

/-- A finite binary64 number without its sign: the mantissa is below `2 ^ 53` and the exponent
from -1074 to 971. -/
structure Magnitude where
  mantissa : Nat
  exponent : Int
deriving DecidableEq, Repr

namespace Magnitude

def leastNormal : Nat := 4503599627370496

def divEven (num den : Nat) : Nat :=
  let q := num / den
  let r := num % den
  if 2 * r > den || (2 * r == den && q % 2 == 1) then q + 1 else q

def shifted (num den : Nat) (e : Int) : Nat × Nat :=
  (num * Nat.pow 2 (-e).toNat, den * Nat.pow 2 e.toNat)

/-- The magnitude nearest to `num / den`, if the largest one is not too small for it. -/
def nearest? (num den : Nat) : Option Magnitude :=
  if num = 0 then some ⟨0, -1074⟩ else
  let guess : Int := (num.log2 : Int) - den.log2 - 53
  let (n, d) := shifted num den guess
  let e := max (if n / d < 2 * leastNormal then guess else guess + 1) (-1074)
  let (n, d) := shifted num den e
  let m := divEven n d
  let rounded : Magnitude := if m = 2 * leastNormal then ⟨leastNormal, e + 1⟩ else ⟨m, e⟩
  if rounded.exponent ≤ 971 then some rounded else none

def fraction (m : Magnitude) : Nat × Nat :=
  (m.mantissa * Nat.pow 2 m.exponent.toNat, Nat.pow 2 (-m.exponent).toNat)

def zero : Magnitude := ⟨0, -1074⟩

def plus? (a b : Magnitude) : Option Magnitude :=
  let (an, ad) := a.fraction
  let (bn, bd) := b.fraction
  nearest? (an * bd + bn * ad) (ad * bd)

def times? (a b : Magnitude) : Option Magnitude :=
  let (an, ad) := a.fraction
  let (bn, bd) := b.fraction
  nearest? (an * bn) (ad * bd)

def dividedBy? (a b : Magnitude) : Option Magnitude :=
  let (an, ad) := a.fraction
  let (bn, bd) := b.fraction
  nearest? (an * bd) (ad * bn)

end Magnitude

end MonitorOperator.Decimal
