import Mathlib.Algebra.Order.Field.Power
import Mathlib.Tactic.FieldSimp
import Mathlib.Tactic.Linarith
import Mathlib.Tactic.Ring
import Mathlib.Tactic.NormNum
import Mathlib.Tactic.Positivity
import MonitorOperator.Decimal.Magnitude

/-! Rounding to the binary64 format. What it means to be the magnitude nearest to a number is said
over all magnitudes of the format. Main statements: the magnitude that is found for a quotient catches
it (`nearest?_catches`), and where none is found the quotient is too large (`nearest?_beyond`). -/

namespace MonitorOperator.Decimal.Magnitude

def value (m : Magnitude) : ℚ := m.mantissa * 2 ^ m.exponent

structure Stored (m : Magnitude) : Prop where
  fits : m.mantissa < 2 * leastNormal
  least : -1074 ≤ m.exponent
  most : m.exponent ≤ 971
  filled : leastNormal ≤ m.mantissa ∨ m.exponent = -1074

/-- No magnitude of the format is nearer to the number, and as near is none but an odd one next to
an even one. -/
structure Nearest (m : Magnitude) (x : ℚ) : Prop where
  stored : m.Stored
  near : ∀ {k : Magnitude}, k.Stored → |x - m.value| ≤ |x - k.value|
  even : ∀ {k : Magnitude}, k.Stored → |x - k.value| = |x - m.value| →
    k = m ∨ m.mantissa % 2 = 0

def tooFar : ℚ := (4 * leastNormal - 1) * 2 ^ (970 : ℤ)

/-- The lower end of the numbers that round to a magnitude, in quarters of its unit. The magnitude
below is nearer where the exponent changes. -/
def low (m : Magnitude) : Nat :=
  if m.mantissa = leastNormal ∧ -1074 < m.exponent then 4 * m.mantissa - 1 else 4 * m.mantissa - 2

def high (m : Magnitude) : Nat := 4 * m.mantissa + 2

/-- The number rounds to the magnitude. The ends belong to an even one. -/
structure Catches (m : Magnitude) (x : ℚ) : Prop where
  above : m.low * 2 ^ (m.exponent - 2) ≤ x
  below : x ≤ m.high * 2 ^ (m.exponent - 2)
  strict : m.mantissa % 2 = 1 →
    m.low * 2 ^ (m.exponent - 2) < x ∧ x < m.high * 2 ^ (m.exponent - 2)

theorem zpow_toNat {base : ℚ} (nonzero : base ≠ 0) (e : Int) :
    base ^ e = base ^ e.toNat / base ^ (-e).toNat := by
  rw [← zpow_natCast, ← zpow_natCast, ← zpow_sub₀ nonzero]
  congr 1
  omega

theorem zpow_above {base : ℚ} (nonzero : base ≠ 0) {a b : Int} (order : a ≤ b) :
    base ^ b = base ^ (b - a).toNat * base ^ a := by
  rw [← zpow_natCast, ← zpow_add₀ nonzero]
  congr 1
  omega

section Distance

variable {a b x : ℚ}

theorem nearer_of_above (order : b < a) (above : a + b < 2 * x) : |x - a| < |x - b| := by
  rw [abs_of_pos (a := x - b) (by linarith), abs_lt]
  constructor <;> linarith

theorem as_near_of_middle (middle : 2 * x = a + b) : |x - a| = |x - b| := by
  rw [abs_sub_comm x b]
  congr 1
  linarith

end Distance

variable {m k : Magnitude} {x : ℚ}

theorem value_quarters (m : Magnitude) : m.value = 4 * m.mantissa * 2 ^ (m.exponent - 2) := by
  rw [value, zpow_sub₀ (by norm_num : (2 : ℚ) ≠ 0)]
  ring

theorem le_low (m : Magnitude) : (4 * m.mantissa - 2 : ℚ) ≤ m.low := by
  have bound : 4 * m.mantissa ≤ m.low + 2 := by
    unfold low
    split <;> omega
  have cast : (4 * m.mantissa : ℚ) ≤ m.low + 2 := by exact_mod_cast bound
  linarith

theorem value_whole (coarse : m.exponent ≤ k.exponent) :
    k.value = 4 * (k.mantissa * 2 ^ (k.exponent - m.exponent).toNat : Nat) *
      2 ^ (m.exponent - 2) := by
  have split := zpow_above (by norm_num : (2 : ℚ) ≠ 0) (sub_le_sub_right coarse 2)
  rw [sub_sub_sub_cancel_right] at split
  rw [value_quarters, split]
  push_cast
  ring

/-- Of a number that rounds to the one magnitude, the other is farther away, but for ties. -/
def Yields (m k : Magnitude) (x : ℚ) : Prop :=
  k = m ∨ |x - m.value| < |x - k.value| ∨
    (|x - m.value| = |x - k.value| ∧ m.mantissa % 2 = 0 ∧ k.mantissa % 2 = 1)

theorem whole_eq (stored : m.Stored) (other : k.Stored) (coarse : m.exponent ≤ k.exponent) {j : Nat}
    (whole : k.mantissa * 2 ^ (k.exponent - m.exponent).toNat = j)
    (short : j % 2 = 1 ∨ j < 2 * leastNormal) : k = ⟨j, m.exponent⟩ := by
  have level : k.exponent = m.exponent := by
    by_contra apart
    obtain ⟨s, shift⟩ : ∃ s, (k.exponent - m.exponent).toNat = s + 1 :=
      ⟨(k.exponent - m.exponent).toNat - 1, by omega⟩
    have doubled : j = 2 * (k.mantissa * 2 ^ s) := by
      rw [← whole, shift]
      ring
    have least := stored.least
    have filled : leastNormal ≤ k.mantissa := other.filled.resolve_right (by omega)
    have grown : k.mantissa ≤ k.mantissa * 2 ^ s := Nat.le_mul_of_pos_right _ (by positivity)
    omega
  rw [level, sub_self, Int.toNat_zero, pow_zero, mul_one] at whole
  rw [← whole, ← level]

theorem Catches.yields_coarse (catches : m.Catches x) (stored : m.Stored) (other : k.Stored)
    (coarse : m.exponent ≤ k.exponent) : m.Yields k x := by
  obtain ⟨above, below, strict⟩ := catches
  have same {j} := whole_eq (j := j) stored other coarse
  have its := value_whole coarse
  have own := m.value_quarters
  have lowest := m.le_low
  have unit : (0 : ℚ) < 2 ^ (m.exponent - 2) := by positivity
  rw [high] at below strict
  push_cast at below strict
  generalize k.mantissa * 2 ^ (k.exponent - m.exponent).toNat = j at same its
  generalize (2 : ℚ) ^ (m.exponent - 2) = u at *
  have floor : (4 * m.mantissa - 2) * u ≤ m.low * u := mul_le_mul_of_nonneg_right lowest unit.le
  have near : |x - m.value| ≤ 2 * u := abs_le.mpr ⟨by linarith, by linarith⟩
  have inside (odd : m.mantissa % 2 = 1) : |x - m.value| < 2 * u :=
    abs_lt.mpr ⟨by linarith [(strict odd).1], by linarith [(strict odd).2]⟩
  have spread : 4 * |(j - m.mantissa : ℚ)| * u ≤ |x - k.value| + |x - m.value| := by
    have apart : k.value - m.value = 4 * (j - m.mantissa) * u := by linarith
    have distance := abs_sub_le k.value x m.value
    rwa [apart, abs_mul, abs_mul, abs_of_pos unit, abs_of_pos (by norm_num : (0 : ℚ) < 4),
      abs_sub_comm k.value] at distance
  rcases eq_or_ne j m.mantissa with equal | differ
  · left
    rw [same rfl (.inr (equal ▸ stored.fits)), equal]
  · have gap : 1 ≤ |(j - m.mantissa : ℚ)| := by
      exact_mod_cast Int.one_le_abs (show (j - m.mantissa : Int) ≠ 0 by omega)
    have wide : u ≤ |(j - m.mantissa : ℚ)| * u := le_mul_of_one_le_left unit.le gap
    rcases (show |x - m.value| ≤ |x - k.value| by linarith).lt_or_eq with farther | tie
    · exact .inr (.inl farther)
    · have even : m.mantissa % 2 = 0 := by
        by_contra odd
        have := inside (by omega)
        linarith
      have next : |(j - m.mantissa : ℚ)| ≤ 1 :=
        le_of_mul_le_mul_right (by linarith : _ ≤ 1 * u) unit
      have one := abs_le.mp (show |(j - m.mantissa : Int)| ≤ 1 by exact_mod_cast next)
      have odd : j % 2 = 1 := by omega
      exact .inr (.inr ⟨tie, even, by rw [same rfl (.inl odd)]; exact odd⟩)

/-- Below a magnitude with more than the least exponent, the finer ones end two quarters below the
first mantissa of 53 bits, with an odd one. -/
theorem value_finer (other : k.Stored) (fine : k.exponent < m.exponent) :
    k.value < (4 * leastNormal - 2) * 2 ^ (m.exponent - 2) ∨
      k.value = (4 * leastNormal - 2) * 2 ^ (m.exponent - 2) ∧ k.mantissa % 2 = 1 := by
  have top : (4 * leastNormal - 2 : ℚ) * 2 ^ (m.exponent - 2) =
      (2 * leastNormal - 1) * 2 ^ (m.exponent - 1) := by
    rw [show m.exponent - 1 = m.exponent - 2 + 1 by omega,
      zpow_add_one₀ (by norm_num : (2 : ℚ) ≠ 0)]
    ring
  have unit : (0 : ℚ) < 2 ^ (m.exponent - 1) := by positivity
  have step : (2 : ℚ) ^ k.exponent ≤ 2 ^ (m.exponent - 1) :=
    zpow_le_zpow_right₀ (by norm_num) (by omega)
  have scaled : k.value ≤ k.mantissa * 2 ^ (m.exponent - 1) :=
    mul_le_mul_of_nonneg_left step (by positivity)
  have fits : (k.mantissa : ℚ) ≤ 2 * leastNormal - 1 := by
    have := other.fits
    rw [le_sub_iff_add_le]
    exact_mod_cast this
  rw [top]
  rcases (scaled.trans (mul_le_mul_of_nonneg_right fits unit.le)).lt_or_eq with under | reached
  · exact .inl under
  · refine .inr ⟨reached, ?_⟩
    rw [reached] at scaled
    have least : (2 * leastNormal : ℚ) ≤ k.mantissa + 1 := by
      linarith [le_of_mul_le_mul_right scaled unit]
    have last : 2 * leastNormal ≤ k.mantissa + 1 := by exact_mod_cast least
    have := other.fits
    omega

theorem Catches.yields_fine (catches : m.Catches x) (stored : m.Stored) (other : k.Stored)
    (fine : k.exponent < m.exponent) : m.Yields k x := by
  have raised : -1074 < m.exponent := other.least.trans_lt fine
  have filled : leastNormal ≤ m.mantissa := stored.filled.resolve_right raised.ne'
  have own := m.value_quarters
  have above := catches.above
  have finer := value_finer other fine
  have unit : (0 : ℚ) < 2 ^ (m.exponent - 2) := by positivity
  generalize (2 : ℚ) ^ (m.exponent - 2) = u at *
  have under : k.value ≤ (4 * leastNormal - 2) * u := finer.elim le_of_lt (·.1.le)
  rcases filled.eq_or_lt with first | later
  · -- The number is at least midway between the two magnitudes.
    have middle : (4 * leastNormal - 1 : ℚ) * u ≤ x := by
      rw [low, if_pos ⟨first.symm, raised⟩, ← first] at above
      exact_mod_cast above
    rw [← first] at own
    have order : k.value < m.value := by linarith
    rcases finer with below | ⟨top, odd⟩
    · exact .inr (.inl (nearer_of_above order (by linarith)))
    · rcases middle.lt_or_eq with past | tie
      · exact .inr (.inl (nearer_of_above order (by linarith)))
      · exact .inr (.inr ⟨as_near_of_middle (by linarith), by rw [← first]; decide, odd⟩)
  · have step : ((leastNormal : ℚ) + 1) * u ≤ m.mantissa * u :=
      mul_le_mul_of_nonneg_right (by exact_mod_cast later) unit.le
    have floor : (4 * m.mantissa - 2) * u ≤ m.low * u :=
      mul_le_mul_of_nonneg_right m.le_low unit.le
    exact .inr (.inl (nearer_of_above (by linarith) (by linarith)))

theorem Catches.yields (catches : m.Catches x) (stored : m.Stored) (other : k.Stored) :
    m.Yields k x :=
  (le_or_gt m.exponent k.exponent).elim (catches.yields_coarse stored other)
    (catches.yields_fine stored other)

theorem Catches.nearest (catches : m.Catches x) (stored : m.Stored) : m.Nearest x where
  stored := stored
  near other := by
    rcases catches.yields stored other with rfl | farther | ⟨tie, -⟩
    · exact le_rfl
    · exact farther.le
    · exact tie.le
  even other equal := by
    rcases catches.yields stored other with same | farther | ⟨-, even, -⟩
    · exact .inl same
    · exact absurd equal farther.ne'
    · exact .inr even

theorem Catches.eq_of_nearest (catches : m.Catches x) (stored : m.Stored) (nearest : k.Nearest x) :
    k = m := by
  rcases catches.yields stored nearest.stored with same | farther | ⟨tie, even, odd⟩
  · exact same
  · exact absurd (nearest.near stored) farther.not_ge
  · rcases nearest.even stored tie with same | even'
    · exact same.symm
    · omega

theorem tooFar_eq : tooFar = (8 * leastNormal - 2) * 2 ^ (969 : ℤ) := by
  rw [tooFar, show (970 : ℤ) = 969 + 1 by norm_num, zpow_add_one₀ (by norm_num : (2 : ℚ) ≠ 0)]
  ring

theorem Catches.lt_tooFar (catches : m.Catches x) (stored : m.Stored) : x < tooFar := by
  obtain ⟨-, below, strict⟩ := catches
  have unit : (0 : ℚ) < 2 ^ (m.exponent - 2) := by positivity
  have last : (2 : ℚ) ^ (m.exponent - 2) ≤ 2 ^ (969 : ℤ) :=
    zpow_le_zpow_right₀ (by norm_num) (by linarith [stored.most])
  have reach : (8 * leastNormal - 2) * 2 ^ (m.exponent - 2) ≤ tooFar :=
    tooFar_eq ▸ mul_le_mul_of_nonneg_left last (by norm_num [leastNormal])
  generalize (2 : ℚ) ^ (m.exponent - 2) = u at *
  rw [high] at below strict
  push_cast at below strict
  rcases (Nat.le_sub_one_of_lt stored.fits).eq_or_lt with greatest | less
  · have odd : m.mantissa % 2 = 1 := by
      rw [greatest]
      decide
    have full : (m.mantissa : ℚ) = 2 * leastNormal - 1 := by
      rw [greatest]
      norm_num [leastNormal]
    have := (strict odd).2
    rw [full] at this
    linarith
  · have step : (m.mantissa : ℚ) * u ≤ (2 * leastNormal - 2) * u := by
      refine mul_le_mul_of_nonneg_right ?_ unit.le
      rw [le_sub_iff_add_le]
      exact_mod_cast (by omega : m.mantissa + 2 ≤ 2 * leastNormal)
    linarith

/-- The natural number nearest to a number, of two the even one. -/
structure Halves (y : ℚ) (q : Nat) : Prop where
  above : q - 1 / 2 ≤ y
  below : y ≤ q + 1 / 2
  strict : q % 2 = 1 → q - 1 / 2 < y ∧ y < q + 1 / 2

theorem halves_divEven (num : Nat) {den : Nat} (pos : 0 < den) :
    Halves (num / den) (divEven num den) := by
  have unit : (0 : ℚ) < den := by exact_mod_cast pos
  have parts : (num : ℚ) = den * (num / den : Nat) + (num % den : Nat) := by
    exact_mod_cast (Nat.div_add_mod num den).symm
  have rest : ((num % den : Nat) : ℚ) < den := by exact_mod_cast Nat.mod_lt num pos
  have nonneg : (0 : ℚ) ≤ (num % den : Nat) := by positivity
  have halves {q : Nat} (above : (q - 1 / 2 : ℚ) * den ≤ num) (below : num ≤ (q + 1 / 2 : ℚ) * den)
      (strict : q % 2 = 1 → (q - 1 / 2 : ℚ) * den < num ∧ num < (q + 1 / 2 : ℚ) * den) :
      Halves (num / den) q :=
    ⟨(le_div_iff₀ unit).mpr above, (div_le_iff₀ unit).mpr below, fun odd =>
      ⟨(lt_div_iff₀ unit).mpr (strict odd).1, (div_lt_iff₀ unit).mpr (strict odd).2⟩⟩
  unfold divEven
  generalize num / den = q at *
  generalize num % den = r at *
  simp only [Bool.or_eq_true, Bool.and_eq_true, decide_eq_true_eq, beq_iff_eq]
  split
  · rename_i up
    have half : (den : ℚ) ≤ 2 * r := by exact_mod_cast (by omega : den ≤ 2 * r)
    refine halves ?_ ?_ fun odd => ?_
    · push_cast
      linarith
    · push_cast
      linarith
    · have past : (den : ℚ) < 2 * r := by exact_mod_cast (by omega : den < 2 * r)
      push_cast
      constructor <;> linarith
  · rename_i down
    have half : (2 * r : ℚ) ≤ den := by exact_mod_cast (by omega : 2 * r ≤ den)
    refine halves (by linarith) (by linarith) fun odd => ?_
    have short : (2 * r : ℚ) < den := by exact_mod_cast (by omega : 2 * r < den)
    constructor <;> linarith

theorem shifted_pos (num : Nat) {den : Nat} (pos : 0 < den) (e : Int) : 0 < (shifted num den e).2 :=
  Nat.mul_pos pos (Nat.pow_pos (by norm_num))

theorem shifted_value (num den : Nat) (e : Int) :
    ((shifted num den e).1 / (shifted num den e).2 : ℚ) = num / den / 2 ^ e := by
  rw [zpow_toNat (by norm_num : (2 : ℚ) ≠ 0)]
  simp only [shifted, Nat.pow_eq]
  push_cast
  field_simp

def unit (num den : Nat) : Int :=
  let guess : Int := (num.log2 : Int) - den.log2 - 53
  let parts := shifted num den guess
  max (if parts.1 / parts.2 < 2 * leastNormal then guess else guess + 1) (-1074)

theorem leastNormal_eq : (leastNormal : ℚ) = 2 ^ (52 : ℤ) := by norm_num [leastNormal]

theorem guess_bounds {num den : Nat} (nonzero : num ≠ 0) (pos : 0 < den) :
    leastNormal * (2 : ℚ) ^ ((num.log2 : Int) - den.log2 - 53) < num / den ∧
      (num / den : ℚ) < 4 * leastNormal * 2 ^ ((num.log2 : Int) - den.log2 - 53) := by
  have two : (2 : ℚ) ≠ 0 := by norm_num
  have unit : (0 : ℚ) < den := by exact_mod_cast pos
  have numLow : (2 : ℚ) ^ (num.log2 : ℤ) ≤ num := by exact_mod_cast Nat.log2_self_le nonzero
  have numHigh : (num : ℚ) < 2 ^ (num.log2 + 1 : ℤ) := by exact_mod_cast Nat.lt_log2_self
  have denLow : (2 : ℚ) ^ (den.log2 : ℤ) ≤ den := by exact_mod_cast Nat.log2_self_le pos.ne'
  have denHigh : (den : ℚ) < 2 ^ (den.log2 + 1 : ℤ) := by exact_mod_cast Nat.lt_log2_self
  have low : leastNormal * (2 : ℚ) ^ ((num.log2 : Int) - den.log2 - 53) =
      2 ^ (num.log2 : ℤ) / 2 ^ (den.log2 + 1 : ℤ) := by
    rw [leastNormal_eq, ← zpow_add₀ two, ← zpow_sub₀ two]
    congr 1
    ring
  have high : 4 * leastNormal * (2 : ℚ) ^ ((num.log2 : Int) - den.log2 - 53) =
      2 ^ (num.log2 + 1 : ℤ) / 2 ^ (den.log2 : ℤ) := by
    rw [leastNormal_eq, show (4 : ℚ) = 2 ^ (2 : ℤ) by norm_num, ← zpow_add₀ two, ← zpow_add₀ two,
      ← zpow_sub₀ two]
    congr 1
    ring
  rw [low, high]
  exact ⟨div_lt_div₀' numLow denHigh (by positivity) (by positivity),
    div_lt_div₀ numHigh denLow (by positivity) (by positivity)⟩

theorem unit_bounds {num den : Nat} (nonzero : num ≠ 0) (pos : 0 < den) :
    -1074 ≤ unit num den ∧
      (num / den : ℚ) < 2 * leastNormal * 2 ^ unit num den ∧
      ((leastNormal : ℚ) * 2 ^ unit num den ≤ num / den ∨ unit num den = -1074) := by
  obtain ⟨low, high⟩ := guess_bounds nonzero pos
  have quotient := shifted_value num den ((num.log2 : Int) - den.log2 - 53)
  have divisor := shifted_pos num pos ((num.log2 : Int) - den.log2 - 53)
  dsimp only [unit]
  generalize (num.log2 : Int) - den.log2 - 53 = guess at *
  generalize shifted num den guess = parts at *
  generalize (num / den : ℚ) = y at *
  have two : (2 : ℚ) ≠ 0 := by norm_num
  have step : (0 : ℚ) < 2 ^ guess := by positivity
  have short : parts.1 / parts.2 < 2 * leastNormal ↔ y < 2 * leastNormal * 2 ^ guess := by
    rw [Nat.div_lt_iff_lt_mul divisor, ← div_lt_iff₀ step, ← quotient,
      div_lt_iff₀ (by exact_mod_cast divisor)]
    exact_mod_cast Iff.rfl
  -- The exponent before it is raised to the least one.
  have fits : ∃ e, (if parts.1 / parts.2 < 2 * leastNormal then guess else guess + 1) = e ∧
      leastNormal * (2 : ℚ) ^ e ≤ y ∧ y < 2 * leastNormal * 2 ^ e := by
    by_cases below : parts.1 / parts.2 < 2 * leastNormal
    · exact ⟨guess, if_pos below, low.le, short.mp below⟩
    · refine ⟨guess + 1, if_neg below, ?_, ?_⟩ <;> rw [zpow_add_one₀ two]
      · linarith [not_lt.mp (below ∘ short.mpr)]
      · linarith
  obtain ⟨e, chosen, reached, upto⟩ := fits
  rw [chosen]
  rcases le_total e (-1074) with small | normal
  · rw [max_eq_right small]
    have grown : (2 : ℚ) ^ e ≤ 2 ^ (-1074 : ℤ) := zpow_le_zpow_right₀ (by norm_num) small
    refine ⟨le_rfl, upto.trans_le ?_, .inr rfl⟩
    exact mul_le_mul_of_nonneg_left grown (by positivity)
  · rw [max_eq_left normal]
    exact ⟨normal, upto, .inl reached⟩

def carry (q : Nat) (e : Int) : Magnitude :=
  if q = 2 * leastNormal then ⟨leastNormal, e + 1⟩ else ⟨q, e⟩

theorem nearest?_eq {num den : Nat} (nonzero : num ≠ 0) :
    nearest? num den =
      let e := unit num den
      let parts := shifted num den e
      let rounded := carry (divEven parts.1 parts.2) e
      if rounded.exponent ≤ 971 then some rounded else none := by
  rw [nearest?, if_neg nonzero]
  rfl

section Carry

variable {q : Nat} {e : Int}

theorem quarter_eq (e : Int) : (2 : ℚ) ^ e = 4 * 2 ^ (e - 2) := by
  rw [zpow_sub₀ (by norm_num : (2 : ℚ) ≠ 0)]
  ring

theorem Halves.quarters (halves : Halves (x / 2 ^ e) q) :
    (4 * q - 2 : ℚ) * 2 ^ (e - 2) ≤ x ∧ x ≤ (4 * q + 2 : ℚ) * 2 ^ (e - 2) ∧
      (q % 2 = 1 → (4 * q - 2 : ℚ) * 2 ^ (e - 2) < x ∧ x < (4 * q + 2 : ℚ) * 2 ^ (e - 2)) := by
  have step : (0 : ℚ) < 2 ^ e := by positivity
  obtain ⟨above, below, strict⟩ := halves
  rw [le_div_iff₀ step] at above
  rw [div_le_iff₀ step] at below
  rw [lt_div_iff₀ step, div_lt_iff₀ step] at strict
  rw [quarter_eq] at above below strict
  exact ⟨by linarith, by linarith, fun odd =>
    ⟨by linarith [(strict odd).1], by linarith [(strict odd).2]⟩⟩

theorem Halves.le (halves : Halves (x / 2 ^ e) q) (upto : x < 2 * leastNormal * 2 ^ e) :
    q ≤ 2 * leastNormal := by
  have under : x / 2 ^ e < 2 * leastNormal := (div_lt_iff₀ (by positivity)).mpr upto
  have close : (q : ℚ) < 2 * leastNormal + 1 := by linarith [halves.above]
  exact Nat.lt_succ_iff.mp (by exact_mod_cast close)

theorem Halves.ge (halves : Halves (x / 2 ^ e) q) (reached : leastNormal * 2 ^ e ≤ x) :
    leastNormal ≤ q := by
  have scaled : (leastNormal : ℚ) ≤ x / 2 ^ e := (le_div_iff₀ (by positivity)).mpr reached
  have close : (leastNormal : ℚ) < q + 1 := by linarith [halves.below]
  exact Nat.lt_succ_iff.mp (by exact_mod_cast close)

theorem Halves.catches (halves : Halves (x / 2 ^ e) q) (nonneg : 0 ≤ x)
    (reached : q = leastNormal → -1074 < e → leastNormal * 2 ^ e ≤ x) :
    (⟨q, e⟩ : Magnitude).Catches x := by
  obtain ⟨above, below, strict⟩ := halves.quarters
  have positive : (0 : ℚ) < 2 ^ (e - 2) := by positivity
  rw [quarter_eq] at reached
  refine ⟨?_, by exact_mod_cast below, fun odd => ?_⟩
  · dsimp only [low]
    split
    · rename_i first
      have start := reached first.1 first.2
      have less : ((4 * q - 1 : Nat) : ℚ) ≤ 4 * leastNormal := by
        exact_mod_cast (by omega : 4 * q - 1 ≤ 4 * leastNormal)
      linarith [mul_le_mul_of_nonneg_right less positive.le]
    · rcases q.eq_zero_or_pos with rfl | filled
      · simpa using nonneg
      · rw [Nat.cast_sub (by omega)]
        exact_mod_cast above
  · have whole : (⟨q, e⟩ : Magnitude).low = 4 * q - 2 := if_neg fun first => by
      rw [first.1] at odd
      contradiction
    dsimp only at odd
    rw [whole, Nat.cast_sub (by omega)]
    exact_mod_cast strict odd

theorem carry_catches (halves : Halves (x / 2 ^ e) q) (nonneg : 0 ≤ x) (least : -1074 ≤ e)
    (upto : x < 2 * leastNormal * 2 ^ e) (filled : leastNormal * 2 ^ e ≤ x ∨ e = -1074) :
    (carry q e).Catches x := by
  unfold carry
  split
  · rename_i full
    obtain ⟨above, -⟩ := halves.quarters
    have doubled : (2 : ℚ) ^ (e + 1 - 2) = 2 * 2 ^ (e - 2) := by
      rw [show e + 1 - 2 = e - 2 + 1 by ring, zpow_add_one₀ (by norm_num : (2 : ℚ) ≠ 0)]
      ring
    rw [quarter_eq] at upto
    rw [full] at above
    push_cast at above
    refine ⟨?_, ?_, fun odd => absurd (show leastNormal % 2 = 1 from odd) (by decide)⟩
    · have first : (⟨leastNormal, e + 1⟩ : Magnitude).low = 4 * leastNormal - 1 :=
        if_pos ⟨rfl, by dsimp only; omega⟩
      rw [first, Nat.cast_sub (by decide), doubled]
      push_cast
      linarith
    · dsimp only [high]
      rw [doubled]
      push_cast
      linarith
  · exact halves.catches nonneg fun _ raised => filled.resolve_right raised.ne'

theorem carry_stored (halves : Halves (x / 2 ^ e) q) (least : -1074 ≤ e)
    (upto : x < 2 * leastNormal * 2 ^ e) (filled : leastNormal * 2 ^ e ≤ x ∨ e = -1074)
    (most : (carry q e).exponent ≤ 971) : (carry q e).Stored := by
  have fits := halves.le upto
  unfold carry at *
  split at most
  · rename_i full
    rw [if_pos full]
    exact ⟨show leastNormal < 2 * leastNormal by decide, by dsimp only; omega, most, .inl le_rfl⟩
  · rename_i short
    rw [if_neg short]
    exact ⟨lt_of_le_of_ne fits short, least, most, filled.imp_left halves.ge⟩

theorem tooFar_le_of_carry (halves : Halves (x / 2 ^ e) q)
    (filled : leastNormal * 2 ^ e ≤ x ∨ e = -1074) (beyond : 971 < (carry q e).exponent) :
    tooFar ≤ x := by
  have reaches (far : 971 ≤ e) : (8 * leastNormal - 2) * 2 ^ (969 : ℤ) ≤
      (8 * leastNormal - 2) * (2 : ℚ) ^ (e - 2) :=
    mul_le_mul_of_nonneg_left (zpow_le_zpow_right₀ (by norm_num) (by omega))
      (by norm_num [leastNormal])
  rw [tooFar_eq]
  unfold carry at beyond
  split at beyond
  · rename_i full
    obtain ⟨above, -⟩ := halves.quarters
    rw [full] at above
    push_cast at above
    linarith [reaches (by dsimp only at beyond; omega)]
  · have far : 972 ≤ e := beyond
    have reached := filled.resolve_right (by omega)
    have octave : (8 : ℚ) * 2 ^ (969 : ℤ) ≤ 2 ^ e := by
      rw [show (8 : ℚ) = 2 ^ (3 : ℤ) by norm_num, ← zpow_add₀ (by norm_num : (2 : ℚ) ≠ 0)]
      exact zpow_le_zpow_right₀ (by norm_num) (by omega)
    have scaled := mul_le_mul_of_nonneg_left octave (by positivity : (0 : ℚ) ≤ leastNormal)
    have positive : (0 : ℚ) < 2 ^ (969 : ℤ) := zpow_pos (by norm_num) _
    generalize (2 : ℚ) ^ (969 : ℤ) = last at *
    linarith

end Carry

theorem zero_stored : zero.Stored := ⟨by decide, by decide, by decide, .inr rfl⟩

theorem zero_catches (nonneg : 0 ≤ x) (small : x ≤ 2 * 2 ^ (-1076 : ℤ)) : zero.Catches x :=
  ⟨by simpa [low, zero, leastNormal] using nonneg, by simpa [high, zero] using small,
    fun odd => absurd odd (by decide)⟩

variable {num den : Nat}

theorem nearest?_catches (pos : 0 < den) (found : nearest? num den = some m) :
    m.Stored ∧ m.Catches (num / den) := by
  rcases eq_or_ne num 0 with rfl | nonzero
  · cases found
    exact ⟨zero_stored, zero_catches (by simp) (by simp)⟩
  · obtain ⟨least, upto, filled⟩ := unit_bounds nonzero pos
    have halves := halves_divEven (shifted num den (unit num den)).1
      (shifted_pos num pos (unit num den))
    rw [shifted_value] at halves
    rw [nearest?_eq nonzero] at found
    obtain ⟨most, it⟩ := Option.ite_none_right_eq_some.mp found
    cases it
    exact ⟨carry_stored halves least upto filled most,
      carry_catches halves (by positivity) least upto filled⟩

theorem nearest?_beyond (pos : 0 < den) (missed : nearest? num den = none) :
    tooFar ≤ num / den := by
  rcases eq_or_ne num 0 with rfl | nonzero
  · cases missed
  · obtain ⟨-, -, filled⟩ := unit_bounds nonzero pos
    have halves := halves_divEven (shifted num den (unit num den)).1
      (shifted_pos num pos (unit num den))
    rw [shifted_value] at halves
    rw [nearest?_eq nonzero] at missed
    exact tooFar_le_of_carry halves filled
      (not_le.mp fun most => by simp [most] at missed)

end MonitorOperator.Decimal.Magnitude
