import MonitorOperator.Proofs.Decimal.Reading

/-! Numbers of the binary64 format as they are written: in the fewest digits, all of them in place.
Main statement: what is written spells the number again. -/

namespace MonitorOperator.Decimal

open Text (IsDigits signs)

namespace Magnitude

variable {m : Magnitude} {num den : Nat}

theorem leadingPower_bounds (numPos : 0 < num) (denPos : 0 < den) :
    (10 ^ leadingPower num den : ℚ) ≤ num / den ∧
      (num / den : ℚ) < 10 ^ (leadingPower num den + 1) := by
  have unit : (0 : ℚ) < den := by exact_mod_cast denPos
  rw [le_div_iff₀ unit, div_lt_iff₀ unit]
  unfold leadingPower
  split
  · rename_i whole
    obtain ⟨high, low⟩ := toDigits_bounds (num / den)
    have low := low (Nat.div_pos whole denPos).ne'
    have positive : 0 < (Nat.toDigits 10 (num / den)).length := Nat.length_toDigits_pos
    generalize (Nat.toDigits 10 (num / den)).length = n at *
    rw [Nat.le_div_iff_mul_le denPos] at low
    rw [Nat.div_lt_iff_lt_mul denPos] at high
    rw [sub_add_cancel, show (n : Int) - 1 = ((n - 1 : Nat) : Int) by omega, zpow_natCast,
      zpow_natCast]
    exact ⟨by exact_mod_cast low, by exact_mod_cast high⟩
  · rename_i part
    obtain ⟨k, ratio⟩ : ∃ k, (den + num - 1) / num = k + 2 := by
      refine Nat.exists_eq_add_of_le' ((Nat.le_div_iff_mul_le numPos).mpr ?_)
      omega
    have covers : den ≤ num * (k + 2) := by
      have := Nat.div_add_mod (den + num - 1) num
      have := Nat.mod_lt (den + num - 1) numPos
      rw [ratio] at *
      omega
    have fits : num * (k + 1) < den := by
      have := Nat.div_mul_le_self (den + num - 1) num
      rw [ratio] at this
      linarith [Nat.sub_lt (by omega : 0 < den + num) Nat.one_pos]
    rw [ratio]
    dsimp only
    rw [if_neg (by omega), show k + 2 - 1 = k + 1 by omega]
    obtain ⟨high, low⟩ := toDigits_bounds (k + 1)
    have low := low (by omega)
    have positive : 0 < (Nat.toDigits 10 (k + 1)).length := Nat.length_toDigits_pos
    generalize (Nat.toDigits 10 (k + 1)).length = n at *
    have above : den ≤ 10 ^ n * num :=
      covers.trans (mul_comm num (10 ^ n) ▸ Nat.mul_le_mul_left num high)
    have below : 10 ^ (n - 1) * num < den :=
      (Nat.mul_le_mul_right _ low).trans_lt (mul_comm num _ ▸ fits)
    rw [show -(n : Int) + 1 = -((n - 1 : Nat) : Int) by omega, zpow_neg, zpow_neg, zpow_natCast,
      zpow_natCast, inv_mul_le_iff₀ (by positivity), lt_inv_mul_iff₀ (by positivity)]
    exact ⟨by exact_mod_cast above, by exact_mod_cast below⟩

def scale (m : Magnitude) (unit : Int) (x : Nat) : Nat × Nat :=
  (x * Nat.pow 2 (m.exponent - 2).toNat * Nat.pow 10 (-unit).toNat,
    Nat.pow 2 (2 - m.exponent).toNat * Nat.pow 10 unit.toNat)

def readsBack (m : Magnitude) (unit : Int) (c : Nat) : Bool :=
  let d := (m.scale unit 0).2
  if m.mantissa % 2 = 0 then (m.scale unit m.low).1 ≤ c * d && c * d ≤ (m.scale unit m.high).1
  else (m.scale unit m.low).1 < c * d && c * d < (m.scale unit m.high).1

def lastPower (m : Magnitude) (count : Nat) : Int :=
  leadingPower m.fraction.1 m.fraction.2 + 1 - count

def under (m : Magnitude) (count : Nat) : Nat :=
  (m.scale (m.lastPower count) (4 * m.mantissa)).1 / (m.scale (m.lastPower count) 0).2

theorem grid?_eq (m : Magnitude) (count : Nat) :
    m.grid? count =
      let unit := m.lastPower count
      let below := m.under count
      let above := below + 1
      match m.readsBack unit below, m.readsBack unit above with
      | true, true =>
        let middle := (m.scale unit (4 * m.mantissa)).1
        let d := (m.scale unit 0).2
        let down := middle - below * d
        let up := above * d - middle
        some ⟨if down < up || (down == up && below % 2 == 0) then below else above, unit⟩
      | true, false => some ⟨below, unit⟩
      | false, true => some ⟨above, unit⟩
      | false, false => none := rfl

theorem scale_pos (m : Magnitude) (unit : Int) (x : Nat) : 0 < (m.scale unit x).2 :=
  Nat.mul_pos (Nat.pow_pos (by norm_num)) (Nat.pow_pos (by norm_num))

theorem scale_value (m : Magnitude) (unit : Int) (x : Nat) :
    ((m.scale unit x).1 / (m.scale unit x).2 : ℚ) = x * 2 ^ (m.exponent - 2) / 10 ^ unit := by
  rw [zpow_toNat (by norm_num : (2 : ℚ) ≠ 0), zpow_toNat (by norm_num : (10 : ℚ) ≠ 0), neg_sub]
  simp only [scale, Nat.pow_eq]
  push_cast
  field_simp

variable {unit : Int} {c x : Nat}

theorem scale_le_iff : (m.scale unit x).1 ≤ c * (m.scale unit 0).2 ↔
    (x * 2 ^ (m.exponent - 2) : ℚ) ≤ c * 10 ^ unit := by
  have pos : (0 : ℚ) < (m.scale unit x).2 := by exact_mod_cast m.scale_pos unit x
  rw [← div_le_iff₀ (by positivity), ← scale_value, div_le_iff₀ pos]
  exact_mod_cast Iff.rfl

theorem le_scale_iff : c * (m.scale unit 0).2 ≤ (m.scale unit x).1 ↔
    (c * 10 ^ unit : ℚ) ≤ x * 2 ^ (m.exponent - 2) := by
  have pos : (0 : ℚ) < (m.scale unit x).2 := by exact_mod_cast m.scale_pos unit x
  rw [← le_div_iff₀ (by positivity), ← scale_value, le_div_iff₀ pos]
  exact_mod_cast Iff.rfl

theorem readsBack_iff : m.readsBack unit c = true ↔ m.Catches (c * 10 ^ unit) := by
  unfold readsBack
  dsimp only
  split
  · rename_i even
    rw [Bool.and_eq_true, decide_eq_true_eq, decide_eq_true_eq, scale_le_iff, le_scale_iff]
    exact ⟨fun ends => ⟨ends.1, ends.2, fun odd => by omega⟩,
      fun caught => ⟨caught.above, caught.below⟩⟩
  · rename_i odd
    rw [Bool.and_eq_true, decide_eq_true_eq, decide_eq_true_eq, ← not_le, ← not_le, le_scale_iff,
      scale_le_iff, not_le, not_le]
    exact ⟨fun ends => ⟨ends.1.le, ends.2.le, fun _ => ends⟩,
      fun caught => caught.strict (by omega)⟩

theorem catches_of_between {x : ℚ} (low : m.low * 2 ^ (m.exponent - 2) < x)
    (high : x < m.high * 2 ^ (m.exponent - 2)) : m.Catches x :=
  ⟨low.le, high.le, fun _ => ⟨low, high⟩⟩

theorem value_lt_high (m : Magnitude) : m.value < m.high * 2 ^ (m.exponent - 2) := by
  rw [value_quarters]
  refine mul_lt_mul_of_pos_right ?_ (by positivity)
  rw [high]
  exact_mod_cast Nat.lt_add_of_pos_right (by norm_num)

theorem low_lt_value (nonzero : m.mantissa ≠ 0) : m.low * 2 ^ (m.exponent - 2) < m.value := by
  have less : m.low < 4 * m.mantissa := by
    unfold low
    split <;> omega
  rw [value_quarters]
  exact mul_lt_mul_of_pos_right (by exact_mod_cast less) (by positivity)

theorem low_le_value (m : Magnitude) : m.low * 2 ^ (m.exponent - 2) ≤ m.value := by
  have le : m.low ≤ 4 * m.mantissa := by
    unfold low
    split <;> omega
  rw [value_quarters]
  exact mul_le_mul_of_nonneg_right (by exact_mod_cast le) (by positivity)

theorem Catches.from_below {x y : ℚ} (caught : m.Catches x) (start : x ≤ y) (upto : y ≤ m.value) :
    m.Catches y := by
  have top := m.value_lt_high
  exact ⟨caught.above.trans start, (upto.trans_lt top).le, fun odd =>
    ⟨(caught.strict odd).1.trans_le start, upto.trans_lt top⟩⟩

theorem Catches.from_above {x y : ℚ} (caught : m.Catches x) (start : m.value ≤ y) (upto : y ≤ x) :
    m.Catches y := by
  refine ⟨m.low_le_value.trans start, upto.trans caught.below, fun odd => ?_⟩
  have nonzero : m.mantissa ≠ 0 := by
    rintro zero
    rw [zero] at odd
    contradiction
  exact ⟨(low_lt_value nonzero).trans_le start, upto.trans_lt (caught.strict odd).2⟩

theorem under_bounds (m : Magnitude) (count : Nat) :
    (m.under count * 10 ^ m.lastPower count : ℚ) ≤ m.value ∧
      m.value < (m.under count + 1 : Nat) * 10 ^ m.lastPower count := by
  have whole : m.value = (4 * m.mantissa : Nat) * 2 ^ (m.exponent - 2) := by
    rw [value_quarters]
    push_cast
    rfl
  rw [whole, ← not_le, ← le_scale_iff, ← le_scale_iff]
  refine ⟨Nat.div_mul_le_self _ _, not_le.mpr ?_⟩
  exact (Nat.div_lt_iff_lt_mul (m.scale_pos _ 0)).mp (Nat.lt_succ_self _)

theorem fraction_value (m : Magnitude) : (m.fraction.1 / m.fraction.2 : ℚ) = m.value := by
  rw [value, zpow_toNat (by norm_num : (2 : ℚ) ≠ 0)]
  simp only [fraction, Nat.pow_eq]
  push_cast
  ring

theorem middle_iff (m : Magnitude) (count : Nat) :
    (2 * (m.scale (m.lastPower count) (4 * m.mantissa)).1 ≤
        (2 * m.under count + 1) * (m.scale (m.lastPower count) 0).2 ↔
      m.value - m.under count * 10 ^ m.lastPower count ≤
        (m.under count + 1 : Nat) * 10 ^ m.lastPower count - m.value) ∧
    ((2 * m.under count + 1) * (m.scale (m.lastPower count) 0).2 ≤
        2 * (m.scale (m.lastPower count) (4 * m.mantissa)).1 ↔
      (m.under count + 1 : Nat) * 10 ^ m.lastPower count - m.value ≤
        m.value - m.under count * 10 ^ m.lastPower count) := by
  have double : 2 * (m.scale (m.lastPower count) (4 * m.mantissa)).1 =
      (m.scale (m.lastPower count) (8 * m.mantissa)).1 := by
    simp only [scale]
    ring
  rw [double, scale_le_iff, le_scale_iff, value_quarters]
  push_cast
  constructor <;> constructor <;> intro ordered <;> linarith

theorem grid?_cases (m : Magnitude) (count : Nat) :
    (∃ c, m.grid? count = some ⟨c, m.lastPower count⟩ ∧ m.Catches (c * 10 ^ m.lastPower count) ∧
      (c = m.under count ∨ c = m.under count + 1) ∧
      ∀ c', c' = m.under count ∨ c' = m.under count + 1 → m.Catches (c' * 10 ^ m.lastPower count) →
        |m.value - c * 10 ^ m.lastPower count| ≤ |m.value - c' * 10 ^ m.lastPower count|) ∨
    (m.grid? count = none ∧ ¬m.Catches (m.under count * 10 ^ m.lastPower count) ∧
      ¬m.Catches ((m.under count + 1 : Nat) * 10 ^ m.lastPower count)) := by
  obtain ⟨low, high⟩ := m.under_bounds count
  rw [grid?_eq]
  have below : m.readsBack (m.lastPower count) (m.under count) = true ↔ _ := readsBack_iff
  have above : m.readsBack (m.lastPower count) (m.under count + 1) = true ↔ _ := readsBack_iff
  obtain ⟨nearBelow, nearAbove⟩ := m.middle_iff count
  have start := Nat.div_mul_le_self (m.scale (m.lastPower count) (4 * m.mantissa)).1
    (m.scale (m.lastPower count) 0).2
  have upto := (Nat.div_lt_iff_lt_mul (m.scale_pos (m.lastPower count) 0)).mp
    (Nat.lt_succ_self (m.under count))
  change m.under count * _ ≤ _ at start
  rw [Nat.succ_mul] at upto
  have belowFar : |m.value - m.under count * 10 ^ m.lastPower count| =
      m.value - m.under count * 10 ^ m.lastPower count := abs_of_nonneg (by linarith)
  have aboveFar : |m.value - (m.under count + 1 : Nat) * 10 ^ m.lastPower count| =
      (m.under count + 1 : Nat) * 10 ^ m.lastPower count - m.value := by
    rw [abs_sub_comm, abs_of_nonneg (by linarith)]
  dsimp only
  -- by which of the two neighbours read back; where both do, the middle between them decides
  split <;> rename_i lower upper <;> rw [lower] at below <;> rw [upper] at above
  · left
    split
    · rename_i down
      refine ⟨_, rfl, below.mp rfl, .inl rfl, ?_⟩
      rintro c' (rfl | rfl) -
      · exact le_rfl
      · rw [belowFar, aboveFar, ← nearBelow]
        simp only [Bool.or_eq_true, Bool.and_eq_true, decide_eq_true_eq, beq_iff_eq] at down
        rw [Nat.add_mul, Nat.mul_assoc]
        rw [Nat.add_mul] at down
        omega
    · rename_i up
      refine ⟨_, rfl, above.mp rfl, .inr rfl, ?_⟩
      rintro c' (rfl | rfl) -
      · rw [belowFar, aboveFar, ← nearAbove]
        simp only [Bool.or_eq_true, Bool.and_eq_true, decide_eq_true_eq, beq_iff_eq] at up
        rw [Nat.add_mul, Nat.mul_assoc]
        rw [Nat.add_mul] at up
        omega
      · exact le_rfl
  · refine .inl ⟨_, rfl, below.mp rfl, .inl rfl, ?_⟩
    rintro c' (rfl | rfl) caught
    · exact le_rfl
    · exact absurd (above.mpr caught) nofun
  · refine .inl ⟨_, rfl, above.mp rfl, .inr rfl, ?_⟩
    rintro c' (rfl | rfl) caught
    · exact absurd (below.mpr caught) nofun
    · exact le_rfl
  · exact .inr ⟨rfl, nofun ∘ below.mpr, nofun ∘ above.mpr⟩

theorem lastPower_le (nonzero : m.mantissa ≠ 0) (n : Nat) :
    (10 ^ n * 10 ^ m.lastPower (n + 1) : ℚ) ≤ m.value ∧
      m.value < 10 ^ (n + 1) * 10 ^ m.lastPower (n + 1) := by
  have numPos : 0 < m.fraction.1 :=
    Nat.mul_pos (Nat.pos_of_ne_zero nonzero) (Nat.pow_pos (by norm_num))
  have denPos : 0 < m.fraction.2 := Nat.pow_pos (by norm_num)
  have bounds := leadingPower_bounds numPos denPos
  have split (k : Nat) : (10 ^ k * 10 ^ m.lastPower (n + 1) : ℚ) =
      10 ^ (leadingPower m.fraction.1 m.fraction.2 + k - n) := by
    rw [← zpow_natCast, ← zpow_add₀ (by norm_num)]
    congr 1
    rw [lastPower]
    push_cast
    ring
  rw [split, split, ← fraction_value]
  convert bounds using 3 <;> push_cast <;> ring

theorem neighbour_of_catches (nonzero : m.mantissa ≠ 0) {n k : Nat} {p : Int}
    (short : k < 10 ^ (n + 1)) (caught : m.Catches (k * 10 ^ p)) :
    (k * 10 ^ p ≤ (m.under (n + 1) * 10 ^ m.lastPower (n + 1) : ℚ) ∧
      m.Catches (m.under (n + 1) * 10 ^ m.lastPower (n + 1))) ∨
    (((m.under (n + 1) + 1 : Nat) * 10 ^ m.lastPower (n + 1) : ℚ) ≤ k * 10 ^ p ∧
      m.Catches ((m.under (n + 1) + 1 : Nat) * 10 ^ m.lastPower (n + 1))) := by
  obtain ⟨low, high⟩ := m.under_bounds (n + 1)
  obtain ⟨reach, -⟩ := lastPower_le nonzero n
  have step : (0 : ℚ) < 10 ^ m.lastPower (n + 1) := by positivity
  rcases le_or_gt (m.lastPower (n + 1)) p with coarse | fine
  · -- The decimal is a multiple of the unit of the neighbours.
    have multiple : (k * 10 ^ p : ℚ) =
        (k * 10 ^ (p - m.lastPower (n + 1)).toNat : Nat) * 10 ^ m.lastPower (n + 1) := by
      rw [zpow_above (by norm_num : (10 : ℚ) ≠ 0) coarse]
      push_cast
      ring
    rw [multiple] at caught ⊢
    generalize k * 10 ^ (p - m.lastPower (n + 1)).toNat = j at caught
    rcases le_or_gt j (m.under (n + 1)) with below | above
    · have order : (j * 10 ^ m.lastPower (n + 1) : ℚ) ≤
          m.under (n + 1) * 10 ^ m.lastPower (n + 1) :=
        mul_le_mul_of_nonneg_right (by exact_mod_cast below) step.le
      exact .inl ⟨order, caught.from_below order low⟩
    · have order : ((m.under (n + 1) + 1 : Nat) * 10 ^ m.lastPower (n + 1) : ℚ) ≤
          j * 10 ^ m.lastPower (n + 1) :=
        mul_le_mul_of_nonneg_right (by exact_mod_cast above) step.le
      exact .inr ⟨order, caught.from_above high.le order⟩
  · -- The decimal is below the power of ten of the first digit, and a neighbour is not.
    have first : 10 ^ n ≤ m.under (n + 1) := by
      have := lt_of_mul_lt_mul_right (reach.trans_lt high) step.le
      exact Nat.lt_succ_iff.mp (by exact_mod_cast this)
    have order : (k * 10 ^ p : ℚ) ≤ m.under (n + 1) * 10 ^ m.lastPower (n + 1) :=
      calc (k * 10 ^ p : ℚ)
        _ ≤ 10 ^ (n + 1) * 10 ^ (m.lastPower (n + 1) - 1) := by
          refine mul_le_mul (by exact_mod_cast short.le) ?_ (by positivity) (by positivity)
          exact zpow_le_zpow_right₀ (by norm_num) (by omega)
        _ = 10 ^ n * 10 ^ m.lastPower (n + 1) := by
          rw [zpow_sub_one₀ (by norm_num)]
          ring
        _ ≤ m.under (n + 1) * 10 ^ m.lastPower (n + 1) :=
          mul_le_mul_of_nonneg_right (by exact_mod_cast first) step.le
    exact .inl ⟨order, caught.from_below order low⟩

theorem grid?_of_catches (nonzero : m.mantissa ≠ 0) {n k : Nat} {p : Int}
    (short : k < 10 ^ (n + 1)) (caught : m.Catches (k * 10 ^ p)) :
    ∃ c, m.grid? (n + 1) = some ⟨c, m.lastPower (n + 1)⟩ ∧
      |m.value - c * 10 ^ m.lastPower (n + 1)| ≤ |m.value - k * 10 ^ p| := by
  obtain ⟨low, high⟩ := m.under_bounds (n + 1)
  have neighbour := neighbour_of_catches nonzero short caught
  rcases m.grid?_cases (n + 1) with ⟨c, found, -, -, near⟩ | ⟨-, belowMissed, aboveMissed⟩
  · refine ⟨c, found, ?_⟩
    rcases neighbour with ⟨order, here⟩ | ⟨order, here⟩
    · refine (near _ (.inl rfl) here).trans ?_
      rw [abs_of_nonneg (by linarith), abs_of_nonneg (by linarith)]
      linarith
    · refine (near _ (.inr rfl) here).trans ?_
      rw [abs_sub_comm, abs_of_nonneg (by linarith), abs_sub_comm, abs_of_nonneg (by linarith)]
      linarith
  · rcases neighbour with ⟨-, here⟩ | ⟨-, here⟩
    · exact absurd here belowMissed
    · exact absurd here aboveMissed

theorem low_cases (nonzero : m.mantissa ≠ 0) :
    (m.low : ℚ) = 4 * m.mantissa - 2 ∨
      (m.low : ℚ) = 4 * m.mantissa - 1 ∧ m.mantissa = leastNormal := by
  unfold low
  split
  · rename_i first
    refine .inr ⟨?_, first.1⟩
    rw [Nat.cast_sub (by omega)]
    push_cast
    rfl
  · left
    rw [Nat.cast_sub (by omega)]
    push_cast
    rfl

/-- Seventeen digits are enough: their neighbours are less far apart than the ends of what rounds to
the magnitude. -/
theorem grid?_seventeen (nonzero : m.mantissa ≠ 0) (stored : m.Stored) : m.grid? 17 ≠ none := by
  obtain ⟨low, high⟩ := m.under_bounds 17
  rcases m.grid?_cases 17 with ⟨_, found, -⟩ | ⟨-, belowMissed, aboveMissed⟩
  · rw [found]
    exact nofun
  · exfalso
    have reach : (10 ^ 16 * 10 ^ m.lastPower 17 : ℚ) ≤ m.value := (lastPower_le nonzero 16).1
    have own := m.value_quarters
    have unit : (0 : ℚ) < 2 ^ (m.exponent - 2) := by positivity
    have top : (m.high : ℚ) = 4 * m.mantissa + 2 := by
      rw [Magnitude.high]
      push_cast
      rfl
    have fits : (m.mantissa : ℚ) * 2 ^ (m.exponent - 2) <
        2 * leastNormal * 2 ^ (m.exponent - 2) :=
      mul_lt_mul_of_pos_right (by exact_mod_cast stored.fits) unit
    have ends := low_cases nonzero
    have lower : (m.under 17 * 10 ^ m.lastPower 17 : ℚ) ≤ m.low * 2 ^ (m.exponent - 2) :=
      not_lt.mp fun less => belowMissed (catches_of_between less (low.trans_lt m.value_lt_high))
    have upper : (m.high * 2 ^ (m.exponent - 2) : ℚ) ≤
        (m.under 17 + 1 : Nat) * 10 ^ m.lastPower 17 :=
      not_lt.mp fun less => aboveMissed (catches_of_between ((low_lt_value nonzero).trans high) less)
    rw [top] at upper
    push_cast at upper
    -- The neighbours enclose a unit of the magnitude, or three quarters of it.
    rcases ends with normal | ⟨first, least⟩
    · rw [normal] at lower
      norm_num [leastNormal] at fits
      linarith
    · rw [first, least] at lower
      rw [least] at upper
      rw [own, least] at reach
      norm_num [leastNormal] at lower upper reach
      linarith

end Magnitude

namespace Digits

def value (d : Digits) : ℚ := d.digits * 10 ^ d.exponent

theorem strip_succ (n : Nat) (d : Digits) : strip (n + 1) d =
    if d.digits ≠ 0 ∧ d.digits % 10 = 0 then strip n ⟨d.digits / 10, d.exponent + 1⟩ else d := rfl

theorem strip_value (n : Nat) (d : Digits) : (strip n d).value = d.value := by
  induction n generalizing d with
  | zero => rfl
  | succ n ih =>
    rw [strip_succ]
    split
    · rename_i trailing
      have whole : (d.digits : ℚ) = (d.digits / 10 : Nat) * 10 := by
        exact_mod_cast (Nat.div_mul_cancel (Nat.dvd_of_mod_eq_zero trailing.2)).symm
      rw [ih, value, value, whole, zpow_add_one₀ (by norm_num)]
      ring
    · rfl

theorem strip_le (n : Nat) (d : Digits) : (strip n d).digits ≤ d.digits := by
  induction n generalizing d with
  | zero => exact le_rfl
  | succ n ih =>
    rw [strip_succ]
    split
    · exact (ih _).trans (Nat.div_le_self _ _)
    · exact le_rfl

theorem strip_pow {n k : Nat} (room : k ≤ n) (e : Int) : (strip n ⟨10 ^ k, e⟩).digits = 1 := by
  induction n generalizing k e with
  | zero =>
    rw [Nat.le_zero.mp room]
    rfl
  | succ n ih =>
    cases k with
    | zero => rfl
    | succ k =>
      rw [strip_succ, if_pos ⟨by positivity, by dsimp only; omega⟩, Nat.pow_succ,
        Nat.mul_div_cancel _ (by norm_num)]
      exact ih (by omega) _

end Digits

namespace Magnitude

variable {m : Magnitude}

theorem findSome?_range {α : Type} {f : Nat → Option α} {n : Nat} {b : α}
    (found : (List.range n).findSome? f = some b) :
    ∃ a < n, f a = some b ∧ ∀ j < a, f j = none := by
  obtain ⟨before, a, after, split, here, missed⟩ := List.findSome?_eq_some_iff.mp found
  have order := List.pairwise_lt_range (n := n)
  have bound : a < n := List.mem_range.mp (by simp [split])
  rw [split] at order
  refine ⟨a, bound, here, fun j less => missed j ?_⟩
  have member : j ∈ before ++ a :: after := split ▸ List.mem_range.mpr (less.trans bound)
  rcases List.mem_append.mp member with first | rest
  · exact first
  · rcases List.mem_cons.mp rest with rfl | last
    · omega
    · have := List.rel_of_pairwise_cons (List.pairwise_append.mp order).2.1 last
      omega

theorem shortest_cases (nonzero : m.mantissa ≠ 0) (stored : m.Stored) :
    ∃ n c, m.shortest = Digits.strip 20 ⟨c, m.lastPower (n + 1)⟩ ∧ n < 17 ∧
      c ≤ 10 ^ (n + 1) ∧ m.Catches (c * 10 ^ m.lastPower (n + 1)) ∧
      m.grid? (n + 1) = some ⟨c, m.lastPower (n + 1)⟩ ∧ ∀ j < n, m.grid? (j + 1) = none := by
  rw [shortest, if_neg nonzero]
  cases found : (List.range 17).findSome? (fun n => m.grid? (n + 1)) with
  | none =>
    have missed := List.findSome?_eq_none_iff.mp found 16 (by simp)
    exact absurd missed (grid?_seventeen nonzero stored)
  | some d =>
    obtain ⟨n, bound, here, before⟩ := findSome?_range found
    rcases m.grid?_cases (n + 1) with ⟨c, chosen, caught, neighbour, -⟩ | ⟨missed, -⟩
    · cases here.symm.trans chosen
      have less : (m.under (n + 1) : ℚ) < 10 ^ (n + 1) :=
        lt_of_mul_lt_mul_right ((m.under_bounds (n + 1)).1.trans_lt (lastPower_le nonzero n).2)
          (by positivity)
      have below : m.under (n + 1) < 10 ^ (n + 1) := by exact_mod_cast less
      exact ⟨n, c, rfl, bound, by omega, caught, chosen, before⟩
    · rw [missed] at here
      contradiction

theorem Stored.eq_zero (stored : m.Stored) (empty : m.mantissa = 0) : m = zero := by
  have exponent : m.exponent = -1074 := stored.filled.resolve_left (by
    rw [empty]
    decide)
  rw [zero, ← empty, ← exponent]

theorem shortest_catches (stored : m.Stored) : m.Catches m.shortest.value := by
  by_cases nonzero : m.mantissa = 0
  · rw [shortest, if_pos nonzero, stored.eq_zero nonzero]
    exact zero_catches (by simp [Digits.value]) (by simp [Digits.value])
  obtain ⟨n, c, found, -, -, caught, -⟩ := shortest_cases nonzero stored
  rw [found, Digits.strip_value]
  exact caught

/-- No decimal with fewer digits rounds to the magnitude, and none with as many is nearer to it. -/
theorem shortest_best (stored : m.Stored) {k : Nat} {p : Int} (caught : m.Catches (k * 10 ^ p)) :
    m.shortest.text.length ≤ (Nat.toDigits 10 k).length ∧
      ((Nat.toDigits 10 k).length = m.shortest.text.length →
        |m.value - m.shortest.value| ≤ |m.value - k * 10 ^ p|) := by
  by_cases nonzero : m.mantissa = 0
  · rw [shortest, if_pos nonzero, stored.eq_zero nonzero]
    have same : zero.value = Digits.value ⟨0, 0⟩ := by simp [Digits.value, value, zero]
    refine ⟨Nat.length_toDigits_pos, fun _ => ?_⟩
    rw [same, sub_self, abs_zero]
    exact abs_nonneg _
  obtain ⟨n, c, found, bound, small, -, chosen, before⟩ := shortest_cases nonzero stored
  have fewest : m.shortest.text.length ≤ n + 1 := by
    rw [found, Digits.text, Nat.length_toDigits_le_iff (by decide) (by omega)]
    rcases small.lt_or_eq with less | rfl
    · exact (Digits.strip_le 20 _).trans_lt less
    · rw [Digits.strip_pow (by omega)]
      exact Nat.one_lt_pow (by omega) (by norm_num)
  have short := (toDigits_bounds k).1
  refine ⟨fewest.trans (not_lt.mp fun fewer => ?_), fun equal => ?_⟩
  · obtain ⟨j, length⟩ : ∃ j, (Nat.toDigits 10 k).length = j + 1 :=
      ⟨_, (Nat.succ_pred_eq_of_pos Nat.length_toDigits_pos).symm⟩
    rw [length] at short fewer
    obtain ⟨_, filled, -⟩ := grid?_of_catches nonzero short caught
    rw [before j (by omega)] at filled
    contradiction
  · have room : k < 10 ^ (n + 1) :=
      short.trans_le (Nat.pow_le_pow_right (by norm_num) (equal ▸ fewest))
    obtain ⟨c', filled, near⟩ := grid?_of_catches nonzero room caught
    cases chosen.symm.trans filled
    rw [found, Digits.strip_value]
    exact near

end Magnitude

namespace Digits

theorem text_plain (d : Digits) : ∀ c ∈ d.text, c.isDigit = true := fun _ =>
  Nat.isDigit_of_mem_toDigits (by decide) (by decide)

theorem zeros_plain (n : Nat) : ∀ c ∈ List.replicate n '0', c.isDigit = true := fun _ member =>
  List.eq_of_mem_replicate member ▸ rfl

theorem positional_spells (d : Digits) : SpellsDecimal d.positional d.value := by
  have filled : d.text ≠ [] := Nat.toDigits_ne_nil
  have digits : Nat.ofDigitChars 10 d.text 0 = d.digits := Nat.ofDigitChars_ten_toDigits
  unfold positional
  dsimp only
  split
  · rename_i whole
    obtain ⟨n, exponent⟩ := Int.eq_ofNat_of_zero_le whole
    have all : IsDigits (d.text ++ List.replicate n '0') :=
      ⟨by simp [filled], List.forall_mem_append.mpr ⟨d.text_plain, zeros_plain n⟩⟩
    have spelled := SpellsDecimal.whole all .left_out
    rw [Nat.ofDigitChars_append, digits, Nat.ofDigitChars_replicate_zero,
      List.append_nil] at spelled
    have worth : d.value = (10 ^ n * d.digits : Nat) * 10 ^ (0 : Int) := by
      rw [value, exponent, zpow_natCast]
      push_cast
      ring
    rw [worth, exponent]
    exact spelled
  · rename_i part
    split
    · rename_i inside
      have all : IsDigits (d.text.take (d.exponent + d.text.length).toNat ++
          d.text.drop (d.exponent + d.text.length).toNat) := by
        rw [List.take_append_drop]
        exact ⟨filled, d.text_plain⟩
      have spelled := SpellsDecimal.pointed all .left_out
      rw [List.take_append_drop, digits, List.append_nil, List.length_drop] at spelled
      have worth : d.value = d.digits *
          10 ^ (0 - ((d.text.length - (d.exponent + d.text.length).toNat : Nat) : Int)) := by
        rw [value]
        congr 2
        omega
      rw [worth]
      exact spelled
    · rename_i outside
      have all : IsDigits (['0'] ++
          (List.replicate (-(d.exponent + d.text.length)).toNat '0' ++ d.text)) :=
        ⟨by simp, List.forall_mem_append.mpr
          ⟨by simp, List.forall_mem_append.mpr ⟨zeros_plain _, d.text_plain⟩⟩⟩
      have spelled := SpellsDecimal.pointed all .left_out
      rw [Nat.ofDigitChars_append, Nat.ofDigitChars_append,
        show Nat.ofDigitChars 10 ['0'] 0 = 0 by decide, Nat.ofDigitChars_replicate_zero, mul_zero,
        digits, List.append_nil, List.length_append, List.length_replicate] at spelled
      have worth : d.value = d.digits * 10 ^ (0 - (((-(d.exponent + d.text.length)).toNat +
          d.text.length : Nat) : Int)) := by
        rw [value]
        congr 2
        omega
      rw [worth]
      exact spelled

theorem positional_plain (d : Digits) : ∀ c ∈ d.positional, c.isDigit = true ∨ c = '.' := by
  intro c member
  unfold positional at member
  dsimp only at member
  split at member
  · exact .inl (List.forall_mem_append.mpr ⟨d.text_plain, zeros_plain _⟩ c member)
  · split at member
    · rcases List.mem_append.mp member with front | behind
      · exact .inl (d.text_plain c (List.mem_of_mem_take front))
      · rcases List.mem_cons.mp behind with point | rest
        · exact .inr point
        · exact .inl (d.text_plain c (List.mem_of_mem_drop rest))
    · rcases List.mem_append.mp member with front | behind
      · rcases List.mem_cons.mp front with rfl | rest
        · exact .inl rfl
        · rcases List.mem_cons.mp rest with point | zero
          · exact .inr point
          · exact .inl (zeros_plain _ c zero)
      · exact .inl (d.text_plain c behind)

end Digits

/-- What is written for a number of the format. A finite one is in digits, with a point but no power
of ten; they read back, no fewer do, and of as many none are nearer. -/
inductive Real.Writes : Real → List Char → Prop
  | finite {negative : Bool} {m : Magnitude} {cs : List Char} {digits : Nat} {power : Int}
    (spelled : SpellsDecimal cs (digits * 10 ^ power))
    (plain : ∀ c ∈ cs, c.isDigit = true ∨ c = '.')
    (rounded : Rounded negative (digits * 10 ^ power) (.finite negative m))
    (best : ∀ {k : Nat} {p : Int}, Rounded negative (k * 10 ^ p) (.finite negative m) →
      (Nat.toDigits 10 digits).length ≤ (Nat.toDigits 10 k).length ∧
        ((Nat.toDigits 10 k).length = (Nat.toDigits 10 digits).length →
          |m.value - digits * 10 ^ power| ≤ |m.value - k * 10 ^ p|)) :
    Writes (.finite negative m) ((if negative then ['-'] else []) ++ cs)
  | infinite {negative : Bool} :
    Writes (.infinite negative) ((if negative then ['-'] else []) ++ "inf".toList)
  | nan : Writes .notANumber "NaN".toList

namespace Real

variable {r : Real} {cs t : List Char} {negative : Bool} {m : Magnitude}

theorem Spells.stored (spelled : Spells cs (.finite negative m)) : m.Stored := by
  obtain ⟨-, ⟨-, ⟨nearest, -⟩⟩⟩ := spelled
  exact nearest.stored

theorem Rounded.catches {k : Nat} {p : Int}
    (rounded : Rounded negative (k * 10 ^ p) (.finite negative m)) : m.Catches (k * 10 ^ p) := by
  have read := rounded_iff.mp rounded
  rcases ofDecimal_cases negative k p with ⟨m', found, -, catches⟩ | ⟨found, -⟩
  · cases read.symm.trans found
    exact catches
  · cases read.symm.trans found

theorem writes_text (spelled : Spells cs r) : r.Writes r.text := by
  cases r with
  | finite negative m =>
    have stored := spelled.stored
    have caught := Magnitude.shortest_catches stored
    have rounded : Rounded negative m.shortest.value (.finite negative m) :=
      .finite (caught.nearest stored) (caught.lt_tooFar stored)
    have written := Writes.finite m.shortest.positional_spells m.shortest.positional_plain rounded
      fun other => Magnitude.shortest_best stored other.catches
    cases negative <;> exact written
  | infinite negative => cases negative <;> exact .infinite
  | notANumber => exact .nan

/-- What is written for a number spells it. -/
theorem Writes.spells (writes : r.Writes t) : Spells t r := by
  have known (negative : Bool) : ((if negative then ['-'] else [], negative)) ∈ signs := by
    cases negative <;> decide
  cases writes with
  | finite spelled _ rounded _ => exact .signed (known _) (.decimal spelled rounded)
  | infinite => exact .signed (known _) (.infinity (by decide))
  | nan => exact .signed (known false) (.nan (by decide))

end Real

end MonitorOperator.Decimal
