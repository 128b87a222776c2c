import MonitorOperator.Decimal.Real
import MonitorOperator.Proofs.Decimal.Rounding
import MonitorOperator.Proofs.Text.Spelling

/-! Which texts spell a real number, and which one of the binary64 format stands for it: the nearest
to what the digits say, or an infinite one if that is too far. Main statement: these texts are read,
as that number, and no other ones. -/

namespace MonitorOperator.Decimal

open Text (IsDigits SpellsInteger signs)

inductive SpellsPower : List Char → Int → Prop
  | left_out : SpellsPower [] 0
  | lettered {c : Char} {cs : List Char} {power : Int} (letter : c = 'e' ∨ c = 'E')
    (spelled : SpellsInteger cs power) : SpellsPower (c :: cs) power

inductive SpellsDecimal : List Char → ℚ → Prop
  | whole {ds tail : List Char} {power : Int} (digits : IsDigits ds)
    (spelled : SpellsPower tail power) :
    SpellsDecimal (ds ++ tail) (Nat.ofDigitChars 10 ds 0 * 10 ^ power)
  | pointed {ds fs tail : List Char} {power : Int} (digits : IsDigits (ds ++ fs))
    (spelled : SpellsPower tail power) :
    SpellsDecimal (ds ++ '.' :: (fs ++ tail))
      (Nat.ofDigitChars 10 (ds ++ fs) 0 * 10 ^ (power - fs.length))

theorem SpellsPower.begins {tail : List Char} (spelled : SpellsPower tail power) :
    tail.takeWhile Char.isDigit = [] ∧ tail.dropWhile Char.isDigit = tail ∧
      ∀ rest, tail ≠ '.' :: rest := by
  cases spelled with
  | left_out => exact ⟨rfl, rfl, nofun⟩
  | lettered letter =>
    rcases letter with rfl | rfl <;> exact ⟨rfl, rfl, nofun⟩

theorem SpellsDecimal.begins {c : Char} {rest : List Char} {x : ℚ}
    (spelled : SpellsDecimal (c :: rest) x) : c.isDigit = true ∨ c = '.' := by
  generalize text : c :: rest = cs at spelled
  cases spelled with
  | @whole ds _ _ digits _ =>
    cases ds with
    | nil => exact absurd rfl digits.filled
    | cons d ds =>
      cases text
      exact .inl (digits.plain c (by simp))
  | @pointed ds _ _ _ digits _ =>
    cases ds with
    | nil =>
      cases text
      exact .inr rfl
    | cons d ds =>
      cases text
      exact .inl (digits.plain c (by simp))

theorem SpellsDecimal.exists_isDigit {cs : List Char} {x : ℚ} (spelled : SpellsDecimal cs x) :
    ∃ d ∈ cs, d.isDigit = true := by
  cases spelled with
  | @whole ds _ _ digits _ =>
    obtain ⟨d, member⟩ := List.exists_mem_of_ne_nil _ digits.filled
    exact ⟨d, List.mem_append_left _ member, digits.plain d member⟩
  | @pointed ds fs tail _ digits _ =>
    obtain ⟨d, member⟩ := List.exists_mem_of_ne_nil _ digits.filled
    refine ⟨d, ?_, digits.plain d member⟩
    rcases List.mem_append.mp member with here | behind
    · simp [here]
    · simp [behind]

theorem toDigits_bounds (n : Nat) : n < 10 ^ (Nat.toDigits 10 n).length ∧
    (n ≠ 0 → 10 ^ ((Nat.toDigits 10 n).length - 1) ≤ n) := by
  refine ⟨(Nat.length_toDigits_le_iff (by decide) Nat.length_toDigits_pos).mp le_rfl,
    fun nonzero => ?_⟩
  rcases Nat.eq_zero_or_pos ((Nat.toDigits 10 n).length - 1) with zero | pos
  · rw [zero]
    exact Nat.one_le_iff_ne_zero.mpr nonzero
  · refine not_lt.mp fun less => ?_
    have := (Nat.length_toDigits_le_iff (by decide) pos).mpr less
    omega

theorem toLower_of_isDigit {c : Char} (digit : c.isDigit = true) : c.toLower = c := by
  simp only [Char.isDigit, Bool.and_eq_true, decide_eq_true_eq, ge_iff_le] at digit
  refine dif_neg fun upper => ?_
  exact absurd (UInt32.le_trans upper.1 digit.2) (by decide)

theorem SpellsDecimal.not_word {cs word : List Char} {x : ℚ} (spelled : SpellsDecimal cs x)
    (plain : ∀ c ∈ word, c.isDigit = false) : cs.map Char.toLower ≠ word := by
  rintro rfl
  obtain ⟨d, member, digit⟩ := spelled.exists_isDigit
  have low := plain _ (List.mem_map_of_mem member)
  rw [toLower_of_isDigit digit, digit] at low
  contradiction

namespace Real

/-- The number of the format that stands for a number with a sign. -/
inductive Rounded (negative : Bool) (x : ℚ) : Real → Prop
  | finite {m : Magnitude} (nearest : m.Nearest x) (reach : x < Magnitude.tooFar) :
    Rounded negative x (.finite negative m)
  | infinite (far : Magnitude.tooFar ≤ x) : Rounded negative x (.infinite negative)

inductive SpellsUnsigned (negative : Bool) : List Char → Real → Prop
  | decimal {cs : List Char} {x : ℚ} {r : Real} (spelled : SpellsDecimal cs x)
    (rounded : Rounded negative x r) : SpellsUnsigned negative cs r
  | infinity {cs : List Char} (word : cs.map Char.toLower ∈ ["inf".toList, "infinity".toList]) :
    SpellsUnsigned negative cs (.infinite negative)
  | nan {cs : List Char} (word : cs.map Char.toLower = "nan".toList) :
    SpellsUnsigned negative cs .notANumber

inductive Spells : List Char → Real → Prop
  | signed {sign cs : List Char} {negative : Bool} {r : Real} (known : (sign, negative) ∈ signs)
    (spelled : SpellsUnsigned negative cs r) : Spells (sign ++ cs) r

theorem ten_pow_fraction (digits : Nat) (power : Int) :
    ((digits * Nat.pow 10 power.toNat : Nat) / (Nat.pow 10 (-power).toNat : Nat) : ℚ) =
      digits * 10 ^ power := by
  rw [Magnitude.zpow_toNat (by norm_num : (10 : ℚ) ≠ 0)]
  simp only [Nat.pow_eq]
  push_cast
  ring

variable {negative : Bool} {digits : Nat} {power : Int} {r : Real}

theorem decimal_lt (digits : Nat) (power : Int) :
    (digits * 10 ^ power : ℚ) < 10 ^ (power + (Nat.toDigits 10 digits).length) := by
  have bound : (digits : ℚ) < 10 ^ (Nat.toDigits 10 digits).length := by
    exact_mod_cast (toDigits_bounds digits).1
  rw [add_comm, zpow_add₀ (by norm_num), zpow_natCast]
  exact mul_lt_mul_of_pos_right bound (by positivity)

theorem le_decimal (nonzero : digits ≠ 0) (power : Int) :
    (10 ^ (power + (Nat.toDigits 10 digits).length - 1) : ℚ) ≤ digits * 10 ^ power := by
  have bound : (10 ^ ((Nat.toDigits 10 digits).length - 1) : ℚ) ≤ digits := by
    exact_mod_cast (toDigits_bounds digits).2 nonzero
  have positive : 0 < (Nat.toDigits 10 digits).length := Nat.length_toDigits_pos
  rw [show power + ((Nat.toDigits 10 digits).length : Int) - 1 =
      ((Nat.toDigits 10 digits).length - 1 : Nat) + power by omega,
    zpow_add₀ (by norm_num), zpow_natCast]
  exact mul_le_mul_of_nonneg_right bound (by positivity)

theorem octaves_le (n : Nat) : (2 : ℚ) ^ (3 * n : ℤ) ≤ 10 ^ n := by
  have octave : (2 : ℚ) ^ (3 * n : ℤ) = 8 ^ n := by
    rw [zpow_mul, zpow_natCast]
    norm_num
  exact octave ▸ pow_le_pow_left₀ (by norm_num) (by norm_num) n

theorem tiny_of_far {p : Int} (far : p < -farthestPower) :
    (10 ^ p : ℚ) ≤ 2 * 2 ^ (-1076 : ℤ) := by
  rw [farthestPower] at far
  obtain ⟨n, rfl⟩ : ∃ n : Nat, p = -n := ⟨p.natAbs, by omega⟩
  calc (10 ^ (-n : ℤ) : ℚ)
    _ = (10 ^ n)⁻¹ := by rw [zpow_neg, zpow_natCast]
    _ ≤ (2 ^ (3 * n : ℤ))⁻¹ := inv_anti₀ (by positivity) (octaves_le n)
    _ = 2 ^ (-(3 * n : ℤ)) := (zpow_neg _ _).symm
    _ ≤ 2 ^ (1 + -1076 : ℤ) := zpow_le_zpow_right₀ (by norm_num) (by omega)
    _ = 2 * 2 ^ (-1076 : ℤ) := by rw [zpow_add₀ (by norm_num), zpow_one]

theorem tooFar_le_of_far {p : Int} (far : farthestPower < p) :
    Magnitude.tooFar ≤ (10 ^ (p - 1) : ℚ) := by
  rw [farthestPower] at far
  obtain ⟨n, rest⟩ : ∃ n : Nat, p - 1 = n := ⟨(p - 1).toNat, by omega⟩
  rw [rest, zpow_natCast, Magnitude.tooFar]
  have mantissa : (4 * Magnitude.leastNormal - 1 : ℚ) ≤ 2 ^ (54 : ℤ) := by
    norm_num [Magnitude.leastNormal]
  calc (4 * Magnitude.leastNormal - 1 : ℚ) * 2 ^ (970 : ℤ)
    _ ≤ 2 ^ (54 : ℤ) * 2 ^ (970 : ℤ) := mul_le_mul_of_nonneg_right mantissa (by positivity)
    _ = 2 ^ (54 + 970 : ℤ) := (zpow_add₀ (by norm_num) _ _).symm
    _ ≤ 2 ^ (3 * n : ℤ) := zpow_le_zpow_right₀ (by norm_num) (by omega)
    _ ≤ 10 ^ n := octaves_le n

theorem ofDecimal_cases (negative : Bool) (digits : Nat) (power : Int) :
    (∃ m : Magnitude, ofDecimal negative digits power = .finite negative m ∧
      m.Stored ∧ m.Catches (digits * 10 ^ power)) ∨
    (ofDecimal negative digits power = .infinite negative ∧
      Magnitude.tooFar ≤ digits * 10 ^ power) := by
  have nonneg : (0 : ℚ) ≤ digits * 10 ^ power := by positivity
  unfold ofDecimal
  dsimp only
  split
  · rename_i small
    refine .inl ⟨_, rfl, Magnitude.zero_stored, Magnitude.zero_catches nonneg ?_⟩
    rcases small with rfl | small
    · simp
    · exact (decimal_lt digits power).le.trans (tiny_of_far small)
  · rename_i moderate
    split
    · rename_i large
      exact .inr ⟨rfl, (tooFar_le_of_far large).trans (le_decimal (not_or.mp moderate).1 power)⟩
    · have pos : 0 < Nat.pow 10 (-power).toNat := Nat.pow_pos (by norm_num)
      split
      · rename_i m found
        have := Magnitude.nearest?_catches pos found
        rw [ten_pow_fraction] at this
        exact .inl ⟨m, rfl, this⟩
      · rename_i missed
        have := Magnitude.nearest?_beyond pos missed
        rw [ten_pow_fraction] at this
        exact .inr ⟨rfl, this⟩

/-- A decimal is read as the number of the format that stands for it, and as that only. -/
theorem rounded_iff :
    Rounded negative (digits * 10 ^ power) r ↔ ofDecimal negative digits power = r := by
  rcases ofDecimal_cases negative digits power with ⟨m, read, stored, catches⟩ | ⟨read, far⟩ <;>
    rw [read]
  · constructor
    · rintro (⟨nearest, -⟩ | far)
      · rw [catches.eq_of_nearest stored nearest]
      · exact absurd far (catches.lt_tooFar stored).not_ge
    · rintro rfl
      exact .finite (catches.nearest stored) (catches.lt_tooFar stored)
  · constructor
    · rintro (⟨-, reach⟩ | -)
      · exact absurd reach far.not_gt
      · rfl
    · rintro rfl
      exact .infinite far

theorem powerOf?_eq_some_iff {cs : List Char} {power : Int} :
    powerOf? cs = some power ↔ SpellsPower cs power := by
  cases cs with
  | nil =>
    rw [powerOf?, Option.some.injEq]
    constructor
    · rintro rfl
      exact .left_out
    · rintro ⟨⟩
      rfl
  | cons c rest =>
    have read : Text.integer? power power rest = some power ↔ _ := Text.integer?_eq_some_iff
    unfold Text.integer? at read
    dsimp only at read
    rw [Option.filter_eq_some_iff] at read
    simp only [le_refl, and_self, decide_true, and_true] at read
    change (ite (c = 'e' ∨ c = 'E') _ _) = some power ↔ _
    by_cases letter : c = 'e' ∨ c = 'E'
    · rw [if_pos letter]
      refine read.trans ⟨?_, ?_⟩
      · exact .lettered letter
      · rintro ⟨⟩
        assumption
    · rw [if_neg letter]
      constructor
      · intro read
        contradiction
      · rintro ⟨⟩
        contradiction

def afterPoint : List Char → List Char × List Char
  | '.' :: rest => (rest.takeWhile Char.isDigit, rest.dropWhile Char.isDigit)
  | rest => ([], rest)

theorem ofDigits?_eq (negative : Bool) (cs : List Char) :
    ofDigits? negative cs =
      let behind := afterPoint (cs.dropWhile Char.isDigit)
      match Text.digits? (cs.takeWhile Char.isDigit ++ behind.1), powerOf? behind.2 with
      | some digits, some power => some (ofDecimal negative digits (power - behind.1.length))
      | _, _ => none := rfl

theorem afterPoint_of_power {tail : List Char} (spelled : SpellsPower tail power) :
    afterPoint tail = ([], tail) := by
  unfold afterPoint
  split
  · exact absurd rfl (spelled.begins.2.2 _)
  · rfl

theorem ofDigits?_of_spells {cs : List Char} {x : ℚ} (spelled : SpellsDecimal cs x)
    (rounded : Rounded negative x r) : ofDigits? negative cs = some r := by
  rw [ofDigits?_eq]
  cases spelled with
  | @whole ds tail power digits tailed =>
    obtain ⟨taken, dropped, -⟩ := tailed.begins
    rw [List.takeWhile_append_of_pos digits.plain, List.dropWhile_append_of_pos digits.plain,
      taken, dropped, afterPoint_of_power tailed]
    dsimp only
    rw [List.append_nil, List.append_nil, Text.digits?_eq_some_iff.mpr ⟨digits, rfl⟩,
      powerOf?_eq_some_iff.mpr tailed, ← rounded_iff.mp rounded]
    simp
  | @pointed ds fs tail power digits tailed =>
    obtain ⟨taken, dropped, -⟩ := tailed.begins
    obtain ⟨first, second⟩ := List.forall_mem_append.mp digits.plain
    rw [List.takeWhile_append_of_pos first, List.dropWhile_append_of_pos first]
    have behind : afterPoint ('.' :: (fs ++ tail)) = (fs, tail) := by
      rw [afterPoint, List.takeWhile_append_of_pos second, List.dropWhile_append_of_pos second,
        taken, dropped, List.append_nil]
    rw [List.takeWhile_cons_of_neg (by decide), List.dropWhile_cons_of_neg (by decide), behind]
    dsimp only
    rw [List.append_nil, Text.digits?_eq_some_iff.mpr ⟨digits, rfl⟩,
      powerOf?_eq_some_iff.mpr tailed, ← rounded_iff.mp rounded]

theorem afterPoint_cases (cs : List Char) :
    afterPoint cs = ([], cs) ∨
      cs = '.' :: ((afterPoint cs).1 ++ (afterPoint cs).2) := by
  unfold afterPoint
  split
  · exact .inr (by rw [List.takeWhile_append_dropWhile])
  · exact .inl rfl

theorem spells_of_ofDigits? {cs : List Char} (read : ofDigits? negative cs = some r) :
    ∃ x, SpellsDecimal cs x ∧ Rounded negative x r := by
  rw [ofDigits?_eq] at read
  dsimp only at read
  split at read
  · rename_i digits power value exponent
    cases read
    obtain ⟨plain, rfl⟩ := Text.digits?_eq_some_iff.mp value
    have tailed := powerOf?_eq_some_iff.mp exponent
    refine ⟨_, ?_, rounded_iff.mpr rfl⟩
    have parts := List.takeWhile_append_dropWhile (p := Char.isDigit) (l := cs)
    generalize cs.takeWhile Char.isDigit = ds at *
    generalize cs.dropWhile Char.isDigit = rest at *
    subst parts
    rcases afterPoint_cases rest with pointless | point
    · rw [pointless] at plain tailed ⊢
      simp only [List.append_nil, List.length_nil, Nat.cast_zero, sub_zero] at plain tailed ⊢
      exact .whole plain tailed
    · conv => enter [1]; rw [point]
      exact .pointed plain tailed
  · cases read

theorem ofUnsigned?_eq_some_iff {cs : List Char} :
    ofUnsigned? negative cs = some r ↔ SpellsUnsigned negative cs r := by
  unfold ofUnsigned?
  dsimp only
  constructor
  · intro read
    split at read
    · rename_i word
      cases read
      exact .infinity (by simpa using word)
    · split at read
      · rename_i word
        cases read
        exact .nan word
      · obtain ⟨x, spelled, rounded⟩ := spells_of_ofDigits? read
        exact .decimal spelled rounded
  · rintro (⟨spelled, rounded⟩ | word | word)
    · rw [if_neg, if_neg, ofDigits?_of_spells spelled rounded]
      · exact spelled.not_word (by simp)
      · exact not_or.mpr ⟨spelled.not_word (by simp), spelled.not_word (by simp)⟩
    · rw [if_pos (by simpa using word)]
    · rw [if_neg (by rw [word]; decide), if_pos word]

theorem SpellsUnsigned.begins {cs rest : List Char} {c : Char}
    (spelled : SpellsUnsigned negative cs r) (first : cs = c :: rest) : c ≠ '-' ∧ c ≠ '+' := by
  have word {name : List Char} (same : cs.map Char.toLower = name)
      (other : ∀ c ∈ name, c ≠ '-' ∧ c ≠ '+') : c ≠ '-' ∧ c ≠ '+' := by
    have lower := other c.toLower (by rw [← same, first]; exact List.mem_cons_self)
    constructor <;> rintro rfl
    · exact lower.1 rfl
    · exact lower.2 rfl
  cases spelled with
  | decimal spelled _ =>
    subst first
    rcases spelled.begins with digit | rfl
    · constructor <;> rintro rfl <;> contradiction
    · decide
  | infinity known =>
    rcases List.mem_pair.mp known with same | same <;> exact word same (by simp)
  | nan same => exact word same (by simp)

/-- A text is read as a real number exactly if it spells that. -/
theorem ofText?_eq_some_iff {cs : List Char} : ofText? cs = some r ↔ Spells cs r := by
  constructor
  · intro read
    unfold ofText? at read
    split at read
    · exact .signed (show (['-'], true) ∈ signs by decide) (ofUnsigned?_eq_some_iff.mp read)
    · exact .signed (show (['+'], false) ∈ signs by decide) (ofUnsigned?_eq_some_iff.mp read)
    · exact .signed (show ([], false) ∈ signs by decide) (ofUnsigned?_eq_some_iff.mp read)
  · rintro ⟨known, spelled⟩
    have read := ofUnsigned?_eq_some_iff.mpr spelled
    simp only [signs, List.mem_cons, Prod.mk.injEq, List.not_mem_nil, or_false] at known
    rcases known with ⟨rfl, rfl⟩ | ⟨rfl, rfl⟩ | ⟨rfl, rfl⟩
    · rw [List.nil_append]
      unfold ofText?
      split
      · exact absurd rfl (spelled.begins rfl).1
      · exact absurd rfl (spelled.begins rfl).2
      · exact read
    · exact read
    · exact read

end Real

end MonitorOperator.Decimal
