import Mathlib.Algebra.Order.Floor.Semifield
import Mathlib.Data.Rat.Floor
import MonitorOperator.Config
import MonitorOperator.Proofs.Decimal.Writing

/-! What the text of a variable denotes, as a number and as a text, in terms of what it spells: a
word, an integer of 64 bits, a real number or nothing of these. Main statement: this is what a field
gets. -/

namespace MonitorOperator.Decimal.Real

/-- The natural number of 64 bits that is nearest to a number of the format, a half rounded up. What
is no number counts as zero. -/
def word : Real → Nat
  | .finite negative m => if negative then 0 else min ⌊m.value + 1 / 2⌋₊ (2 ^ 64 - 1)
  | .infinite negative => if negative then 0 else 2 ^ 64 - 1
  | .notANumber => 0

theorem nearestNat_eq (r : Real) : r.nearestNat (UInt64.size - 1) = r.word := by
  cases r with
  | finite negative m =>
    cases negative with
    | true => rfl
    | false =>
      have pos : 0 < m.fraction.2 := Nat.pow_pos (by norm_num)
      have half : m.value + 1 / 2 =
          ((2 * m.fraction.1 + m.fraction.2 : Nat) : ℚ) / (2 * m.fraction.2 : Nat) := by
        have divisor : (m.fraction.2 : ℚ) ≠ 0 := by exact_mod_cast pos.ne'
        rw [← m.fraction_value]
        push_cast
        field_simp
      rw [word, half, Nat.floor_div_eq_div]
      rfl
  | infinite negative => cases negative <;> rfl
  | notANumber => rfl

theorem word_lt (r : Real) : r.word < UInt64.size := by
  have top : 2 ^ 64 - 1 < UInt64.size := by decide
  have bottom : 0 < UInt64.size := by decide
  cases r with
  | finite negative m =>
    cases negative
    · exact (min_le_right _ _).trans_lt top
    · exact bottom
  | infinite negative =>
    cases negative
    · exact top
    · exact bottom
  | notANumber => exact bottom

end MonitorOperator.Decimal.Real

namespace MonitorOperator.Config

open Text (SpellsInteger signs)
open Decimal (SpellsDecimal)
open Setting (lowered)

structure SpellsWord (s : String) (i : Int) : Prop where
  spelled : SpellsInteger s.toList i
  low : Int64.minValue.toInt ≤ i
  high : i ≤ Int64.maxValue.toInt

structure SpellsReal (s : String) (r : Decimal.Real) : Prop where
  spelled : r.Spells s.toList
  other : ∀ i, ¬SpellsWord s i

def ones : List (List Char) := ["true".toList, "on".toList, "yes".toList]

def zeros : List (List Char) := ["false".toList, "off".toList, "no".toList]

/-- The number that a text denotes: one for a word that affirms, zero for one that denies, an
integer of 64 bits for its digits, and for a real number the nearest natural number of 64 bits. A
negative integer denotes none, nor does any other text. -/
inductive Denotes (s : String) : Nat → Prop
  | one (word : lowered s ∈ ones) : Denotes s 1
  | zero (word : lowered s ∈ zeros) : Denotes s 0
  | integer {n : Nat} (spelled : SpellsWord s n) : Denotes s n
  | real {r : Decimal.Real} (spelled : SpellsReal s r) : Denotes s r.word

/-- The text that is made of a text: that of the truth value, the integer of 64 bits or the real
number that it spells, and otherwise the text itself. -/
inductive Respelled (s : String) : String → Prop
  | truth {b : Bool} (word : lowered s = (toString b).toList) : Respelled s (toString b)
  | integer {i : Int} (spelled : SpellsWord s i) : Respelled s (toString i)
  | real {r : Decimal.Real} {t : String} (spelled : SpellsReal s r) (writes : r.Writes t.toList) :
    Respelled s t
  | verbatim (truth : ∀ b : Bool, lowered s ≠ (toString b).toList) (integer : ∀ i, ¬SpellsWord s i)
    (real : ∀ r : Decimal.Real, ¬r.Spells s.toList) : Respelled s s

theorem mem_lowered {s : String} {c l : Char} (member : c ∈ s.toList) (lower : c.toLower = l)
    (plain : l ≠ '\u212a') : l ∈ lowered s := by
  refine List.mem_map.mpr ⟨c, member, ?_⟩
  rw [if_neg, lower]
  rintro rfl
  exact plain lower.symm

theorem exists_digit_of_integer {cs : List Char} {i : Int} (spelled : SpellsInteger cs i) :
    ∃ d ∈ cs, d.isDigit = true := by
  obtain ⟨-, digits⟩ := spelled
  obtain ⟨d, member⟩ := List.exists_mem_of_ne_nil _ digits.filled
  exact ⟨d, List.mem_append_right _ member, digits.plain d member⟩

theorem letters_of_real {cs : List Char} {r : Decimal.Real} (spelled : r.Spells cs) :
    (∃ d ∈ cs, d.isDigit = true) ∨ (∃ c ∈ cs, c.toLower = 'i') ∨
      (∃ c ∈ cs, c.toLower = 'n') ∧ ∃ c ∈ cs, c.toLower = 'a' := by
  have letter {cs word sign : List Char} (same : cs.map Char.toLower = word) {l : Char}
      (known : l ∈ word) : ∃ c ∈ sign ++ cs, c.toLower = l := by
    obtain ⟨c, member, lower⟩ := List.mem_map.mp (same ▸ known)
    exact ⟨c, List.mem_append_right _ member, lower⟩
  obtain ⟨-, unsigned⟩ := spelled
  cases unsigned with
  | decimal decimal _ =>
    obtain ⟨d, member, digit⟩ := decimal.exists_isDigit
    exact .inl ⟨d, List.mem_append_right _ member, digit⟩
  | infinity word =>
    rcases List.mem_pair.mp word with same | same <;> exact .inr (.inl (letter same (by decide)))
  | nan same => exact .inr (.inr ⟨letter same (by decide), letter same (by decide)⟩)

theorem word_spells_nothing {s : String} (word : lowered s ∈ ones ++ zeros) :
    (∀ i, ¬SpellsInteger s.toList i) ∧ ∀ r : Decimal.Real, ¬r.Spells s.toList := by
  have known : (∀ d ∈ lowered s, d.isDigit = false) ∧ 'i' ∉ lowered s ∧
      ('n' ∈ lowered s → 'a' ∉ lowered s) := by
    generalize lowered s = w at word
    simp only [ones, zeros, List.cons_append, List.nil_append, List.mem_cons, List.not_mem_nil,
      or_false] at word
    obtain rfl | rfl | rfl | rfl | rfl | rfl := word <;> simp
  have digitless : ¬∃ d ∈ s.toList, d.isDigit = true := by
    rintro ⟨d, member, digit⟩
    have lower := Decimal.toLower_of_isDigit digit
    have := known.1 d (mem_lowered member lower (by rintro rfl; contradiction))
    rw [digit] at this
    contradiction
  refine ⟨fun i spelled => digitless (exists_digit_of_integer spelled), fun r spelled => ?_⟩
  rcases letters_of_real spelled with digit | ⟨c, member, lower⟩ | ⟨⟨c, cIn, cLow⟩, d, dIn, dLow⟩
  · exact digitless digit
  · exact known.2.1 (mem_lowered member lower (by decide))
  · exact known.2.2 (mem_lowered cIn cLow (by decide)) (mem_lowered dIn dLow (by decide))

section Taken

variable {s : String} {i : Int} {r : Decimal.Real}

theorem integer?_eq_some_iff :
    Text.integer? Int64.minValue.toInt Int64.maxValue.toInt s.toList = some i ↔ SpellsWord s i := by
  rw [Text.integer?_eq_some_iff]
  exact ⟨fun ⟨spelled, low, high⟩ => ⟨spelled, low, high⟩, fun ⟨spelled, low, high⟩ =>
    ⟨spelled, low, high⟩⟩

theorem integer?_eq_none (unspelled : ∀ i, ¬SpellsWord s i) :
    Text.integer? Int64.minValue.toInt Int64.maxValue.toInt s.toList = none :=
  Option.eq_none_iff_forall_ne_some.mpr fun i read => unspelled i (integer?_eq_some_iff.mp read)

theorem ofText_of_truth {b : Bool} (word : lowered s = (toString b).toList) :
    Setting.ofText s = .flag b := by
  unfold Setting.ofText
  cases b with
  | true => exact if_pos word
  | false =>
    rw [word]
    rfl

theorem truth_apart
    (spelled : (∃ i, SpellsInteger s.toList i) ∨ ∃ r : Decimal.Real, r.Spells s.toList)
    (b : Bool) : lowered s ≠ (toString b).toList := by
  intro word
  have known : lowered s ∈ ones ++ zeros := by
    rw [word]
    cases b <;> decide
  obtain ⟨noInteger, noReal⟩ := word_spells_nothing known
  rcases spelled with ⟨i, spelled⟩ | ⟨r, spelled⟩
  · exact noInteger i spelled
  · exact noReal r spelled

theorem ofText_of_untrue (truth : ∀ b : Bool, lowered s ≠ (toString b).toList) :
    Setting.ofText s =
      match Text.integer? Int64.minValue.toInt Int64.maxValue.toInt s.toList with
      | some i => .integer i
      | none =>
        match Decimal.Real.ofText? s.toList with
        | some r => .real r
        | none => .text s :=
  (if_neg (truth true)).trans (if_neg (truth false))

theorem ofText_of_integer (spelled : SpellsWord s i) : Setting.ofText s = .integer i := by
  rw [ofText_of_untrue (truth_apart (.inl ⟨i, spelled.spelled⟩)), integer?_eq_some_iff.mpr spelled]

theorem ofText_of_real (spelled : SpellsReal s r) : Setting.ofText s = .real r := by
  rw [ofText_of_untrue (truth_apart (.inr ⟨r, spelled.spelled⟩)), integer?_eq_none spelled.other,
    Decimal.Real.ofText?_eq_some_iff.mpr spelled.spelled]

theorem ofText_of_text (truth : ∀ b : Bool, lowered s ≠ (toString b).toList)
    (integer : ∀ i, ¬SpellsWord s i) (real : ∀ r : Decimal.Real, ¬r.Spells s.toList) :
    Setting.ofText s = .text s := by
  have missed : Decimal.Real.ofText? s.toList = none :=
    Option.eq_none_iff_forall_ne_some.mpr fun r read =>
      real r (Decimal.Real.ofText?_eq_some_iff.mp read)
  rw [ofText_of_untrue truth, integer?_eq_none integer, missed]

theorem taken (s : String) :
    (∃ b : Bool, lowered s = (toString b).toList) ∨ (∃ i, SpellsWord s i) ∨
      (∃ r, SpellsReal s r) ∨ (∀ b : Bool, lowered s ≠ (toString b).toList) ∧
        (∀ i, ¬SpellsWord s i) ∧ ∀ r : Decimal.Real, ¬r.Spells s.toList := by
  by_cases truth : ∃ b : Bool, lowered s = (toString b).toList
  · exact .inl truth
  · by_cases integer : ∃ i, SpellsWord s i
    · exact .inr (.inl integer)
    · by_cases real : ∃ r : Decimal.Real, r.Spells s.toList
      · obtain ⟨r, spelled⟩ := real
        exact .inr (.inr (.inl ⟨r, spelled, not_exists.mp integer⟩))
      · exact .inr (.inr (.inr ⟨not_exists.mp truth, not_exists.mp integer, not_exists.mp real⟩))

theorem respelled_written (s : String) : Respelled s (Setting.ofText s).written := by
  rcases taken s with ⟨b, word⟩ | ⟨i, spelled⟩ | ⟨r, spelled⟩ | ⟨truth, integer, real⟩
  · rw [ofText_of_truth word]
    have written : (Setting.flag b).written = toString b := by cases b <;> rfl
    rw [written]
    exact .truth word
  · rw [ofText_of_integer spelled]
    exact .integer spelled
  · rw [ofText_of_real spelled]
    exact .real spelled (by simpa [Setting.written] using Decimal.Real.writes_text spelled.spelled)
  · rw [ofText_of_text truth integer real]
    exact .verbatim truth integer real

theorem number?_of_word {n : Nat} (word : lowered s ∈ ones ∧ n = 1 ∨ lowered s ∈ zeros ∧ n = 0) :
    (Setting.ofText s).number? = some (UInt64.ofNat n) := by
  have known : lowered s ∈ ones ++ zeros := List.mem_append.mpr (word.imp And.left And.left)
  obtain ⟨noInteger, noReal⟩ := word_spells_nothing known
  have text (truth : ∀ b : Bool, lowered s ≠ (toString b).toList) :
      (Setting.ofText s).number? = (Setting.wordValue? s).map UInt64.ofNat := by
    rw [ofText_of_text truth (fun i spelled => noInteger i spelled.spelled) noReal]
    rfl
  simp only [ones, zeros, List.mem_cons, List.not_mem_nil, or_false] at word
  rcases word with ⟨truth | on | yes, rfl⟩ | ⟨truth | off | no, rfl⟩
  · rw [ofText_of_truth (b := true) truth]
    rfl
  · rw [text (by rw [on]; decide), Setting.wordValue?, if_pos (.inl on)]
    rfl
  · rw [text (by rw [yes]; decide), Setting.wordValue?, if_pos (.inr yes)]
    rfl
  · rw [ofText_of_truth (b := false) truth]
    rfl
  · rw [text (by rw [off]; decide), Setting.wordValue?, if_neg (by rw [off]; decide),
      if_pos (.inl off)]
    rfl
  · rw [text (by rw [no]; decide), Setting.wordValue?, if_neg (by rw [no]; decide),
      if_pos (.inr no)]
    rfl

theorem number?_of_integer (spelled : SpellsWord s i) (nonneg : 0 ≤ i) :
    (Setting.ofText s).number? = some (UInt64.ofNat i.toNat) ∧ i.toNat < UInt64.size := by
  rw [ofText_of_integer spelled]
  refine ⟨if_pos nonneg, ?_⟩
  have high : i ≤ 9223372036854775807 := spelled.high
  have size : UInt64.size = 18446744073709551616 := rfl
  omega

/-- What a setting is read as is denoted by its text. -/
theorem denotes_of_number? {n : UInt64} (read : (Setting.ofText s).number? = some n) :
    Denotes s n.toNat := by
  rcases taken s with ⟨b, word⟩ | ⟨i, spelled⟩ | ⟨r, spelled⟩ | ⟨truth, integer, real⟩
  · rw [ofText_of_truth word] at read
    cases b <;> cases read
    · exact .zero (by rw [word]; decide)
    · exact .one (by rw [word]; decide)
  · have nonneg : 0 ≤ i := by
      rw [ofText_of_integer spelled] at read
      exact (Option.ite_none_right_eq_some.mp read).1
    obtain ⟨found, fits⟩ := number?_of_integer spelled nonneg
    cases read.symm.trans found
    rw [UInt64.toNat_ofNat_of_lt' fits]
    exact .integer (Int.toNat_of_nonneg nonneg ▸ spelled)
  · rw [ofText_of_real spelled] at read
    cases read
    rw [Decimal.Real.nearestNat_eq, UInt64.toNat_ofNat_of_lt' r.word_lt]
    exact .real spelled
  · rw [ofText_of_text truth integer real] at read
    obtain ⟨k, word, rfl⟩ := Option.map_eq_some_iff.mp read
    unfold Setting.wordValue? at word
    split at word
    · rename_i affirmed
      cases word
      exact .one (List.mem_cons_of_mem _ (List.mem_pair.mpr affirmed))
    · split at word
      · rename_i denied
        cases word
        exact .zero (List.mem_cons_of_mem _ (List.mem_pair.mpr denied))
      · cases word

theorem number?_of_denotes {n : Nat} (denotes : Denotes s n) :
    (Setting.ofText s).number? = some (UInt64.ofNat n) ∧ n < UInt64.size := by
  cases denotes with
  | one word => exact ⟨number?_of_word (.inl ⟨word, rfl⟩), by decide⟩
  | zero word => exact ⟨number?_of_word (.inr ⟨word, rfl⟩), by decide⟩
  | integer spelled => exact number?_of_integer spelled (Int.natCast_nonneg _)
  | @real r spelled =>
    refine ⟨?_, r.word_lt⟩
    rw [ofText_of_real spelled, ← r.nearestNat_eq]
    rfl

end Taken

end MonitorOperator.Config
