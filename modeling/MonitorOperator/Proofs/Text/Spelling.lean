import MonitorOperator.Text.Integer

/-! Which texts spell an integer, and which one: a sign, which may be missing, and digits. Main
statement: these texts are read, within bounds, and no other ones. -/

namespace MonitorOperator.Text

def signs : List (List Char × Bool) := [([], false), (['+'], false), (['-'], true)]

structure IsDigits (ds : List Char) : Prop where
  filled : ds ≠ []
  plain : ∀ d ∈ ds, d.isDigit = true

inductive SpellsInteger : List Char → Int → Prop
  | signed {sign ds : List Char} {negative : Bool} (known : (sign, negative) ∈ signs)
    (digits : IsDigits ds) :
    SpellsInteger (sign ++ ds)
      (if negative then -(Nat.ofDigitChars 10 ds 0 : Int) else Nat.ofDigitChars 10 ds 0)

theorem digits?_eq_some_iff {cs : List Char} {n : Nat} :
    digits? cs = some n ↔ IsDigits cs ∧ Nat.ofDigitChars 10 cs 0 = n := by
  have value : Nat.ofDigitChars 10 cs 0 =
      cs.foldl (fun n c => n * 10 + (c.toNat - '0'.toNat)) 0 := by
    simp only [Nat.ofDigitChars_eq_foldl, Nat.mul_comm]
  rw [digits?, ← value]
  split
  · rename_i wrong
    simp only [Bool.or_eq_true, List.isEmpty_iff, Bool.not_eq_true', List.all_eq_false] at wrong
    simp only [reduceCtorEq, false_iff]
    rintro ⟨⟨filled, plain⟩, -⟩
    rcases wrong with empty | ⟨c, member, other⟩
    · exact filled empty
    · exact other (plain c member)
  · rename_i right
    simp only [Bool.or_eq_true, List.isEmpty_iff, Bool.not_eq_true', not_or,
      Bool.not_eq_false, List.all_eq_true] at right
    simp only [Option.some.injEq, show IsDigits cs from ⟨right.1, right.2⟩, true_and]

theorem IsDigits.head_ne {d : Char} {ds : List Char} (digits : IsDigits (d :: ds)) :
    d ≠ '-' ∧ d ≠ '+' := by
  have plain := digits.plain d List.mem_cons_self
  constructor <;> rintro rfl <;> contradiction

theorem SpellsInteger.of_digits? {sign ds : List Char} {negative : Bool} {n : Nat}
    (known : (sign, negative) ∈ signs) (read : digits? ds = some n) :
    SpellsInteger (sign ++ ds) (if negative then -(n : Int) else n) := by
  obtain ⟨digits, rfl⟩ := digits?_eq_some_iff.mp read
  exact .signed known digits

theorem integer?_eq_some_iff {low high i : Int} {cs : List Char} :
    integer? low high cs = some i ↔ SpellsInteger cs i ∧ low ≤ i ∧ i ≤ high := by
  unfold integer?
  dsimp only
  rw [Option.filter_eq_some_iff, decide_eq_true_eq]
  refine and_congr_left fun _ => ⟨fun read => ?_, ?_⟩
  · split at read <;> simp only [Option.pure_def, Option.bind_eq_bind, Option.map_bind,
      Option.bind_eq_some_iff, Function.comp, Option.map_some, Option.some.injEq] at read <;>
      obtain ⟨n, digits, rfl⟩ := read
    · exact .of_digits? (show (['-'], true) ∈ signs by decide) digits
    · exact .of_digits? (show (['+'], false) ∈ signs by decide) digits
    · exact .of_digits? (show ([], false) ∈ signs by decide) digits
  · rintro ⟨known, digits⟩
    rename_i sign ds negative _
    have read := digits?_eq_some_iff.mpr ⟨digits, rfl⟩
    simp only [signs, List.mem_cons, Prod.mk.injEq, List.not_mem_nil, or_false] at known
    rcases known with ⟨rfl, rfl⟩ | ⟨rfl, rfl⟩ | ⟨rfl, rfl⟩
    · rw [List.nil_append]
      split
      · exact absurd rfl digits.head_ne.1
      · exact absurd rfl digits.head_ne.2
      · simp [read]
    · simp [read]
    · simp [read]

end MonitorOperator.Text
