import MonitorOperator.Text.Blank
import MonitorOperator.Text.Integer

/-! Integers as they are written. Main statement: the decimal text of an integer, blanks or not, is
read as that integer within any bounds that it keeps. -/

namespace MonitorOperator.Text

theorem isBlank_of_isDigit {c : Char} (digit : c.isDigit = true) : isBlank c = false := by
  have bounds : 48 ≤ c.toNat ∧ c.toNat ≤ 57 := by
    simpa [Char.isDigit, UInt32.le_iff_toNat_le] using digit
  simp only [isBlank, blankRuns, List.any_cons, List.any_nil, Bool.or_false, Bool.or_eq_false_iff,
    Bool.and_eq_false_iff, decide_eq_false_iff_not]
  omega

theorem trim_of_visible {cs : List Char} (visible : ∀ c ∈ cs, isBlank c = false) : trim cs = cs := by
  have front {l : List Char} (shown : ∀ c ∈ l, isBlank c = false) : l.dropWhile isBlank = l := by
    cases l with
    | nil => rfl
    | cons c rest => exact List.dropWhile_cons_of_neg (by simp [shown])
  have back : ∀ c ∈ cs.reverse, isBlank c = false := fun c member =>
    visible c (List.mem_reverse.mp member)
  rw [trim, front visible, front back, List.reverse_reverse]

theorem digits?_toDigits (n : Nat) : digits? (Nat.toDigits 10 n) = some n := by
  have filled : (Nat.toDigits 10 n).isEmpty = false := by simp
  have plain : (Nat.toDigits 10 n).all Char.isDigit = true :=
    List.all_eq_true.mpr fun _ => Nat.isDigit_of_mem_toDigits (by decide) (by decide)
  have value := Nat.ofDigitChars_ten_toDigits (n := n)
  rw [Nat.ofDigitChars_eq_foldl] at value
  simp only [digits?, filled, plain, Bool.not_true, Bool.or_self, Bool.false_eq_true, if_false,
    Option.some.injEq, Nat.mul_comm _ 10]
  exact value

theorem integer?_toString {low high i : Int} (above : low ≤ i) (below : i ≤ high) :
    integer? low high (toString i).toList = some i := by
  have kept : (some i).filter (fun i => low ≤ i ∧ i ≤ high) = some i := by simp [above, below]
  cases i with
  | negSucc n =>
    have text : (toString (Int.negSucc n)).toList = '-' :: Nat.toDigits 10 (n + 1) := by
      simp [Int.repr]
    rw [text, integer?]
    simp only [digits?_toDigits]
    exact kept
  | ofNat n =>
    have text : (toString (Int.ofNat n)).toList = Nat.toDigits 10 n := by simp [Int.repr]
    obtain ⟨d, ds, digits⟩ := List.exists_cons_of_ne_nil (Nat.toDigits_ne_nil (n := n) (b := 10))
    have digit : d.isDigit = true :=
      Nat.isDigit_of_mem_toDigits (n := n) (b := 10) (by decide) (by decide) (by simp [digits])
    have read := digits?_toDigits n
    rw [digits] at read
    rw [text, digits]
    unfold integer?
    dsimp only
    split
    · rename_i minus
      cases minus
      contradiction
    · rename_i plus
      cases plus
      contradiction
    · rw [read]
      exact kept

theorem integer?_trim_toString {low high i : Int} (above : low ≤ i) (below : i ≤ high) :
    integer? low high (trim (toString i).toList) = some i := by
  have visible : ∀ c ∈ (toString i).toList, isBlank c = false := by
    intro c member
    cases i with
    | ofNat n =>
      have digit : c ∈ Nat.toDigits 10 n := by simpa [Int.repr] using member
      exact isBlank_of_isDigit (Nat.isDigit_of_mem_toDigits (by decide) (by decide) digit)
    | negSucc n =>
      have either : c = '-' ∨ c ∈ Nat.toDigits 10 (n + 1) := by simpa [Int.repr] using member
      rcases either with rfl | digit
      · decide
      · exact isBlank_of_isDigit (Nat.isDigit_of_mem_toDigits (by decide) (by decide) digit)
  rw [trim_of_visible visible, integer?_toString above below]

end MonitorOperator.Text
