import MonitorOperator.Json.Outline
import MonitorOperator.Json.Writer

/-!
Reading back a written value. What is written of a value is read as its outline, whatever stands
behind it, as long as that ends a number. Main statement: `outline_render`.
-/

namespace MonitorOperator.Json

theorem hexUnit?_control : ∀ n < 0x20,
    hexUnit? '0' '0' (Nat.digitChar (n / 16)) (Nat.digitChar (n % 16)) = some n := by decide

theorem readString_unit {a b c d : Char} {unit : Nat} (small : unit < 0xD800)
    (digits : hexUnit? a b c d = some unit) (rest : List Char) :
    readString ('\\' :: 'u' :: a :: b :: c :: d :: rest)
      = (readString rest).push (Char.ofNat unit) := by
  have high : isHighSurrogate unit = false := by simp [isHighSurrogate]; omega
  have low : isLowSurrogate unit = false := by simp [isLowSurrogate]; omega
  simp [readString, digits, high, low]

theorem readString_plain {c : Char} (quote : c ≠ '"') (backslash : c ≠ '\\') (printed : 0x20 ≤ c.toNat)
    (rest : List Char) : readString (c :: rest) = (readString rest).push c := by
  have visible : ¬ c.toNat < 0x20 := Nat.not_lt.mpr printed
  rw [readString.eq_def]
  split
  case h_6 same => cases same; rw [if_neg quote, if_neg visible]
  all_goals simp_all

theorem readString_escaped (c : Char) (rest : List Char) :
    readString (escaped c ++ rest) = (readString rest).push c := by
  unfold escaped
  split
  · next quote => subst quote; simp [readString, simpleEscape?]
  · next quote =>
    split
    · next backslash => subst backslash; simp [readString, simpleEscape?]
    · next backslash =>
      split
      · next same => subst same; simp [readString, simpleEscape?]
      · split
        · next same => subst same; simp [readString, simpleEscape?]
        · split
          · next same => subst same; simp [readString, simpleEscape?]
          · split
            · next same => subst same; simp [readString, simpleEscape?]
            · split
              · next same => subst same; simp [readString, simpleEscape?]
              · split
                · next control =>
                  have unit := readString_unit (by omega) (hexUnit?_control _ control) rest
                  rwa [Char.ofNat_toNat] at unit
                · next printed => exact readString_plain quote backslash (by omega) rest

theorem readString_flatMap_escaped (cs rest : List Char) :
    readString (cs.flatMap escaped ++ '"' :: rest) = ⟨.ok cs, none, rest⟩ := by
  induction cs with
  | nil => simp [readString]
  | cons c cs ih =>
    rw [List.flatMap_cons, List.append_assoc, readString_escaped, ih]
    rfl

/-- What may stand behind a written value: no digit and nothing else that goes on with a number. -/
def Ends : List Char → Prop
  | [] => True
  | c :: _ => c = ',' ∨ c = ']' ∨ c = '\x7d'

theorem Ends.dropWhile {rest : List Char} (ends : Ends rest) : rest.dropWhile Char.isDigit = rest := by
  cases rest with
  | nil => rfl
  | cons c rest =>
    have other : c.isDigit = false := by rcases ends with rfl | rfl | rfl <;> decide
    exact List.dropWhile_cons_of_neg (by simp [other])

theorem Ends.takeWhile {rest : List Char} (ends : Ends rest) : rest.takeWhile Char.isDigit = [] := by
  cases rest with
  | nil => rfl
  | cons c rest =>
    have other : c.isDigit = false := by rcases ends with rfl | rfl | rfl <;> decide
    exact List.takeWhile_cons_of_neg (by simp [other])

theorem isDigit_of_mem_digits {n : Nat} : ∀ c ∈ Nat.toDigits 10 n, c.isDigit = true :=
  fun _ member => Nat.isDigit_of_mem_toDigits (by decide) (by decide) member

theorem readDigits_toDigits (n : Nat) {rest : List Char} (ends : Ends rest) :
    readDigits (Nat.toDigits 10 n ++ rest) = (Nat.toDigits 10 n, rest) := by
  have taken : (Nat.toDigits 10 n ++ rest).takeWhile Char.isDigit
      = Nat.toDigits 10 n ++ rest.takeWhile Char.isDigit :=
    List.takeWhile_append_of_pos isDigit_of_mem_digits
  have dropped : (Nat.toDigits 10 n ++ rest).dropWhile Char.isDigit = rest.dropWhile Char.isDigit :=
    List.dropWhile_append_of_pos isDigit_of_mem_digits
  rw [readDigits, taken, dropped, ends.takeWhile, ends.dropWhile, List.append_nil]

theorem le_ofDigitChars (cs : List Char) (word : Nat) : word ≤ Nat.ofDigitChars 10 cs word := by
  induction cs generalizing word with
  | nil => simp [Nat.ofDigitChars_nil]
  | cons c cs ih =>
    rw [Nat.ofDigitChars_cons]
    have := ih (10 * word + (c.toNat - '0'.toNat))
    omega

theorem accumulate_ofDigitChars (cs : List Char) (word : Nat)
    (fits : Nat.ofDigitChars 10 cs word < UInt64.size) :
    accumulate word cs = (Nat.ofDigitChars 10 cs word, 0) := by
  induction cs generalizing word with
  | nil => simp [accumulate, Nat.ofDigitChars_nil]
  | cons c cs ih =>
    rw [Nat.ofDigitChars_cons, Nat.mul_comm] at fits ⊢
    have below := Nat.lt_of_le_of_lt (le_ofDigitChars cs _) fits
    rw [accumulate, digitValue, if_pos below]
    exact ih _ fits

theorem accumulate_toDigits {n : Nat} (fits : n < UInt64.size) :
    accumulate 0 (Nat.toDigits 10 n) = (n, 0) := by
  have whole := accumulate_ofDigitChars (Nat.toDigits 10 n) 0
  rw [Nat.ofDigitChars_ten_toDigits] at whole
  exact whole fits

theorem leading_digit (n : Nat) (positive : 0 < n) :
    ∃ d ds, Nat.toDigits 10 n = d :: ds ∧ d ≠ '0' := by
  induction n using Nat.strongRecOn with
  | ind n ih =>
    by_cases small : n < 10
    · refine ⟨n.digitChar, [], Nat.toDigits_of_lt_base small, fun zero => ?_⟩
      have := Nat.digitChar_eq_zero.mp zero
      omega
    · obtain ⟨d, ds, digits, nonzero⟩ := ih (n / 10) (by omega) (by omega)
      refine ⟨d, ds ++ [(n % 10).digitChar], ?_, nonzero⟩
      rw [Nat.toDigits_of_base_le (by decide) (Nat.not_lt.mp small), digits, List.cons_append]

theorem readNumber_toDigits (negative : Bool) (n : Nat) {rest : List Char} (ends : Ends rest) :
    readNumber negative (Nat.toDigits 10 n ++ rest)
      = readNumberTail negative (Nat.toDigits 10 n) rest := by
  rw [readNumber, readDigits_toDigits n ends]
  rcases Nat.eq_zero_or_pos n with zero | positive
  · rw [zero, Nat.toDigits_zero]
    rfl
  · obtain ⟨d, ds, digits, nonzero⟩ := leading_digit n positive
    rw [digits]
    split <;> simp_all

theorem readNumberTail_toDigits {n : Nat} (fits : n < UInt64.size) (negative : Bool)
    {rest : List Char} (ends : Ends rest) :
    readNumberTail negative (Nat.toDigits 10 n) rest =
      if negative = false then (.number (.integer n), rest)
      else if 0 < n ∧ n ≤ Int64.minValue.toInt.natAbs then (.number (.integer (-n)), rest)
      else realNumber negative n 0 rest := by
  rw [readNumberTail, accumulate_toDigits fits]
  cases rest with
  | nil => cases negative <;> simp
  | cons c rest => rcases ends with rfl | rfl | rfl <;> cases negative <;> simp

def Word (i : Int) : Prop := Int64.minValue.toInt ≤ i ∧ i < UInt64.size

theorem readNumber_natural {n : Nat} (word : Word n) {rest : List Char} (ends : Ends rest) :
    readNumber false (Nat.toDigits 10 n ++ rest) = (.number (.integer n), rest) := by
  have fits : n < UInt64.size := by have := word.2; omega
  rw [readNumber_toDigits false n ends, readNumberTail_toDigits fits false ends, if_pos rfl]

theorem readNumber_negative {n : Nat} (word : Word (Int.negSucc n)) {rest : List Char}
    (ends : Ends rest) :
    readNumber true (Nat.toDigits 10 (n + 1) ++ rest) = (.number (.integer (Int.negSucc n)), rest) := by
  have least : Int64.minValue.toInt = -(2 ^ 63) := by decide
  have below : n + 1 ≤ 2 ^ 63 := by have := word.1; omega
  have fits : n + 1 < UInt64.size := Nat.lt_of_le_of_lt below (by decide)
  rw [readNumber_toDigits true (n + 1) ends, readNumberTail_toDigits fits true ends,
    if_neg (by decide), if_pos ⟨by omega, by rw [least]; omega⟩]
  rfl

/-- Values whose integers are words and whose containers nest at most so deep. -/
inductive Fits : Nat → Json → Prop where
  | null {room : Nat} : Fits room .null
  | bool {room : Nat} (b : Bool) : Fits room (.bool b)
  | integer {room : Nat} {i : Int} (word : Word i) : Fits room (.number (.integer i))
  | string {room : Nat} (s : String) : Fits room (.string s)
  | array {room : Nat} {items : List Json} (inside : ∀ j ∈ items, Fits room j) :
    Fits (room + 1) (.array items)
  | object {room : Nat} {members : List (String × Json)} (inside : ∀ m ∈ members, Fits room m.2) :
    Fits (room + 1) (.object members)

def Legible (j : Json) : Prop :=
  ∀ n rest, j.write.length ≤ n → Ends rest → readValue n (j.write ++ rest) = (toOutline j, rest)

theorem skipSpace_of_ne {c : Char} (rest : List Char) (visible : isSpace c = false) :
    skipSpace (c :: rest) = c :: rest :=
  List.dropWhile_cons_of_neg (by simp [visible])

theorem ne_of_isDigit {c d : Char} (digit : c.isDigit = true) (plain : d.isDigit = false) :
    c ≠ d := by
  rintro rfl
  exact absurd digit (by simp [plain])

theorem isSpace_of_isDigit {c : Char} (digit : c.isDigit = true) : isSpace c = false := by
  have space := ne_of_isDigit (d := ' ') digit (by decide)
  have newline := ne_of_isDigit (d := '\n') digit (by decide)
  have tab := ne_of_isDigit (d := '\t') digit (by decide)
  have feed := ne_of_isDigit (d := '\r') digit (by decide)
  simp [isSpace, space, newline, tab, feed]

theorem toDigits_eq_cons (n : Nat) : ∃ d ds, Nat.toDigits 10 n = d :: ds ∧ d.isDigit = true := by
  obtain ⟨d, ds, digits⟩ := List.exists_cons_of_ne_nil (Nat.toDigits_ne_nil (n := n) (b := 10))
  exact ⟨d, ds, digits, isDigit_of_mem_digits (n := n) d (by simp [digits])⟩

theorem Fits.write_eq_cons {room : Nat} {j : Json} (fits : Fits room j) :
    ∃ c cs, j.write = c :: cs ∧ isSpace c = false ∧ c ≠ ']' := by
  cases fits with
  | null => exact ⟨'n', _, rfl, by decide, by decide⟩
  | bool b => cases b <;> exact ⟨_, _, rfl, by decide, by decide⟩
  | string s => exact ⟨'"', _, rfl, by decide, by decide⟩
  | array _ => cases ‹List Json› <;> exact ⟨'[', _, rfl, by decide, by decide⟩
  | object _ => cases ‹List (String × Json)› <;> exact ⟨'\x7b', _, rfl, by decide, by decide⟩
  | @integer _ i _ =>
    cases i with
    | ofNat n =>
      obtain ⟨d, ds, digits, digit⟩ := toDigits_eq_cons n
      exact ⟨d, ds, digits, isSpace_of_isDigit digit, ne_of_isDigit digit (by decide)⟩
    | negSucc n => exact ⟨'-', _, rfl, by decide, by decide⟩

theorem Legible.null : Legible .null := by
  intro n rest long _
  cases n with
  | zero => exact absurd long (by decide)
  | succ n => simp [readValue, write, skipSpace, isSpace, readWord, toOutline]

theorem Legible.bool (b : Bool) : Legible (.bool b) := by
  intro n rest long _
  cases n with
  | zero => cases b <;> exact absurd long (by decide)
  | succ n => cases b <;> simp [readValue, write, skipSpace, isSpace, readWord, toOutline]

theorem Legible.string (s : String) : Legible (.string s) := by
  intro n rest long _
  cases n with
  | zero => exact absurd long (by simp [write, writeString])
  | succ n =>
    have body := readString_flatMap_escaped s.toList rest
    simp [readValue, write, writeString, skipSpace, isSpace, body, StringBody.outline, toOutline]

theorem readValue_digit {c : Char} (digit : c.isDigit = true) (n : Nat) (cs : List Char) :
    readValue (n + 1) (c :: cs) = readNumber false (c :: cs) := by
  have other {d : Char} (plain : d.isDigit = false) : c ≠ d := ne_of_isDigit digit plain
  simp only [readValue, skipSpace_of_ne cs (isSpace_of_isDigit digit)]
  rw [if_neg (other (by decide)), if_neg (other (by decide)), if_neg (other (by decide)),
    if_neg (other (by decide)), if_neg (other (by decide)), if_neg (other (by decide)),
    if_neg (other (by decide)), if_pos digit]

theorem Legible.integer {i : Int} (word : Word i) : Legible (.number (.integer i)) := by
  intro n rest long ends
  cases n with
  | zero =>
    have fits : Fits 0 (.number (.integer i)) := .integer word
    obtain ⟨c, cs, text, _, _⟩ := fits.write_eq_cons
    rw [text] at long
    exact absurd long (by simp)
  | succ n =>
    cases i with
    | ofNat value =>
      obtain ⟨d, ds, digits, digit⟩ := toDigits_eq_cons value
      have number := readNumber_natural word ends
      have text : (Json.number (.integer value)).write = d :: ds := digits
      rw [digits] at number
      rw [Int.ofNat_eq_natCast, text, List.cons_append, readValue_digit digit n]
      exact number
    | negSucc value =>
      have number := readNumber_negative word ends
      simp [readValue, write, Number.write, writeInt, skipSpace, isSpace, number, toOutline]

theorem readItems_item {item : Json} (legible : Legible item) {room : Nat} (fits : Fits room item)
    (first : Bool) {n : Nat} {rest : List Char} (long : item.write.length ≤ n) (ends : Ends rest) :
    readItems (n + 1) first ((if first then [] else [',']) ++ (item.write ++ rest))
      = (.item (toOutline item) (readItems n false rest).1, (readItems n false rest).2) := by
  have value := legible n rest long ends
  cases first with
  | false => simp [readItems, skipSpace, isSpace, value]
  | true =>
    obtain ⟨c, cs, text, visible, bracket⟩ := fits.write_eq_cons
    rw [text, List.cons_append] at value
    simp [readItems, text, skipSpace_of_ne _ visible, bracket, value]

theorem readMembers_member (name : String) {value : Json} (legible : Legible value) (first : Bool)
    {n : Nat} {rest : List Char} (long : value.write.length ≤ n) (ends : Ends rest) :
    readMembers (n + 1) first
        ((if first then [] else [',']) ++ (writeString name ++ ':' :: (value.write ++ rest)))
      = (.member (.text name) (toOutline value) (readMembers n false rest).1,
          (readMembers n false rest).2) := by
  have read := legible n rest long ends
  have body := readString_flatMap_escaped name.toList (':' :: (value.write ++ rest))
  cases first <;>
    simp [readMembers, writeString, skipSpace, isSpace, body, read, StringBody.name]

theorem Ends.writeItems (items : List Json) (rest : List Char) : Ends (writeItems items ++ rest) := by
  cases items <;> simp [Json.writeItems, Ends]

theorem Ends.writeMembers (members : List (String × Json)) (rest : List Char) :
    Ends (writeMembers members ++ rest) := by
  cases members <;> simp [Json.writeMembers, Ends]

theorem readItems_writeItems {room : Nat} (items : List Json)
    (known : ∀ j ∈ items, Fits room j ∧ Legible j) {n : Nat} (rest : List Char)
    (long : (writeItems items).length ≤ n) :
    readItems n false (writeItems items ++ rest) = (itemsOutline items, rest) := by
  induction items generalizing n with
  | nil =>
    cases n with
    | zero => exact absurd long (by decide)
    | succ n => simp [readItems, writeItems, itemsOutline, skipSpace, isSpace]
  | cons item items ih =>
    simp only [writeItems, List.length_cons, List.length_append] at long
    obtain ⟨n, rfl⟩ := Nat.exists_eq_add_of_le' (Nat.le_trans (Nat.le_add_left 1 _) long)
    obtain ⟨fits, legible⟩ := known item (by simp)
    have head := readItems_item legible fits false (n := n) (by omega) (Ends.writeItems items rest)
    have tail := ih (fun j member => known j (List.mem_cons_of_mem _ member)) (n := n) (by omega)
    rw [tail] at head
    simpa [writeItems, itemsOutline] using head

theorem readMembers_writeMembers (members : List (String × Json))
    (known : ∀ m ∈ members, Legible m.2) {n : Nat} (rest : List Char)
    (long : (writeMembers members).length ≤ n) :
    readMembers n false (writeMembers members ++ rest) = (membersOutline members, rest) := by
  induction members generalizing n with
  | nil =>
    cases n with
    | zero => exact absurd long (by decide)
    | succ n => simp [readMembers, writeMembers, membersOutline, skipSpace, isSpace]
  | cons member members ih =>
    obtain ⟨name, value⟩ := member
    simp only [writeMembers, List.length_cons, List.length_append] at long
    obtain ⟨n, rfl⟩ := Nat.exists_eq_add_of_le' (Nat.le_trans (Nat.le_add_left 1 _) long)
    have legible : Legible value := known (name, value) (by simp)
    have head := readMembers_member name legible false (n := n) (by omega)
      (Ends.writeMembers members rest)
    have tail := ih (fun m inside => known m (List.mem_cons_of_mem _ inside)) (n := n) (by omega)
    rw [tail] at head
    simpa [writeMembers, membersOutline] using head

theorem Legible.array {room : Nat} {items : List Json}
    (known : ∀ j ∈ items, Fits room j ∧ Legible j) : Legible (.array items) := by
  intro n rest long _
  cases items with
  | nil =>
    obtain ⟨n, rfl⟩ := Nat.exists_eq_add_of_le' long
    simp [readValue, readItems, write, skipSpace, isSpace, toOutline, itemsOutline]
  | cons item items =>
    obtain ⟨fits, legible⟩ := known item (by simp)
    obtain ⟨c, cs, text, _, _⟩ := fits.write_eq_cons
    have itemLong : 0 < item.write.length := by simp [text]
    have itemsLong : 0 < (writeItems items).length := by cases items <;> simp [writeItems]
    simp only [write, List.length_cons, List.length_append] at long
    obtain ⟨n, rfl⟩ : ∃ m, n = m + 2 := ⟨n - 2, by omega⟩
    have tail := readItems_writeItems items
      (fun j member => known j (List.mem_cons_of_mem _ member)) (n := n) rest (by omega)
    have head := readItems_item legible fits true (n := n) (by omega) (Ends.writeItems items rest)
    rw [tail] at head
    simp only [if_true, List.nil_append] at head
    simp [readValue, write, skipSpace, isSpace, head, toOutline, itemsOutline]

theorem Legible.object {members : List (String × Json)} (known : ∀ m ∈ members, Legible m.2) :
    Legible (.object members) := by
  intro n rest long _
  cases members with
  | nil =>
    obtain ⟨n, rfl⟩ := Nat.exists_eq_add_of_le' long
    simp [readValue, readMembers, write, skipSpace, isSpace, toOutline, membersOutline]
  | cons member members =>
    obtain ⟨name, value⟩ := member
    have legible : Legible value := known (name, value) (by simp)
    simp only [write, writeString, List.length_cons, List.length_append] at long
    obtain ⟨n, rfl⟩ : ∃ m, n = m + 2 := ⟨n - 2, by omega⟩
    have tail := readMembers_writeMembers members
      (fun m inside => known m (List.mem_cons_of_mem _ inside)) (n := n) rest (by omega)
    have head := readMembers_member name legible true (n := n) (by omega)
      (Ends.writeMembers members rest)
    rw [tail] at head
    simp only [if_true, List.nil_append] at head
    simp [readValue, write, skipSpace, isSpace, head, toOutline, membersOutline]

theorem Fits.legible {room : Nat} {j : Json} (fits : Fits room j) : Legible j := by
  induction fits with
  | null => exact .null
  | bool b => exact .bool b
  | integer word => exact .integer word
  | string s => exact .string s
  | array inside ih => exact .array fun j member => ⟨inside j member, ih j member⟩
  | object _ ih => exact .object ih

/-- The text of a value has its outline, and nothing else. -/
theorem outline_render {room : Nat} {j : Json} (fits : Fits room j) :
    outline j.render = (toOutline j, true) := by
  have whole := fits.legible (2 * j.write.length + 1) [] (by omega) trivial
  rw [List.append_nil] at whole
  simp [outline, render, whole, skipSpace]

end MonitorOperator.Json
