import MonitorOperator.Json.Decode
import MonitorOperator.Cluster.Encode
import MonitorOperator.Proofs.Json.Written

/-!
Readers that give back what a writer wrote. Scalars, lists, tables, names of an enumeration and
records each keep this property, and a record needs it of its members only.
-/

namespace MonitorOperator

namespace Json

theorem keep_itemsOutline {room : Nat} (items : List Json)
    (kept : ∀ j ∈ items, (toOutline j).keep room = .ok j) :
    (itemsOutline items).keep room = .ok items := by
  induction items with
  | nil => rfl
  | cons item items ih =>
    have head := kept item (by simp)
    have tail := ih fun j member => kept j (List.mem_cons_of_mem _ member)
    simp only [itemsOutline, Items.keep, head, tail]
    rfl

theorem keep_membersOutline {room : Nat} (members : List (String × Json))
    (kept : ∀ m ∈ members, (toOutline m.2).keep room = .ok m.2) :
    (membersOutline members).keep room = .ok members := by
  induction members with
  | nil => rfl
  | cons member members ih =>
    have head := kept member (by simp)
    have tail := ih fun m inside => kept m (List.mem_cons_of_mem _ inside)
    simp only [membersOutline, Members.keep, head, tail]
    rfl

theorem Fits.keep {room : Nat} {j : Json} (fits : Fits room j) : (toOutline j).keep room = .ok j := by
  induction fits with
  | null => rfl
  | bool b => rfl
  | integer word => rfl
  | string s => rfl
  | array _ ih =>
    rw [toOutline, Outline.keep, keep_itemsOutline _ ih]
    rfl
  | object _ ih =>
    rw [toOutline, Outline.keep, keep_membersOutline _ ih]
    rfl

/-- The reader gets the value back from its form, wherever that stands. -/
structure Reads {α : Type} (read : Reader α) (room : Nat) (j : Json) (a : α) : Prop where
  fits : Fits room j
  back : ∀ source, read source (toOutline j) = .ok a

section

variable {α β σ : Type}

theorem Reads.render {read : Reader α} {room : Nat} {j : Json} {a : α} (reads : Reads read room j a) :
    readTextWith read j.render = .ok a := by
  rw [readTextWith, outline_render reads.fits]
  simp only [reads.back]
  rfl

theorem Reads.text (s : String) {room : Nat} : Reads readText room (.string s) s :=
  ⟨.string s, fun _ => rfl⟩

theorem Reads.bool (b : Bool) {room : Nat} : Reads readBool room (.bool b) b :=
  ⟨.bool b, fun _ => rfl⟩

theorem Reads.uint64 (n : UInt64) {room : Nat} : Reads readUInt64 room (.ofNat n.toNat) n := by
  have below := n.toNat_lt
  constructor
  · refine .integer ⟨?_, ?_⟩
    · have least : Int64.minValue.toInt ≤ 0 := by decide
      omega
    · simp only [UInt64.size]; omega
  · intro source
    simp only [readUInt64, readInt, ofNat, toOutline]
    rw [if_pos ⟨by omega, by simp only [UInt64.size]; omega⟩]
    simp [Except.map]

theorem Reads.int32 (i : Int32) {room : Nat} : Reads readInt32 room (.ofInt i.toInt) i := by
  have low := i.le_toInt
  have high := i.toInt_le
  have least : Int64.minValue.toInt ≤ Int32.minValue.toInt := by decide
  have most : Int32.maxValue.toInt < UInt64.size := by decide
  constructor
  · exact .integer ⟨Int.le_trans least low, Int.lt_of_le_of_lt high most⟩
  · intro source
    simp only [readInt32, readInt, ofInt, toOutline]
    rw [if_pos ⟨low, high⟩]
    simp [Except.map]

theorem Reads.option {read : Reader α} {write : α → Json} {room : Nat} (a : Option α)
    (present : ∀ b, Reads read room (write b) b) (shown : ∀ b, toOutline (write b) ≠ .null) :
    Reads (readOption read) room (ofOption write a) a := by
  cases a with
  | none => exact ⟨.null, fun _ => rfl⟩
  | some b =>
    refine ⟨(present b).fits, fun source => ?_⟩
    rw [ofOption, readOption, (present b).back]
    · rfl
    · exact shown b

theorem Reads.variant {known : List (String × α)} {name : String} {a : α} {room : Nat}
    (named : Json.variant known name = .ok a) : Reads (readVariant known) room (.string name) a :=
  ⟨.string name, fun _ => by simpa [readVariant, toOutline] using named⟩

theorem Reads.list {read : Reader α} {write : α → Json} {room : Nat} (as : List α)
    (known : ∀ a ∈ as, Reads read room (write a) a) :
    Reads (readList read) (room + 1) (.array (as.map write)) as := by
  constructor
  · refine .array fun j member => ?_
    obtain ⟨a, inside, rfl⟩ := List.mem_map.mp member
    exact (known a inside).fits
  · intro source
    simp only [toOutline, readList]
    induction as with
    | nil => rfl
    | cons a as ih =>
      have head := (known a (by simp)).back source
      have tail := ih fun b member => known b (List.mem_cons_of_mem _ member)
      simp only [List.map_cons, itemsOutline, readItemsOf, head, tail]
      rfl

theorem place_last {entries : List (String × α)} {name : String} (a : α)
    (before : ∀ e ∈ entries, compare e.1 name = .lt) :
    Table.place name a entries = entries ++ [(name, a)] := by
  induction entries with
  | nil => rfl
  | cons e entries ih =>
    have after : compare name e.1 = .gt := Std.OrientedCmp.gt_iff_lt.mpr (before e (by simp))
    simp only [Table.place, after]
    rw [ih fun e member => before e (List.mem_cons_of_mem _ member), List.cons_append]

theorem readMembersOf_entries {read : Reader α} {write : α → Json} (source : Source)
    (entries : List (String × α)) (known : ∀ e ∈ entries, read source (toOutline (write e.2)) = .ok e.2)
    {t u : Table String α} (whole : u.entries = t.entries ++ entries) :
    readMembersOf read source t (membersOutline (entries.map fun e => (e.1, write e.2))) = .ok u := by
  induction entries generalizing t with
  | nil =>
    rw [List.append_nil] at whole
    cases t; cases u; cases whole
    rfl
  | cons e entries ih =>
    have sorted := u.sorted
    rw [whole] at sorted
    have before : ∀ e' ∈ t.entries, compare e'.1 e.1 = .lt := fun e' member =>
      (List.pairwise_append.mp sorted).2.2 e' member e (by simp)
    have inserted : (t.insert e.1 e.2).entries = t.entries ++ [e] := place_last e.2 before
    have head := known e (by simp)
    have tail := ih (fun e member => known e (List.mem_cons_of_mem _ member)) (t := t.insert e.1 e.2)
      (by rw [whole, inserted, List.append_assoc, List.singleton_append])
    simp only [List.map_cons, membersOutline, readMembersOf, head]
    exact tail

theorem Reads.table {read : Reader α} {write : α → Json} {room : Nat} (t : Table String α)
    (known : ∀ e ∈ t.entries, Reads read room (write e.2) e.2) :
    Reads (readTable read) (room + 1) (.object (t.entries.map fun e => (e.1, write e.2))) t := by
  constructor
  · refine .object fun m member => ?_
    obtain ⟨e, inside, rfl⟩ := List.mem_map.mp member
    exact (known e inside).fits
  · intro source
    exact readMembersOf_entries source t.entries (fun e member => (known e member).back source) rfl

/-- The members take a record from one draft to another, each read by the field of its name. -/
inductive Record.Takes (r : Record σ α) (room : Nat) : σ → List (String × Json) → σ → Prop where
  | done {draft : σ} : r.Takes room draft [] draft
  | member {draft next last : σ} {f : Field σ} {name : String} {j : Json}
    {members : List (String × Json)} (named : r.fields.find? (·.name == name) = some f)
    (fresh : f.given draft = false) (fits : Fits room j)
    (back : ∀ source, f.read source (toOutline j) draft = .ok next)
    (others : r.Takes room next members last) : r.Takes room draft ((name, j) :: members) last

namespace Record.Takes

variable {r : Record σ α} {room : Nat} {draft next last : σ} {name : String} {j : Json}
  {members others : List (String × Json)} {place : σ → Option β} {fill : σ → β → σ} {read : Reader β}
  {spare : Bool} {b : β}

theorem fits (takes : r.Takes room draft members last) : ∀ m ∈ members, Fits room m.2 := by
  induction takes with
  | done => simp
  | member _ _ fits _ _ ih =>
    intro m inside
    rcases List.mem_cons.mp inside with rfl | inside
    · exact fits
    · exact ih m inside

theorem ofMembers (takes : r.Takes room draft members last) (source : Source) :
    r.ofMembers source draft (membersOutline members) = .ok last := by
  induction takes with
  | done => rfl
  | member named fresh _ back _ ih =>
    simp only [membersOutline, Record.ofMembers, named, fresh, back]
    exact ih

theorem append (first : r.Takes room draft members next) (second : r.Takes room next others last) :
    r.Takes room draft (members ++ others) last := by
  induction first with
  | done => exact second
  | member named fresh fits back _ ih => exact .member named fresh fits back (ih second)

theorem given (named : r.fields.find? (·.name == name) = some (field name place fill read spare))
    (fresh : place draft = none) (reads : Reads read room j b)
    (rest : r.Takes room (fill draft b) members last) :
    r.Takes room draft ((name, j) :: members) last := by
  refine .member named ?_ reads.fits (fun source => ?_) rest
  · simp [field, fresh]
  · simp [field, reads.back, Except.map]

theorem optional {empty : Bool}
    (named : r.fields.find? (·.name == name) = some (field name place fill read spare))
    (fresh : place draft = none) (reads : Reads read room j b) :
    r.Takes room draft (memberUnless empty name j) (if empty then draft else fill draft b) := by
  cases empty with
  | true => exact .done
  | false => exact .given named fresh reads .done

end Record.Takes

theorem getD_left_out {empty : Bool} {b default : β} (same : empty = true → b = default) :
    (if empty then none else some b).getD default = b := by
  cases empty with
  | true => exact (same rfl).symm
  | false => rfl

theorem Reads.record {r : Record σ α} {room : Nat} {members : List (String × Json)} {draft : σ}
    {a : α} (last : σ) (takes : r.Takes room r.start members draft) (same : draft = last)
    (finish : r.finish last = .ok a) : Reads r.read (room + 1) (.object members) a := by
  subst same
  constructor
  · exact .object takes.fits
  · intro source
    simp only [toOutline, Record.read, takes.ofMembers source]
    exact finish

theorem eq_ok_of_map {f : α → β} {r : Except Fault α} {b : β} (mapped : r.map f = .ok b) :
    ∃ a, r = .ok a ∧ b = f a := by
  cases r with
  | error fault => cases mapped
  | ok a =>
    cases mapped
    exact ⟨a, rfl, rfl⟩

theorem eq_ok_of_bind {f : α → Except Fault β} {r : Except Fault α} {b : β}
    (bound : r >>= f = .ok b) : ∃ a, r = .ok a ∧ f a = .ok b := by
  cases r with
  | error fault => cases bound
  | ok a => exact ⟨a, rfl, bound⟩

theorem read_of_text {read : Reader α} {text : String} {a : α} (whole : readTextWith read text = .ok a) :
    ∃ o, read .text o = .ok a := by
  unfold readTextWith at whole
  cases parse : read .text (outline text).1 with
  | error fault =>
    simp only [parse] at whole
    cases whole
  | ok b =>
    cases clean : (outline text).2 <;> simp only [parse, clean] at whole
    · cases whole
    · cases whole
      exact ⟨_, parse⟩

theorem read_of_field {name : String} {place : σ → Option β} {fill : σ → β → σ} {read : Reader β}
    {spare : Bool} {source : Source} {o : Outline} {draft next : σ}
    (filled : (field name place fill read spare).read source o draft = .ok next) :
    ∃ b, read source o = .ok b ∧ next = fill draft b :=
  eq_ok_of_map filled

theorem mem_of_readList {read : Reader α} {source : Source} {o : Outline} {as : List α}
    (list : readList read source o = .ok as) {a : α} (member : a ∈ as) :
    ∃ o, read source o = .ok a := by
  cases o with
  | array items =>
    simp only [readList] at list
    fun_induction readItemsOf read source items generalizing as
    case case1 =>
      cases list
      cases member
    case case2 => cases list
    case case3 value rest ih =>
      obtain ⟨b, head, list⟩ := eq_ok_of_bind list
      obtain ⟨bs, tail, list⟩ := eq_ok_of_bind list
      cases list
      rcases List.mem_cons.mp member with rfl | member
      · exact ⟨value, head⟩
      · exact ih member tail
  | _ => cases list

namespace Record

variable {r : Record σ α} {holds : σ → Prop} {source : Source} {draft last : σ}

def Keeps (r : Record σ α) (holds : σ → Prop) : Prop :=
  ∀ f ∈ r.fields, ∀ source o draft next,
    holds draft → f.read source o draft = .ok next → holds next

theorem Keeps.ofMembers (keeps : r.Keeps holds) {members : Members} (before : holds draft)
    (read : r.ofMembers source draft members = .ok last) : holds last := by
  fun_induction Record.ofMembers r source draft members
  case case1 =>
    cases read
    exact before
  case case6 ih => exact ih before read
  case case8 f named _ ih =>
    obtain ⟨next, filled, rest⟩ := eq_ok_of_bind read
    exact ih next (keeps f (List.mem_of_find?_eq_some named) _ _ _ _ before filled) rest
  all_goals cases read

theorem Keeps.ofItems (keeps : r.Keeps holds) {fields : List (Field σ)} {items : Items}
    (known : ∀ f ∈ fields, f ∈ r.fields) (before : holds draft)
    (read : r.ofItems source fields draft items = .ok last) : holds last := by
  fun_induction Record.ofItems r source fields draft items
  case case1 =>
    obtain ⟨_, _, rfl⟩ := eq_ok_of_map read
    exact before
  case case3 ih => exact ih (fun f member => known f (List.mem_cons_of_mem _ member)) before read
  case case5 f _ _ _ _ ih =>
    obtain ⟨next, filled, rest⟩ := eq_ok_of_bind read
    exact ih next (fun f member => known f (List.mem_cons_of_mem _ member))
      (keeps f (known f (by simp)) _ _ _ _ before filled) rest
  all_goals cases read

theorem Keeps.read (keeps : r.Keeps holds) (start : holds r.start) {o : Outline} {a : α}
    (read : r.read source o = .ok a) : ∃ draft, holds draft ∧ r.finish draft = .ok a := by
  cases o with
  | object members =>
    obtain ⟨draft, filled, finished⟩ := eq_ok_of_bind read
    exact ⟨draft, keeps.ofMembers start filled, finished⟩
  | array items =>
    obtain ⟨draft, filled, finished⟩ := eq_ok_of_bind read
    exact ⟨draft, keeps.ofItems (fun _ member => member) start filled, finished⟩
  | _ => cases read

end Record

end

end Json

end MonitorOperator
