import Mathlib.Data.List.Forall2
import MonitorOperator.Proofs.Json.Records

/-!
Documents with members left out. What may go is said per type, by a relation on outlines: a member
whose value reads as the default of its field goes, the others stay and are thinned inside. Reading
a record does not notice (`Record.Settles.harmless`): leaving a field out of a draft and filling it
with its default settle to the same draft.
-/

namespace MonitorOperator

namespace Json

variable {α β σ : Type}

/-- The outlines that are left of an outline when members of it go. What a value reads as depends
on where it comes from. -/
abbrev Thinning := Source → Outline → Outline → Prop

/-- A field as a document has it: its name, the values for which its member may go, and what may go
inside the values of members that stay. -/
structure Part where
  name : String
  idle : Source → Outline → Prop
  inside : Thinning

inductive ThinItems (inside : Thinning) (source : Source) : Items → Items → Prop where
  | same (items : Items) : ThinItems inside source items items
  | item {value value' : Outline} {rest rest' : Items} (head : inside source value value')
    (tail : ThinItems inside source rest rest') :
    ThinItems inside source (.item value rest) (.item value' rest')

inductive ThinMembers (parts : List Part) (source : Source) : Members → Members → Prop where
  | same (members : Members) : ThinMembers parts source members members
  | stays {name : Name} {value : Outline} {rest rest' : Members}
    (tail : ThinMembers parts source rest rest') :
    ThinMembers parts source (.member name value rest) (.member name value rest')
  | thinned {p : Part} {name : String} {value value' : Outline} {rest rest' : Members}
    (named : parts.find? (·.name == name) = some p) (head : p.inside source value value')
    (tail : ThinMembers parts source rest rest') :
    ThinMembers parts source (.member (.text name) value rest) (.member (.text name) value' rest')
  | omitted {p : Part} {name : String} {value : Outline} {rest rest' : Members}
    (named : parts.find? (·.name == name) = some p) (idle : p.idle source value)
    (tail : ThinMembers parts source rest rest') :
    ThinMembers parts source (.member (.text name) value rest) rest'

inductive ThinInOrder (source : Source) : List Part → Items → Items → Prop where
  | same (parts : List Part) (items : Items) : ThinInOrder source parts items items
  | item {p : Part} {parts : List Part} {value value' : Outline} {rest rest' : Items}
    (head : p.inside source value value') (tail : ThinInOrder source parts rest rest') :
    ThinInOrder source (p :: parts) (.item value rest) (.item value' rest')

namespace Thinning

def nothing : Thinning := fun _ o o' => o = o'

inductive list (inside : Thinning) : Thinning where
  | same {source : Source} (o : Outline) : list inside source o o
  | array {source : Source} {items items' : Items} (thin : ThinItems inside source items items') :
    list inside source (.array items) (.array items')

inductive record (parts : List Part) : Thinning where
  | same {source : Source} (o : Outline) : record parts source o o
  | object {source : Source} {members members' : Members}
    (thin : ThinMembers parts source members members') :
    record parts source (.object members) (.object members')
  | array {source : Source} {items items' : Items} (thin : ThinInOrder source parts items items') :
    record parts source (.array items) (.array items')

def Keepable (thin : Thinning) : Prop :=
  ∀ {source : Source} {o o' : Outline} {room : Nat} {j : Json},
    thin source o o' → o.keep room = .ok j → ∃ j', o'.keep room = .ok j'

/-- The reader gets the same from what is left, straight from the text or kept first. -/
structure Harmless (thin : Thinning) (read : Reader α) : Prop where
  alike : ∀ {source : Source} {o o' : Outline} {a : α},
    thin source o o' → read source o = .ok a → read source o' = .ok a
  keepable : thin.Keepable

end Thinning

namespace Part

def needed (name : String) (inside : Thinning) : Part := ⟨name, fun _ _ => False, inside⟩

def spare (name : String) (read : Reader β) (default : β) (inside : Thinning) : Part :=
  ⟨name, fun source o => read source o = .ok default, inside⟩

end Part

section Keeping

variable {room : Nat} {source : Source}

theorem keep_item {value : Outline} {rest : Items} {js : List Json} :
    (Items.item value rest).keep room = .ok js
      ↔ ∃ j others, value.keep room = .ok j ∧ rest.keep room = .ok others ∧ js = j :: others := by
  rw [Items.keep]
  cases value.keep room <;> cases rest.keep room <;> simp [bind, Except.bind, pure, Except.pure,
    eq_comm]

theorem keep_member {name : String} {value : Outline} {rest : Members}
    {ms : List (String × Json)} :
    (Members.member (.text name) value rest).keep room = .ok ms
      ↔ ∃ j others, value.keep room = .ok j ∧ rest.keep room = .ok others
        ∧ ms = (name, j) :: others := by
  rw [Members.keep]
  cases value.keep room <;> cases rest.keep room <;> simp [bind, Except.bind, pure, Except.pure,
    eq_comm]

theorem keep_array {items : Items} {j : Json} : (Outline.array items).keep room = .ok j
    ↔ ∃ less js, room = less + 1 ∧ items.keep less = .ok js ∧ j = .array js := by
  cases room with
  | zero => simp [Outline.keep]
  | succ less =>
    rw [Outline.keep]
    cases kept : items.keep less <;> simp [Except.map, kept, eq_comm]

theorem keep_object {members : Members} {j : Json} : (Outline.object members).keep room = .ok j
    ↔ ∃ less ms, room = less + 1 ∧ members.keep less = .ok ms ∧ j = .object ms := by
  cases room with
  | zero => simp [Outline.keep]
  | succ less =>
    rw [Outline.keep]
    cases kept : members.keep less <;> simp [Except.map, kept, eq_comm]

theorem ThinItems.keep {inside : Thinning} (keepable : inside.Keepable) {items items' : Items}
    {js : List Json} (thin : ThinItems inside source items items')
    (kept : items.keep room = .ok js) : ∃ js', items'.keep room = .ok js' := by
  induction thin generalizing js with
  | same items => exact ⟨js, kept⟩
  | item head _ ih =>
    obtain ⟨j, others, first, rest, -⟩ := keep_item.mp kept
    obtain ⟨j', first'⟩ := keepable head first
    obtain ⟨others', rest'⟩ := ih rest
    exact ⟨_, keep_item.mpr ⟨j', others', first', rest', rfl⟩⟩

theorem Thinning.Keepable.list {inside : Thinning} (keepable : inside.Keepable) :
    (Thinning.list inside).Keepable := by
  rintro source _ _ room j (_ | thin) kept
  · exact ⟨j, kept⟩
  · obtain ⟨less, js, rfl, items, -⟩ := keep_array.mp kept
    obtain ⟨js', items'⟩ := thin.keep keepable items
    exact ⟨_, keep_array.mpr ⟨less, js', rfl, items', rfl⟩⟩

variable {parts : List Part}

theorem ThinMembers.keep (keepable : ∀ p ∈ parts, p.inside.Keepable) {members members' : Members}
    {ms : List (String × Json)} (thin : ThinMembers parts source members members')
    (kept : members.keep room = .ok ms) : ∃ ms', members'.keep room = .ok ms' := by
  induction thin generalizing ms with
  | same members => exact ⟨ms, kept⟩
  | @stays name _ _ _ _ ih =>
    cases name with
    | broken => cases kept
    | text name =>
      obtain ⟨j, others, first, rest, -⟩ := keep_member.mp kept
      obtain ⟨others', rest'⟩ := ih rest
      exact ⟨_, keep_member.mpr ⟨j, others', first, rest', rfl⟩⟩
  | thinned named head _ ih =>
    obtain ⟨j, others, first, rest, -⟩ := keep_member.mp kept
    obtain ⟨j', first'⟩ := keepable _ (List.mem_of_find?_eq_some named) head first
    obtain ⟨others', rest'⟩ := ih rest
    exact ⟨_, keep_member.mpr ⟨j', others', first', rest', rfl⟩⟩
  | omitted _ _ _ ih =>
    obtain ⟨j, others, first, rest, -⟩ := keep_member.mp kept
    exact ih rest

theorem ThinInOrder.keep (keepable : ∀ p ∈ parts, p.inside.Keepable) {items items' : Items}
    {js : List Json} (thin : ThinInOrder source parts items items')
    (kept : items.keep room = .ok js) : ∃ js', items'.keep room = .ok js' := by
  induction thin generalizing js with
  | same parts items => exact ⟨js, kept⟩
  | item head _ ih =>
    obtain ⟨j, others, first, rest, -⟩ := keep_item.mp kept
    obtain ⟨j', first'⟩ := keepable _ (by simp) head first
    obtain ⟨others', rest'⟩ := ih (fun p member => keepable p (List.mem_cons_of_mem _ member)) rest
    exact ⟨_, keep_item.mpr ⟨j', others', first', rest', rfl⟩⟩

theorem Thinning.Keepable.record (keepable : ∀ p ∈ parts, p.inside.Keepable) :
    (Thinning.record parts).Keepable := by
  rintro source _ _ room j (_ | thin | thin) kept
  · exact ⟨j, kept⟩
  · obtain ⟨less, ms, rfl, members, -⟩ := keep_object.mp kept
    obtain ⟨ms', members'⟩ := thin.keep keepable members
    exact ⟨_, keep_object.mpr ⟨less, ms', rfl, members', rfl⟩⟩
  · obtain ⟨less, js, rfl, items, -⟩ := keep_array.mp kept
    obtain ⟨js', items'⟩ := thin.keep keepable items
    exact ⟨_, keep_array.mpr ⟨less, js', rfl, items', rfl⟩⟩

mutual

theorem toOutline_keep : ∀ {o : Outline} {room : Nat} {j : Json},
    o.keep room = .ok j → toOutline j = o
  | .null, _, _, kept | .bool _, _, _, kept | .number _, _, _, kept | .string _, _, _, kept => by
    cases kept
    rfl
  | .array _, _, _, kept => by
    obtain ⟨_, _, -, items, rfl⟩ := keep_array.mp kept
    rw [toOutline, itemsOutline_keep items]
  | .object _, _, _, kept => by
    obtain ⟨_, _, -, members, rfl⟩ := keep_object.mp kept
    rw [toOutline, membersOutline_keep members]
  | .broken .., _, _, kept | .torn .., _, _, kept => by cases kept

theorem itemsOutline_keep : ∀ {items : Items} {room : Nat} {js : List Json},
    items.keep room = .ok js → itemsOutline js = items
  | .close, _, _, kept => by
    cases kept
    rfl
  | .stop _, _, _, kept => by cases kept
  | .item .., _, _, kept => by
    obtain ⟨_, _, first, rest, rfl⟩ := keep_item.mp kept
    rw [itemsOutline, toOutline_keep first, itemsOutline_keep rest]

theorem membersOutline_keep : ∀ {members : Members} {room : Nat} {ms : List (String × Json)},
    members.keep room = .ok ms → membersOutline ms = members
  | .close, _, _, kept => by
    cases kept
    rfl
  | .stop _, _, _, kept | .dangling _, _, _, kept | .member (.broken ..) .., _, _, kept => by
    cases kept
  | .member (.text _) .., _, _, kept => by
    obtain ⟨_, _, first, rest, rfl⟩ := keep_member.mp kept
    rw [membersOutline, toOutline_keep first, membersOutline_keep rest]

end

end Keeping

theorem Thinning.Harmless.nothing {read : Reader α} : Thinning.nothing.Harmless read :=
  ⟨fun same given => same ▸ given, fun same kept => ⟨_, same ▸ kept⟩⟩

theorem ThinItems.reads {inside : Thinning} {read : Reader α} (harmless : inside.Harmless read)
    {source : Source} {items items' : Items} {as : List α}
    (thin : ThinItems inside source items items') (given : readItemsOf read source items = .ok as) :
    readItemsOf read source items' = .ok as := by
  induction thin generalizing as with
  | same items => exact given
  | item head _ ih =>
    obtain ⟨a, first, given⟩ := eq_ok_of_bind given
    obtain ⟨others, rest, last⟩ := eq_ok_of_bind given
    simp only [readItemsOf, harmless.alike head first, ih rest]
    exact last

theorem Thinning.Harmless.list {inside : Thinning} {read : Reader α}
    (harmless : inside.Harmless read) : (Thinning.list inside).Harmless (readList read) where
  alike := by
    rintro source _ _ as (_ | thin) given
    · exact given
    · exact thin.reads harmless given
  keepable := Thinning.Keepable.list harmless.keepable

def Members.names : Members → List String
  | .member (.text name) _ rest => name :: rest.names
  | .member (.broken ..) _ rest => rest.names
  | _ => []

structure Slot (settle : σ → σ) (f : Field σ) (p : Part) : Prop where
  name : f.name = p.name
  inside : ∀ {source : Source} {o o' : Outline} {d e : σ},
    p.inside source o o' → f.read source o d = .ok e → f.read source o' d = .ok e
  settled : ∀ {source : Source} {o : Outline} {d d' e : σ}, settle d = settle d' →
    f.read source o d = .ok e → ∃ e', f.read source o d' = .ok e' ∧ settle e = settle e'
  keepable : p.inside.Keepable
  idle : ∀ {source : Source} {o : Outline} {d : σ}, p.idle source o → f.given d = false →
    ∃ e, f.read source o d = .ok e ∧ settle e = settle d

namespace Slot

variable {settle : σ → σ} {name : String} {place : σ → Option β} {fill : σ → β → σ}
  {read : Reader β} {inside : Thinning}

theorem settled_field {spare : Bool} (commutes : ∀ d b, settle (fill d b) = fill (settle d) b)
    {source : Source} {o : Outline} {d d' e : σ} (same : settle d = settle d')
    (given : (field name place fill read spare).read source o d = .ok e) :
    ∃ e', (field name place fill read spare).read source o d' = .ok e' ∧ settle e = settle e' := by
  obtain ⟨b, value, rfl⟩ := read_of_field given
  refine ⟨fill d' b, by simp [field, value, Except.map], ?_⟩
  rw [commutes, commutes, same]

theorem inside_field {spare : Bool} (harmless : inside.Harmless read) {source : Source}
    {o o' : Outline} {d e : σ} (thin : inside source o o')
    (given : (field name place fill read spare).read source o d = .ok e) :
    (field name place fill read spare).read source o' d = .ok e := by
  obtain ⟨b, value, rfl⟩ := read_of_field given
  simp [field, harmless.alike thin value, Except.map]

theorem needed (harmless : inside.Harmless read)
    (commutes : ∀ d b, settle (fill d b) = fill (settle d) b) :
    Slot settle (field name place fill read false) (.needed name inside) where
  name := rfl
  inside := inside_field harmless
  settled := settled_field commutes
  keepable := harmless.keepable
  idle := False.elim

theorem spare {default : β} (harmless : inside.Harmless read)
    (commutes : ∀ d b, settle (fill d b) = fill (settle d) b)
    (absent : ∀ d, place d = none → settle (fill d default) = settle d) :
    Slot settle (field name place fill read true) (.spare name read default inside) where
  name := rfl
  inside := inside_field harmless
  settled := settled_field commutes
  keepable := harmless.keepable
  idle := fun {source o d} idle fresh =>
    ⟨fill d default, by simp [field, show read source o = .ok default from idle, Except.map],
      absent d (by simpa [field] using fresh)⟩

end Slot

namespace Record

/-- Reading a field gives that field and no other. -/
def Apart (r : Record σ α) : Prop :=
  ∀ f ∈ r.fields, ∀ g ∈ r.fields, ∀ {source : Source} {o : Outline} {d e : σ},
    f.read source o d = .ok e → g.given e = (g.name == f.name || g.given d)

structure Settles (r : Record σ α) (parts : List Part) (settle : σ → σ) : Prop where
  slots : List.Forall₂ (Slot settle) r.fields parts
  apart : r.Apart
  finish : ∀ d, r.finish (settle d) = r.finish d

namespace Settles

variable {r : Record σ α} {parts : List Part} {settle : σ → σ} {source : Source} {name : String}
  {value : Outline} {d d' e : σ}

theorem find?_slots {fields : List (Field σ)} (slots : List.Forall₂ (Slot settle) fields parts)
    (name : String) :
    (fields.find? (·.name == name) = none ∧ parts.find? (·.name == name) = none)
    ∨ ∃ f p, fields.find? (·.name == name) = some f ∧ parts.find? (·.name == name) = some p
      ∧ Slot settle f p := by
  induction slots with
  | nil => exact .inl ⟨rfl, rfl⟩
  | @cons f p fields parts slot _ ih =>
    by_cases here : p.name = name
    · exact .inr ⟨f, p, by simp [slot.name, here], by simp [here], slot⟩
    · simpa [List.find?_cons, slot.name, here] using ih

theorem field_of_part (h : r.Settles parts settle) {p : Part}
    (named : parts.find? (·.name == name) = some p) :
    ∃ f, r.fields.find? (·.name == name) = some f ∧ Slot settle f p := by
  rcases find?_slots h.slots name with ⟨-, none⟩ | ⟨f, q, found, part, slot⟩
  · rw [named] at none
    cases none
  · rw [named] at part
    cases part
    exact ⟨f, found, slot⟩

theorem part_of_field (h : r.Settles parts settle) {f : Field σ}
    (named : r.fields.find? (·.name == name) = some f) : ∃ p, Slot settle f p := by
  rcases find?_slots h.slots name with ⟨none, -⟩ | ⟨g, q, found, -, slot⟩
  · rw [named] at none
    cases none
  · rw [named] at found
    cases found
    exact ⟨q, slot⟩

theorem keepable (h : r.Settles parts settle) : ∀ p ∈ parts, p.inside.Keepable := by
  have all {fields : List (Field σ)} {parts : List Part}
      (slots : List.Forall₂ (Slot settle) fields parts) : ∀ p ∈ parts, p.inside.Keepable := by
    induction slots with
    | nil => simp
    | cons slot _ ih => exact List.forall_mem_cons.mpr ⟨slot.keepable, ih⟩
  exact all h.slots

/-- The second draft lacks some of the defaults, and of the fields to come no other than the first
one does. -/
structure Lags (r : Record σ α) (settle : σ → σ) (names : List String) (d d' : σ) : Prop where
  same : settle d = settle d'
  free : ∀ f ∈ r.fields, f.name ∈ names → f.given d = false → f.given d' = false

theorem member_eq_ok {rest : Members} {f : Field σ}
    (named : r.fields.find? (·.name == name) = some f) :
    r.ofMembers source d (.member (.text name) value rest) = .ok e
      ↔ f.given d = false ∧ ∃ next, f.read source value d = .ok next
        ∧ r.ofMembers source next rest = .ok e := by
  simp only [Record.ofMembers, named]
  cases f.given d with
  | true => simp
  | false => cases f.read source value d <;> simp [bind, Except.bind]

theorem foreign_eq_ok {rest : Members} (foreign : r.fields.find? (·.name == name) = none) :
    r.ofMembers source d (.member (.text name) value rest) = .ok e
      ↔ value.skip = none ∧ r.ofMembers source d rest = .ok e := by
  simp only [Record.ofMembers, foreign]
  cases value.skip <;> simp

theorem Lags.tail {names : List String} (h : Lags r settle (name :: names) d d') :
    Lags r settle names d d' :=
  ⟨h.same, fun f member inside => h.free f member (List.mem_cons_of_mem _ inside)⟩

theorem Lags.member {names : List String} (h : r.Settles parts settle)
    (lags : Lags r settle (name :: names) d d') {f : Field σ}
    (named : r.fields.find? (·.name == name) = some f) {next : σ} (fresh : f.given d = false)
    (given : f.read source value d = .ok next) :
    f.given d' = false ∧ ∃ next', f.read source value d' = .ok next'
      ∧ Lags r settle names next next' := by
  have member := List.mem_of_find?_eq_some named
  have called : f.name = name := by simpa using List.find?_some named
  obtain ⟨p, slot⟩ := h.part_of_field named
  obtain ⟨next', given', same⟩ := slot.settled lags.same given
  refine ⟨lags.free f member (by simp [called]) fresh, next', given', same, ?_⟩
  intro g inside later free
  rw [h.apart f member g inside given, Bool.or_eq_false_iff] at free
  rw [h.apart f member g inside given', Bool.or_eq_false_iff]
  exact ⟨free.1, lags.free g inside (List.mem_cons_of_mem _ later) free.2⟩

theorem ofMembers_lags (h : r.Settles parts settle) {members : Members}
    (lags : Lags r settle members.names d d')
    (given : r.ofMembers source d members = .ok e) :
    ∃ e', r.ofMembers source d' members = .ok e' ∧ settle e = settle e' := by
  fun_induction Record.ofMembers r source d members generalizing d' with
  | case1 d =>
    cases given
    exact ⟨d', rfl, lags.same⟩
  | case6 d name value rest foreign skip ih =>
    obtain ⟨e', given', same⟩ := ih lags.tail given
    exact ⟨e', (foreign_eq_ok foreign).mpr ⟨skip, given'⟩, same⟩
  | case8 d name value rest f named fresh ih =>
    obtain ⟨next, first, given⟩ := eq_ok_of_bind given
    obtain ⟨fresh', next', first', lags⟩ :=
      Lags.member h lags named (Bool.not_eq_true _ ▸ fresh) first
    obtain ⟨e', given', same⟩ := ih next lags given
    exact ⟨e', (member_eq_ok named).mpr ⟨fresh', next', first', given'⟩, same⟩
  | _ => cases given

theorem Lags.omitted {names : List String} (h : r.Settles parts settle)
    (lags : Lags r settle (name :: names) d d') {p : Part}
    (named : parts.find? (·.name == name) = some p) (idle : p.idle source value) {f : Field σ}
    (found : r.fields.find? (·.name == name) = some f) {next : σ} (fresh : f.given d = false)
    (given : f.read source value d = .ok next) : Lags r settle names next d' := by
  obtain ⟨f', found', slot⟩ := h.field_of_part named
  cases found.symm.trans found'
  obtain ⟨_, given', same⟩ := slot.idle idle fresh
  cases given.symm.trans given'
  refine ⟨same.trans lags.same, fun g inside later free => ?_⟩
  rw [h.apart f (List.mem_of_find?_eq_some found) g inside given, Bool.or_eq_false_iff] at free
  exact lags.tail.free g inside later free.2

theorem ofMembers_thin (h : r.Settles parts settle) {members members' : Members}
    (thin : ThinMembers parts source members members') (lags : Lags r settle members.names d d')
    (given : r.ofMembers source d members = .ok e) :
    ∃ e', r.ofMembers source d' members' = .ok e' ∧ settle e = settle e' := by
  induction thin generalizing d d' with
  | same members => exact ofMembers_lags h lags given
  | @stays name value rest rest' _ ih =>
    cases name with
    | broken => cases given
    | text name =>
      cases named : r.fields.find? (·.name == name) with
      | none =>
        obtain ⟨skip, given⟩ := (foreign_eq_ok named).mp given
        obtain ⟨e', given', same⟩ := ih lags.tail given
        exact ⟨e', (foreign_eq_ok named).mpr ⟨skip, given'⟩, same⟩
      | some f =>
        obtain ⟨fresh, next, first, given⟩ := (member_eq_ok named).mp given
        obtain ⟨fresh', next', first', lags⟩ := Lags.member h lags named fresh first
        obtain ⟨e', given', same⟩ := ih lags given
        exact ⟨e', (member_eq_ok named).mpr ⟨fresh', next', first', given'⟩, same⟩
  | thinned named head _ ih =>
    obtain ⟨f, found, slot⟩ := h.field_of_part named
    obtain ⟨fresh, next, first, given⟩ := (member_eq_ok found).mp given
    obtain ⟨fresh', next', first', lags⟩ := Lags.member h lags found fresh (slot.inside head first)
    obtain ⟨e', given', same⟩ := ih lags given
    exact ⟨e', (member_eq_ok found).mpr ⟨fresh', next', first', given'⟩, same⟩
  | omitted named idle _ ih =>
    obtain ⟨f, found, -⟩ := h.field_of_part named
    obtain ⟨fresh, next, first, given⟩ := (member_eq_ok found).mp given
    exact ih (Lags.omitted h lags named idle found fresh first) given

theorem ofItems_thin {fields : List (Field σ)} (slots : List.Forall₂ (Slot settle) fields parts)
    {items items' : Items} (thin : ThinInOrder source parts items items')
    (given : r.ofItems source fields d items = .ok e) :
    r.ofItems source fields d items' = .ok e := by
  induction thin generalizing fields d with
  | same parts items => exact given
  | item head _ ih =>
    cases slots with
    | cons slot slots =>
      obtain ⟨next, first, given⟩ := eq_ok_of_bind given
      simp only [Record.ofItems, slot.inside head first]
      exact ih slots given

/-- Leaving out members whose values are the defaults does not change what a record reads. -/
theorem harmless (h : r.Settles parts settle) : (Thinning.record parts).Harmless r.read where
  alike := by
    rintro source _ _ a (_ | thin | thin) given
    · exact given
    · obtain ⟨draft, filled, finished⟩ := eq_ok_of_bind given
      obtain ⟨draft', filled', same⟩ := ofMembers_thin h thin ⟨rfl, fun _ _ _ free => free⟩ filled
      simp only [Record.read, filled']
      exact (h.finish draft').symm.trans (same ▸ (h.finish draft).trans finished)
    · obtain ⟨draft, filled, finished⟩ := eq_ok_of_bind given
      simp only [Record.read, ofItems_thin h.slots thin filled]
      exact finished
  keepable := Thinning.Keepable.record h.keepable

end Settles

end Record

inductive Inserted (name : String) (value : Outline) : Members → Members → Prop where
  | here (rest : Members) : Inserted name value rest (.member (.text name) value rest)
  | later {other : Name} {held : Outline} {rest rest' : Members}
    (tail : Inserted name value rest rest') :
    Inserted name value (.member other held rest) (.member other held rest')

theorem Inserted.thin {name : String} {value : Outline} {members members' : Members}
    (put : Inserted name value members members') {parts : List Part} {source : Source} {p : Part}
    (named : parts.find? (·.name == name) = some p) (idle : p.idle source value) :
    ThinMembers parts source members' members := by
  induction put with
  | here rest => exact .omitted named idle (.same rest)
  | later _ ih => exact .stays ih

namespace Record.Settles

variable {r : Record σ α} {parts : List Part} {settle : σ → σ} {source : Source} {name : String}
  {value : Outline} {d e : σ} {members members' : Members}

theorem ofMembers_inserted (h : r.Settles parts settle) (put : Inserted name value members members')
    (absent : name ∉ members.names) {f : Field σ} {p : Part}
    (found : r.fields.find? (·.name == name) = some f) (slot : Slot settle f p)
    (idle : p.idle source value) (fresh : f.given d = false)
    (given : r.ofMembers source d members = .ok e) :
    ∃ e', r.ofMembers source d members' = .ok e' ∧ settle e = settle e' := by
  have called : f.name = name := by simpa using List.find?_some found
  have inside := List.mem_of_find?_eq_some found
  induction put generalizing d with
  | here rest =>
    obtain ⟨next, first, same⟩ := slot.idle idle fresh
    have lags : Lags r settle rest.names d next := by
      refine ⟨same.symm, fun g member later free => ?_⟩
      rw [h.apart f inside g member first, Bool.or_eq_false_iff]
      refine ⟨beq_false_of_ne fun clash => absent ?_, free⟩
      rwa [← called, ← clash]
    obtain ⟨e', given', same'⟩ := ofMembers_lags h lags given
    exact ⟨e', (member_eq_ok found).mpr ⟨fresh, next, first, given'⟩, same'⟩
  | @later other held rest rest' _ ih =>
    cases other with
    | broken => cases given
    | text other =>
      simp only [Members.names, List.mem_cons, not_or] at absent
      cases named : r.fields.find? (·.name == other) with
      | none =>
        obtain ⟨skip, given⟩ := (foreign_eq_ok named).mp given
        obtain ⟨e', given', same⟩ := ih absent.2 fresh given
        exact ⟨e', (foreign_eq_ok named).mpr ⟨skip, given'⟩, same⟩
      | some g =>
        obtain ⟨free, next, first, given⟩ := (member_eq_ok named).mp given
        have fresh' : f.given next = false := by
          have apart : f.name ≠ g.name := by
            have : g.name = other := by simpa using List.find?_some named
            rw [called, this]
            exact absent.1
          rw [h.apart g (List.mem_of_find?_eq_some named) f inside first, fresh,
            beq_false_of_ne apart]
          rfl
        obtain ⟨e', given', same⟩ := ih absent.2 fresh' given
        exact ⟨e', (member_eq_ok named).mpr ⟨free, next, first, given'⟩, same⟩

theorem inserted_iff (h : r.Settles parts settle) (put : Inserted name value members members')
    (absent : name ∉ members.names) {p : Part} (named : parts.find? (·.name == name) = some p)
    (idle : p.idle source value) (start : ∀ f ∈ r.fields, f.given r.start = false) {a : α} :
    r.read source (.object members') = .ok a ↔ r.read source (.object members) = .ok a := by
  constructor
  · exact h.harmless.alike (.object (put.thin named idle))
  · intro given
    obtain ⟨f, found, slot⟩ := h.field_of_part named
    obtain ⟨draft, filled, finished⟩ := eq_ok_of_bind given
    obtain ⟨draft', filled', same⟩ := h.ofMembers_inserted put absent found slot idle
      (start f (List.mem_of_find?_eq_some found)) filled
    simp only [Record.read, filled']
    exact (h.finish draft').symm.trans (same ▸ (h.finish draft).trans finished)

end Record.Settles

end Json

end MonitorOperator
