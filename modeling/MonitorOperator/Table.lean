/-!
Finite tables, kept as entries in strictly increasing key order. Two tables with the same
look-ups are therefore the same table (`Table.ext_get?`), and listing one follows its keys.
-/

namespace MonitorOperator

structure Table (κ : Type) [Ord κ] (α : Type) where
  entries : List (κ × α)
  sorted : entries.Pairwise (fun a b => compare a.1 b.1 = .lt)

namespace Table

variable {κ α : Type} [Ord κ]

instance [DecidableEq κ] [DecidableEq α] : DecidableEq (Table κ α) := fun a b =>
  decidable_of_iff (a.entries = b.entries) <| by
    cases a; cases b; simp

def empty : Table κ α := ⟨[], .nil⟩

instance : EmptyCollection (Table κ α) := ⟨empty⟩

instance : Inhabited (Table κ α) := ⟨empty⟩

def lookup (k : κ) : List (κ × α) → Option α
  | [] => none
  | (k', v) :: rest => if compare k k' = .eq then some v else lookup k rest

def place (k : κ) (v : α) : List (κ × α) → List (κ × α)
  | [] => [(k, v)]
  | (k', v') :: rest =>
    match compare k k' with
    | .lt => (k, v) :: (k', v') :: rest
    | .eq => (k, v) :: rest
    | .gt => (k', v') :: place k v rest

def drop (k : κ) (entries : List (κ × α)) : List (κ × α) :=
  entries.filter (fun e => compare k e.1 != .eq)

theorem mem_place {k : κ} {v : α} {e : κ × α} {entries : List (κ × α)} :
    e ∈ place k v entries → e = (k, v) ∨ e ∈ entries := by
  induction entries with
  | nil => simp [place]
  | cons head rest ih =>
    simp only [place]
    split
    · simp
    · simp only [List.mem_cons]; rintro (h | h) <;> simp [h]
    · simp only [List.mem_cons]
      rintro (h | h)
      · simp [h]
      · rcases ih h with h | h <;> simp [h]

theorem sorted_place [Std.TransOrd κ] (k : κ) (v : α) {entries : List (κ × α)}
    (sorted : entries.Pairwise (fun a b => compare a.1 b.1 = .lt)) :
    (place k v entries).Pairwise (fun a b => compare a.1 b.1 = .lt) := by
  induction entries with
  | nil => simp [place]
  | cons head rest ih =>
    obtain ⟨before, tail⟩ := List.pairwise_cons.mp sorted
    simp only [place]
    split
    · next h =>
      refine List.pairwise_cons.mpr ⟨fun e member => ?_, sorted⟩
      rcases List.mem_cons.mp member with rfl | member
      · exact h
      · exact Std.TransCmp.lt_trans h (before e member)
    · next h =>
      refine List.pairwise_cons.mpr ⟨fun e member => ?_, tail⟩
      exact Std.TransCmp.lt_of_eq_of_lt h (before e member)
    · next h =>
      refine List.pairwise_cons.mpr ⟨fun e member => ?_, ih tail⟩
      rcases mem_place member with rfl | member
      · exact Std.OrientedCmp.gt_iff_lt.mp h
      · exact before e member

def get? (t : Table κ α) (k : κ) : Option α := lookup k t.entries

def contains (t : Table κ α) (k : κ) : Bool := (t.get? k).isSome

def insert [Std.TransOrd κ] (t : Table κ α) (k : κ) (v : α) : Table κ α :=
  ⟨place k v t.entries, sorted_place k v t.sorted⟩

def erase (t : Table κ α) (k : κ) : Table κ α :=
  ⟨drop k t.entries, t.sorted.sublist List.filter_sublist⟩

def keys (t : Table κ α) : List κ := t.entries.map (·.1)

def values (t : Table κ α) : List α := t.entries.map (·.2)

def size (t : Table κ α) : Nat := t.entries.length

def isEmpty (t : Table κ α) : Bool := t.entries.isEmpty

def ofList [Std.TransOrd κ] (entries : List (κ × α)) : Table κ α :=
  entries.foldl (fun t e => t.insert e.1 e.2) empty

def filter (keep : κ → α → Bool) (t : Table κ α) : Table κ α :=
  ⟨t.entries.filter (fun e => keep e.1 e.2), t.sorted.sublist List.filter_sublist⟩

@[simp] theorem get?_empty (k : κ) : (∅ : Table κ α).get? k = none := rfl

section Laws

variable [Std.LawfulEqOrd κ]

theorem lookup_place (k k' : κ) (v : α) (entries : List (κ × α)) [DecidableEq κ] :
    lookup k' (place k v entries) = if k' = k then some v else lookup k' entries := by
  induction entries with
  | nil => simp [place, lookup]
  | cons head rest ih =>
    simp only [place]
    split
    · next h => simp [lookup]
    · next h =>
      have same := Std.compare_eq_iff_eq.mp h
      by_cases h' : k' = k <;> simp_all [lookup]
    · next h =>
      have differ : k ≠ head.1 := fun e => by
        rw [e, Std.compare_eq_iff_eq.mpr rfl] at h; exact nomatch h
      simp only [lookup, Std.compare_eq_iff_eq, ih]
      by_cases h' : k' = head.1
      · simp [h']
        intro e; exact absurd e.symm differ
      · simp [h']

theorem lookup_drop (k k' : κ) (entries : List (κ × α)) [DecidableEq κ] :
    lookup k' (drop k entries) = if k' = k then none else lookup k' entries := by
  induction entries with
  | nil => simp [drop, lookup]
  | cons head rest ih =>
    simp only [drop] at ih ⊢
    by_cases h : compare k head.1 = .eq
    · have same := Std.compare_eq_iff_eq.mp h
      rw [List.filter_cons_of_neg (by simp [h]), ih]
      by_cases h' : k' = k
      · simp [h']
      · have : ¬ k' = head.1 := fun e => h' (e.trans same.symm)
        simp [lookup, h', this]
    · have differ : ¬ k = head.1 := fun e => h (Std.compare_eq_iff_eq.mpr e)
      rw [List.filter_cons_of_pos (by simp [h])]
      simp only [lookup, ih, Std.compare_eq_iff_eq]
      by_cases h' : k' = head.1
      · simp [h']
        intro e; exact absurd e.symm differ
      · simp [h']

theorem get?_insert [Std.TransOrd κ] [DecidableEq κ] (t : Table κ α) (k k' : κ) (v : α) :
    (t.insert k v).get? k' = if k' = k then some v else t.get? k' :=
  lookup_place k k' v t.entries

theorem get?_erase [DecidableEq κ] (t : Table κ α) (k k' : κ) :
    (t.erase k).get? k' = if k' = k then none else t.get? k' :=
  lookup_drop k k' t.entries

theorem mem_of_lookup {k : κ} {v : α} {entries : List (κ × α)}
    (found : lookup k entries = some v) : (k, v) ∈ entries := by
  induction entries with
  | nil => simp [lookup] at found
  | cons head rest ih =>
    simp only [lookup] at found
    split at found
    · next h =>
      have same := Std.compare_eq_iff_eq.mp h
      simp only [Option.some.injEq] at found
      exact List.mem_cons.mpr (.inl (Prod.ext same found.symm))
    · exact List.mem_cons_of_mem _ (ih found)

theorem lookup_of_mem [Std.TransOrd κ] {k : κ} {v : α} {entries : List (κ × α)}
    (sorted : entries.Pairwise (fun a b => compare a.1 b.1 = .lt))
    (member : (k, v) ∈ entries) : lookup k entries = some v := by
  induction entries with
  | nil => simp at member
  | cons head rest ih =>
    obtain ⟨before, tail⟩ := List.pairwise_cons.mp sorted
    rcases List.mem_cons.mp member with rfl | member
    · simp [lookup]
    · have later := before _ member
      have differ : ¬ compare k head.1 = .eq := fun e => by
        rw [Std.compare_eq_iff_eq.mp e, Std.compare_eq_iff_eq.mpr rfl] at later
        exact nomatch later
      simpa [lookup, differ] using ih tail member

theorem mem_entries_iff [Std.TransOrd κ] (t : Table κ α) (k : κ) (v : α) :
    (k, v) ∈ t.entries ↔ t.get? k = some v :=
  ⟨lookup_of_mem t.sorted, mem_of_lookup⟩

theorem contains_insert [Std.TransOrd κ] [DecidableEq κ] (t : Table κ α) (k k' : κ) (v : α) :
    (t.insert k v).contains k' = (decide (k' = k) || t.contains k') := by
  simp only [contains, get?_insert]
  by_cases h : k' = k <;> simp [h]

theorem contains_erase [DecidableEq κ] (t : Table κ α) (k k' : κ) :
    (t.erase k).contains k' = (!decide (k' = k) && t.contains k') := by
  simp only [contains, get?_erase]
  by_cases h : k' = k <;> simp [h]

theorem get?_filter [Std.TransOrd κ] (keep : κ → α → Bool) (t : Table κ α) (k : κ) :
    (t.filter keep).get? k = (t.get? k).filter (keep k) := by
  refine Option.ext fun v => ?_
  rw [← mem_entries_iff, Option.filter_eq_some_iff, ← mem_entries_iff]
  exact List.mem_filter

theorem mem_values_iff [Std.TransOrd κ] (t : Table κ α) (v : α) :
    v ∈ t.values ↔ ∃ k, t.get? k = some v := by
  simp only [values, List.mem_map, Prod.exists, exists_eq_right, mem_entries_iff]

theorem mem_keys_iff [Std.TransOrd κ] (t : Table κ α) (k : κ) : k ∈ t.keys ↔ t.contains k := by
  simp only [keys, List.mem_map, Prod.exists, exists_and_right, exists_eq_right, mem_entries_iff,
    contains, Option.isSome_iff_exists]

theorem nodup_keys (t : Table κ α) : t.keys.Nodup := by
  refine List.pairwise_map.mpr (t.sorted.imp fun before same => ?_)
  rw [Std.compare_eq_iff_eq.mpr same] at before
  exact nomatch before

private theorem entries_eq_of_lookup [Std.TransOrd κ] {l r : List (κ × α)}
    (hl : l.Pairwise (fun a b => compare a.1 b.1 = .lt))
    (hr : r.Pairwise (fun a b => compare a.1 b.1 = .lt))
    (same : ∀ k, lookup k l = lookup k r) : l = r := by
  have absent : ∀ {k : κ} {v : α} {rest : List (κ × α)},
      ((k, v) :: rest).Pairwise (fun a b => compare a.1 b.1 = .lt) → lookup k rest = none := by
    intro k v rest sorted
    cases found : lookup k rest with
    | none => rfl
    | some w =>
      have := (List.pairwise_cons.mp sorted).1 _ (mem_of_lookup found)
      rw [Std.compare_eq_iff_eq.mpr rfl] at this; exact nomatch this
  induction l generalizing r with
  | nil =>
    cases r with
    | nil => rfl
    | cons head rest => have := same head.1; simp [lookup] at this
  | cons a l ih =>
    cases r with
    | nil => have := same a.1; simp [lookup] at this
    | cons b r =>
      obtain ⟨ka, va⟩ := a
      obtain ⟨kb, vb⟩ := b
      have keys : ka = kb := by
        have inRight : (ka, va) ∈ (kb, vb) :: r :=
          mem_of_lookup (by rw [← same ka]; simp [lookup])
        have inLeft : (kb, vb) ∈ (ka, va) :: l :=
          mem_of_lookup (by rw [same kb]; simp [lookup])
        rcases List.mem_cons.mp inRight with h | h
        · exact (Prod.mk.inj h).1
        · rcases List.mem_cons.mp inLeft with h' | h'
          · exact (Prod.mk.inj h').1.symm
          · have below := (List.pairwise_cons.mp hr).1 _ h
            have above := (List.pairwise_cons.mp hl).1 _ h'
            have := Std.TransCmp.lt_trans below above
            rw [Std.compare_eq_iff_eq.mpr rfl] at this; exact nomatch this
      subst keys
      have value : va = vb := by have := same ka; simpa [lookup] using this
      subst value
      have rest : l = r := by
        refine ih (List.pairwise_cons.mp hl).2 (List.pairwise_cons.mp hr).2 fun k => ?_
        by_cases h : compare k ka = .eq
        · rw [Std.compare_eq_iff_eq.mp h, absent hl, absent hr]
        · have := same k; simpa [lookup, h] using this
      rw [rest]

theorem ext_get? [Std.TransOrd κ] {t u : Table κ α} (same : ∀ k, t.get? k = u.get? k) : t = u := by
  cases t with
  | mk l hl =>
    cases u with
    | mk r hr =>
      have := entries_eq_of_lookup hl hr same
      subst this; rfl

end Laws

end Table

end MonitorOperator
