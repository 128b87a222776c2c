import MonitorOperator.Metrics

/-! What the counts of changes add up to, modulo `2 ^ 64`. A change counts once in all, and once under
its own edge as long as no edge that was counted reads like another one. -/

namespace MonitorOperator

namespace Table

variable {κ : Type} [Ord κ] [Std.LawfulEqOrd κ]

def total (counts : List UInt64) : UInt64 := counts.foldr (· + ·) 0

theorem total_cons (n : UInt64) (counts : List UInt64) : total (n :: counts) = n + total counts := rfl

theorem lookup_eq_none_of_lt {k : κ} {entries : List (κ × UInt64)}
    (above : ∀ e ∈ entries, compare k e.1 = .lt) : lookup k entries = none := by
  cases found : lookup k entries with
  | none => rfl
  | some v =>
    have below := above _ (mem_of_lookup found)
    rw [Std.compare_eq_iff_eq.mpr rfl] at below
    exact nomatch below

theorem sum_place [Std.TransOrd κ] (k : κ) (v : UInt64) {entries : List (κ × UInt64)}
    (sorted : entries.Pairwise (fun a b => compare a.1 b.1 = .lt)) :
    total ((place k v entries).map (·.2)) + (lookup k entries).getD 0
      = total (entries.map (·.2)) + v := by
  induction entries with
  | nil => simp [place, lookup, total]
  | cons head rest ih =>
    obtain ⟨before, tail⟩ := List.pairwise_cons.mp sorted
    simp only [place]
    split
    · next low =>
      have none : lookup k (head :: rest) = none := lookup_eq_none_of_lt fun e member => by
        rcases List.mem_cons.mp member with rfl | member
        · exact low
        · exact Std.TransCmp.lt_trans low (before e member)
      rw [none]
      simp only [List.map_cons, total_cons, Option.getD_none]
      grind
    · next same =>
      simp only [lookup, same, if_true, List.map_cons, total_cons, Option.getD_some]
      grind
    · next high =>
      have other : ¬ compare k head.1 = .eq := by rw [high]; decide
      simp only [lookup, if_neg other, List.map_cons, total_cons]
      have := ih tail
      grind

theorem sum_insert [Std.TransOrd κ] (t : Table κ UInt64) (k : κ) (v : UInt64) :
    total (t.insert k v).values + (t.get? k).getD 0 = total t.values + v :=
  sum_place k v t.sorted

end Table

namespace Metrics

def crossed (m : Metrics) : UInt64 := Table.total m.transitions.values

def crossedAt (m : Metrics) (e : Edge) : UInt64 := (m.transitions.get? e).getD 0

theorem crossed_transition (m : Metrics) (source target : String) :
    (m.transition source target).crossed = m.crossed + 1 := by
  have sum := m.transitions.sum_insert (m.counted ⟨source, target⟩)
    ((m.transitions.get? (m.counted ⟨source, target⟩)).getD 0 + 1)
  simp only [crossed, transition, bump]
  grind

def Within (known : List Edge) (m : Metrics) : Prop :=
  ∀ e, m.transitions.contains e = true → e ∈ known

variable {known : List Edge} {m : Metrics} {source target : String}

theorem counted_of_within (apart : ∀ a ∈ known, ∀ b ∈ known, a.joined = b.joined → a = b)
    (within : m.Within known) {e : Edge} (mine : e ∈ known) : m.counted e = e := by
  rw [counted]
  cases found : m.transitions.keys.find? (·.joined = e.joined) with
  | none => rfl
  | some other =>
    have there := within other
      ((m.transitions.mem_keys_iff other).mp (List.mem_of_find?_eq_some found))
    exact apart other there e mine (by simpa using List.find?_some found)

theorem within_transition (apart : ∀ a ∈ known, ∀ b ∈ known, a.joined = b.joined → a = b)
    (within : m.Within known) (mine : ⟨source, target⟩ ∈ known) :
    (m.transition source target).Within known := by
  intro e there
  rw [transition, counted_of_within apart within mine, bump, Table.contains_insert,
    Bool.or_eq_true, decide_eq_true_iff] at there
  rcases there with rfl | there
  · exact mine
  · exact within e there

theorem crossedAt_transition (apart : ∀ a ∈ known, ∀ b ∈ known, a.joined = b.joined → a = b)
    (within : m.Within known) (mine : ⟨source, target⟩ ∈ known) (e : Edge) :
    (m.transition source target).crossedAt e
      = m.crossedAt e + if e = ⟨source, target⟩ then 1 else 0 := by
  rw [crossedAt, transition, counted_of_within apart within mine, bump, Table.get?_insert]
  by_cases same : e = ⟨source, target⟩
  · simp [same, crossedAt]
  · simp [same, crossedAt]

end Metrics

end MonitorOperator
