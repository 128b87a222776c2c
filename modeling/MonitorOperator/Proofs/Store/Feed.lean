import MonitorOperator.Intake
import MonitorOperator.Proofs.Store.Operation

/-! The feed of a store only grows, and the monitors that an operation writes stand in it as the
next change. -/

namespace MonitorOperator

def Change.Wakes (key : Key) : Change → Prop
  | .added (.monitor m) => m.key = key
  | .modified (.monitor m) => m.key = key
  | _ => False

theorem Change.Wakes.ofChange {key : Key} {change : Change} (h : change.Wakes key) (c : Cache) :
    Wake.ofChange c change = .monitor key := by
  cases change with
  | added o =>
    cases o with
    | monitor m => exact congrArg Wake.monitor h
    | pod p => exact h.elim
  | modified o =>
    cases o with
    | monitor m => exact congrArg Wake.monitor h
    | pod p => exact h.elim
  | deleted o => exact h.elim

namespace Feed

/-- A feed with further changes. -/
structure Grows (f g : Feed) : Prop where
  size : f.size ≤ g.size
  kept : ∀ (i : Nat) (c : Change), f.changes[i]? = some c → g.changes[i]? = some c

theorem Grows.refl (f : Feed) : f.Grows f := ⟨Nat.le_refl _, fun _ _ h => h⟩

theorem Grows.trans {f g h : Feed} (first : f.Grows g) (second : g.Grows h) : f.Grows h :=
  ⟨Nat.le_trans first.size second.size, fun i c there => second.kept i c (first.kept i c there)⟩

theorem grows_push (f : Feed) (c : Change) : f.Grows (f.push c) := by
  refine ⟨by simp [push, size], fun i d there => ?_⟩
  have inside : i < f.changes.size := (Array.getElem?_eq_some_iff.mp there).1
  rw [push, Array.getElem?_push_lt inside, ← Array.getElem?_eq_getElem inside]
  exact there

theorem push_last (f : Feed) (c : Change) : (f.push c).changes[f.size]? = some c := by
  simp [push, size]

theorem grows_pushAll {α : Type} (change : α → Change) (l : List α) (f : Feed) :
    f.Grows (l.foldl (fun f a => f.push (change a)) f) := by
  induction l generalizing f with
  | nil => exact .refl f
  | cons a l ih => exact (f.grows_push _).trans (ih _)

theorem read_lagged {f : Feed} {position missed next : Nat}
    (h : f.read position = (.lagged missed, next)) :
    position + window < f.size ∧ next = f.size - window := by
  unfold read at h
  split at h
  · rename_i lost
    cases h
    exact ⟨lost, rfl⟩
  · split at h <;> cases h

theorem read_nothing {f : Feed} {position : Nat} (h : (f.read position).1 = .nothing) :
    f.size ≤ position := by
  unfold read at h
  split at h
  · contradiction
  · split at h
    · rename_i ended
      exact Array.getElem?_eq_none_iff.mp ended
    · contradiction

theorem read_change {f : Feed} {position next : Nat} {c : Change}
    (h : f.read position = (.change c, next)) :
    ¬ position + window < f.size ∧ f.changes[position]? = some c ∧ next = position + 1 := by
  unfold read at h
  split at h
  · cases h
  · rename_i kept
    split at h
    · cases h
    · rename_i there
      cases h
      exact ⟨kept, there, rfl⟩

end Feed

namespace Store.Effect

theorem feed_grows {s t : Store} {o : Option Object} (h : Effect s t o) : s.feed.Grows t.feed := by
  cases h with
  | still alike => exact alike.feed ▸ .refl _
  | monitor m change _ _ _ _ _ feed => exact feed ▸ s.feed.grows_push _
  | pod p change _ _ _ _ _ feed => exact feed ▸ s.feed.grows_push _
  | podGone key p _ _ _ _ feed => exact feed ▸ s.feed.grows_push _
  | monitorGone key m _ _ _ _ feed =>
    exact feed ▸ (s.feed.grows_push _).trans (Feed.grows_pushAll _ _ _)

theorem wakes_of_news {s : Store} {m : Monitor} {change : Object → Change}
    (news : News (s.monitors.get? m.key) change) : (change (.monitor m)).Wakes m.key := by
  obtain ⟨_, rfl⟩ | ⟨_, rfl⟩ := news <;> rfl

theorem wakes {s t : Store} {m : Monitor} (h : Effect s t (some (.monitor m))) :
    ∃ c, t.feed.changes[s.feed.size]? = some c ∧ c.Wakes m.key := by
  cases h with
  | monitor _ change news _ _ _ _ feed =>
    exact ⟨_, feed ▸ s.feed.push_last _, wakes_of_news news⟩

theorem stored_or_wakes {s t : Store} {o : Option Object} {key : Key} {m : Monitor}
    (h : Effect s t o) (found : t.monitors.get? key = some m) :
    s.monitors.get? key = some m ∨ ∃ c, t.feed.changes[s.feed.size]? = some c ∧ c.Wakes key := by
  by_cases mine : ∃ w, o = some (.monitor w) ∧ w.key = key
  · obtain ⟨w, rfl, rfl⟩ := mine
    exact .inr h.wakes
  · exact .inl (h.stored_before found fun w eq same => mine ⟨w, eq, same⟩)

end Store.Effect

end MonitorOperator
