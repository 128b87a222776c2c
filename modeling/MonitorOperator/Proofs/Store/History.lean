import MonitorOperator.Proofs.Cache.Replay
import MonitorOperator.Proofs.Store.Feed

/-! The feed as the history of a store. Its changes, one after the other, make up the objects of the
store, and its writes carry the versions one, two, three and so on. What stood at a place as of some
number of changes stands there until the next change of that place. -/

namespace MonitorOperator

namespace Feed

/-- What the cluster held as of some number of changes. -/
def asOf (f : Feed) (n : Nat) : Cache := (f.changes.toList.take n).foldl Cache.absorb {}

theorem asOf_size (f : Feed) : f.asOf f.size = f.changes.toList.foldl Cache.absorb {} := by
  rw [asOf, List.take_of_length_le (by simp [size])]

theorem asOf_succ {f : Feed} {n : Nat} {c : Change} (h : f.changes[n]? = some c) :
    f.asOf (n + 1) = (f.asOf n).absorb c := by
  have there : f.changes.toList[n]? = some c := by simpa using h
  simp [asOf, List.take_add_one, there]

theorem asOf_of_size_le {f : Feed} {n : Nat} (h : f.size ≤ n) : f.asOf n = f.asOf f.size := by
  rw [asOf_size, asOf, List.take_of_length_le (by simpa [size] using h)]

theorem placed_asOf (f : Feed) (n : Nat) : (f.asOf n).Placed := Cache.placed_empty.foldl _

theorem Grows.asOf {f g : Feed} (h : f.Grows g) {n : Nat} (inside : n ≤ f.size) :
    g.asOf n = f.asOf n := by
  have same : g.changes.toList.take n = f.changes.toList.take n := by
    refine List.ext_getElem? fun i => ?_
    rw [List.getElem?_take, List.getElem?_take]
    split
    · rename_i early
      have there : i < f.changes.size := Nat.lt_of_lt_of_le early inside
      rw [Array.getElem?_toList, Array.getElem?_toList, Array.getElem?_eq_getElem there]
      exact h.kept i _ (Array.getElem?_eq_getElem there)
    · rfl
  rw [Feed.asOf, Feed.asOf, same]

def Quiet (f : Feed) (p : Place) (i j : Nat) : Prop :=
  ∀ k c, i ≤ k → k < j → f.changes[k]? = some c → c.place ≠ p

theorem Quiet.at? {f : Feed} {p : Place} {i j : Nat} (h : f.Quiet p i j) (le : i ≤ j) :
    (f.asOf i).at? p = (f.asOf j).at? p := by
  induction le with
  | refl => rfl
  | @step j le ih =>
    have before := ih fun k c after early => h k c after (Nat.lt_succ_of_lt early)
    cases there : f.changes[j]? with
    | none =>
      have ended : f.size ≤ j := Array.getElem?_eq_none_iff.mp there
      rw [before, asOf_of_size_le ended, asOf_of_size_le (Nat.le_succ_of_le ended)]
    | some c =>
      have other : ¬ p = c.place := fun same => h j c le (Nat.lt_succ_self j) there same.symm
      rw [before, asOf_succ there, Cache.at?_absorb, if_neg other]

theorem written_of_at? {f : Feed} {p : Place} {n : Nat} {o : Object}
    (h : (f.asOf n).at? p = some o) :
    ∃ k c, k < n ∧ f.changes[k]? = some c ∧ c.leaves = some o ∧ c.place = p ∧
      f.Quiet p (k + 1) n := by
  induction n with
  | zero =>
    have never := Cache.placed_empty
    obtain ⟨isMonitor, key⟩ := p
    cases isMonitor <;> contradiction
  | succ n ih =>
    cases there : f.changes[n]? with
    | none =>
      have ended : f.size ≤ n := Array.getElem?_eq_none_iff.mp there
      rw [asOf_of_size_le (Nat.le_succ_of_le ended), ← asOf_of_size_le ended] at h
      obtain ⟨k, c, early, found, leaves, place, quiet⟩ := ih h
      refine ⟨k, c, Nat.lt_succ_of_lt early, found, leaves, place, fun i d after before other => ?_⟩
      rcases Nat.lt_succ_iff_lt_or_eq.mp before with before | rfl
      · exact quiet i d after before other
      · rw [there] at other; contradiction
    | some c =>
      rw [asOf_succ there, Cache.at?_absorb] at h
      split at h
      · rename_i same
        refine ⟨n, c, Nat.lt_succ_self n, there, h, same.symm, fun i d after before => ?_⟩
        omega
      · rename_i differ
        obtain ⟨k, d, early, found, leaves, place, quiet⟩ := ih h
        refine ⟨k, d, Nat.lt_succ_of_lt early, found, leaves, place,
          fun i e after before other => ?_⟩
        rcases Nat.lt_succ_iff_lt_or_eq.mp before with before | rfl
        · exact quiet i e after before other
        · rw [there] at other
          cases other
          exact fun same => differ same.symm

def versions (f : Feed) : List UInt64 :=
  f.changes.toList.filterMap fun c => c.leaves.map (·.metadata.version)

def counted (n : Nat) : List UInt64 := (List.range n).map fun i => UInt64.ofNat (i + 1)

def Counted (f : Feed) : Prop := f.versions = counted f.versions.length

theorem counted_pairwise {n : Nat} (few : n < UInt64.size) : (counted n).Pairwise (· < ·) := by
  rw [counted, List.pairwise_map]
  refine List.pairwise_lt_range.imp_of_mem fun {i j} first second less => ?_
  have last := List.mem_range.mp second
  rw [UInt64.lt_iff_toNat_lt, UInt64.toNat_ofNat_of_lt' (by omega),
    UInt64.toNat_ofNat_of_lt' (by omega)]
  omega

theorem Counted.pairwise {f : Feed} (h : f.Counted) (few : f.versions.length < UInt64.size) :
    f.versions.Pairwise (· < ·) := by
  rw [h]
  exact counted_pairwise few

theorem Counted.lt {f : Feed} (h : f.Counted) (few : f.versions.length < UInt64.size) {i j : Nat}
    {c d : Change} {o o' : Object} (less : i < j) (first : f.changes[i]? = some c)
    (second : f.changes[j]? = some d) (leaves : c.leaves = some o) (leaves' : d.leaves = some o') :
    o.metadata.version < o'.metadata.version := by
  have pairs := List.pairwise_filterMap.mp (h.pairwise few)
  have inside : j < f.changes.toList.length := by
    have := (Array.getElem?_eq_some_iff.mp second).1
    simpa using this
  have ordered := List.pairwise_iff_getElem.mp pairs i j (Nat.lt_trans less inside) inside less
  refine ordered _ ?_ _ ?_
  · have same : f.changes.toList[i] = c := by
      simpa using (Array.getElem?_eq_some_iff.mp first).2
    rw [same, leaves]; rfl
  · have same : f.changes.toList[j] = d := by
      simpa using (Array.getElem?_eq_some_iff.mp second).2
    rw [same, leaves']; rfl

theorem Counted.le {f : Feed} (h : f.Counted) (few : f.versions.length < UInt64.size) {p : Place}
    {i j : Nat} {o o' : Object} (le : i ≤ j) (first : (f.asOf i).at? p = some o)
    (second : (f.asOf j).at? p = some o') : o.metadata.version ≤ o'.metadata.version := by
  obtain ⟨k, c, early, found, leaves, place, _⟩ := written_of_at? first
  obtain ⟨l, d, _, found', leaves', _, quiet⟩ := written_of_at? second
  rcases Nat.lt_trichotomy k l with less | rfl | more
  · exact UInt64.le_of_lt (h.lt few less found found' leaves leaves')
  · rw [found] at found'
    cases found'
    rw [leaves] at leaves'
    cases leaves'
    exact UInt64.le_refl _
  · exact (quiet k c more (Nat.lt_of_lt_of_le early le) found place).elim

end Feed

namespace Store

def mirror (s : Store) : Cache := { monitors := s.monitors, pods := s.pods }

/-- A store that holds what its feed tells of it, under versions that count its writes. -/
structure Logged (s : Store) : Prop where
  same : ∀ p, s.mirror.at? p = (s.feed.asOf s.feed.size).at? p
  counted : s.feed.Counted
  next : s.nextVersion = UInt64.ofNat (s.feed.versions.length + 1)

theorem Logged.same_of_news {s t : Store} (h : s.Logged) {news : List Change}
    (feed : t.feed.changes.toList = s.feed.changes.toList ++ news)
    (mirror : ∀ p, t.mirror.at? p = (news.foldl Cache.absorb s.mirror).at? p) (p : Place) :
    t.mirror.at? p = (t.feed.asOf t.feed.size).at? p := by
  have before : ∀ p, s.mirror.at? p = (s.feed.changes.toList.foldl Cache.absorb {}).at? p :=
    fun p => (h.same p).trans (by rw [Feed.asOf_size])
  rw [mirror p, Feed.asOf_size, feed, List.foldl_append]
  exact Cache.at?_foldl_congr before news p

theorem Logged.wrote {s t : Store} (h : s.Logged) {c : Change} {o : Object}
    (feed : t.feed = s.feed.push c) (leaves : c.leaves = some o)
    (fresh : o.metadata.version = s.nextVersion) (next : t.nextVersion = s.nextVersion + 1)
    (mirror : ∀ p, t.mirror.at? p = (s.mirror.absorb c).at? p) : t.Logged := by
  have changes : t.feed.changes.toList = s.feed.changes.toList ++ [c] := by
    rw [feed]; simp [Feed.push]
  have versions : t.feed.versions = s.feed.versions ++ [s.nextVersion] := by
    rw [Feed.versions, changes, List.filterMap_append]
    simp [leaves, fresh, Feed.versions]
  have length : t.feed.versions.length = s.feed.versions.length + 1 := by simp [versions]
  refine ⟨h.same_of_news changes mirror, ?_, ?_⟩
  · rw [Feed.Counted, length, Feed.counted, List.range_succ, List.map_append, versions, h.next]
    exact congrArg (· ++ _) h.counted
  · rw [next, h.next, length, UInt64.ofNat_add (s.feed.versions.length + 1) 1]; rfl

theorem Logged.removed {s t : Store} (h : s.Logged) {gone : List Object}
    (feed : t.feed.changes.toList = s.feed.changes.toList ++ gone.map .deleted)
    (next : t.nextVersion = s.nextVersion)
    (mirror : ∀ p, t.mirror.at? p =
      if p ∈ gone.map Object.place then none else s.mirror.at? p) : t.Logged := by
  have versions : t.feed.versions = s.feed.versions := by
    have none : (gone.map Change.deleted).filterMap
        (fun c => c.leaves.map (·.metadata.version)) = [] := by
      simp [List.filterMap_map, Change.leaves]
    rw [Feed.versions, feed, List.filterMap_append, none, List.append_nil, Feed.versions]
  refine ⟨h.same_of_news feed fun p => ?_, ?_, ?_⟩
  · rw [mirror p, Cache.at?_foldl_deleted]
  · rw [Feed.Counted, versions]; exact h.counted
  · rw [next, versions]; exact h.next

theorem pushAll_toList {α : Type} (change : α → Change) (l : List α) (f : Feed) :
    (l.foldl (fun f a => f.push (change a)) f).changes.toList =
      f.changes.toList ++ l.map change := by
  induction l generalizing f with
  | nil => simp
  | cons a l ih => rw [List.foldl_cons, ih]; simp [Feed.push]

theorem Keyed.mem_children {s : Store} (keyed : s.Keyed) (m : Monitor) (key : Key) :
    (⟨false, key⟩ : Place) ∈ (s.children m).map (Object.place ∘ Object.pod) ↔
      ∃ p, s.pods.get? key = some p ∧ m.controls p.metadata = true := by
  simp only [children, List.mem_map, List.mem_filter, Table.mem_values_iff, Function.comp,
    Object.place, Object.isMonitor, Object.key, Place.mk.injEq, true_and]
  constructor
  · rintro ⟨p, ⟨⟨other, found⟩, controls⟩, rfl⟩
    exact ⟨p, keyed.pods other p found ▸ found, controls⟩
  · rintro ⟨p, found, controls⟩
    exact ⟨p, ⟨⟨key, found⟩, controls⟩, keyed.pods key p found⟩

theorem Logged.step {s t : Store} {o : Option Object} (h : s.Logged) (keyed : s.Keyed)
    (effect : Effect s t o) : t.Logged := by
  cases effect with
  | still alike =>
    have mirror : t.mirror = s.mirror := by rw [Store.mirror, alike.monitors, alike.pods]; rfl
    refine ⟨fun p => ?_, alike.feed ▸ h.counted, ?_⟩
    · rw [mirror, alike.feed]; exact h.same p
    · rw [alike.next, alike.feed]; exact h.next
  | monitor m change news fresh monitors pods next feed =>
    have mirror : t.mirror = s.mirror.put (.monitor m) := by rw [Store.mirror, monitors, pods]; rfl
    obtain ⟨_, rfl⟩ | ⟨_, rfl⟩ := news <;>
      exact h.wrote feed rfl fresh next fun p => congrArg (Cache.at? · p) mirror
  | pod w change news fresh monitors pods next feed =>
    have mirror : t.mirror = s.mirror.put (.pod w) := by rw [Store.mirror, monitors, pods]; rfl
    obtain ⟨_, rfl⟩ | ⟨_, rfl⟩ := news <;>
      exact h.wrote feed rfl fresh next fun p => congrArg (Cache.at? · p) mirror
  | podGone key w present monitors pods next feed =>
    have name := keyed.pods key w present
    have mirror : t.mirror = s.mirror.drop (.pod w) := by
      rw [Store.mirror, monitors, pods, ← name]; rfl
    have changes : t.feed.changes.toList =
        s.feed.changes.toList ++ [Object.pod w].map .deleted := by
      rw [feed]; simp [Feed.push]
    refine h.removed changes next fun p => ?_
    rw [mirror, Cache.at?_drop]
    simp
  | monitorGone key m present monitors pods next feed =>
    have changes : t.feed.changes.toList = s.feed.changes.toList ++
        (Object.monitor m :: (s.children m).map .pod).map .deleted := by
      rw [feed, pushAll_toList (fun p => .deleted (.pod p))]
      simp [Feed.push, Function.comp_def]
    refine h.removed changes next fun p => ?_
    have name := keyed.monitors key m present
    obtain ⟨isMonitor, other⟩ := p
    simp only [List.map_cons, List.map_map, List.mem_cons]
    cases isMonitor with
    | true =>
      have apart : (⟨true, other⟩ : Place) ∉ (s.children m).map (Object.place ∘ Object.pod) := by
        simp [Object.place, Object.isMonitor]
      simp only [mirror, Cache.at?, monitors, Table.get?_erase, apart, or_false, Object.place,
        Object.isMonitor, Object.key, name, Place.mk.injEq, true_and]
      split <;> rfl
    | false =>
      have apart : (⟨false, other⟩ : Place) ≠ (Object.monitor m).place := by
        simp [Object.place, Object.isMonitor]
      simp only [mirror, Cache.at?, pods, Table.get?_filter, apart, false_or,
        keyed.mem_children m other]
      cases found : s.pods.get? other with
      | none => simp
      | some w => cases controls : m.controls w.metadata <;> simp [Option.filter, controls]

theorem Effect.versions_length {s t : Store} {o : Option Object} (effect : Effect s t o) :
    t.feed.versions.length = s.feed.versions.length + (o.toList).length := by
  have pushed (c : Change) : (s.feed.push c).versions =
      s.feed.versions ++ (c.leaves.map (·.metadata.version)).toList := by
    simp only [Feed.versions, Feed.push, Array.toList_push, List.filterMap_append]
    cases h : c.leaves <;> simp [h]
  cases effect with
  | still alike => rw [alike.feed]; rfl
  | monitor m change news fresh _ _ _ feed =>
    obtain ⟨_, rfl⟩ | ⟨_, rfl⟩ := news <;> rw [feed, pushed] <;> simp [Change.leaves]
  | pod p change news fresh _ _ _ feed =>
    obtain ⟨_, rfl⟩ | ⟨_, rfl⟩ := news <;> rw [feed, pushed] <;> simp [Change.leaves]
  | podGone key p present _ _ _ feed => rw [feed, pushed]; simp [Change.leaves]
  | monitorGone key m present _ _ _ feed =>
    have none : ((s.children m).map fun p => Change.deleted (.pod p)).filterMap
        (fun c => c.leaves.map (·.metadata.version)) = [] := by
      simp [List.filterMap_map, Change.leaves]
    rw [feed, Feed.versions, pushAll_toList (fun p => .deleted (.pod p)), List.filterMap_append,
      none, List.append_nil]
    change (s.feed.push (.deleted (.monitor m))).versions.length = _
    rw [pushed]
    simp [Change.leaves]

theorem Logged.empty (retention : Nat) : (empty retention).Logged where
  same _ := rfl
  counted := rfl
  next := rfl

end Store

end MonitorOperator
