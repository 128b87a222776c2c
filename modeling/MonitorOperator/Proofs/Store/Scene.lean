import MonitorOperator.Proofs.Pass.Scene
import MonitorOperator.Proofs.Store.Operation

/-! A store as a pass over one key meets it. The calls within a key are answered from its scene and
change nothing outside of it. Stores that come from the same one by passes over the same keys can be
told apart by the tokens they have handed out at most. -/

namespace MonitorOperator

open Pass (Scene)

def Change.isBirth : Change → Bool
  | .added (.pod _) => true
  | _ => false

namespace Store

def scene (s : Store) (key : Key) : Scene :=
  ⟨s.unavailable, s.monitors.get? key, s.pods.get? key.child⟩

def Down (s : Store) (e : StoreError) : Prop := s.unavailable = true ∧ e = outage

theorem faulty_down (s : Store) : Pass.Faulty s.Down := by
  rintro e ⟨_, rfl⟩
  exact ⟨rfl, rfl⟩

/-- The children that there is still room for. -/
def vacancies (s : Store) (key : Key) : Nat := if s.pods.contains key.child then 0 else 1

def births (s : Store) : Nat := s.feed.changes.toList.countP Change.isBirth

def AddsOne (s : Store) (key : Key) (t : Store) : Prop :=
  ∃ n, t.births = s.births + n ∧ t.podsCreated = s.podsCreated + UInt64.ofNat n ∧
    n + t.vacancies key ≤ s.vacancies key

/-- Outside of the scene of a key nothing has changed, and in it at most one pod was created, where
there was none. -/
structure Beside (key : Key) (s t : Store) : Prop where
  unavailable : t.unavailable = s.unavailable
  monitors : ∀ other, other ≠ key → t.monitors.get? other = s.monitors.get? other
  pods : ∀ other, other ≠ key.child → t.pods.get? other = s.pods.get? other
  created : s.AddsOne key t

variable {s t u : Store} {key : Key}

theorem AddsOne.trans (h : s.AddsOne key t) (h' : t.AddsOne key u) : s.AddsOne key u := by
  obtain ⟨n, births, counted, room⟩ := h
  obtain ⟨n', births', counted', room'⟩ := h'
  refine ⟨n + n', by omega, ?_, by omega⟩
  rw [counted', counted, UInt64.ofNat_add, UInt64.add_assoc]

theorem Beside.of_childless (unavailable : t.unavailable = s.unavailable)
    (monitors : ∀ other, other ≠ key → t.monitors.get? other = s.monitors.get? other)
    (pods : t.pods = s.pods) (births : t.births = s.births)
    (counted : t.podsCreated = s.podsCreated) : Beside key s t where
  unavailable := unavailable
  monitors := monitors
  pods other _ := by rw [pods]
  created := ⟨0, births, counted.trans (UInt64.add_zero _).symm, by simp [vacancies, pods]⟩

theorem Beside.refl (key : Key) (s : Store) : Beside key s s :=
  .of_childless rfl (fun _ _ => rfl) rfl rfl rfl

theorem Beside.trans (h : Beside key s t) (h' : Beside key t u) : Beside key s u where
  unavailable := h'.unavailable.trans h.unavailable
  monitors other apart := (h'.monitors other apart).trans (h.monitors other apart)
  pods other apart := (h'.pods other apart).trans (h.pods other apart)
  created := h.created.trans h'.created

theorem Beside.scene (h : Beside key s t) {other : Key} (apart : other ≠ key) :
    t.scene other = s.scene other := by
  simp [Store.scene, h.unavailable, h.monitors other apart,
    h.pods other.child fun same => apart (Key.child_injective same)]

theorem Published.scene (h : s.Published t) (key : Key) : t.scene key = s.scene key := by
  obtain ⟨events, evicted, rfl⟩ := h
  rfl

theorem Published.beside (h : s.Published t) (key : Key) : Beside key s t := by
  obtain ⟨events, evicted, rfl⟩ := h
  exact .of_childless rfl (fun _ _ => rfl) rfl rfl rfl

/-- The same objects, but for the versions of monitors and for the versions and uids of pods that
were created since an origin. -/
structure Agree (origin s t : Store) : Prop where
  monitors : ∀ key, (t.monitors.get? key).map Monitor.unversioned =
    (s.monitors.get? key).map Monitor.unversioned
  pods : ∀ key, (t.pods.get? key).map Pod.bare = (s.pods.get? key).map Pod.bare
  kept : ∀ key p, origin.pods.get? key = some p →
    s.pods.get? key = some p ∧ t.pods.get? key = some p

/-- A store that has come from an origin by passes over some keys, with scenes that are known up to
versions and to the uids of new pods. -/
structure Reached (origin : Store) (keys : List Key) (final : Key → Scene) (s : Store) : Prop where
  monitors : ∀ key ∉ keys, s.monitors.get? key = origin.monitors.get? key
  pods : ∀ key ∉ keys.map Key.child, s.pods.get? key = origin.pods.get? key
  scenes : ∀ key ∈ keys, (s.scene key).bare = final key
  kept : ∀ key ∈ keys, ∀ p, origin.pods.get? key.child = some p → s.pods.get? key.child = some p

theorem Reached.present {origin : Store} {keys : List Key} {final : Key → Scene}
    (h : Reached origin keys final s) {other : Key} {p : Pod}
    (found : origin.pods.get? other = some p) : s.pods.get? other = some p := by
  by_cases mine : other ∈ keys.map Key.child
  · obtain ⟨key, member, rfl⟩ := List.mem_map.mp mine
    exact h.kept key member p found
  · rw [h.pods other mine]
    exact found

theorem Reached.next {origin : Store} {keys : List Key} {final : Key → Scene}
    (h : Reached origin keys final s) (fresh : key ∉ keys) (beside : Beside key s t)
    (scene : (t.scene key).bare = final key)
    (kept : ∀ p, s.pods.get? key.child = some p → t.pods.get? key.child = some p) :
    Reached origin (keys ++ [key]) final t where
  monitors other apart := by
    simp only [List.mem_append, List.mem_singleton, not_or] at apart
    exact (beside.monitors other apart.2).trans (h.monitors other apart.1)
  pods other apart := by
    simp only [List.map_append, List.map_singleton, List.mem_append, List.mem_singleton,
      not_or] at apart
    exact (beside.pods other apart.2).trans (h.pods other apart.1)
  scenes other member := by
    rcases List.mem_append.mp member with early | last
    · rw [beside.scene fun same => fresh (same ▸ early)]
      exact h.scenes other early
    · obtain rfl := List.mem_singleton.mp last
      exact scene
  kept other member p found := by
    rcases List.mem_append.mp member with early | last
    · rw [beside.pods other.child fun same => fresh (Key.child_injective same ▸ early)]
      exact h.kept other early p found
    · obtain rfl := List.mem_singleton.mp last
      exact kept p (h.present found)

theorem Reached.congr {origin : Store} {keys keys' : List Key} {final : Key → Scene}
    (h : Reached origin keys final s) (same : ∀ key, key ∈ keys' ↔ key ∈ keys) :
    Reached origin keys' final s where
  monitors other apart := h.monitors other fun mine => apart ((same other).mpr mine)
  pods other apart := h.pods other fun mine => apart <| by
    obtain ⟨key, member, child⟩ := List.mem_map.mp mine
    exact List.mem_map.mpr ⟨key, (same key).mpr member, child⟩
  scenes other member := h.scenes other ((same other).mp member)
  kept other member := h.kept other ((same other).mp member)

/-- There is only one such store, up to what is not known. -/
theorem Reached.agree {origin : Store} {keys : List Key} {final : Key → Scene}
    (h : Reached origin keys final s) (h' : Reached origin keys final t) : Agree origin s t where
  monitors key := by
    by_cases mine : key ∈ keys
    · exact congrArg Scene.monitor ((h'.scenes key mine).trans (h.scenes key mine).symm)
    · rw [h.monitors key mine, h'.monitors key mine]
  pods other := by
    by_cases mine : other ∈ keys.map Key.child
    · obtain ⟨key, member, rfl⟩ := List.mem_map.mp mine
      exact congrArg Scene.child ((h'.scenes key member).trans (h.scenes key member).symm)
    · rw [h.pods other mine, h'.pods other mine]
  kept _ _ found := ⟨h.present found, h'.present found⟩

variable {target : Option Pod}

theorem getMonitor_answers (s : Store) (key : Key) :
    (s.scene key).Answers s.Down target (.getMonitor key) (s.getMonitor key) (s.scene key) := by
  unfold getMonitor
  cases down : s.unavailable with
  | true => exact ⟨.inl ⟨down, rfl⟩, rfl⟩
  | false =>
    cases found : s.monitors.get? key with
    | none => exact ⟨.inr ⟨down, found, rfl⟩, rfl⟩
    | some m => exact ⟨down, found, rfl⟩

theorem getPod_answers (s : Store) (key : Key) :
    (s.scene key).Answers s.Down target (.getPod key.child) (s.getPod key.child) (s.scene key) := by
  unfold getPod
  cases down : s.unavailable with
  | true => exact ⟨.inl ⟨down, rfl⟩, rfl⟩
  | false =>
    cases found : s.pods.get? key.child with
    | none => exact ⟨.inr ⟨found, rfl⟩, rfl⟩
    | some p => exact ⟨found, rfl⟩

theorem updateStatus_answers (keyed : s.Keyed) (m : Monitor) :
    (s.scene m.key).Answers s.Down target (.updateStatus m) (s.updateStatus m).2
      ((s.updateStatus m).1.scene m.key) ∧ Beside m.key s (s.updateStatus m).1 := by
  unfold updateStatus
  split
  · rename_i down
    exact ⟨⟨.inl ⟨down, rfl⟩, rfl⟩, .refl ..⟩
  · split
    · rename_i absent
      exact ⟨⟨.inr (by simp [Store.scene, absent]), rfl⟩, .refl ..⟩
    · rename_i stored found
      have named : stored.key = m.key := keyed.monitors _ _ found
      split
      · refine ⟨⟨stored, s.nextVersion, found, ?_⟩,
          .of_childless rfl (fun other apart => ?_) rfl ?_ rfl⟩
        · change Scene.mk _ ((s.monitors.insert stored.key _).get? m.key) _ = _
          rw [Table.get?_insert, if_pos named.symm]
          rfl
        · change (s.monitors.insert stored.key _).get? other = _
          rw [Table.get?_insert, if_neg (named ▸ apart)]
        · simp [births, writeMonitor, Feed.push, List.countP_append, Change.isBirth]
      · rename_i stale
        refine ⟨⟨.inr ?_, rfl⟩, .of_childless rfl (fun _ _ => rfl) rfl rfl rfl⟩
        simpa [Store.scene, found] using stale

theorem createPod_answers (s : Store) {p : Pod} (named : p.key = key.child) :
    (s.scene key).Answers s.Down target (.createPod p) (s.createPod p).2
      ((s.createPod p).1.scene key) ∧ Beside key s (s.createPod p).1 := by
  unfold createPod
  split
  · rename_i down
    exact ⟨⟨.inl ⟨down, rfl⟩, rfl⟩, .refl ..⟩
  · split
    · rename_i present
      refine ⟨⟨.inr ?_, rfl⟩, .refl ..⟩
      simpa [Table.contains, named, Option.isSome_iff_ne_none, Store.scene] using present
    · rename_i free
      have absent : s.pods.get? key.child = none := by simpa [Table.contains, named] using free
      refine ⟨⟨absent, rfl, ?_⟩, rfl, fun _ _ => rfl, fun other apart => ?_, 1, ?_, rfl, ?_⟩
      · change Scene.mk _ _ ((s.pods.insert p.key _).get? key.child) = _
        rw [Table.get?_insert, if_pos named.symm]
        rfl
      · change (s.pods.insert p.key _).get? other = _
        rw [Table.get?_insert, if_neg (named ▸ apart)]
      · change ((s.identify "").1.feed.push (.added (.pod _))).changes.toList.countP _ = _
        simp [births, identify, Feed.push, List.countP_append, Change.isBirth]
      · change 1 + (if (s.pods.insert p.key _).contains key.child then 0 else 1) ≤ _
        simp [vacancies, Table.contains, Table.get?_insert, named, absent]

end Store

end MonitorOperator
