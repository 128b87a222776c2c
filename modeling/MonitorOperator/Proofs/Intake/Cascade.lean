import MonitorOperator.Proofs.Intake.Wakes
import MonitorOperator.Proofs.Store.Differences

/-! A monitor that is deleted, with the pods that belong to it. The store tells of the monitor
first, so that whoever follows its feed has no monitor left that the pods could wake. Main
statement: the deletion takes these pods and nothing else, and a router that had what the store had
has again what the store has, without a key more in its queue. -/

namespace MonitorOperator

theorem Intake.queue_of_orphans {key : Key} {pods : List Pod} (names : ∀ p ∈ pods, p.Names key)
    {i : Intake} (absent : i.cache.monitors.contains key = false) :
    ((pods.map (.deleted ∘ .pod)).foldl handle i).queue = i.queue := by
  induction pods generalizing i with
  | nil => rfl
  | cons p pods ih =>
    have event : (Change.deleted (.pod p)).object = .pod p := rfl
    have concern : p.concern = key := Pod.concern_of_names (names p (List.mem_cons_self ..))
    have still : (i.handle (.deleted (.pod p))).cache.monitors = i.cache.monitors :=
      Cache.monitors_absorb event i.cache
    rw [List.map_cons, List.foldl_cons]
    refine (ih (fun q member => names q (List.mem_cons_of_mem _ member)) (still ▸ absent)).trans ?_
    refine (queue_handle event i).trans ?_
    rw [concern, absent]
    rfl

namespace Store

variable {s : Store} {key : Key} {m : Monitor}

theorem Keyed.mem_children_iff (keyed : s.Keyed) {p : Pod} :
    p ∈ s.children m ↔ s.pods.get? p.key = some p ∧ p.BelongsTo m := by
  rw [children, List.mem_filter, Monitor.controls_iff, Table.mem_values_iff]
  refine and_congr_left fun _ => ?_
  constructor
  · rintro ⟨other, found⟩
    rw [keyed.pods other p found]
    exact found
  · intro found
    exact ⟨p.key, found⟩

theorem Keyed.nodup_children (keyed : s.Keyed) (m : Monitor) :
    ((s.children m).map Pod.key).Nodup := by
  have keys : s.pods.values.map Pod.key = s.pods.keys := Table.map_values_eq_keys keyed.pods
  exact (keys ▸ s.pods.nodup_keys).sublist (List.filter_sublist.map _)

theorem deleteMonitor_of_present (present : s.monitors.get? key = some m) :
    s.deleteMonitor key =
      ({ s with
          monitors := s.monitors.erase key
          pods := s.pods.filter (fun _ p => !m.controls p.metadata)
          feed := (s.children m).foldl (fun f p => f.push (.deleted (.pod p)))
            (s.feed.push (.deleted (.monitor m))) }, some m) := by
  simp only [deleteMonitor, present]

theorem feed_deleteMonitor (present : s.monitors.get? key = some m) :
    (s.deleteMonitor key).1.feed.changes.toList =
      s.feed.changes.toList ++ .deleted (.monitor m) :: (s.children m).map (.deleted ∘ .pod) := by
  rw [deleteMonitor_of_present present, pushAll_toList (fun p => .deleted (.pod p))]
  simp [Feed.push, Function.comp_def]

/-- Deletions lead to the same objects in any order. -/
theorem at?_foldl_perm {first second : List Pod} (same : first.Perm second) {c d : Cache}
    (alike : ∀ place, c.at? place = d.at? place) (place : Place) :
    ((Change.deleted (.monitor m) :: first.map (.deleted ∘ .pod)).foldl Cache.absorb c).at? place =
      ((Change.deleted (.monitor m) :: second.map (.deleted ∘ .pod)).foldl Cache.absorb d).at?
        place := by
  have objects (pods : List Pod) : Change.deleted (.monitor m) :: pods.map (.deleted ∘ .pod) =
      (.monitor m :: pods.map .pod).map .deleted := by
    rw [List.map_cons, List.map_map]
  have places : place ∈ (Object.monitor m :: first.map .pod).map Object.place ↔
      place ∈ (Object.monitor m :: second.map .pod).map Object.place :=
    (((same.map Object.pod).cons (.monitor m)).map Object.place).mem_iff
  rw [objects, objects, Cache.at?_foldl_deleted, Cache.at?_foldl_deleted, alike place]
  simp only [places]

/-- The deletion of a monitor takes the monitor and the pods that belong to it, and nothing else: no
other object, no version and no count. The feed tells of the monitor and then of each of the pods.
A router that had the objects of the store and handles these changes, the pods in any order, has the
objects of the store again, and all that happens to its queue is that the monitor's failures are
forgotten. -/
theorem deletions_cascade_exactly (retention : Nat) (ops : List Operation) (key : Key) (m : Monitor)
    (present : ((empty retention).after ops).monitors.get? key = some m) :
    let s := (empty retention).after ops
    let t := (s.deleteMonitor key).1
    (s.deleteMonitor key).2 = some m ∧
    t = { s with monitors := t.monitors, pods := t.pods, feed := t.feed } ∧
    (∀ other, t.monitors.get? other = if other = key then none else s.monitors.get? other) ∧
    (∀ other p, t.pods.get? other = some p ↔ s.pods.get? other = some p ∧ ¬ p.BelongsTo m) ∧
    ∃ gone : List Pod, (gone.map Pod.key).Nodup ∧
      (∀ p, p ∈ gone ↔ s.pods.get? p.key = some p ∧ p.BelongsTo m) ∧
      t.feed.changes.toList =
        s.feed.changes.toList ++ .deleted (.monitor m) :: gone.map (.deleted ∘ .pod) ∧
      ∀ (order : List Pod) (i : Intake), order.Perm gone →
        i.cache.monitors = s.monitors → i.cache.pods = s.pods →
          let j := (.deleted (.monitor m) :: order.map (.deleted ∘ .pod)).foldl Intake.handle i
          j.cache.monitors = t.monitors ∧ j.cache.pods = t.pods ∧
            j.cache.synced = i.cache.synced ∧ j.queue = i.queue.forget key.text := by
  intro s t
  have keyed : s.Keyed := (Keyed.empty retention).after ops
  have found : s.monitors.get? key = some m := present
  have name : m.key = key := keyed.monitors key m found
  have deleted := deleteMonitor_of_present found
  have feed : t.feed.changes.toList = s.feed.changes.toList ++
      .deleted (.monitor m) :: (s.children m).map (.deleted ∘ .pod) := feed_deleteMonitor found
  refine ⟨by rw [deleted], by simp only [t, deleted], ?_, ?_, s.children m, keyed.nodup_children m,
    fun p => keyed.mem_children_iff, feed, ?_⟩
  · intro other
    simp only [t, deleted]
    exact Table.get?_erase ..
  · intro other p
    simp only [t, deleted]
    rw [Table.get?_filter, Option.filter_eq_some_iff, ← Monitor.controls_iff]
    simp
  · intro order i perm monitors pods j
    have before : s.Logged := (Logged.empty retention).after (.empty retention) ops
    have after : t.Logged := before.after keyed [.deleteMonitor key]
    have alike : ∀ place, i.cache.at? place = s.mirror.at? place := by
      rintro ⟨isMonitor, other⟩
      cases isMonitor <;> simp only [Cache.at?, mirror, monitors, pods]
    have cache := Intake.cache_foldl_handle
      (.deleted (.monitor m) :: order.map (.deleted ∘ .pod)) i
    obtain ⟨sameMonitors, samePods⟩ := Cache.ext_at? (at?_foldl_perm (m := m) perm alike)
    obtain ⟨leftMonitors, leftPods⟩ := before.replay after feed
    refine ⟨?_, ?_, ?_, ?_⟩
    · rw [cache, sameMonitors, leftMonitors]
    · rw [cache, samePods, leftPods]
    · rw [cache, Cache.synced_foldl]
    · have absent : (i.handle (.deleted (.monitor m))).cache.monitors.contains key = false := by
        change (i.cache.monitors.erase m.key).contains key = false
        rw [Table.contains_erase, name]
        simp
      have names : ∀ p ∈ order, p.Names key := fun p member =>
        name ▸ (keyed.mem_children_iff.mp (perm.mem_iff.mp member)).2.names
      have queue := Intake.queue_of_orphans names absent
      rw [← name]
      exact queue

/-- Of four pods that name `x` two go with it: its child, which another monitor watches, and one
that names no uid after an owner that does not manage it. One that names another uid and one of
another namespace stay. -/
theorem deletions_cascade_exactly_with_namesakes :
    let job : Monitor := { metadata := { ns := "a", name := "x", uid := "1" } }
    let watcher : Monitor := { metadata := { ns := "a", name := "pm-x", uid := "2" } }
    let pod (ns name : String) (owners : List Owner) : Pod :=
      { metadata := { ns := ns, name := name, owners := owners } }
    let s := (empty 10).after [.apply job, .apply watcher, .createPod (Child.build job {}),
      .putPod (pod "a" "b" [⟨"v1", "Job", "x", "7", false, false⟩, { job.ownerRef with uid := "" }]),
      .putPod (pod "a" "c" [{ job.ownerRef with uid := "9" }]),
      .putPod (pod "b" "pm-x" [job.ownerRef])]
    let t := (s.deleteMonitor job.key).1
    ∃ m, s.monitors.get? job.key = some m ∧
      (∀ other p, t.pods.get? other = some p ↔
        s.pods.get? other = some p ∧ ¬ p.BelongsTo m) ∧
      s.pods.keys = [⟨"a", "b"⟩, ⟨"a", "c"⟩, ⟨"a", "pm-x"⟩, ⟨"b", "pm-x"⟩] ∧
      t.pods.keys = [⟨"a", "c"⟩, ⟨"b", "pm-x"⟩] := by
  intro job watcher pod s t
  let m : Monitor := { metadata := { ns := "a", name := "x", uid := "1", version := 1 } }
  have present : s.monitors.get? job.key = some m := by decide +kernel
  have before : s.pods.keys = [⟨"a", "b"⟩, ⟨"a", "c"⟩, ⟨"a", "pm-x"⟩, ⟨"b", "pm-x"⟩] := by
    decide +kernel
  have after : t.pods.keys = [⟨"a", "c"⟩, ⟨"b", "pm-x"⟩] := by decide +kernel
  have cascade := deletions_cascade_exactly 10 _ job.key m present
  refine ⟨m, present, ?_, before, after⟩
  -- the two sides agree as they stand, and the store is not to be computed for it
  with_reducible exact cascade.2.2.2.1

end Store

end MonitorOperator
