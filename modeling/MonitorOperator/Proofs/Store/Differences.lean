import Mathlib.Data.List.Nodup
import MonitorOperator.Proofs.Store.History
import MonitorOperator.Proofs.Store.Ownership

/-! The feed against the objects of the store. The objects before an operation and those after it
tell which changes the operation makes: one for the object that it writes, new or there before, and
one for each object that it takes away. Main statement: these changes are what the feed goes on
with, so they lead from the objects at any point of a run to those at any later one. -/

namespace MonitorOperator

namespace Table

variable {κ α : Type} [Ord κ] [Std.TransOrd κ] [Std.LawfulEqOrd κ]

def lost (name : α → κ) (t u : Table κ α) : List α :=
  t.values.filter fun v => (u.get? (name v)).isNone

variable {name : α → κ} {t : Table κ α}

theorem map_values_eq_keys (named : ∀ k v, t.get? k = some v → name v = k) :
    t.values.map name = t.keys := by
  rw [values, keys, List.map_map]
  apply List.map_congr_left
  intro e member
  exact named e.1 e.2 ((t.mem_entries_iff e.1 e.2).mp member)

theorem get?_of_mem_values (named : ∀ k v, t.get? k = some v → name v = k) {v : α}
    (member : v ∈ t.values) : t.get? (name v) = some v := by
  obtain ⟨k, found⟩ := (t.mem_values_iff v).mp member
  rw [named k v found]
  exact found

theorem lost_eq_nil (named : ∀ k v, t.get? k = some v → name v = k) {u : Table κ α}
    (kept : ∀ k v, t.get? k = some v → u.get? k ≠ none) : t.lost name u = [] := by
  apply List.filter_eq_nil_iff.mpr
  intro v member
  simpa using kept _ v (get?_of_mem_values named member)

theorem lost_filter (named : ∀ k v, t.get? k = some v → name v = k) (keep : α → Bool) :
    t.lost name (t.filter fun _ v => keep v) = t.values.filter fun v => !keep v := by
  apply List.filter_congr
  intro v member
  rw [get?_filter, get?_of_mem_values named member]
  cases h : keep v <;> simp [Option.filter, h]

theorem lost_erase [DecidableEq κ] (named : ∀ k v, t.get? k = some v → name v = k) {k : κ} {v : α}
    (found : t.get? k = some v) : t.lost name (t.erase k) = [v] := by
  obtain ⟨before, after, split⟩ := List.append_of_mem ((t.mem_values_iff v).mpr ⟨k, found⟩)
  have apart := map_values_eq_keys named ▸ t.nodup_keys
  rw [split, List.map_append, List.map_cons, List.nodup_middle, List.nodup_cons,
    ← List.map_append] at apart
  have kept : ∀ w ∈ before ++ after, ((t.erase k).get? (name w)).isNone = false := by
    intro w member
    have inside : w ∈ t.values := by
      rw [split]
      rcases List.mem_append.mp member with first | last
      · exact List.mem_append_left _ first
      · exact List.mem_append_right _ (List.mem_cons_of_mem v last)
    have differ : name w ≠ k := by
      intro same
      apply apart.1
      rw [named k v found, ← same]
      exact List.mem_map_of_mem member
    rw [get?_erase, if_neg differ, get?_of_mem_values named inside]
    rfl
  have gone : ((t.erase k).get? (name v)).isNone = true := by
    rw [get?_erase, if_pos (named k v found)]
    rfl
  have first : before.filter (fun w => ((t.erase k).get? (name w)).isNone) = [] := by
    apply List.filter_eq_nil_iff.mpr
    intro w member
    simp [kept w (List.mem_append_left _ member)]
  have last : after.filter (fun w => ((t.erase k).get? (name w)).isNone) = [] := by
    apply List.filter_eq_nil_iff.mpr
    intro w member
    simp [kept w (List.mem_append_right _ member)]
  simp only [lost, split, List.filter_append, List.filter_cons, first, last, gone, if_true,
    List.nil_append]

end Table

namespace Cache

theorem nodup_places {c : Cache} (placed : c.Placed) : (c.objects.map Object.place).Nodup := by
  have monitors : c.monitors.values.map (Object.place ∘ Object.monitor) =
      c.monitors.keys.map (Place.mk true) := by
    rw [← Table.map_values_eq_keys fun _ _ => placed.monitor, List.map_map]
    rfl
  have pods : c.pods.values.map (Object.place ∘ Object.pod) = c.pods.keys.map (Place.mk false) := by
    rw [← Table.map_values_eq_keys fun _ _ => placed.pod, List.map_map]
    rfl
  have apart (kind : Bool) : Function.Injective (Place.mk kind) := fun _ _ => congrArg Place.key
  rw [objects, List.map_append, List.map_map, List.map_map, monitors, pods]
  apply List.Nodup.append
  · exact c.monitors.nodup_keys.map (apart true)
  · exact c.pods.nodup_keys.map (apart false)
  · intro p first second
    obtain ⟨_, _, rfl⟩ := List.mem_map.mp first
    obtain ⟨_, _, other⟩ := List.mem_map.mp second
    cases other

def news (c : Cache) (o : Object) : Change :=
  if (c.at? o.place).isSome then .modified o else .added o

def lost (c d : Cache) : List Object := c.objects.filter fun o => (d.at? o.place).isNone

theorem mem_lost {c d : Cache} (placed : c.Placed) {o : Object} :
    o ∈ c.lost d ↔ c.at? o.place = some o ∧ d.at? o.place = none := by
  rw [lost, List.mem_filter, mem_objects placed, Option.isNone_iff_eq_none]

theorem lost_eq (c d : Cache) : c.lost d =
    (c.monitors.lost Monitor.key d.monitors).map .monitor ++
      (c.pods.lost Pod.key d.pods).map .pod := by
  rw [lost, objects, List.filter_append, List.filter_map, List.filter_map, Table.lost, Table.lost]
  simp only [Function.comp_def, Object.place, Object.isMonitor, Object.key, at?,
    Option.isNone_map]

theorem nodup_lost {c : Cache} (placed : c.Placed) (d : Cache) :
    ((c.lost d).map Object.place).Nodup :=
  (nodup_places placed).sublist (List.filter_sublist.map _)

theorem lost_put {c : Cache} (placed : c.Placed) (o : Object) : c.lost (c.put o) = [] := by
  apply List.eq_nil_iff_forall_not_mem.mpr
  intro other member
  obtain ⟨before, after⟩ := (mem_lost placed).mp member
  rw [at?_put, before] at after
  split at after <;> contradiction

end Cache

namespace Store

theorem Keyed.placed {s : Store} (keyed : s.Keyed) : s.mirror.Placed := by
  rintro ⟨isMonitor, key⟩ o found
  cases isMonitor with
  | true =>
    obtain ⟨m, there, rfl⟩ := Option.map_eq_some_iff.mp found
    exact congrArg (Place.mk true) (keyed.monitors key m there)
  | false =>
    obtain ⟨p, there, rfl⟩ := Option.map_eq_some_iff.mp found
    exact congrArg (Place.mk false) (keyed.pods key p there)

theorem Keyed.lost_self {s : Store} (keyed : s.Keyed) : s.mirror.lost s.mirror = [] := by
  rw [Cache.lost_eq, mirror, Table.lost_eq_nil keyed.monitors fun _ _ found => by simp [found],
    Table.lost_eq_nil keyed.pods fun _ _ found => by simp [found]]
  rfl

theorem lost_pod {s t : Store} {key : Key} {p : Pod} (keyed : s.Keyed)
    (present : s.pods.get? key = some p) (monitors : t.monitors = s.monitors)
    (pods : t.pods = s.pods.erase key) : s.mirror.lost t.mirror = [.pod p] := by
  rw [Cache.lost_eq, mirror, mirror, monitors, pods, Table.lost_erase keyed.pods present,
    Table.lost_eq_nil keyed.monitors fun _ _ found => by simp [found]]
  rfl

theorem lost_monitor {s t : Store} {key : Key} {m : Monitor} (keyed : s.Keyed)
    (present : s.monitors.get? key = some m) (monitors : t.monitors = s.monitors.erase key)
    (pods : t.pods = s.pods.filter (fun _ p => !m.controls p.metadata)) :
    s.mirror.lost t.mirror = .monitor m :: (s.children m).map .pod := by
  rw [Cache.lost_eq, mirror, mirror, monitors, pods, Table.lost_erase keyed.monitors present,
    Table.lost_filter keyed.pods fun p => !m.controls p.metadata]
  simp only [Bool.not_not]
  rfl

theorem news_eq {c : Cache} {o : Object} {change : Object → Change}
    (news : News (c.at? o.place) change) : c.news o = change o := by
  unfold Cache.news
  obtain ⟨absent, rfl⟩ | ⟨⟨was, present⟩, rfl⟩ := news
  · simp [absent]
  · simp [present]

theorem News.map {α β : Type} {old : Option α} {change : Object → Change} (news : News old change)
    (f : α → β) : News (old.map f) change := by
  obtain ⟨absent, rfl⟩ | ⟨⟨was, present⟩, rfl⟩ := news
  · exact .inl ⟨by simp [absent], rfl⟩
  · exact .inr ⟨⟨f was, by simp [present]⟩, rfl⟩

theorem Effect.wrote {s t : Store} {o : Object} (effect : Effect s t (some o)) :
    t.mirror = s.mirror.put o ∧ t.feed = s.feed.push (s.mirror.news o) := by
  cases effect with
  | monitor m change news fresh monitors pods next feed =>
    have place : News (s.mirror.at? (Object.monitor m).place) change := news.map Object.monitor
    rw [mirror, monitors, pods, feed, news_eq place]
    exact ⟨rfl, rfl⟩
  | pod p change news fresh monitors pods next feed =>
    have place : News (s.mirror.at? (Object.pod p).place) change := news.map Object.pod
    rw [mirror, monitors, pods, feed, news_eq place]
    exact ⟨rfl, rfl⟩

theorem Effect.tells {s t : Store} {o : Option Object} (keyed : s.Keyed) (effect : Effect s t o) :
    t.feed.changes.toList = s.feed.changes.toList ++
      ((o.map s.mirror.news).toList ++ (s.mirror.lost t.mirror).map .deleted) := by
  cases o with
  | some o =>
    obtain ⟨objects, feed⟩ := effect.wrote
    rw [feed, objects, Cache.lost_put keyed.placed]
    simp [Feed.push]
  | none =>
    cases effect with
    | still alike =>
      have mirror : t.mirror = s.mirror := by rw [Store.mirror, alike.monitors, alike.pods]; rfl
      rw [alike.feed, mirror, keyed.lost_self]
      simp
    | podGone key p present monitors pods next feed =>
      rw [feed, lost_pod keyed present monitors pods]
      simp [Feed.push]
    | monitorGone key m present monitors pods next feed =>
      rw [feed, lost_monitor keyed present monitors pods,
        pushAll_toList (fun p => .deleted (.pod p))]
      simp [Feed.push, Function.comp_def]

theorem setPodPhase_eq_none {s : Store} {key : Key} {phase : PodPhase}
    (nothing : (s.setPodPhase key phase).2 = none) : (s.setPodPhase key phase).1 = s := by
  unfold setPodPhase at nothing ⊢
  split at nothing
  · simp only [*]
  · contradiction

theorem deletePod_eq_none {s : Store} {key : Key} (nothing : (s.deletePod key).2 = none) :
    (s.deletePod key).1 = s := by
  unfold deletePod at nothing ⊢
  split at nothing
  · simp only [*]
  · contradiction

theorem deleteMonitor_eq_none {s : Store} {key : Key} (nothing : (s.deleteMonitor key).2 = none) :
    (s.deleteMonitor key).1 = s := by
  unfold deleteMonitor at nothing ⊢
  split at nothing
  · simp only [*]
  · contradiction

theorem updateStatus_eq_error {s : Store} {m : Monitor} {e : StoreError}
    (refused : (s.updateStatus m).2 = .error e) : Alike s (s.updateStatus m).1 := by
  unfold updateStatus
  split
  · exact .refl s
  · split
    · exact .refl s
    · rename_i available _ stored found
      split
      · rename_i same
        have accepted := updateStatus_eq_ok.mpr ⟨by simpa using available, stored, found, same, rfl⟩
        rw [refused] at accepted
        contradiction
      · exact ⟨rfl, rfl, rfl, rfl⟩

namespace Operation

def removed? (s : Store) : Operation → Option Object
  | .deletePod key => (s.deletePod key).2.map .pod
  | .deleteMonitor key => (s.deleteMonitor key).2.map .monitor
  | _ => none

/-- The differences that an operation makes to the objects of a store: the object that it writes,
and every object that is no longer there. -/
def differences (s : Store) (op : Operation) : List Change :=
  ((op.written? s).map s.mirror.news).toList ++ (s.mirror.lost (op.run s).mirror).map .deleted

theorem alike_of_idle {s : Store} {op : Operation} (writes : op.written? s = none)
    (removes : op.removed? s = none) : Alike s (op.run s) := by
  cases op with
  | apply m => contradiction
  | putPod p => contradiction
  | setPodPhase key phase =>
    rw [run, setPodPhase_eq_none (Option.map_eq_none_iff.mp writes)]
    exact .refl s
  | deletePod key =>
    rw [run, deletePod_eq_none (Option.map_eq_none_iff.mp removes)]
    exact .refl s
  | deleteMonitor key =>
    rw [run, deleteMonitor_eq_none (Option.map_eq_none_iff.mp removes)]
    exact .refl s
  | updateStatus m =>
    cases answer : (s.updateStatus m).2 with
    | error e => exact updateStatus_eq_error answer
    | ok w => simp [written?, answer, Except.toOption] at writes
  | createPod p =>
    cases answer : (s.createPod p).2 with
    | error e =>
      have same : (s.createPod p).1 = s := createPod_eq_error (Prod.ext rfl answer)
      rw [run, same]
      exact .refl s
    | ok w => simp [written?, answer, Except.toOption] at writes
  | _ => exact ⟨rfl, rfl, rfl, rfl⟩

theorem differences_of_removed {s : Store} {op : Operation} (keyed : s.Keyed) {o : Object}
    (removes : op.removed? s = some o) : (op.differences s).head? = some (.deleted o) := by
  cases op with
  | deletePod key =>
    obtain ⟨p, answer, rfl⟩ := Option.map_eq_some_iff.mp removes
    cases found : s.pods.get? key with
    | none => simp [Store.deletePod, found] at answer
    | some q =>
      simp only [Store.deletePod, found, Option.some.injEq] at answer
      have gone : s.mirror.lost (s.deletePod key).1.mirror = [.pod q] := by
        apply lost_pod keyed found <;> simp only [Store.deletePod, found]
      simp [differences, written?, run, gone, answer]
  | deleteMonitor key =>
    obtain ⟨m, answer, rfl⟩ := Option.map_eq_some_iff.mp removes
    cases found : s.monitors.get? key with
    | none => simp [Store.deleteMonitor, found] at answer
    | some w =>
      simp only [Store.deleteMonitor, found, Option.some.injEq] at answer
      have gone : s.mirror.lost (s.deleteMonitor key).1.mirror =
          .monitor w :: (s.children w).map .pod := by
        apply lost_monitor keyed found <;> simp only [Store.deleteMonitor, found]
      simp [differences, written?, run, gone, answer]
  | _ => contradiction

/-- An operation tells the feed which differences it makes, and nothing else. What it writes is what
stands there afterwards; what it deletes is what stood there before. -/
structure Tells (s : Store) (op : Operation) : Prop where
  feed : (op.run s).feed.changes.toList = s.feed.changes.toList ++ op.differences s
  once : ((op.differences s).map Change.place).Nodup
  written : ∀ o, op.written? s = some o → op.differences s = [s.mirror.news o] ∧
    ∀ p, (op.run s).mirror.at? p = if p = o.place then some o else s.mirror.at? p
  removed : ∀ o, op.removed? s = some o → (op.differences s).head? = some (.deleted o)
  gone : ∀ o, .deleted o ∈ op.differences s ↔
    s.mirror.at? o.place = some o ∧ (op.run s).mirror.at? o.place = none
  idle : op.written? s = none → op.removed? s = none → op.differences s = [] ∧
    (op.run s).monitors = s.monitors ∧ (op.run s).pods = s.pods

theorem tells {s : Store} (keyed : s.Keyed) (op : Operation) : op.Tells s := by
  have effect := op.effect keyed
  have wrote : ∀ o, op.written? s = some o → op.differences s = [s.mirror.news o] ∧
      (op.run s).mirror = s.mirror.put o := by
    intro o written
    obtain ⟨objects, _⟩ := (written ▸ effect).wrote
    rw [differences, written, objects, Cache.lost_put keyed.placed]
    exact ⟨rfl, rfl⟩
  constructor
  case feed => exact effect.tells keyed
  case once =>
    cases written : op.written? s with
    | some o =>
      rw [(wrote o written).1]
      exact List.nodup_singleton _
    | none =>
      rw [differences, written, List.map_append, List.map_map]
      exact Cache.nodup_lost keyed.placed _
  case written =>
    intro o written
    obtain ⟨told, objects⟩ := wrote o written
    refine ⟨told, fun p => ?_⟩
    rw [objects, Cache.at?_put]
  case removed => exact fun o removes => differences_of_removed keyed removes
  case gone =>
    intro o
    rw [← Cache.mem_lost keyed.placed]
    cases written : op.written? s with
    | some w =>
      obtain ⟨told, objects⟩ := wrote w written
      rw [told, objects, Cache.lost_put keyed.placed]
      unfold Cache.news
      split <;> simp
    | none => simp [differences, written]
  case idle =>
    intro writes removes
    have alike := alike_of_idle writes removes
    have objects : (op.run s).mirror = s.mirror := by rw [mirror, alike.monitors, alike.pods]; rfl
    refine ⟨?_, alike.monitors, alike.pods⟩
    rw [differences, writes, objects, keyed.lost_self]
    rfl

end Operation

def differences (s : Store) : List Operation → List Change
  | [] => []
  | op :: ops => op.differences s ++ differences (op.run s) ops

theorem feed_after {s : Store} (keyed : s.Keyed) (ops : List Operation) :
    (s.after ops).feed.changes.toList = s.feed.changes.toList ++ s.differences ops := by
  induction ops generalizing s with
  | nil => simp [differences]
  | cons op ops ih =>
    rw [after_cons, ih (keyed.step (op.effect keyed)), (op.tells keyed).feed, differences,
      List.append_assoc]

theorem Logged.after {s : Store} (h : s.Logged) (keyed : s.Keyed) (ops : List Operation) :
    (s.after ops).Logged := by
  induction ops generalizing s with
  | nil => exact h
  | cons op ops ih =>
    have effect := op.effect keyed
    exact ih (h.step keyed effect) (keyed.step effect)

/-- What the feed goes on with leads from the objects before it to the objects after it. -/
theorem Logged.replay {s t : Store} (before : s.Logged) (after : t.Logged) {news : List Change}
    (feed : t.feed.changes.toList = s.feed.changes.toList ++ news) :
    (news.foldl Cache.absorb s.mirror).monitors = t.monitors ∧
      (news.foldl Cache.absorb s.mirror).pods = t.pods := by
  apply Cache.ext_at? (d := t.mirror)
  intro p
  rw [after.same p, Feed.asOf_size, feed, List.foldl_append, ← Feed.asOf_size]
  exact Cache.at?_foldl_congr before.same news p

/-- The feed is the log of what operations do to the objects of a store. At every point of a run an
operation tells the differences that it makes, these lead from the objects at any point to those at
any later one, and the versions of what is written increase, as long as 64 bits hold them. -/
theorem feed_logs_differences (retention : Nat) (earlier ops : List Operation) :
    let s := (empty retention).after earlier
    let t := s.after ops
    (∀ op : Operation, op.Tells s) ∧
    t.feed.changes.toList = s.feed.changes.toList ++ s.differences ops ∧
    ((s.differences ops).foldl Cache.absorb s.mirror).monitors = t.monitors ∧
    ((s.differences ops).foldl Cache.absorb s.mirror).pods = t.pods ∧
    (t.feed.versions.take (UInt64.size - 1)).Pairwise (· < ·) := by
  intro s t
  have keyed : s.Keyed := (Keyed.empty retention).after earlier
  have before : s.Logged := (Logged.empty retention).after (.empty retention) earlier
  have after : t.Logged := before.after keyed ops
  have feed := feed_after keyed ops
  obtain ⟨monitors, pods⟩ := before.replay after feed
  refine ⟨fun op => op.tells keyed, feed, monitors, pods, ?_⟩
  have few : min (UInt64.size - 1) t.feed.versions.length < UInt64.size := by
    have : 0 < UInt64.size := by decide
    omega
  rw [after.counted, Feed.counted, ← List.map_take, List.take_range]
  exact Feed.counted_pairwise few

/-- A monitor that is deleted takes its child along, and the feed tells of both. -/
example :
    let job : Monitor := { metadata := { ns := "a", name := "x", uid := "u" } }
    let child : Pod := { metadata := { ns := "a", name := "pm-x", owners := [job.ownerRef] } }
    ((empty 10).differences [.apply job, .createPod child, .createPod child,
      .deleteMonitor job.key]).map (fun change => (change.leaves.isSome, change.place)) =
        [(true, ⟨true, job.key⟩), (true, ⟨false, child.key⟩), (false, ⟨true, job.key⟩),
          (false, ⟨false, child.key⟩)] := by
  decide

end Store

end MonitorOperator
