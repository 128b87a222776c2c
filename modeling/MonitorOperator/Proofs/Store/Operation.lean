import MonitorOperator.Store

/-! The operations of a store, and all that one of them can do to its objects, to the version of the
next write and to the feed. -/

namespace MonitorOperator.Store

def empty (retention : Nat) : Store := { retention := retention }

inductive Operation where
  | apply (m : Monitor)
  | putPod (p : Pod)
  | setPodPhase (key : Key) (phase : PodPhase)
  | deletePod (key : Key)
  | deleteMonitor (key : Key)
  | setUnavailable (unavailable : Bool)
  | getMonitor (key : Key)
  | getPod (key : Key)
  | updateStatus (m : Monitor)
  | createPod (p : Pod)
  | list
  | publish (e : Event)

namespace Operation

def run (s : Store) : Operation → Store
  | .apply m => (s.apply m).1
  | .putPod p => (s.putPod p).1
  | .setPodPhase key phase => (s.setPodPhase key phase).1
  | .deletePod key => (s.deletePod key).1
  | .deleteMonitor key => (s.deleteMonitor key).1
  | .setUnavailable unavailable => s.setUnavailable unavailable
  | .getMonitor _ => s
  | .getPod _ => s
  | .updateStatus m => (s.updateStatus m).1
  | .createPod p => (s.createPod p).1
  | .list => s
  | .publish e => s.publish e

def written? (s : Store) : Operation → Option Object
  | .apply m => some (.monitor (s.apply m).2)
  | .putPod p => some (.pod (s.putPod p).2)
  | .setPodPhase key phase => (s.setPodPhase key phase).2.map .pod
  | .updateStatus m => (s.updateStatus m).2.toOption.map .monitor
  | .createPod p => (s.createPod p).2.toOption.map .pod
  | _ => none

end Operation

def after (s : Store) (ops : List Operation) : Store := ops.foldl Operation.run s

@[simp] theorem after_nil (s : Store) : s.after [] = s := rfl

@[simp] theorem after_cons (s : Store) (op : Operation) (ops : List Operation) :
    s.after (op :: ops) = (op.run s).after ops := rfl

theorem after_append (s : Store) (ops more : List Operation) :
    s.after (ops ++ more) = (s.after ops).after more := List.foldl_append ..

/-- A seeding is one operation for each object of the manifest. -/
theorem seed_eq_after (s : Store) (m : Manifest) :
    s.seed m = s.after (m.monitors.map .apply ++ m.pods.map .putPod) := by
  rw [after_append, after, after, List.foldl_map, List.foldl_map]
  rfl

def News {α : Type} (old : Option α) (change : Object → Change) : Prop :=
  old = none ∧ change = .added ∨ (∃ was, old = some was) ∧ change = .modified

/-- The same objects, the same next version and the same feed: the stores differ at most in uids, in
counts, in published events and in being available. -/
structure Alike (s t : Store) : Prop where
  monitors : t.monitors = s.monitors
  pods : t.pods = s.pods
  next : t.nextVersion = s.nextVersion
  feed : t.feed = s.feed

/-- All that an operation can do, given the object that it writes. -/
inductive Effect (s t : Store) : Option Object → Prop where
  | still (alike : Alike s t) : Effect s t none
  | monitor (m : Monitor) (change : Object → Change) (news : News (s.monitors.get? m.key) change)
      (fresh : m.metadata.version = s.nextVersion)
      (monitors : t.monitors = s.monitors.insert m.key m) (pods : t.pods = s.pods)
      (next : t.nextVersion = s.nextVersion + 1)
      (feed : t.feed = s.feed.push (change (.monitor m))) : Effect s t (some (.monitor m))
  | pod (p : Pod) (change : Object → Change) (news : News (s.pods.get? p.key) change)
      (fresh : p.metadata.version = s.nextVersion)
      (monitors : t.monitors = s.monitors) (pods : t.pods = s.pods.insert p.key p)
      (next : t.nextVersion = s.nextVersion + 1)
      (feed : t.feed = s.feed.push (change (.pod p))) : Effect s t (some (.pod p))
  | podGone (key : Key) (p : Pod) (present : s.pods.get? key = some p)
      (monitors : t.monitors = s.monitors) (pods : t.pods = s.pods.erase key)
      (next : t.nextVersion = s.nextVersion) (feed : t.feed = s.feed.push (.deleted (.pod p))) :
      Effect s t none
  | monitorGone (key : Key) (m : Monitor) (present : s.monitors.get? key = some m)
      (monitors : t.monitors = s.monitors.erase key)
      (pods : t.pods = s.pods.filter (fun _ p => !m.controls p.metadata))
      (next : t.nextVersion = s.nextVersion)
      (feed : t.feed = (s.children m).foldl (fun f p => f.push (.deleted (.pod p)))
        (s.feed.push (.deleted (.monitor m)))) : Effect s t none

namespace Effect

theorem writeMonitor (s : Store) (m : Monitor) (change : Object → Change)
    (news : News (s.monitors.get? m.key) change) :
    Effect s (s.writeMonitor m change).1 (some (.monitor (s.writeMonitor m change).2)) :=
  .monitor _ change news rfl rfl rfl rfl rfl

theorem writePod (s : Store) (p : Pod) (change : Object → Change)
    (news : News (s.pods.get? p.key) change) :
    Effect s (s.writePod p change).1 (some (.pod (s.writePod p change).2)) :=
  .pod _ change news rfl rfl rfl rfl rfl

theorem congr {s s' t t' : Store} {o : Option Object} (h : Effect s t o) (before : Alike s s')
    (after : Alike t t') : Effect s' t' o := by
  obtain ⟨monitors, pods, next, feed⟩ := before
  obtain ⟨monitors', pods', next', feed'⟩ := after
  cases h with
  | still alike =>
    obtain ⟨m, p, n, f⟩ := alike
    exact .still ⟨by simp [*], by simp [*], by simp [*], by simp [*]⟩
  | monitor m change news fresh =>
    exact .monitor m change (monitors ▸ news) (next ▸ fresh) (by simp [*]) (by simp [*])
      (by simp [*]) (by simp [*])
  | pod p change news fresh =>
    exact .pod p change (pods ▸ news) (next ▸ fresh) (by simp [*]) (by simp [*]) (by simp [*])
      (by simp [*])
  | podGone key p present =>
    exact .podGone key p (pods ▸ present) (by simp [*]) (by simp [*]) (by simp [*]) (by simp [*])
  | monitorGone key m present _ _ _ f =>
    refine .monitorGone key m (monitors ▸ present) (by simp [*]) (by simp [*]) (by simp [*]) ?_
    rw [feed', f, feed, children, children, pods]

end Effect

theorem Alike.refl (s : Store) : Alike s s := ⟨rfl, rfl, rfl, rfl⟩

theorem Alike.symm {s t : Store} (h : Alike s t) : Alike t s :=
  ⟨h.monitors.symm, h.pods.symm, h.next.symm, h.feed.symm⟩

def Published (s t : Store) : Prop :=
  ∃ events evicted, t = { s with events := events, eventsEvicted := evicted }

theorem Published.refl (s : Store) : s.Published s := ⟨_, _, rfl⟩

theorem Published.trans {s t u : Store} (h : s.Published t) (h' : t.Published u) :
    s.Published u := by
  obtain ⟨_, _, rfl⟩ := h
  obtain ⟨_, _, rfl⟩ := h'
  exact ⟨_, _, rfl⟩

theorem identify_alike (s : Store) (given : String) : Alike s (s.identify given).1 := by
  unfold identify; split <;> exact ⟨rfl, rfl, rfl, rfl⟩

theorem apply_effect (s : Store) (m : Monitor) :
    Effect s (s.apply m).1 (some (.monitor (s.apply m).2)) := by
  cases found : s.monitors.get? m.key with
  | some old =>
    simp only [apply, found]
    exact .writeMonitor s _ .modified (.inr ⟨⟨old, found⟩, rfl⟩)
  | none =>
    have alike := s.identify_alike m.metadata.uid
    have free : (s.identify m.metadata.uid).1.monitors.get? m.key = none := alike.monitors ▸ found
    simp only [apply, found]
    refine (Effect.writeMonitor _ _ .added (.inl ⟨?_, rfl⟩)).congr alike.symm (.refl _)
    exact free

theorem putPod_effect (s : Store) (p : Pod) :
    Effect s (s.putPod p).1 (some (.pod (s.putPod p).2)) := by
  cases found : s.pods.get? p.key with
  | some old =>
    simp only [putPod, found]
    exact .writePod s _ .modified (.inr ⟨⟨old, found⟩, rfl⟩)
  | none =>
    have alike := s.identify_alike p.metadata.uid
    have free : (s.identify p.metadata.uid).1.pods.get? p.key = none := alike.pods ▸ found
    simp only [putPod, found]
    refine (Effect.writePod _ _ .added (.inl ⟨?_, rfl⟩)).congr alike.symm (.refl _)
    exact free

structure Keyed (s : Store) : Prop where
  monitors : ∀ key m, s.monitors.get? key = some m → m.key = key
  pods : ∀ key p, s.pods.get? key = some p → p.key = key

theorem setPodPhase_effect {s : Store} (keyed : s.Keyed) (key : Key) (phase : PodPhase) :
    Effect s (s.setPodPhase key phase).1 ((s.setPodPhase key phase).2.map .pod) := by
  cases found : s.pods.get? key with
  | none =>
    simp only [setPodPhase, found]
    exact .still (.refl s)
  | some p =>
    have there : s.pods.get? p.key = some p := keyed.pods key p found ▸ found
    simp only [setPodPhase, found]
    exact .writePod s _ .modified (.inr ⟨⟨p, there⟩, rfl⟩)

theorem updateStatus_eq_ok {s : Store} {r written : Monitor} :
    (s.updateStatus r).2 = .ok written ↔ s.unavailable = false ∧
      ∃ stored, s.monitors.get? r.key = some stored ∧
        stored.metadata.version = r.metadata.version ∧
        written = { stored with
          status := r.status
          metadata := { stored.metadata with version := s.nextVersion } } := by
  unfold updateStatus
  split
  · simp [*]
  · split
    · simp [*]
    · rename_i available stored found
      split
      · simp [*, writeMonitor, eq_comm]
      · simp [*]

theorem updateStatus_effect {s : Store} (keyed : s.Keyed) (m : Monitor) :
    Effect s (s.updateStatus m).1 ((s.updateStatus m).2.toOption.map .monitor) := by
  unfold updateStatus
  split
  · exact .still (.refl s)
  · split
    · exact .still (.refl s)
    · rename_i stored found
      split
      · have there : s.monitors.get? stored.key = some stored :=
          keyed.monitors m.key stored found ▸ found
        exact (Effect.writeMonitor s { stored with status := m.status } .modified
          (.inr ⟨⟨stored, there⟩, rfl⟩)).congr (.refl s) ⟨rfl, rfl, rfl, rfl⟩
      · exact .still ⟨rfl, rfl, rfl, rfl⟩

theorem createPod_effect (s : Store) (p : Pod) :
    Effect s (s.createPod p).1 ((s.createPod p).2.toOption.map .pod) := by
  unfold createPod
  split
  · exact .still (.refl s)
  · split
    · exact .still (.refl s)
    · rename_i free
      have absent : s.pods.get? p.key = none := by simpa [Table.contains] using free
      have alike := s.identify_alike ""
      exact (Effect.writePod _ _ .added (.inl ⟨alike.pods ▸ absent, rfl⟩)).congr alike.symm
        ⟨rfl, rfl, rfl, rfl⟩

theorem deletePod_effect (s : Store) (key : Key) : Effect s (s.deletePod key).1 none := by
  unfold deletePod
  split
  · exact .still (.refl s)
  · rename_i p found
    exact .podGone key p found rfl rfl rfl rfl

theorem deleteMonitor_effect (s : Store) (key : Key) : Effect s (s.deleteMonitor key).1 none := by
  unfold deleteMonitor
  split
  · exact .still (.refl s)
  · rename_i m found
    exact .monitorGone key m found rfl rfl rfl rfl

theorem Operation.effect {s : Store} (keyed : s.Keyed) (op : Operation) :
    Effect s (op.run s) (op.written? s) := by
  cases op with
  | apply m => exact s.apply_effect m
  | putPod p => exact s.putPod_effect p
  | setPodPhase key phase => exact setPodPhase_effect keyed key phase
  | deletePod key => exact s.deletePod_effect key
  | deleteMonitor key => exact s.deleteMonitor_effect key
  | setUnavailable unavailable => exact .still ⟨rfl, rfl, rfl, rfl⟩
  | getMonitor key => exact .still (.refl s)
  | getPod key => exact .still (.refl s)
  | updateStatus m => exact updateStatus_effect keyed m
  | createPod p => exact s.createPod_effect p
  | list => exact .still (.refl s)
  | publish e => exact .still ⟨rfl, rfl, rfl, rfl⟩

theorem Keyed.step {s t : Store} {o : Option Object} (h : s.Keyed) (effect : Effect s t o) :
    t.Keyed := by
  cases effect with
  | still alike => exact ⟨alike.monitors ▸ h.monitors, alike.pods ▸ h.pods⟩
  | monitor m _ _ _ monitors pods =>
    refine ⟨fun key w found => ?_, pods ▸ h.pods⟩
    rw [monitors, Table.get?_insert] at found
    split at found
    · rename_i same
      exact Option.some.inj found ▸ same.symm
    · exact h.monitors key w found
  | pod p _ _ _ monitors pods =>
    refine ⟨monitors ▸ h.monitors, fun key w found => ?_⟩
    rw [pods, Table.get?_insert] at found
    split at found
    · rename_i same
      exact Option.some.inj found ▸ same.symm
    · exact h.pods key w found
  | podGone key _ _ monitors pods =>
    refine ⟨monitors ▸ h.monitors, fun other w found => ?_⟩
    rw [pods, Table.get?_erase] at found
    split at found
    · contradiction
    · exact h.pods other w found
  | monitorGone key _ _ monitors pods =>
    refine ⟨fun other w found => ?_, fun other w found => ?_⟩
    · rw [monitors, Table.get?_erase] at found
      split at found
      · contradiction
      · exact h.monitors other w found
    · rw [pods, Table.get?_filter] at found
      exact h.pods other w (Option.filter_eq_some_iff.mp found).1

theorem Effect.stored {s t : Store} {m : Monitor} (effect : Effect s t (some (.monitor m))) :
    t.monitors.get? m.key = some m := by
  cases effect with
  | monitor _ _ _ _ monitors => rw [monitors, Table.get?_insert, if_pos rfl]

theorem Effect.stored_before {s t : Store} {o : Option Object} {key : Key} {m : Monitor}
    (effect : Effect s t o) (found : t.monitors.get? key = some m)
    (apart : ∀ w, o = some (.monitor w) → w.key ≠ key) : s.monitors.get? key = some m := by
  cases effect with
  | still alike => exact alike.monitors ▸ found
  | monitor w _ _ _ monitors =>
    have differ : ¬ key = w.key := fun same => apart w rfl same.symm
    rwa [monitors, Table.get?_insert, if_neg differ] at found
  | pod _ _ _ _ monitors => exact monitors ▸ found
  | podGone _ _ _ monitors => exact monitors ▸ found
  | monitorGone _ _ _ monitors =>
    rw [monitors, Table.get?_erase] at found
    split at found
    · contradiction
    · exact found

def Operation.WritesMonitor : Operation → Prop
  | .apply _ => True
  | .updateStatus _ => True
  | _ => False

theorem Operation.writesMonitor_of_written {s : Store} {op : Operation} {w : Monitor}
    (written : op.written? s = some (.monitor w)) : op.WritesMonitor := by
  cases op with
  | apply m => trivial
  | updateStatus m => trivial
  | putPod p => cases written
  | setPodPhase key phase =>
    obtain ⟨p, _, other⟩ := Option.map_eq_some_iff.mp written
    cases other
  | createPod p =>
    obtain ⟨q, _, other⟩ := Option.map_eq_some_iff.mp written
    cases other
  | _ => cases written

theorem apply_key (s : Store) (m : Monitor) : (s.apply m).2.key = m.key := by
  unfold apply
  split <;> rfl

theorem apply_status {s : Store} {m old : Monitor} (found : s.monitors.get? m.key = some old) :
    (s.apply m).2.status = old.status := by
  simp only [apply, found]
  rfl

theorem apply_status_new {s : Store} {m : Monitor} (absent : s.monitors.get? m.key = none) :
    (s.apply m).2.status = m.status := by
  simp only [apply, absent]
  rfl

theorem Operation.stored_or_applied {s : Store} (keyed : s.Keyed) {op : Operation}
    (applies : ∀ m, op ≠ .updateStatus m) {key : Key} {w : Monitor}
    (found : (op.run s).monitors.get? key = some w) :
    s.monitors.get? key = some w ∨ ∃ m, op = .apply m ∧ m.key = key ∧ (s.apply m).2 = w := by
  by_cases mine : ∃ v, op.written? s = some (.monitor v) ∧ v.key = key
  · obtain ⟨v, written, rfl⟩ := mine
    have effect := op.effect keyed
    rw [written] at effect
    have same : v = w := Option.some.inj (effect.stored.symm.trans found)
    have writer := writesMonitor_of_written written
    cases op with
    | apply m =>
      cases Option.some.inj written
      exact .inr ⟨m, rfl, (s.apply_key m).symm, same⟩
    | updateStatus m => exact (applies m rfl).elim
    | _ => contradiction
  · exact .inl ((op.effect keyed).stored_before found fun v eq name => mine ⟨v, eq, name⟩)

theorem Operation.status_kept {s : Store} (keyed : s.Keyed) {op : Operation}
    (applies : ∀ m, op ≠ .updateStatus m) {key : Key} {old w : Monitor}
    (before : s.monitors.get? key = some old) (found : (op.run s).monitors.get? key = some w) :
    w.status = old.status := by
  rcases stored_or_applied keyed applies found with same | ⟨m, rfl, rfl, rfl⟩
  · rw [Option.some.inj (same.symm.trans before)]
  · exact apply_status before

theorem Operation.status_given {s : Store} (keyed : s.Keyed) {op : Operation}
    (applies : ∀ m, op ≠ .updateStatus m) {key : Key} {w : Monitor}
    (absent : s.monitors.get? key = none) (found : (op.run s).monitors.get? key = some w) :
    ∃ m, op = .apply m ∧ m.key = key ∧ w.status = m.status := by
  rcases stored_or_applied keyed applies found with same | ⟨m, rfl, rfl, rfl⟩
  · rw [absent] at same
    contradiction
  · exact ⟨m, rfl, rfl, apply_status_new absent⟩

end MonitorOperator.Store
