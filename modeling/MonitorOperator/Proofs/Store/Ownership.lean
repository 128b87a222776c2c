import MonitorOperator.Proofs.Store.Operation

/-! Whom the pods of a store belong to. An operation that adds no pod leaves every monitor where it
is and every pod with its owners, unless it deletes a monitor, and then the pods that the monitor
manages go with it. -/

namespace MonitorOperator

namespace Store

theorem Keyed.empty (retention : Nat) : (empty retention).Keyed :=
  ⟨fun _ _ found => (nomatch found), fun _ _ found => (nomatch found)⟩

theorem Keyed.after {s : Store} (keyed : s.Keyed) (ops : List Operation) : (s.after ops).Keyed := by
  induction ops generalizing s with
  | nil => exact keyed
  | cons op ops ih => exact ih (keyed.step (op.effect keyed))

/-- A monitor is there under a key, in the incarnation with a uid. -/
def Holds (s : Store) (key : Key) (uid : String) : Prop :=
  ∃ m, s.monitors.get? key = some m ∧ m.metadata.uid = uid

/-- If a pod names a monitor as its manager, this monitor is there, in the namespace of the pod. -/
def HasOwner (s : Store) (p : Pod) : Prop :=
  ∀ owner, p.metadata.controller? = some owner → owner.kind = monitorKind →
    s.Holds ⟨p.metadata.ns, owner.name⟩ owner.uid

structure Tame (s t : Store) : Prop where
  monitors : ∀ key uid, s.Holds key uid → t.Holds key uid
  pods : ∀ key p, t.pods.get? key = some p → ∃ was, s.pods.get? key = some was ∧
    p.metadata.ns = was.metadata.ns ∧ p.metadata.owners = was.metadata.owners

theorem Tame.of_alike {s t : Store} (h : Alike s t) : Tame s t where
  monitors key uid holds := by rw [Holds, h.monitors]; exact holds
  pods key p found := ⟨p, h.pods ▸ found, rfl, rfl⟩

theorem HasOwner.congr {s t : Store} {p was : Pod} (h : s.HasOwner was)
    (monitors : ∀ key uid, s.Holds key uid → t.Holds key uid)
    (ns : p.metadata.ns = was.metadata.ns) (owners : p.metadata.owners = was.metadata.owners) :
    t.HasOwner p := by
  intro owner named kind
  rw [ns]
  exact monitors _ _ (h owner (by rw [Metadata.controller?, ← owners]; exact named) kind)

theorem tame_of_monitor {s t : Store} {w : Monitor}
    (monitors : t.monitors = s.monitors.insert w.key w) (pods : t.pods = s.pods)
    (same : ∀ old, s.monitors.get? w.key = some old → w.metadata.uid = old.metadata.uid) :
    Tame s t := by
  refine ⟨?_, fun key p found => ⟨p, pods ▸ found, rfl, rfl⟩⟩
  rintro key _ ⟨m, found, rfl⟩
  rw [Holds, monitors]
  by_cases mine : key = w.key
  · subst mine
    exact ⟨w, by rw [Table.get?_insert, if_pos rfl], same m found⟩
  · exact ⟨m, by rw [Table.get?_insert, if_neg mine]; exact found, rfl⟩

theorem tame_of_pod {s t : Store} {w old : Pod} (monitors : t.monitors = s.monitors)
    (pods : t.pods = s.pods.insert w.key w) (found : s.pods.get? w.key = some old)
    (ns : w.metadata.ns = old.metadata.ns) (owners : w.metadata.owners = old.metadata.owners) :
    Tame s t := by
  refine ⟨fun key uid holds => by rw [Holds, monitors]; exact holds, fun key p there => ?_⟩
  rw [pods, Table.get?_insert] at there
  split at there
  · rename_i same
    cases there
    exact ⟨old, same ▸ found, ns, owners⟩
  · exact ⟨p, there, rfl, rfl⟩

theorem apply_tame (s : Store) (m : Monitor) : Tame s (s.apply m).1 := by
  cases found : s.monitors.get? m.key with
  | some old =>
    simp only [apply, found]
    refine tame_of_monitor rfl rfl fun other there => ?_
    cases Option.some.inj (found.symm.trans there)
    rfl
  | none =>
    have alike := s.identify_alike m.metadata.uid
    simp only [apply, found]
    refine tame_of_monitor (s := s) (w := ((s.identify m.metadata.uid).1.writeMonitor
      { m with metadata := { m.metadata with uid := (s.identify m.metadata.uid).2 } } .added).2)
      (congrArg (Table.insert · _ _) alike.monitors) alike.pods fun other there => ?_
    cases found.symm.trans there

theorem updateStatus_tame {s : Store} (keyed : s.Keyed) (m : Monitor) :
    Tame s (s.updateStatus m).1 := by
  unfold updateStatus
  split
  · exact .of_alike (.refl s)
  · split
    · exact .of_alike (.refl s)
    · rename_i stored found
      split
      · refine tame_of_monitor rfl rfl fun old there => ?_
        have name : stored.key = m.key := keyed.monitors m.key stored found
        cases Option.some.inj (found.symm.trans (name ▸ there))
        rfl
      · exact .of_alike ⟨rfl, rfl, rfl, rfl⟩

theorem setPodPhase_tame {s : Store} (keyed : s.Keyed) (key : Key) (phase : PodPhase) :
    Tame s (s.setPodPhase key phase).1 := by
  cases found : s.pods.get? key with
  | none =>
    simp only [setPodPhase, found]
    exact .of_alike (.refl s)
  | some p =>
    have there : s.pods.get? p.key = some p := keyed.pods key p found ▸ found
    simp only [setPodPhase, found]
    exact tame_of_pod rfl rfl there rfl rfl

theorem deletePod_tame (s : Store) (key : Key) : Tame s (s.deletePod key).1 := by
  unfold deletePod
  split
  · exact .of_alike (.refl s)
  · refine ⟨fun _ _ holds => holds, fun other p found => ?_⟩
    rw [Table.get?_erase] at found
    split at found
    · contradiction
    · exact ⟨p, found, rfl, rfl⟩

namespace Operation

def addsPods : Operation → Bool
  | .putPod _ => true
  | .createPod _ => true
  | _ => false

def deletes? (s : Store) : Operation → Option Monitor
  | .deleteMonitor key => s.monitors.get? key
  | _ => none

theorem tame {s : Store} (keyed : s.Keyed) {op : Operation} (adds : op.addsPods = false)
    (deletes : op.deletes? s = none) : Tame s (op.run s) := by
  cases op with
  | apply m => exact s.apply_tame m
  | putPod p => contradiction
  | setPodPhase key phase => exact setPodPhase_tame keyed key phase
  | deletePod key => exact s.deletePod_tame key
  | deleteMonitor key =>
    have absent : s.monitors.get? key = none := deletes
    simp only [run, Store.deleteMonitor, absent]
    exact .of_alike (.refl s)
  | updateStatus m => exact updateStatus_tame keyed m
  | createPod p => contradiction
  | _ => exact .of_alike ⟨rfl, rfl, rfl, rfl⟩

theorem run_of_deletes {s : Store} (keyed : s.Keyed) {op : Operation} {m : Monitor}
    (deletes : op.deletes? s = some m) :
    s.monitors.get? m.key = some m ∧ (op.run s).monitors = s.monitors.erase m.key ∧
      (op.run s).pods = s.pods.filter (fun _ p => !m.controls p.metadata) := by
  cases op with
  | deleteMonitor key =>
    have found : s.monitors.get? key = some m := deletes
    have name := keyed.monitors key m found
    subst name
    refine ⟨found, ?_, ?_⟩ <;> simp only [run, Store.deleteMonitor, found]
  | _ => contradiction

end Operation

theorem HasOwner.of_deleted {s t : Store} {m : Monitor} {p : Pod} (h : s.HasOwner p)
    (present : s.monitors.get? m.key = some m) (monitors : t.monitors = s.monitors.erase m.key)
    (free : m.controls p.metadata = false) : t.HasOwner p := by
  intro owner named kind
  obtain ⟨w, found, uid⟩ := h owner named kind
  refine ⟨w, ?_, uid⟩
  rw [monitors, Table.get?_erase, if_neg]
  · exact found
  · intro same
    rw [same, present] at found
    cases found
    -- the owner of the pod is the very monitor that goes, which would control the pod
    have ns : p.metadata.ns = m.metadata.ns := congrArg Key.ns same
    have name : owner.name = m.metadata.name := congrArg Key.name same
    simp [Monitor.controls, named, ns, kind, name, uid] at free

theorem createPod_eq_ok {s t : Store} {p w : Pod} (h : s.createPod p = (t, .ok w)) :
    t.monitors = s.monitors ∧ t.pods = s.pods.insert p.key w ∧
      w.metadata.ns = p.metadata.ns ∧ w.metadata.owners = p.metadata.owners := by
  unfold createPod at h
  split at h
  · cases h
  · split at h
    · cases h
    · have alike := s.identify_alike ""
      cases h
      exact ⟨alike.monitors, congrArg (Table.insert · _ _) alike.pods, rfl, rfl⟩

theorem createPod_eq_error {s t : Store} {p : Pod} {e : StoreError}
    (h : s.createPod p = (t, .error e)) : t = s := by
  unfold createPod at h
  split at h
  · cases h; rfl
  · split at h
    · cases h; rfl
    · cases h

end Store

end MonitorOperator
