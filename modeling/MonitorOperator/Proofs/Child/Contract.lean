import MonitorOperator.Child.Settings
import MonitorOperator.Proofs.Pass.Scene
import MonitorOperator.Proofs.Store.Ownership
import MonitorOperator.Proofs.Text.Integer

/-! What a monitor and its child agree on. The monitor writes the child's environment, and the child
reads it with fallbacks of its own. Main statement: the child reads what its monitor wrote, and it
is the monitor's under a name that no other monitor's child has, whatever uid and version the store
gives it. -/

namespace MonitorOperator

theorem MonitorSpec.effectiveInterval_pos (s : MonitorSpec) : 0 < s.effectiveInterval.toInt := by
  unfold effectiveInterval
  split
  · rename_i positive
    exact Int32.lt_iff_toInt_lt.mp positive
  · decide

theorem Monitor.controls_congr (m : Monitor) {a b : Metadata} (ns : a.ns = b.ns)
    (owners : a.owners = b.owners) : m.controls a = m.controls b := by
  simp only [controls, Metadata.controller?, ns, owners]

namespace Child

def container (m : Monitor) (t : Template) : Container where
  name := t.containerName
  image := t.image
  env := environment m
  mounts := [⟨logVolume, logDir m⟩]

theorem logDir_ne_empty (m : Monitor) : logDir m ≠ "" := by
  unfold logDir
  split
  · decide
  · assumption

namespace Settings

theorem present_of_eq {lookup : String → Option String} {name value : String}
    (found : lookup name = some value) (filled : value ≠ "") : present lookup name = some value := by
  simp [present, found, filled]

theorem speedOf?_toString {i : Int32} (positive : 0 < i.toInt) :
    speedOf? (toString i.toInt) = some i.toInt.toNat := by
  have above : Int64.minValue.toInt ≤ i.toInt := Int.le_trans (by decide) i.le_toInt
  have below : i.toInt ≤ Int64.maxValue.toInt := Int.le_trans i.toInt_le (by decide)
  simp only [speedOf?, Text.integer?_trim_toString above below, positive, if_true]

theorem toString_ne_empty (i : Int) : toString i ≠ "" := by
  intro empty
  have digits := congrArg String.toList empty
  cases i <;> simp [Int.repr] at digits

theorem ofLookup_container {m : Monitor} (t : Template) (ns : m.metadata.ns ≠ "")
    (name : m.metadata.name ≠ "") :
    ofLookup (container m t).value? = .ok {
      ns := m.metadata.ns
      name := m.metadata.name
      speed := m.spec.effectiveInterval.toInt.toNat
      logDir := Child.logDir m } := by
  have positive := m.spec.effectiveInterval_pos
  have nameRead : present (container m t).value? nameVariable = some m.metadata.name :=
    present_of_eq rfl name
  have nsRead : present (container m t).value? namespaceVariable = some m.metadata.ns :=
    present_of_eq rfl ns
  have speedRead : present (container m t).value? speedVariable =
      some (toString m.spec.effectiveInterval.toInt) :=
    present_of_eq rfl (toString_ne_empty _)
  have dirRead : present (container m t).value? logDirVariable = some (Child.logDir m) :=
    present_of_eq rfl (logDir_ne_empty m)
  simp only [ofLookup, nameRead, nsRead, speedRead, dirRead, Option.bind_some,
    speedOf?_toString positive, Option.getD_some]

theorem joinPath_of_relative {dir path : String} (filled : dir ≠ "") (relative : '/' ∉ path.toList) :
    (joinPath dir path).toList =
      dir.toList ++ (if dir.toList.getLast? = some '/' then [] else ['/']) ++ path.toList := by
  unfold joinPath
  split
  · rename_i absolute
    rw [absolute] at relative
    exact absurd (List.mem_cons_self ..) relative
  · split
    · rename_i empty
      exact absurd (String.toList_eq_nil_iff.mp (List.getLast?_eq_none_iff.mp empty)) filled
    · rename_i slash
      simp [slash]
    · rename_i last other final
      have noSlash : dir.toList.getLast? ≠ some '/' := fun slash =>
        other (Option.some.inj (final.symm.trans slash))
      simp [noSlash]

end Settings

theorem key_ne (m : Monitor) : key m ≠ m.key := by
  intro same
  have lengths := congrArg String.length (congrArg Key.name same)
  simp [key, Monitor.key, Metadata.key, namePrefix, String.length_append] at lengths

/-- The child of a monitor reads the monitor's namespace and name, its interval, which is positive,
and its log directory or else the default mount, where its volume is. It logs below that directory.
Its key is the monitor's child key, which is no other monitor's child key and not the monitor's own,
and the monitor controls it, also as the store keeps it. -/
theorem children_read_their_monitor {m : Monitor} (t : Template) (ns : m.metadata.ns ≠ "")
    (name : m.metadata.name ≠ "") (plain : '/' ∉ m.metadata.name.toList) :
    let p := build m t
    let dir := if m.spec.logDirectory = "" then defaultMount else m.spec.logDirectory
    (∃ (c : Container) (s : Settings),
      p.spec.containers = [c] ∧
      Settings.ofLookup c.value? = .ok s ∧
      s.ns = m.metadata.ns ∧
      s.name = m.metadata.name ∧
      (s.speed : Int) = m.spec.effectiveInterval.toInt ∧
      0 < s.speed ∧
      s.logDir = dir ∧
      c.mounts = [⟨logVolume, dir⟩] ∧
      s.logPath.toList =
        dir.toList ++ (if dir.toList.getLast? = some '/' then [] else ['/']) ++
          m.metadata.name.toList) ∧
    p.key = key m ∧
    (∀ other : Monitor, key other = key m → other.key = m.key) ∧
    key m ≠ m.key ∧
    (∀ uid version,
      m.controls { p.metadata with uid := uid, version := version } = true) ∧
    ∀ (before after : Store) (stored : Pod), before.createPod p = (after, .ok stored) →
      after.pods.get? (key m) = some stored ∧ m.controls stored.metadata = true := by
  intro p dir
  have positive := m.spec.effectiveInterval_pos
  refine ⟨⟨container m t, _, rfl, Settings.ofLookup_container t ns name, rfl, rfl, ?speed, ?nonzero,
    rfl, rfl, ?path⟩, rfl, ?injective, key_ne m, ?stamped, ?stored⟩
  case speed => exact Int.toNat_of_nonneg (Int.le_of_lt positive)
  case nonzero => exact Int.lt_toNat.mpr positive
  case path => exact Settings.joinPath_of_relative (logDir_ne_empty m) plain
  case injective =>
    intro other same
    exact Key.child_injective same
  case stamped =>
    intro uid version
    exact (m.controls_congr rfl rfl).trans (controls_build m t)
  case stored =>
    intro before after stored created
    obtain ⟨-, pods, ns, owners⟩ := Store.createPod_eq_ok created
    refine ⟨?_, (m.controls_congr ns owners).trans (controls_build m t)⟩
    rw [pods]
    exact (Table.get?_insert ..).trans (if_pos rfl)

theorem children_read_their_monitor_below_tmp :
    let m : Monitor := {
      metadata := { ns := "a", name := "x", uid := "7" }
      spec := { interval := 0, logDirectory := "/tmp/" } }
    ∃ (c : Container) (s : Settings),
      (build m {}).spec.containers = [c] ∧ Settings.ofLookup c.value? = .ok s ∧
      (s.ns, s.name, s.speed) = ("a", "x", 30) ∧ s.logPath = "/tmp/x" := by
  intro m
  obtain ⟨⟨c, s, only, read, ns, name, speed, -, -, -, path⟩, -⟩ :=
    children_read_their_monitor (m := m) {} (by decide) (by decide) (by decide)
  have thirty : s.speed = 30 := Int.ofNat.inj speed
  refine ⟨c, s, only, read, ?_, String.toList_injective (path.trans (by decide))⟩
  rw [ns, name, thirty]

end Child

end MonitorOperator
