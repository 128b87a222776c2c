import MonitorOperator.Cluster.Decode
import MonitorOperator.Event
import MonitorOperator.Proofs.Json.Records

/-!
Cluster objects, manifests and events through their JSON text and back. Main statement:
`texts_round_trip`.
-/

namespace MonitorOperator

open Json

theorem Owner.reads (o : Owner) {room : Nat} : Reads Owner.record.read (room + 1) o.toJson o :=
  .record _ (.given rfl rfl (.text _) <| .given rfl rfl (.text _) <| .given rfl rfl (.text _) <|
    .given rfl rfl (.text _) <| .given rfl rfl (.bool _) <| .given rfl rfl (.bool _) .done) rfl rfl

theorem labels_read (labels : Table String String) {room : Nat} :
    Reads (readTable readText) (room + 1) (labelsJson labels) labels :=
  .table labels fun _ _ => .text _

theorem eq_empty_of_isEmpty {t : Table String String} (empty : t.isEmpty = true) : t = ∅ := by
  cases t with
  | mk entries sorted =>
    cases List.isEmpty_iff.mp empty
    rfl

theorem Metadata.reads (m : Metadata) {room : Nat} :
    Reads Metadata.record.read (room + 3) m.toJson m := by
  have owners : Reads (readList Owner.record.read) (room + 2) (.array (m.owners.map Owner.toJson))
      m.owners := .list _ fun o _ => o.reads
  refine .record {
      ns := some m.ns, name := some m.name, uid := some m.uid, version := some m.version
      labels := if m.labels.isEmpty then none else some m.labels
      owners := if m.owners.isEmpty then none else some m.owners }
    (.append (.append (.given rfl rfl (.text _) <| .given rfl rfl (.text _) <|
      .given rfl rfl (.text _) <| .given rfl rfl (.uint64 _) .done)
      (.optional rfl rfl (labels_read _))) (.optional rfl ?_ owners)) ?_ ?_
  · split <;> rfl
  · cases m.labels.isEmpty <;> cases m.owners.isEmpty <;> rfl
  · simp only [Metadata.record, demand]
    rw [getD_left_out eq_empty_of_isEmpty, getD_left_out List.isEmpty_iff.mp]
    rfl

theorem MonitorSpec.reads (s : MonitorSpec) {room : Nat} :
    Reads MonitorSpec.record.read (room + 1) s.toJson s :=
  .record _ (.given rfl rfl (.int32 _) <| .given rfl rfl (.text _) .done) rfl rfl

theorem Phase.reads {p : Phase} (canonical : p.Canonical) {room : Nat} :
    Reads Phase.read room p.toJson p :=
  ⟨.string _, fun _ => congrArg Except.ok canonical⟩

theorem eq_empty_of_beq {s : String} (empty : (s == "") = true) : s = "" := beq_iff_eq.mp empty

theorem MonitorStatus.reads {s : MonitorStatus} (canonical : s.phase.Canonical) {room : Nat} :
    Reads MonitorStatus.record.read (room + 1) s.toJson s := by
  refine .record {
      phase := some s.phase, reason := if s.reason == "" then none else some s.reason }
    (.append (.given rfl rfl (Phase.reads canonical) .done) (.optional rfl rfl (.text _))) ?_ ?_
  · cases s.reason == "" <;> rfl
  · simp only [MonitorStatus.record]
    rw [getD_left_out eq_empty_of_beq]
    rfl

theorem Monitor.reads {m : Monitor} (canonical : m.status.phase.Canonical) {room : Nat} :
    Reads Monitor.record.read (room + 4) m.toJson m :=
  .record _ (.given rfl rfl m.metadata.reads <| .given rfl rfl m.spec.reads <|
    .given rfl rfl (MonitorStatus.reads canonical) .done) rfl rfl

theorem PodPhase.reads (p : PodPhase) {room : Nat} : Reads PodPhase.read room p.toJson p :=
  .variant (by cases p <;> rfl)

theorem RestartPolicy.reads (p : RestartPolicy) {room : Nat} :
    Reads RestartPolicy.read room p.toJson p :=
  .variant (by cases p <;> rfl)

theorem Variable.reads (v : Variable) {room : Nat} :
    Reads Variable.record.read (room + 1) v.toJson v :=
  .record _ (.given rfl rfl (.text _) <| .given rfl rfl (.text _) .done) rfl rfl

theorem VolumeMount.reads (v : VolumeMount) {room : Nat} :
    Reads VolumeMount.record.read (room + 1) v.toJson v :=
  .record _ (.given rfl rfl (.text _) <| .given rfl rfl (.text _) .done) rfl rfl

theorem HostPath.reads (h : HostPath) {room : Nat} :
    Reads HostPath.record.read (room + 1) h.toJson h :=
  .record _ (.given rfl rfl (.text _) .done) rfl rfl

theorem Volume.reads (v : Volume) {room : Nat} : Reads Volume.record.read (room + 2) v.toJson v :=
  .record _ (.given rfl rfl (.text _) <| .given rfl rfl v.hostPath.reads .done) rfl rfl

theorem Container.reads (c : Container) {room : Nat} :
    Reads Container.record.read (room + 3) c.toJson c := by
  have env : Reads (readList Variable.record.read) (room + 2) (.array (c.env.map Variable.toJson))
      c.env := .list _ fun v _ => v.reads
  have mounts : Reads (readList VolumeMount.record.read) (room + 2)
      (.array (c.mounts.map VolumeMount.toJson)) c.mounts := .list _ fun v _ => v.reads
  refine .record {
      name := some c.name, image := some c.image
      env := if c.env.isEmpty then none else some c.env
      mounts := if c.mounts.isEmpty then none else some c.mounts }
    (.append (.append (.given rfl rfl (.text _) <| .given rfl rfl (.text _) .done)
      (.optional rfl rfl env)) (.optional rfl ?_ mounts)) ?_ ?_
  · split <;> rfl
  · cases c.env.isEmpty <;> cases c.mounts.isEmpty <;> rfl
  · simp only [Container.record, demand]
    rw [getD_left_out List.isEmpty_iff.mp, getD_left_out List.isEmpty_iff.mp]
    rfl

theorem PodSpec.reads (s : PodSpec) {room : Nat} :
    Reads PodSpec.record.read (room + 5) s.toJson s := by
  have containers : Reads (readList Container.record.read) (room + 4)
      (.array (s.containers.map Container.toJson)) s.containers := .list _ fun c _ => c.reads
  have volumes : Reads (readList Volume.record.read) (room + 4)
      (.array (s.volumes.map Volume.toJson)) s.volumes := .list _ fun v _ => v.reads
  refine .record {
      containers := some s.containers
      volumes := if s.volumes.isEmpty then none else some s.volumes
      restartPolicy := some s.restartPolicy
      serviceAccount := if s.serviceAccount == "" then none else some s.serviceAccount }
    (.append (.append (.append (.given rfl rfl containers .done) (.optional rfl rfl volumes))
      (.given rfl ?_ s.restartPolicy.reads .done)) (.optional rfl ?_ (.text _))) ?_ ?_
  · split <;> rfl
  · split <;> rfl
  · cases s.volumes.isEmpty <;> cases s.serviceAccount == "" <;> rfl
  · simp only [PodSpec.record]
    rw [getD_left_out List.isEmpty_iff.mp, getD_left_out eq_empty_of_beq]
    rfl

theorem PodStatus.reads (s : PodStatus) {room : Nat} :
    Reads PodStatus.record.read (room + 1) s.toJson s := by
  refine .record {
      phase := some s.phase
      reason := if s.reason == "" then none else some s.reason
      message := if s.message == "" then none else some s.message }
    (.append (.append (.given rfl rfl s.phase.reads .done) (.optional rfl rfl (.text _)))
      (.optional rfl ?_ (.text _))) ?_ ?_
  · split <;> rfl
  · cases s.reason == "" <;> cases s.message == "" <;> rfl
  · simp only [PodStatus.record]
    rw [getD_left_out eq_empty_of_beq, getD_left_out eq_empty_of_beq]
    rfl

theorem Pod.reads (p : Pod) {room : Nat} : Reads Pod.record.read (room + 6) p.toJson p :=
  .record _ (.given rfl rfl p.metadata.reads <| .given rfl rfl p.spec.reads <|
    .given rfl rfl p.status.reads .done) rfl rfl

namespace Object

theorem splitMembers_kept {members : List (String × Json)} (source : Source)
    (kept : List (String × Json)) (isMonitor : Bool)
    (fits : ∀ m ∈ members, Fits (depthLimit - 1) m.2) (others : ∀ m ∈ members, m.1 ≠ tagName) :
    splitMembers source kept (some isMonitor) (membersOutline members)
      = .ok (isMonitor, kept.reverse ++ members) := by
  induction members generalizing kept with
  | nil => simp [membersOutline, splitMembers]
  | cons member members ih =>
    have tail := ih (member :: kept) (fun m inside => fits m (List.mem_cons_of_mem _ inside))
      (fun m inside => others m (List.mem_cons_of_mem _ inside))
    simp only [membersOutline, splitMembers, if_neg (others member (by simp)),
      (fits member (by simp)).keep]
    simpa using tail

theorem fits_members {room : Nat} {members : List (String × Json)}
    (fits : Fits (room + 1) (.object members)) : ∀ m ∈ members, Fits room m.2 := by
  cases fits with
  | object inside => exact inside

theorem read_tagged {kind : String} {members : List (String × Json)} {isMonitor : Bool} {o : Object}
    (source : Source) (named : variant kinds kind = .ok isMonitor)
    (fits : Fits depthLimit (.object members)) (others : ∀ m ∈ members, m.1 ≠ tagName)
    (content : ofKept isMonitor (.object members) = .ok o) :
    Object.read source (toOutline (.object ((tagName, .string kind) :: members))) = .ok o := by
  have tag : readTag kinds source (toOutline (.string kind)) = .ok isMonitor := named
  have kept := splitMembers_kept source [] isMonitor (fits_members fits) others
  have split : splitMembers source [] none (membersOutline ((tagName, .string kind) :: members))
      = .ok (isMonitor, members) := by
    simp only [membersOutline, splitMembers, if_true, tag]
    exact kept
  simp only [toOutline, Object.read, split]
  exact content

def Canonical : Object → Prop
  | .monitor m => m.status.phase.Canonical
  | .pod _ => True

theorem reads {o : Object} (canonical : o.Canonical) {room : Nat} :
    Reads Object.read (room + 6) o.toJson o := by
  have tagged {kind : String} {members : List (String × Json)}
      (fits : Fits (room + 6) (.object members)) :
      Fits (room + 6) (.object ((tagName, .string kind) :: members)) := by
    refine .object fun m inside => ?_
    rcases List.mem_cons.mp inside with rfl | inside
    · exact .string kind
    · exact fits_members fits m inside
  cases o with
  | monitor m =>
    have fits : Fits (room + 6) (.object m.members) := (Monitor.reads canonical).fits
    have kept : Reads Monitor.record.read depthLimit (.object m.members) m := Monitor.reads canonical
    refine ⟨tagged fits, fun source => read_tagged source rfl kept.fits ?_ ?_⟩
    · simp [Monitor.members, tagName]
    · simp [ofKept, kept.back, Except.map]
  | pod p =>
    have kept : Reads Pod.record.read depthLimit (.object p.members) p := p.reads
    refine ⟨tagged p.reads.fits, fun source => read_tagged source rfl kept.fits ?_ ?_⟩
    · simp [Pod.members, tagName]
    · simp [ofKept, kept.back, Except.map]

end Object

def Manifest.Canonical (m : Manifest) : Prop :=
  ∀ monitor ∈ m.monitors, monitor.status.phase.Canonical

theorem Manifest.reads {m : Manifest} (canonical : m.Canonical) {room : Nat} :
    Reads Manifest.record.read (room + 8) m.toJson m := by
  have monitors : Reads (readList Monitor.record.read) (room + 7)
      (.array (m.monitors.map Monitor.toJson)) m.monitors :=
    .list _ fun monitor member => Monitor.reads (canonical monitor member)
  have pods : Reads (readList Pod.record.read) (room + 7) (.array (m.pods.map Pod.toJson)) m.pods :=
    .list _ fun p _ => p.reads
  exact .record _ (.given rfl rfl monitors <| .given rfl rfl pods .done) rfl rfl

theorem EventType.reads (t : EventType) {room : Nat} :
    Reads EventType.read room (.string t.text) t :=
  .variant (by cases t <;> rfl)

theorem EventMetadata.reads (m : EventMetadata) {room : Nat} :
    Reads EventMetadata.record.read (room + 1)
      (.object [("name", .string m.name), ("namespace", .string m.ns)]) m :=
  .record _ (.given rfl rfl (.text _) <| .given rfl rfl (.text _) .done) rfl rfl

theorem ObjectReference.reads (r : ObjectReference) {room : Nat} :
    Reads ObjectReference.record.read (room + 1)
      (.object [("apiVersion", .string r.apiVersion), ("kind", .string r.kind),
        ("name", .string r.name), ("namespace", .string r.ns), ("uid", ofOption .string r.uid)]) r := by
  have uid : Reads (readOption readText) room (ofOption .string r.uid) r.uid :=
    .option r.uid (fun _ => .text _) (fun _ => Outline.noConfusion)
  exact .record _ (.given rfl rfl (.text _) <| .given rfl rfl (.text _) <| .given rfl rfl (.text _) <|
    .given rfl rfl (.text _) <| .given rfl rfl uid .done) rfl rfl

theorem EventSource.reads (s : EventSource) {room : Nat} :
    Reads EventSource.record.read (room + 1) (.object [("component", .string s.component)]) s :=
  .record _ (.given rfl rfl (.text _) .done) rfl rfl

theorem Event.reads (e : Event) {room : Nat} : Reads Event.record.read (room + 2) e.toJson e :=
  .record _ (.given rfl rfl e.metadata.reads <| .given rfl rfl e.involved.reads <|
    .given rfl rfl (.text _) <| .given rfl rfl (.text _) <| .given rfl rfl e.type.reads <|
    .given rfl rfl (.text _) <| .given rfl rfl e.source.reads .done) rfl rfl

theorem Phase.canonical_of_read {source : Source} {o : Outline} {p : Phase}
    (read : Phase.read source o = .ok p) : p.Canonical := by
  obtain ⟨raw, _, rfl⟩ := eq_ok_of_map read
  exact canonical_ofText raw

theorem MonitorStatus.canonical_of_read {source : Source} {o : Outline} {s : MonitorStatus}
    (read : MonitorStatus.record.read source o = .ok s) : s.phase.Canonical := by
  have keeps : MonitorStatus.record.Keeps fun d => (d.phase.getD .unset).Canonical := by
    intro f member source o draft next before filled
    simp only [MonitorStatus.record, List.mem_cons, List.not_mem_nil, or_false] at member
    rcases member with rfl | rfl
    · obtain ⟨p, read, rfl⟩ := read_of_field filled
      exact Phase.canonical_of_read read
    · obtain ⟨_, _, rfl⟩ := read_of_field filled
      exact before
  obtain ⟨draft, holds, finished⟩ := keeps.read (Phase.canonical_ofText "") read
  cases finished
  exact holds

theorem Monitor.canonical_of_read {source : Source} {o : Outline} {m : Monitor}
    (read : Monitor.record.read source o = .ok m) : m.status.phase.Canonical := by
  have keeps : Monitor.record.Keeps fun d => (d.status.getD {}).phase.Canonical := by
    intro f member source o draft next before filled
    simp only [Monitor.record, List.mem_cons, List.not_mem_nil, or_false] at member
    rcases member with rfl | rfl | rfl
    · obtain ⟨_, _, rfl⟩ := read_of_field filled
      exact before
    · obtain ⟨_, _, rfl⟩ := read_of_field filled
      exact before
    · obtain ⟨s, read, rfl⟩ := read_of_field filled
      exact MonitorStatus.canonical_of_read read
  obtain ⟨draft, holds, finished⟩ := keeps.read (Phase.canonical_ofText "") read
  obtain ⟨metadata, _, finished⟩ := eq_ok_of_bind finished
  cases finished
  exact holds

theorem Object.canonical_of_read {source : Source} {o : Outline} {object : Object}
    (read : Object.read source o = .ok object) : object.Canonical := by
  have content {isMonitor : Bool} {content : Json} (kept : ofKept isMonitor content = .ok object) :
      object.Canonical := by
    cases isMonitor with
    | true =>
      obtain ⟨m, parsed, rfl⟩ := eq_ok_of_map kept
      exact Monitor.canonical_of_read parsed
    | false =>
      obtain ⟨p, _, rfl⟩ := eq_ok_of_map kept
      trivial
  cases o with
  | object members =>
    obtain ⟨_, _, kept⟩ := eq_ok_of_bind read
    exact content kept
  | array items =>
    obtain ⟨_, _, kept⟩ := eq_ok_of_bind read
    exact content kept
  | _ => cases read

theorem Manifest.canonical_of_read {source : Source} {o : Outline} {m : Manifest}
    (read : Manifest.record.read source o = .ok m) : m.Canonical := by
  have keeps : Manifest.record.Keeps fun d =>
      ∀ monitor ∈ d.monitors.getD [], monitor.status.phase.Canonical := by
    intro f member source o draft next before filled
    simp only [Manifest.record, List.mem_cons, List.not_mem_nil, or_false] at member
    rcases member with rfl | rfl
    · obtain ⟨monitors, read, rfl⟩ := read_of_field filled
      intro monitor member
      obtain ⟨o, read⟩ := mem_of_readList read member
      exact Monitor.canonical_of_read read
    · obtain ⟨_, _, rfl⟩ := read_of_field filled
      exact before
  obtain ⟨draft, holds, finished⟩ := keeps.read (fun _ member => nomatch member) read
  cases finished
  exact holds

namespace Json

variable {α : Type}

/-- A canonical value is read back from its text. Whatever a text is read as is canonical, is read
back from its own text, and gives the same text again. -/
def RoundTrips (write : α → Json) (read : Reader α) (canonical : α → Prop) : Prop :=
  (∀ a, canonical a → readTextWith read (write a).render = .ok a) ∧
    ∀ text a, readTextWith read text = .ok a →
      canonical a ∧ readTextWith read (write a).render = .ok a ∧
        (readTextWith read (write a).render).map (fun b => (write b).render) = .ok (write a).render

theorem RoundTrips.of_reads {write : α → Json} {read : Reader α} {canonical : α → Prop} (room : Nat)
    (reads : ∀ a, canonical a → Reads read room (write a) a)
    (parsed : ∀ o a, read .text o = .ok a → canonical a) : RoundTrips write read canonical := by
  constructor
  · intro a known
    exact (reads a known).render
  · intro text a whole
    obtain ⟨o, read⟩ := read_of_text whole
    have known := parsed o a read
    have back := (reads a known).render
    refine ⟨known, back, ?_⟩
    rw [back]
    rfl

end Json

/-- Monitors, pods, objects with their kind, manifests and events come back from their JSON text, as
long as no phase hides a known one behind unrecognized text, which no text is read as. -/
theorem texts_round_trip :
    RoundTrips Monitor.toJson Monitor.record.read (·.status.phase.Canonical) ∧
    RoundTrips Pod.toJson Pod.record.read (fun _ => True) ∧
    RoundTrips Object.toJson Object.read Object.Canonical ∧
    RoundTrips Manifest.toJson Manifest.record.read Manifest.Canonical ∧
    RoundTrips Event.toJson Event.record.read (fun _ => True) := by
  refine ⟨?_, ?_, ?_, ?_, ?_⟩
  · exact .of_reads 4 (fun _ known => Monitor.reads known) fun _ _ => Monitor.canonical_of_read
  · exact .of_reads 6 (fun p _ => p.reads) fun _ _ _ => trivial
  · exact .of_reads 6 (fun _ known => Object.reads known) fun _ _ => Object.canonical_of_read
  · exact .of_reads 8 (fun _ known => Manifest.reads known) fun _ _ => Manifest.canonical_of_read
  · exact .of_reads 2 (fun e _ => e.reads) fun _ _ _ => trivial

theorem texts_round_trip_of_unknown_phase :
    let m : Monitor :=
      { metadata := {
          ns := "a \"b\"", name := "x\n", version := 18446744073709551615
          labels := Table.ofList [("k", "\\"), ("", "")]
          owners := [⟨"v1", "Job", "j", "", true, false⟩] }
        spec := { interval := -1 }
        status := { phase := .unrecognized "Paused" } }
    m.status.phase.Canonical ∧ readTextWith Monitor.record.read m.toJson.render = .ok m := by
  intro m
  have known : m.status.phase.Canonical := by decide
  exact ⟨known, texts_round_trip.1.1 m known⟩

/-- Unrecognized text that spells a known phase is lost. -/
example : readTextWith Phase.read (Phase.unrecognized "Running").toJson.render = .ok .running := rfl

end MonitorOperator
