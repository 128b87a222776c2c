import Mathlib.Tactic.FinCases
import MonitorOperator.Cluster.Decode
import MonitorOperator.Proofs.Json.Omission

/-!
Cluster documents that leave out what has a default. Each type names its parts, with the default of
every part that may be missing, and the draft that has all the defaults written in. Main statement:
`documents_read_alike`.
-/

namespace MonitorOperator

open Json

def Owner.parts : List Part := [
  .needed "apiVersion" .nothing,
  .needed "kind" .nothing,
  .needed "name" .nothing,
  .needed "uid" .nothing,
  .spare "controller" readBool false .nothing,
  .spare "blockOwnerDeletion" readBool false .nothing]

def Owner.Draft.settle (d : Owner.Draft) : Owner.Draft :=
  { d with
    controller := some (d.controller.getD false)
    blockOwnerDeletion := some (d.blockOwnerDeletion.getD false) }

theorem Owner.settles :
    Owner.record.Settles Owner.parts Owner.Draft.settle where
  slots :=
    .cons (.needed .nothing fun _ _ => rfl) <|
    .cons (.needed .nothing fun _ _ => rfl) <|
    .cons (.needed .nothing fun _ _ => rfl) <|
    .cons (.needed .nothing fun _ _ => rfl) <|
    .cons (.spare .nothing (fun _ _ => rfl) fun _ absent => by
      simp [Owner.Draft.settle, absent]) <|
    .cons (.spare .nothing (fun _ _ => rfl) fun _ absent => by
      simp [Owner.Draft.settle, absent]) .nil
  apart := by
    intro f inF g inG _ _ _ _ read
    fin_cases inF <;> obtain ⟨b, -, rfl⟩ := read_of_field read <;> fin_cases inG <;> rfl
  finish _ := rfl

def Metadata.parts : List Part := [
  .needed "namespace" .nothing,
  .needed "name" .nothing,
  .spare "uid" readText "" .nothing,
  .spare "resourceVersion" readUInt64 0 .nothing,
  .spare "labels" (readTable readText) ∅ .nothing,
  .spare "ownerReferences" (readList Owner.record.read) [] (.list (.record Owner.parts))]

def Metadata.Draft.settle (d : Metadata.Draft) : Metadata.Draft :=
  { d with
    uid := some (d.uid.getD "")
    version := some (d.version.getD 0)
    labels := some (d.labels.getD ∅)
    owners := some (d.owners.getD []) }

theorem Metadata.settles :
    Metadata.record.Settles Metadata.parts Metadata.Draft.settle where
  slots :=
    .cons (.needed .nothing fun _ _ => rfl) <|
    .cons (.needed .nothing fun _ _ => rfl) <|
    .cons (.spare .nothing (fun _ _ => rfl) fun _ absent => by
      simp [Metadata.Draft.settle, absent]) <|
    .cons (.spare .nothing (fun _ _ => rfl) fun _ absent => by
      simp [Metadata.Draft.settle, absent]) <|
    .cons (.spare .nothing (fun _ _ => rfl) fun _ absent => by
      simp [Metadata.Draft.settle, absent]) <|
    .cons (.spare Owner.settles.harmless.list (fun _ _ => rfl) fun _ absent => by
      simp [Metadata.Draft.settle, absent]) .nil
  apart := by
    intro f inF g inG _ _ _ _ read
    fin_cases inF <;> obtain ⟨b, -, rfl⟩ := read_of_field read <;> fin_cases inG <;> rfl
  finish _ := rfl

def MonitorSpec.parts : List Part := [
  .spare "sampleIntervalSeconds" readInt32 defaultInterval .nothing,
  .spare "logDirectory" readText "" .nothing]

def MonitorSpec.Draft.settle (d : MonitorSpec.Draft) : MonitorSpec.Draft :=
  { d with
    interval := some (d.interval.getD defaultInterval)
    logDirectory := some (d.logDirectory.getD "") }

theorem MonitorSpec.settles :
    MonitorSpec.record.Settles MonitorSpec.parts MonitorSpec.Draft.settle where
  slots :=
    .cons (.spare .nothing (fun _ _ => rfl) fun _ absent => by
      simp [MonitorSpec.Draft.settle, absent]) <|
    .cons (.spare .nothing (fun _ _ => rfl) fun _ absent => by
      simp [MonitorSpec.Draft.settle, absent]) .nil
  apart := by
    intro f inF g inG _ _ _ _ read
    fin_cases inF <;> obtain ⟨b, -, rfl⟩ := read_of_field read <;> fin_cases inG <;> rfl
  finish _ := rfl

def MonitorStatus.parts : List Part := [
  .spare "phase" Phase.read .unset .nothing,
  .spare "reason" readText "" .nothing]

def MonitorStatus.Draft.settle (d : MonitorStatus.Draft) : MonitorStatus.Draft :=
  { d with
    phase := some (d.phase.getD .unset)
    reason := some (d.reason.getD "") }

theorem MonitorStatus.settles :
    MonitorStatus.record.Settles MonitorStatus.parts MonitorStatus.Draft.settle where
  slots :=
    .cons (.spare .nothing (fun _ _ => rfl) fun _ absent => by
      simp [MonitorStatus.Draft.settle, absent]) <|
    .cons (.spare .nothing (fun _ _ => rfl) fun _ absent => by
      simp [MonitorStatus.Draft.settle, absent]) .nil
  apart := by
    intro f inF g inG _ _ _ _ read
    fin_cases inF <;> obtain ⟨b, -, rfl⟩ := read_of_field read <;> fin_cases inG <;> rfl
  finish _ := rfl

def Monitor.parts : List Part := [
  .needed "metadata" (.record Metadata.parts),
  .spare "spec" MonitorSpec.record.read {} (.record MonitorSpec.parts),
  .spare "status" MonitorStatus.record.read {} (.record MonitorStatus.parts)]

def Monitor.Draft.settle (d : Monitor.Draft) : Monitor.Draft :=
  { d with
    spec := some (d.spec.getD {})
    status := some (d.status.getD {}) }

theorem Monitor.settles :
    Monitor.record.Settles Monitor.parts Monitor.Draft.settle where
  slots :=
    .cons (.needed Metadata.settles.harmless fun _ _ => rfl) <|
    .cons (.spare MonitorSpec.settles.harmless (fun _ _ => rfl) fun _ absent => by
      simp [Monitor.Draft.settle, absent]) <|
    .cons (.spare MonitorStatus.settles.harmless (fun _ _ => rfl) fun _ absent => by
      simp [Monitor.Draft.settle, absent]) .nil
  apart := by
    intro f inF g inG _ _ _ _ read
    fin_cases inF <;> obtain ⟨b, -, rfl⟩ := read_of_field read <;> fin_cases inG <;> rfl
  finish _ := rfl

def Container.parts : List Part := [
  .needed "name" .nothing,
  .needed "image" .nothing,
  .spare "env" (readList Variable.record.read) [] .nothing,
  .spare "volumeMounts" (readList VolumeMount.record.read) [] .nothing]

def Container.Draft.settle (d : Container.Draft) : Container.Draft :=
  { d with
    env := some (d.env.getD [])
    mounts := some (d.mounts.getD []) }

theorem Container.settles :
    Container.record.Settles Container.parts Container.Draft.settle where
  slots :=
    .cons (.needed .nothing fun _ _ => rfl) <|
    .cons (.needed .nothing fun _ _ => rfl) <|
    .cons (.spare .nothing (fun _ _ => rfl) fun _ absent => by
      simp [Container.Draft.settle, absent]) <|
    .cons (.spare .nothing (fun _ _ => rfl) fun _ absent => by
      simp [Container.Draft.settle, absent]) .nil
  apart := by
    intro f inF g inG _ _ _ _ read
    fin_cases inF <;> obtain ⟨b, -, rfl⟩ := read_of_field read <;> fin_cases inG <;> rfl
  finish _ := rfl

def PodSpec.parts : List Part := [
  .spare "containers" (readList Container.record.read) [] (.list (.record Container.parts)),
  .spare "volumes" (readList Volume.record.read) [] .nothing,
  .spare "restartPolicy" RestartPolicy.read .always .nothing,
  .spare "serviceAccountName" readText "" .nothing]

def PodSpec.Draft.settle (d : PodSpec.Draft) : PodSpec.Draft :=
  { d with
    containers := some (d.containers.getD [])
    volumes := some (d.volumes.getD [])
    restartPolicy := some (d.restartPolicy.getD .always)
    serviceAccount := some (d.serviceAccount.getD "") }

theorem PodSpec.settles :
    PodSpec.record.Settles PodSpec.parts PodSpec.Draft.settle where
  slots :=
    .cons (.spare Container.settles.harmless.list (fun _ _ => rfl) fun _ absent => by
      simp [PodSpec.Draft.settle, absent]) <|
    .cons (.spare .nothing (fun _ _ => rfl) fun _ absent => by
      simp [PodSpec.Draft.settle, absent]) <|
    .cons (.spare .nothing (fun _ _ => rfl) fun _ absent => by
      simp [PodSpec.Draft.settle, absent]) <|
    .cons (.spare .nothing (fun _ _ => rfl) fun _ absent => by
      simp [PodSpec.Draft.settle, absent]) .nil
  apart := by
    intro f inF g inG _ _ _ _ read
    fin_cases inF <;> obtain ⟨b, -, rfl⟩ := read_of_field read <;> fin_cases inG <;> rfl
  finish _ := rfl

def PodStatus.parts : List Part := [
  .spare "phase" PodPhase.read .pending .nothing,
  .spare "reason" readText "" .nothing,
  .spare "message" readText "" .nothing]

def PodStatus.Draft.settle (d : PodStatus.Draft) : PodStatus.Draft :=
  { d with
    phase := some (d.phase.getD .pending)
    reason := some (d.reason.getD "")
    message := some (d.message.getD "") }

theorem PodStatus.settles :
    PodStatus.record.Settles PodStatus.parts PodStatus.Draft.settle where
  slots :=
    .cons (.spare .nothing (fun _ _ => rfl) fun _ absent => by
      simp [PodStatus.Draft.settle, absent]) <|
    .cons (.spare .nothing (fun _ _ => rfl) fun _ absent => by
      simp [PodStatus.Draft.settle, absent]) <|
    .cons (.spare .nothing (fun _ _ => rfl) fun _ absent => by
      simp [PodStatus.Draft.settle, absent]) .nil
  apart := by
    intro f inF g inG _ _ _ _ read
    fin_cases inF <;> obtain ⟨b, -, rfl⟩ := read_of_field read <;> fin_cases inG <;> rfl
  finish _ := rfl

def Pod.parts : List Part := [
  .needed "metadata" (.record Metadata.parts),
  .spare "spec" PodSpec.record.read {} (.record PodSpec.parts),
  .spare "status" PodStatus.record.read {} (.record PodStatus.parts)]

def Pod.Draft.settle (d : Pod.Draft) : Pod.Draft :=
  { d with
    spec := some (d.spec.getD {})
    status := some (d.status.getD {}) }

theorem Pod.settles :
    Pod.record.Settles Pod.parts Pod.Draft.settle where
  slots :=
    .cons (.needed Metadata.settles.harmless fun _ _ => rfl) <|
    .cons (.spare PodSpec.settles.harmless (fun _ _ => rfl) fun _ absent => by
      simp [Pod.Draft.settle, absent]) <|
    .cons (.spare PodStatus.settles.harmless (fun _ _ => rfl) fun _ absent => by
      simp [Pod.Draft.settle, absent]) .nil
  apart := by
    intro f inF g inG _ _ _ _ read
    fin_cases inF <;> obtain ⟨b, -, rfl⟩ := read_of_field read <;> fin_cases inG <;> rfl
  finish _ := rfl

def Manifest.parts : List Part := [
  .spare "monitors" (readList Monitor.record.read) [] (.list (.record Monitor.parts)),
  .spare "pods" (readList Pod.record.read) [] (.list (.record Pod.parts))]

def Manifest.Draft.settle (d : Manifest.Draft) : Manifest.Draft :=
  { d with
    monitors := some (d.monitors.getD [])
    pods := some (d.pods.getD []) }

theorem Manifest.settles :
    Manifest.record.Settles Manifest.parts Manifest.Draft.settle where
  slots :=
    .cons (.spare Monitor.settles.harmless.list (fun _ _ => rfl) fun _ absent => by
      simp [Manifest.Draft.settle, absent]) <|
    .cons (.spare Pod.settles.harmless.list (fun _ _ => rfl) fun _ absent => by
      simp [Manifest.Draft.settle, absent]) .nil
  apart := by
    intro f inF g inG _ _ _ _ read
    fin_cases inF <;> obtain ⟨b, -, rfl⟩ := read_of_field read <;> fin_cases inG <;> rfl
  finish _ := rfl

namespace Object

def parts : Object → List Part
  | .monitor _ => Monitor.parts
  | .pod _ => Pod.parts

/-- What may go of an object. The kind stays, and what stands beside it is read as a kept value. -/
inductive Thin (parts : List Part) : Outline → Outline → Prop where
  | same (o : Outline) : Thin parts o o
  | object {members members' : Members} (thin : ThinMembers parts .kept members members') :
    Thin parts (.object members) (.object members')
  | array {kind : Outline} {rest rest' : Items} (thin : ThinInOrder .kept parts rest rest') :
    Thin parts (.array (.item kind rest)) (.array (.item kind rest'))

variable {source : Source} {kept : List (String × Json)} {tag : Option Bool} {value : Outline}
  {name : String} {rest : Members} {split : Bool × List (String × Json)} {parts : List Part}

theorem split_kind : splitMembers source kept tag (.member (.text tagName) value rest) = .ok split
    ↔ tag = none ∧ ∃ isMonitor, readTag kinds source value = .ok isMonitor
      ∧ splitMembers source kept (some isMonitor) rest = .ok split := by
  simp only [splitMembers, if_true]
  cases tag with
  | some _ => simp
  | none => cases readTag kinds source value <;> simp [bind, Except.bind]

theorem split_beside (beside : name ≠ tagName) :
    splitMembers source kept tag (.member (.text name) value rest) = .ok split
    ↔ ∃ j, value.keep (depthLimit - 1) = .ok j
      ∧ splitMembers source ((name, j) :: kept) tag rest = .ok split := by
  simp only [splitMembers, if_neg beside]
  cases value.keep (depthLimit - 1) <;> simp

theorem split_any {members : Members} {isMonitor : Bool} {all : List (String × Json)}
    (given : splitMembers source kept tag members = .ok (isMonitor, all)) :
    ∃ later, all = kept.reverse ++ later ∧ ∀ kept',
      splitMembers source kept' tag members = .ok (isMonitor, kept'.reverse ++ later) := by
  fun_induction splitMembers source kept tag members with
  | case2 kept tag =>
    cases given
    exact ⟨[], by simp, fun kept' => by simp [splitMembers]⟩
  | case7 kept tag value rest once ih =>
    obtain ⟨isMonitor, kind, given⟩ := eq_ok_of_bind given
    obtain ⟨later, rfl, others⟩ := ih isMonitor given
    exact ⟨later, rfl, fun kept' =>
      split_kind.mpr ⟨by simpa using once, isMonitor, kind, others kept'⟩⟩
  | case9 kept tag name value rest beside j first ih =>
    obtain ⟨later, rfl, others⟩ := ih given
    refine ⟨(name, j) :: later, by simp, fun kept' => ?_⟩
    simpa using (split_beside beside).mpr ⟨j, first, others ((name, j) :: kept')⟩
  | _ => cases given

theorem split_thin (free : parts.find? (·.name == tagName) = none)
    (keepable : ∀ p ∈ parts, p.inside.Keepable) {members members' : Members}
    (thin : ThinMembers parts .kept members members') {isMonitor : Bool}
    {all : List (String × Json)}
    (given : splitMembers source kept tag members = .ok (isMonitor, all)) :
    ∃ later, all = kept.reverse ++ later ∧ ∀ kept', ∃ later',
      splitMembers source kept' tag members' = .ok (isMonitor, kept'.reverse ++ later')
      ∧ ThinMembers parts .kept (membersOutline later) (membersOutline later') := by
  have apart {p : Part} {name : String} (named : parts.find? (·.name == name) = some p) :
      name ≠ tagName := by
    rintro rfl
    rw [free] at named
    cases named
  induction thin generalizing kept tag with
  | same members =>
    obtain ⟨later, rfl, others⟩ := split_any given
    exact ⟨later, rfl, fun kept' => ⟨later, others kept', .same _⟩⟩
  | @stays name value rest rest' _ ih =>
    cases name with
    | broken => cases given
    | text name =>
      by_cases kind : name = tagName
      · subst kind
        obtain ⟨once, tag, read, given⟩ := split_kind.mp given
        obtain ⟨later, rfl, others⟩ := ih given
        refine ⟨later, rfl, fun kept' => ?_⟩
        obtain ⟨later', given', thin⟩ := others kept'
        exact ⟨later', split_kind.mpr ⟨once, tag, read, given'⟩, thin⟩
      · obtain ⟨j, first, given⟩ := (split_beside kind).mp given
        obtain ⟨later, rfl, others⟩ := ih given
        refine ⟨(name, j) :: later, by simp, fun kept' => ?_⟩
        obtain ⟨later', given', thin⟩ := others ((name, j) :: kept')
        exact ⟨(name, j) :: later', by simpa using (split_beside kind).mpr ⟨j, first, given'⟩,
          .stays thin⟩
  | @thinned p name value value' rest rest' named head _ ih =>
    obtain ⟨j, first, given⟩ := (split_beside (apart named)).mp given
    obtain ⟨j', first'⟩ := keepable p (List.mem_of_find?_eq_some named) head first
    obtain ⟨later, rfl, others⟩ := ih given
    refine ⟨(name, j) :: later, by simp, fun kept' => ?_⟩
    obtain ⟨later', given', thin⟩ := others ((name, j') :: kept')
    refine ⟨(name, j') :: later',
      by simpa using (split_beside (apart named)).mpr ⟨j', first', given'⟩, ?_⟩
    rw [← toOutline_keep first, ← toOutline_keep first'] at head
    exact .thinned named head thin
  | @omitted p name value rest rest' named idle _ ih =>
    obtain ⟨j, first, given⟩ := (split_beside (apart named)).mp given
    obtain ⟨later, rfl, others⟩ := ih given
    refine ⟨(name, j) :: later, by simp, fun kept' => ?_⟩
    obtain ⟨later', given', thin⟩ := others kept'
    rw [← toOutline_keep first] at idle
    exact ⟨later', given', .omitted named idle thin⟩

theorem items_thin (keepable : ∀ p ∈ parts, p.inside.Keepable) {kind : Outline}
    {rest rest' : Items} (thin : ThinInOrder .kept parts rest rest') {isMonitor : Bool}
    {js : List Json} (given : splitItems source (.item kind rest) = .ok (isMonitor, js)) :
    ∃ js', splitItems source (.item kind rest') = .ok (isMonitor, js')
      ∧ ThinInOrder .kept parts (itemsOutline js) (itemsOutline js') := by
  obtain ⟨tag, read, given⟩ := eq_ok_of_bind given
  cases all : rest.keep (depthLimit - 1) with
  | error cause =>
    rw [all] at given
    cases given
  | ok items =>
    rw [all] at given
    cases given
    obtain ⟨js', all'⟩ := thin.keep keepable all
    refine ⟨js', ?_, ?_⟩
    · simp only [splitItems, read, all']
      rfl
    · rwa [itemsOutline_keep all, itemsOutline_keep all']

theorem kept_thin {isMonitor : Bool} {content content' : Json} {a : Object}
    (thin : Thinning.record a.parts .kept (toOutline content) (toOutline content'))
    (given : ofKept isMonitor content = .ok a) : ofKept isMonitor content' = .ok a := by
  cases isMonitor with
  | true =>
    obtain ⟨m, monitor, rfl⟩ := eq_ok_of_map given
    simp [ofKept, Monitor.settles.harmless.alike thin monitor, Except.map]
  | false =>
    obtain ⟨p, pod, rfl⟩ := eq_ok_of_map given
    simp [ofKept, Pod.settles.harmless.alike thin pod, Except.map]

theorem parts_free (a : Object) : a.parts.find? (·.name == tagName) = none := by
  cases a <;> rfl

theorem parts_keepable (a : Object) : ∀ p ∈ a.parts, p.inside.Keepable := by
  cases a with
  | monitor => exact Monitor.settles.keepable
  | pod => exact Pod.settles.keepable

/-- Leaving out defaults beside the kind does not change what an object is read as. -/
theorem alike {a : Object} {o o' : Outline} (thin : Thin a.parts o o')
    (given : Object.read source o = .ok a) : Object.read source o' = .ok a := by
  cases thin with
  | same => exact given
  | object thin =>
    obtain ⟨⟨isMonitor, all⟩, split, given⟩ := eq_ok_of_bind given
    obtain ⟨later, rfl, others⟩ := split_thin a.parts_free a.parts_keepable thin split
    obtain ⟨later', split', thin'⟩ := others []
    simp only [Object.read, split']
    refine kept_thin ?_ given
    exact .object thin'
  | array thin =>
    obtain ⟨⟨isMonitor, js⟩, split, given⟩ := eq_ok_of_bind given
    obtain ⟨js', split', thin'⟩ := items_thin a.parts_keepable thin split
    simp only [Object.read, split']
    refine kept_thin ?_ given
    exact .array thin'

end Object

inductive MonitorSpec.Plain : Outline → Prop where
  | empty : Plain (.object .close)
  | written : Plain (.object (.member (.text "sampleIntervalSeconds") (.number (.integer 30))
      (.member (.text "logDirectory") (.string "") .close)))
  | backwards : Plain (.object (.member (.text "logDirectory") (.string "")
      (.member (.text "sampleIntervalSeconds") (.number (.integer 30)) .close)))

theorem MonitorSpec.Plain.read {source : Source} {o : Outline} (plain : MonitorSpec.Plain o) :
    MonitorSpec.record.read source o = .ok {} := by
  cases plain <;> rfl

theorem readTextWith_of_outline {α : Type} (read : Reader α) {text : String} {o : Outline}
    (whole : outline text = (o, true)) : readTextWith read text = read .text o := by
  simp only [readTextWith, whole]
  cases read .text o <;> rfl

/-- Documents with members left out that say what is the default of their field anyway, at any
depth, are read as the whole documents are. -/
theorem documents_read_alike {text shorter : String} {o o' : Outline}
    (long : outline text = (o, true)) (short : outline shorter = (o', true)) :
    (∀ m, Thinning.record Monitor.parts .text o o' →
      readTextWith Monitor.record.read text = .ok m →
      readTextWith Monitor.record.read shorter = .ok m)
    ∧ (∀ p, Thinning.record Pod.parts .text o o' →
      readTextWith Pod.record.read text = .ok p → readTextWith Pod.record.read shorter = .ok p)
    ∧ (∀ a : Object, Object.Thin a.parts o o' →
      readTextWith Object.read text = .ok a → readTextWith Object.read shorter = .ok a)
    ∧ (∀ m, Thinning.record Manifest.parts .text o o' →
      Manifest.parse text = .ok m → Manifest.parse shorter = .ok m)
    ∧ ∀ members members' spec, o = .object members' → o' = .object members →
      Inserted "spec" spec members members' → "spec" ∉ members.names → MonitorSpec.Plain spec →
      ∀ m, readTextWith Monitor.record.read text = .ok m
        ↔ readTextWith Monitor.record.read shorter = .ok m := by
  simp only [Manifest.parse, readTextWith_of_outline _ long, readTextWith_of_outline _ short]
  refine ⟨fun m thin => Monitor.settles.harmless.alike thin,
    fun p thin => Pod.settles.harmless.alike thin, fun a thin => Object.alike thin,
    fun m thin => Manifest.settles.harmless.alike thin, ?_⟩
  rintro members members' spec rfl rfl put absent plain m
  refine Monitor.settles.inserted_iff put absent rfl plain.read fun f inF => ?_
  fin_cases inF <;> rfl

def Monitor.spelledOut : Json := .object [
  ("metadata", .object [("namespace", .string "a"), ("name", .string "x"), ("uid", .string ""),
    ("resourceVersion", .ofNat 0), ("labels", .object []), ("ownerReferences", .array [])]),
  ("spec", .object [("sampleIntervalSeconds", .ofNat 30), ("logDirectory", .string "")]),
  ("status", .object [("phase", .string ""), ("reason", .string "")])]

def Monitor.terse : Json := .object [
  ("metadata", .object [("namespace", .string "a"), ("name", .string "x")])]

theorem Monitor.terse_fits : Fits 2 Monitor.terse := by
  refine .object fun m inside => ?_
  fin_cases inside
  refine .object fun m inside => ?_
  fin_cases inside <;> exact .string _

theorem Monitor.spelledOut_fits : Fits 3 Monitor.spelledOut := by
  refine .object fun m inside => ?_
  fin_cases inside <;> refine .object fun m inside => ?_ <;> fin_cases inside
  all_goals first
    | exact .string _
    | exact .integer ⟨by decide, by decide⟩
    | exact .object (List.forall_mem_nil _)
    | exact .array (List.forall_mem_nil _)

theorem documents_read_alike_of_terse :
    readTextWith Monitor.record.read Monitor.terse.render
      = .ok { metadata := { ns := "a", name := "x" } } := by
  refine (documents_read_alike (outline_render Monitor.spelledOut_fits)
    (outline_render Monitor.terse_fits)).1 _ ?_ ?_
  · refine .object (.thinned rfl ?_ (.omitted rfl rfl (.omitted rfl rfl (.same _))))
    exact .object (.stays (.stays (.omitted rfl rfl (.omitted rfl rfl (.omitted rfl rfl
      (.omitted rfl rfl (.same _)))))))
  · rw [readTextWith_of_outline _ (outline_render Monitor.spelledOut_fits)]
    rfl

end MonitorOperator
