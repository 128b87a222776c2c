import MonitorOperator.Proofs.Event.Deduplication

/-! What keeps an event from the sink. Events are the same if they are about the same monitor, uid
included, and agree in type, reason and message. The recorder looks at less than that, and it does
not know what the sink has made of an event. Main statement: an event is withheld only if one of the
same text was handed to the sink for the same namespace and name within the window, whether the sink
took it or not; once the window is over, the next one is handed on. -/

namespace MonitorOperator

namespace Event

/-- The same reason and message, for a monitor of the same namespace and name. -/
def Echoes (e f : Event) : Prop :=
  e.involved.ns = f.involved.ns ∧ e.involved.name = f.involved.name ∧ e.reason = f.reason ∧
    e.message = f.message

/-- The same event for the same monitor, its own name and its time aside. -/
def Repeats (e f : Event) : Prop :=
  e.involved = f.involved ∧ e.type = f.type ∧ e.reason = f.reason ∧ e.message = f.message

theorem Repeats.echoes {e f : Event} (h : e.Repeats f) : e.Echoes f :=
  ⟨congrArg (·.ns) h.1, congrArg (·.name) h.1, h.2.2⟩

end Event

namespace Recorder

theorem mem_admitted_iff {r : Recorder} {past : List Submission} {y : Submission} :
    y ∈ r.admitted past ↔
      ∃ earlier later, past = earlier ++ y :: later ∧ r.passes earlier y = true := by
  constructor
  · intro member
    induction past generalizing r with
    | nil => contradiction
    | cons x rest ih =>
      have tail (inside : y ∈ (r.record x.now x.stamp x.report).1.admitted rest) :
          ∃ earlier later, x :: rest = earlier ++ y :: later ∧ r.passes earlier y = true := by
        obtain ⟨earlier, later, rfl, passed⟩ := ih inside
        exact ⟨x :: earlier, later, rfl, passed⟩
      simp only [admitted] at member
      split at member
      · rename_i passed
        rcases List.mem_cons.mp member with rfl | inside
        · exact ⟨[], rest, rfl, passed⟩
        · exact tail inside
      · exact tail member
  · rintro ⟨earlier, later, rfl, passed⟩
    have first : (r.after earlier).admitted (y :: later) = y :: _ := if_pos passed
    rw [admitted_append, first]
    exact List.mem_append_right _ (List.mem_cons_self ..)

theorem echoes_event_iff {r q : Recorder} {stamp stamp' : Stamp} {report report' : Report} :
    (r.event stamp report).Echoes (q.event stamp' report') ↔
      report.identity = report'.identity := by
  simp only [Event.Echoes, event, Report.identity, Identity.mk.injEq]

theorem repeats_event_iff {r q : Recorder} {stamp stamp' : Stamp} {report report' : Report} :
    (r.event stamp report).Repeats (q.event stamp' report') ↔
      report.identity = report'.identity ∧
        report.monitor.metadata.uid = report'.monitor.metadata.uid ∧
        report.type = report'.type := by
  simp only [Event.Repeats, event, Report.identity, Identity.mk.injEq, ObjectReference.mk.injEq]
  grind

end Recorder

namespace Deployment

variable {d : Deployment} {component : String} {window : Duration}
  {before : List (Recorder.Submission × Nat)} {x y : Recorder.Submission} {event : Event}

def eventOf (d : Deployment) (x : Recorder.Submission) : Event :=
  d.operator.recorder.event x.stamp x.report

def offer? (d : Deployment) (x : Recorder.Submission) : Option Event :=
  (d.operator.recorder.record x.now x.stamp x.report).2

def Handed (d : Deployment) (before : List (Recorder.Submission × Nat)) (y : Recorder.Submission)
    (event : Event) : Prop :=
  ∃ earlier failing later, before = earlier ++ (y, failing) :: later ∧
    (earlier.foldl submit d).offer? y = some event

theorem offer?_eq (d : Deployment) (x : Recorder.Submission) :
    d.offer? x = none ∨ d.offer? x = some (d.eventOf x) := by
  unfold offer?
  cases answer : d.operator.recorder.record x.now x.stamp x.report with
  | mk r event =>
    cases event with
    | none => exact .inl rfl
    | some event => exact .inr (congrArg some (Recorder.event_of_record answer))

theorem isSome_offer? (fresh : d.operator.recorder = .new component window)
    (before : List (Recorder.Submission × Nat)) (x : Recorder.Submission) :
    ((before.foldl submit d).offer? x).isSome =
      (Recorder.new component window).passes (before.map Prod.fst) x := by
  unfold offer?
  rw [submits_recorder, fresh]
  rfl

theorem handed_of_admitted (fresh : d.operator.recorder = .new component window)
    (passed : y ∈ (Recorder.new component window).admitted (before.map Prod.fst)) :
    ∃ r : Recorder, d.Handed before y (r.event y.stamp y.report) := by
  obtain ⟨_, _, whole, alone⟩ := Recorder.mem_admitted_iff.mp passed
  obtain ⟨earlier, rest, rfl, rfl, tail⟩ := List.map_eq_append_iff.mp whole
  obtain ⟨⟨y, failing⟩, later, rfl, rfl, rfl⟩ := List.map_eq_cons_iff.mp tail
  rw [← isSome_offer? fresh] at alone
  refine ⟨(earlier.foldl submit d).operator.recorder, earlier, failing, later, rfl, ?_⟩
  rcases offer?_eq (earlier.foldl submit d) y with none | some
  · rw [none] at alone
    contradiction
  · exact some

theorem admitted_of_handed (fresh : d.operator.recorder = .new component window)
    (handed : d.Handed before y event) :
    y ∈ (Recorder.new component window).admitted (before.map Prod.fst) ∧
      ∃ r : Recorder, event = r.event y.stamp y.report := by
  obtain ⟨earlier, failing, later, rfl, offered⟩ := handed
  constructor
  · refine Recorder.mem_admitted_iff.mpr ⟨earlier.map Prod.fst, later.map Prod.fst, by simp, ?_⟩
    rw [← isSome_offer? fresh, offered]
    rfl
  · rcases offer?_eq (earlier.foldl submit d) y with none | some
    · rw [none] at offered
      contradiction
    · exact ⟨_, Option.some.inj (offered.symm.trans some)⟩

theorem offer?_eq_none_iff (fresh : d.operator.recorder = .new component window)
    (ordered : (before.map Prod.fst ++ [x]).Pairwise (fun a b => a.now ≤ b.now)) :
    (before.foldl submit d).offer? x = none ↔ ∃ y event, d.Handed before y event ∧
      event.Echoes ((before.foldl submit d).eventOf x) ∧ x.now - y.now < window.nanos := by
  rw [← Option.not_isSome_iff_eq_none, isSome_offer? fresh, Recorder.passes_iff ordered]
  simp only [not_forall, Nat.not_le]
  constructor
  · rintro ⟨y, passed, same, young⟩
    obtain ⟨r, handed⟩ := handed_of_admitted fresh passed
    exact ⟨y, _, handed, Recorder.echoes_event_iff.mpr same, young⟩
  · rintro ⟨y, event, handed, echoes, young⟩
    obtain ⟨passed, r, rfl⟩ := admitted_of_handed fresh handed
    exact ⟨y, passed, Recorder.echoes_event_iff.mp echoes, young⟩

theorem submit_of_offered (failing : Nat) (offered : d.offer? x = some event) :
    let sink := { d.drill with failingPublishes := failing }
    let t := d.submit (x, failing)
    t.drill = (sink.publish event).1 ∧
      (failing = 0 → t.drill.store.events.getLast? = some event) := by
  intro sink t
  have pair : d.operator.recorder.record x.now x.stamp x.report = (_, some event) :=
    Prod.ext rfl offered
  have drill : t.drill = (sink.publish event).1 := (submit_of_passed failing pair).2.1
  refine ⟨drill, fun working => ?_⟩
  rw [drill, Drill.publish, if_pos working]
  exact List.getLast?_concat ..

/-- An event is handed to the sink or withheld. It is withheld only if an event of the same reason
and message was handed to the sink for the same namespace and name within the window, and as long as
none of the monitors is created anew and no text is used with two types, that one was the same in
uid and type as well. What was handed to the sink counts although the sink has lost it: the same
event is withheld until the window is over, and the next one is then handed to the sink and arrives
if the sink works. -/
theorem withheld_only_behind_echo (fresh : d.operator.recorder = .new component window)
    (before : List (Recorder.Submission × Nat)) (x : Recorder.Submission) (failing : Nat)
    (ordered : (before.map Prod.fst ++ [x]).Pairwise (fun a b => a.now ≤ b.now)) :
    let s := before.foldl submit d
    let monitor := x.report.monitor.metadata
    let event := s.eventOf x
    let sink := { s.drill with failingPublishes := failing }
    let t := s.submit (x, failing)
    (event.involved.ns = monitor.ns ∧ event.involved.name = monitor.name ∧
      event.involved.uid = (if monitor.uid = "" then none else some monitor.uid) ∧
      event.type = x.report.type ∧ event.reason = x.report.reason ∧
      event.message = x.report.message) ∧
    (s.offer? x = none ∨ s.offer? x = some event) ∧
    (s.offer? x = none →
      t.drill = sink ∧ t.journal = s.journal ∧
      ∃ y earlier, d.Handed before y earlier ∧ earlier.Echoes event ∧
        x.now - y.now < window.nanos ∧
        ((∀ z ∈ before.map Prod.fst, z.report.identity = x.report.identity →
            z.report.monitor.metadata.uid = monitor.uid ∧ z.report.type = x.report.type) →
          earlier.Repeats event)) ∧
    (s.offer? x = some event →
      t.drill = (sink.publish event).1 ∧
      (failing = 0 → t.drill.store.events.getLast? = some event)) ∧
    (∀ y earlier, d.Handed before y earlier → earlier.Repeats event →
      x.now - y.now < window.nanos → s.offer? x = none) ∧
    ((∀ y earlier, d.Handed before y earlier → earlier.Echoes event →
      window.nanos ≤ x.now - y.now) → s.offer? x = some event) := by
  intro s monitor event sink t
  have rule := offer?_eq_none_iff (d := d) fresh ordered
  refine ⟨⟨rfl, rfl, rfl, rfl, rfl, rfl⟩, s.offer?_eq x, fun withheld => ?_,
    submit_of_offered failing, ?_, fun expired => ?_⟩
  · have pair : s.operator.recorder.record x.now x.stamp x.report = (_, none) :=
      Prod.ext rfl withheld
    obtain ⟨-, drill, journal⟩ := submit_of_suppressed failing pair
    obtain ⟨y, earlier, handed, echoes, young⟩ := rule.mp withheld
    refine ⟨drill, journal, y, earlier, handed, echoes, young, fun agree => ?_⟩
    obtain ⟨passed, r, rfl⟩ := admitted_of_handed fresh handed
    have same := Recorder.echoes_event_iff.mp echoes
    exact Recorder.repeats_event_iff.mpr
      ⟨same, agree y (Recorder.admitted_subset _ _ passed) same⟩
  · intro y earlier handed repeats young
    exact rule.mpr ⟨y, earlier, handed, repeats.echoes, young⟩
  · refine (s.offer?_eq x).resolve_left fun withheld => ?_
    obtain ⟨y, earlier, handed, echoes, young⟩ := rule.mp withheld
    exact absurd young (Nat.not_lt.mpr (expired y earlier handed echoes))

/-- The sink loses an event. The same one is withheld while the window lasts, and arrives when it is
over. -/
theorem withheld_only_behind_echo_of_lost :
    let said (now : Nat) : Recorder.Submission :=
      ⟨now, ⟨"t", ""⟩,
        ⟨{ metadata := { ns := "a", name := "x", uid := "1" } }, .warning, "Late", "m"⟩⟩
    let d : Deployment := {
      drill := { store := .empty 10 }
      operator := .ofParts ({ window := ⟨10, by decide⟩ } : Operator.Parts Unit Unit)
      stamp := ⟨"t", ""⟩ }
    let s := d.submit (said 0, 1)
    let t := s.submit (said 5, 0)
    s.offer? (said 5) = none ∧
      (∃ y earlier, d.Handed [(said 0, 1)] y earlier ∧ earlier.Repeats (s.eventOf (said 5))) ∧
      t.drill.store.events = [] ∧
      (t.submit (said 10, 0)).drill.store.events.getLast? = some (t.eventOf (said 10)) := by
  intro said d s t
  have withheld : s.offer? (said 5) = none := rfl
  obtain ⟨-, -, early, -⟩ := withheld_only_behind_echo (d := d) rfl [(said 0, 1)] (said 5) 0
    (by simp [said])
  obtain ⟨-, -, y, earlier, handed, -, -, same⟩ := early withheld
  obtain ⟨-, -, -, late, -, handsOn⟩ := withheld_only_behind_echo (d := d) rfl
    [(said 0, 1), (said 5, 0)] (said 10) 0 (by simp [said])
  refine ⟨withheld, ⟨y, earlier, handed, same (by simp [said])⟩, rfl, (late (handsOn ?_)).2 rfl⟩
  intro y earlier handed _
  have only : y ∈ [said 0] := (admitted_of_handed (d := d) rfl handed).1
  rw [List.mem_singleton.mp only]
  decide

/-- An event is withheld although the sink has lost the one before it, although the one before it
was about an earlier monitor of the name, and although it is a warning and the one before it was
not. -/
theorem withheld_without_repeat :
    let said (uid : String) (type : EventType) : Recorder.Submission :=
      ⟨0, ⟨"t", ""⟩, ⟨{ metadata := { ns := "a", name := "x", uid := uid } }, type, "Late", "m"⟩⟩
    let d : Deployment := {
      drill := { store := .empty 10 }
      operator := .ofParts ({} : Operator.Parts Unit Unit)
      stamp := ⟨"t", ""⟩ }
    let lost := d.submit (said "1" .normal, 1)
    let taken := d.submit (said "1" .normal, 0)
    (lost.offer? (said "1" .normal) = none ∧ lost.drill.store.events = []) ∧
      (taken.offer? (said "2" .normal) = none ∧
        taken.drill.store.events.map (·.involved.uid) = [some "1"]) ∧
      taken.offer? (said "1" .warning) = none ∧
        taken.drill.store.events.map (·.type) = [.normal] :=
  ⟨⟨rfl, rfl⟩, ⟨rfl, rfl⟩, rfl, rfl⟩

end Deployment

end MonitorOperator
