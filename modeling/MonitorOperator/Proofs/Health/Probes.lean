import Mathlib.Data.List.Induction
import MonitorOperator.Api

/-!
What the probes answer, from the calls that were made and from nothing else. The map of components
is met in an order of its own at every reading, so an answer is stated for each order, a `Scan`; the
answers of the board itself are those of one of them (`Scan.own`).

Main statement: `Board.probes_follow_last_reports`.
-/

namespace MonitorOperator.Health

namespace Status

def severity : Status → Nat
  | .healthy => 0
  | .degraded => 1
  | .unhealthy => 2

theorem severity_injective {a b : Status} (same : a.severity = b.severity) : a = b := by
  cases a <;> cases b <;> first | rfl | exact nomatch same

@[simp] theorem severity_worse (a b : Status) :
    (worse a b).severity = max a.severity b.severity := by
  cases a <;> cases b <;> rfl

theorem worse_either (a b : Status) : worse a b = a ∨ worse a b = b := by
  cases a <;> cases b <;> simp [worse]

theorem isOperational_eq_false {a : Status} : a.isOperational = false ↔ a = .unhealthy := by
  cases a <;> simp [isOperational]

/-- `top` is the worst of the statuses that `held` tells: none is worse, and it is one of them, or
healthy. -/
structure IsWorst (held : Status → Prop) (top : Status) : Prop where
  bounds : ∀ a, held a → a.severity ≤ top.severity
  attained : top = .healthy ∨ held top

theorem IsWorst.unique {held : Status → Prop} {a b : Status} (ha : IsWorst held a)
    (hb : IsWorst held b) : a = b := by
  have le {a b : Status} (ha : IsWorst held a) (hb : IsWorst held b) :
      a.severity ≤ b.severity := by
    rcases ha.attained with rfl | inA
    · exact Nat.zero_le _
    · exact hb.bounds a inA
  exact severity_injective (Nat.le_antisymm (le ha hb) (le hb ha))

theorem IsWorst.unhealthy_iff {held : Status → Prop} {top : Status} (h : IsWorst held top) :
    top = .unhealthy ↔ held .unhealthy := by
  constructor
  · rintro rfl
    exact h.attained.resolve_left (by decide)
  · intro some
    have above := h.bounds _ some
    cases top <;> first | rfl | exact absurd above (by decide)

theorem isWorst_foldl (states : List Status) (first : Status) :
    IsWorst (fun a => a = first ∨ a ∈ states) (states.foldl worse first) := by
  induction states generalizing first with
  | nil => exact ⟨by simp, .inr (.inl rfl)⟩
  | cons state rest ih =>
    obtain ⟨bounds, attained⟩ := ih (worse first state)
    have above := bounds _ (.inl rfl)
    rw [severity_worse] at above
    refine ⟨?_, ?_⟩
    · rintro a (rfl | member)
      · exact Nat.le_trans (Nat.le_max_left ..) above
      · rcases List.mem_cons.mp member with rfl | later
        · exact Nat.le_trans (Nat.le_max_right ..) above
        · exact bounds a (.inr later)
    · rcases attained with none | (first' | later)
      · exact .inl none
      · rcases worse_either first state with same | same
        · exact .inr (.inl (first'.trans same))
        · exact .inr (.inr (List.mem_cons.mpr (.inl (first'.trans same))))
      · exact .inr (.inr (List.mem_cons_of_mem _ later))

theorem isWorst_worst (states : List Status) : IsWorst (· ∈ states) (worst states) := by
  obtain ⟨bounds, attained⟩ := isWorst_foldl states .healthy
  refine ⟨fun a member => bounds a (.inr member), ?_⟩
  rcases attained with none | (none | member)
  · exact .inl none
  · exact .inl none
  · exact .inr member

end Status

/-- A call of the registry, or a move of the clock that dates the reports. -/
inductive Call where
  | register (name : String)
  | setHealthy (name : String)
  | setDegraded (name message : String)
  | setUnhealthy (name message : String)
  | setSynced (synced : Bool)
  | tick (time : Int64)

namespace Call

def report? : Call → Option (String × Report)
  | .register name | .setHealthy name => some (name, ⟨.healthy, none⟩)
  | .setDegraded name message => some (name, ⟨.degraded, some message⟩)
  | .setUnhealthy name message => some (name, ⟨.unhealthy, some message⟩)
  | .setSynced _ | .tick _ => none

def reportOf? (name : String) (c : Call) : Option Report :=
  (c.report?.filter (·.1 = name)).map (·.2)

def synced? : Call → Option Bool
  | .setSynced synced => some synced
  | _ => none

def lastReport? (calls : List Call) (name : String) : Option Report :=
  calls.reverse.findSome? (reportOf? name)

def lastSynced (calls : List Call) : Bool := (calls.reverse.findSome? synced?).getD false

/-- The last report of the component has this status. -/
def LastSaid (calls : List Call) (name : String) (status : Status) : Prop :=
  ∃ message, lastReport? calls name = some ⟨status, message⟩

end Call

namespace Board

variable {b : Board}

def call (b : Board) : Call → Board
  | .register name => b.register name
  | .setHealthy name => b.setHealthy name
  | .setDegraded name message => b.setDegraded name message
  | .setUnhealthy name message => b.setUnhealthy name message
  | .setSynced synced => b.setSynced synced
  | .tick time => b.tick time

def report? (b : Board) (name : String) : Option Report := (b.reports.get? name).map (·.toReport)

def after (calls : List Call) : Board := calls.foldl call {}

theorem after_append (calls : List Call) (c : Call) : after (calls ++ [c]) = (after calls).call c :=
  List.foldl_append

theorem report?_call (b : Board) (c : Call) (name : String) :
    (b.call c).report? name = (c.reportOf? name).or (b.report? name) := by
  have reported (other : String) (r : Report) :
      (b.report other r).report? name
        = (((some (other, r)).filter (·.1 = name)).map (·.2)).or (b.report? name) := by
    simp only [report?, report, Table.get?_insert]
    by_cases same : other = name
    · simp [same, Option.filter]
    · simp [same, Ne.symm same, Option.filter]
  cases c with
  | register other => exact reported other _
  | setHealthy other => exact reported other _
  | setDegraded other message => exact reported other _
  | setUnhealthy other message => exact reported other _
  | setSynced synced => rfl
  | tick time => rfl

theorem synced_call (b : Board) (c : Call) : (b.call c).synced = c.synced?.getD b.synced := by
  cases c <;> rfl

theorem report?_after (calls : List Call) (name : String) :
    (after calls).report? name = Call.lastReport? calls name := by
  induction calls using List.reverseRecOn with
  | nil => rfl
  | append_singleton calls c ih =>
    rw [after_append, report?_call, ih, Call.lastReport?, Call.lastReport?, List.reverse_concat,
      List.findSome?_cons]
    cases c.reportOf? name <;> rfl

theorem synced_after (calls : List Call) : (after calls).synced = Call.lastSynced calls := by
  induction calls using List.reverseRecOn with
  | nil => rfl
  | append_singleton calls c ih =>
    rw [after_append, synced_call, ih, Call.lastSynced, Call.lastSynced, List.reverse_concat,
      List.findSome?_cons]
    cases c.synced? <;> rfl

/-- An order in which a reading meets the components of the board. -/
structure Scan (b : Board) where
  entries : List (String × DatedReport)
  perm : entries.Perm b.reports.entries

namespace Scan

def own (b : Board) : Scan b := ⟨b.reports.entries, .refl _⟩

variable (scan : b.Scan)

def overall : Status := Status.worst (scan.entries.map (·.2.status))

def failing : List String :=
  (scan.entries.filter (fun e => !e.2.status.isOperational)).map (·.1)

def readiness : Readiness :=
  if !b.synced then ⟨false, some "Watch cache not yet synced"⟩
  else if scan.overall.isOperational then ⟨true, none⟩
  else ⟨false, some (failingText ++ ", ".intercalate scan.failing)⟩

def toJson : Json :=
  .object [("status", scan.overall.toJson),
    ("components", .object (scan.entries.map (fun e => (e.1, e.2.toJson))))]

def content (metrics : Metrics) : Api.Resource → Api.Response
  | .health =>
    ⟨Api.statusOf scan.overall.isOperational, some "application/json", .json scan.toJson⟩
  | .readiness =>
    ⟨Api.statusOf scan.readiness.ready, some "application/json", .json scan.readiness.toJson⟩
  | .metrics => Api.content b metrics .metrics

def answer (metrics : Metrics) (uri : String) : Api.Response :=
  match Api.Resource.ofPath? (Api.pathOf uri) with
  | none => { status := 404 }
  | some resource => scan.content metrics resource

theorem overall_own (b : Board) : (own b).overall = b.overall := by
  simp only [overall, own, Board.overall, Table.values, List.map_map, Function.comp_def]

theorem readiness_own (b : Board) : (own b).readiness = b.readiness := by
  simp only [readiness, Board.readiness, overall_own]
  rfl

theorem answer_own (b : Board) (metrics : Metrics) (uri : String) :
    (own b).answer metrics uri = Api.respond b metrics "GET" uri := by
  have same (r : Api.Resource) : (own b).content metrics r = Api.content b metrics r := by
    cases r with
    | health => simp only [content, Api.content, overall_own, toJson, Board.toJson]; rfl
    | readiness => simp only [content, Api.content, readiness_own]
    | metrics => rfl
  simp only [answer, same]
  rfl

theorem mem_entries {name : String} {r : DatedReport} :
    (name, r) ∈ scan.entries ↔ b.reports.get? name = some r := by
  rw [scan.perm.mem_iff, Table.mem_entries_iff]

theorem nodup_names : (scan.entries.map (·.1)).Nodup :=
  (scan.perm.map _).nodup_iff.mpr b.reports.nodup_keys

theorem isWorst_overall :
    Status.IsWorst (fun s => ∃ name r, b.reports.get? name = some r ∧ r.status = s)
      scan.overall := by
  have told (s : Status) : s ∈ scan.entries.map (·.2.status)
      ↔ ∃ name r, b.reports.get? name = some r ∧ r.status = s := by
    simp only [List.mem_map, Prod.exists, scan.mem_entries]
  simpa only [overall, told] using Status.isWorst_worst (scan.entries.map (·.2.status))

theorem nodup_failing : scan.failing.Nodup :=
  scan.nodup_names.sublist (List.filter_sublist.map _)

theorem mem_failing {name : String} :
    name ∈ scan.failing ↔ ∃ r, b.reports.get? name = some r ∧ r.status = .unhealthy := by
  simp only [failing, List.mem_map, List.mem_filter, Prod.exists, exists_and_right,
    exists_eq_right, Bool.not_eq_true', Status.isOperational_eq_false, scan.mem_entries]

theorem ready_iff :
    scan.readiness.ready = true ↔ b.synced = true ∧ scan.overall ≠ .unhealthy := by
  cases synced : b.synced <;> cases top : scan.overall <;> simp [readiness, synced, top,
    Status.isOperational]

theorem readiness_of_failing (synced : b.synced = true) (top : scan.overall = .unhealthy) :
    scan.readiness = ⟨false, some (failingText ++ ", ".intercalate scan.failing)⟩ := by
  simp [readiness, synced, top, Status.isOperational]

theorem answer_health (metrics : Metrics) :
    (scan.answer metrics "/healthz").status = Api.statusOf scan.overall.isOperational := by
  rw [answer, show Api.Resource.ofPath? (Api.pathOf "/healthz") = some .health by decide]
  rfl

theorem answer_readiness (metrics : Metrics) :
    scan.answer metrics "/readyz" = ⟨Api.statusOf scan.readiness.ready, some "application/json",
      .json scan.readiness.toJson⟩ := by
  rw [answer, show Api.Resource.ofPath? (Api.pathOf "/readyz") = some .readiness by decide]
  rfl

end Scan

theorem statusOf_eq_200 {available : Bool} : Api.statusOf available = 200 ↔ available = true := by
  cases available <;> decide

theorem statusOf_eq_503 {available : Bool} : Api.statusOf available = 503 ↔ available = false := by
  cases available <;> decide

theorem lastSaid_iff {calls : List Call} {name : String} {status : Status} :
    Call.LastSaid calls name status
      ↔ ∃ r, (after calls).reports.get? name = some r ∧ r.status = status := by
  simp only [Call.LastSaid, ← report?_after, report?, Option.map_eq_some_iff]
  constructor
  · rintro ⟨message, r, there, same⟩
    exact ⟨r, there, congrArg Report.status same⟩
  · rintro ⟨r, there, rfl⟩
    exact ⟨r.message, r, there, rfl⟩

/-- The answers of the probes after any calls, in whatever order a reading meets the components. -/
theorem probes_follow_last_reports (calls : List Call) (metrics : Metrics)
    (scan other : (after calls).Scan) :
    Status.IsWorst (fun status => ∃ name, Call.LastSaid calls name status) scan.overall
    ∧ scan.overall = (after calls).overall
    ∧ ((scan.answer metrics "/healthz").status = 503
        ↔ ∃ name, Call.LastSaid calls name .unhealthy)
    ∧ ((scan.answer metrics "/readyz").status = 200
        ↔ Call.lastSynced calls = true ∧ ∀ name, ¬ Call.LastSaid calls name .unhealthy)
    ∧ ((scan.answer metrics "/readyz").status = 200
        → (other.answer metrics "/healthz").status = 200)
    ∧ (Call.lastSynced calls = true → (scan.answer metrics "/readyz").status ≠ 200 →
        ∃ names : List String, names.Nodup
          ∧ (∀ name, name ∈ names ↔ Call.LastSaid calls name .unhealthy)
          ∧ (scan.answer metrics "/readyz").body = .json
              (Readiness.toJson ⟨false, some (failingText ++ ", ".intercalate names)⟩))
    ∧ ∀ uri, Api.respond (after calls) metrics "GET" uri
        = (Scan.own (after calls)).answer metrics uri := by
  have worst (s : (after calls).Scan) :
      Status.IsWorst (fun status => ∃ name, Call.LastSaid calls name status) s.overall := by
    simpa only [lastSaid_iff] using s.isWorst_overall
  have ready : (scan.answer metrics "/readyz").status = 200
      ↔ Call.lastSynced calls = true ∧ scan.overall ≠ .unhealthy := by
    rw [scan.answer_readiness, statusOf_eq_200, scan.ready_iff, synced_after]
  refine ⟨worst scan, ?_, ?_, ?_, ?_, ?_, ?_⟩
  · rw [← Scan.overall_own]
    exact (worst scan).unique (worst (.own _))
  · rw [scan.answer_health, statusOf_eq_503, Status.isOperational_eq_false,
      (worst scan).unhealthy_iff]
  · rw [ready, ne_eq, (worst scan).unhealthy_iff, not_exists]
  · intro answered
    have well := (ready.mp answered).2
    rw [(worst scan).unique (worst other)] at well
    rw [other.answer_health, statusOf_eq_200, ← Bool.not_eq_false,
      Status.isOperational_eq_false]
    exact well
  · intro synced refused
    have top : scan.overall = .unhealthy := by
      by_contra well
      exact refused (ready.mpr ⟨synced, well⟩)
    refine ⟨scan.failing, scan.nodup_failing, fun name => ?_, ?_⟩
    · rw [scan.mem_failing, lastSaid_iff]
    · rw [scan.answer_readiness, scan.readiness_of_failing ((synced_after calls).trans synced) top]
  · exact fun uri => (Scan.answer_own _ metrics uri).symm

example : (after [.setUnhealthy "store" "full", .register "queue", .setSynced true]).readiness
    = ⟨false, some "Unhealthy components: store"⟩ := by decide

end Board

end MonitorOperator.Health
