import MonitorOperator.Cluster.Metadata

/-!
Monitored resources: the phase they are in, what they declare and what was observed.
-/

namespace MonitorOperator

/-- The phase of a monitor. A phase of a newer schema keeps its text. -/
inductive Phase where
  | unset
  | pending
  | running
  | completed
  | failed
  | unrecognized (raw : String)
deriving DecidableEq, Repr, Inhabited

namespace Phase

def text : Phase → String
  | .unset => ""
  | .pending => "Pending"
  | .running => "Running"
  | .completed => "Completed"
  | .failed => "Failed"
  | .unrecognized raw => raw

def ofText (raw : String) : Phase :=
  if raw = "" then .unset
  else if raw = "Pending" then .pending
  else if raw = "Running" then .running
  else if raw = "Completed" then .completed
  else if raw = "Failed" then .failed
  else .unrecognized raw

def label : Phase → String
  | .unset => "None"
  | phase => phase.text

/-- Phases that some text denotes: the unrecognized text is none of the known ones. -/
def Canonical (phase : Phase) : Prop := ofText phase.text = phase

instance (phase : Phase) : Decidable phase.Canonical := inferInstanceAs (Decidable (_ = _))

theorem canonical_ofText (raw : String) : (ofText raw).Canonical := by
  by_cases h : raw = "" ∨ raw = "Pending" ∨ raw = "Running" ∨ raw = "Completed" ∨ raw = "Failed"
  · rcases h with rfl | rfl | rfl | rfl | rfl <;> decide
  · have unknown : ofText raw = .unrecognized raw := by
      simp only [not_or] at h
      simp only [ofText, h, if_false]
    rw [Canonical, unknown]
    exact unknown

end Phase

def defaultInterval : Int32 := 30

structure MonitorSpec where
  interval : Int32 := defaultInterval
  logDirectory : String := ""
deriving DecidableEq

/-- The interval handed to the child; one that is not positive gives way to the default. -/
def MonitorSpec.effectiveInterval (s : MonitorSpec) : Int32 :=
  if 0 < s.interval then s.interval else defaultInterval

structure MonitorStatus where
  phase : Phase := .unset
  reason : String := ""
deriving DecidableEq

namespace MonitorStatus

def plain (phase : Phase) : MonitorStatus := { phase := phase }

def failure (reason : String) : MonitorStatus := { phase := .failed, reason := reason }

def changed (observed desired : MonitorStatus) : Bool :=
  observed.phase ≠ desired.phase || observed.reason ≠ desired.reason

end MonitorStatus

structure Monitor where
  metadata : Metadata
  spec : MonitorSpec := {}
  status : MonitorStatus := {}
deriving DecidableEq

namespace Monitor

def key (m : Monitor) : Key := m.metadata.key

def ownerRef (m : Monitor) : Owner where
  apiVersion := apiVersion
  kind := monitorKind
  name := m.metadata.name
  uid := m.metadata.uid
  controller := true
  blockOwnerDeletion := true

/-- Whether metadata names this monitor as the manager: same namespace, and the managing owner has
its kind, its name and its uid or none. -/
def controls (m : Monitor) (other : Metadata) : Bool :=
  other.ns == m.metadata.ns &&
    match other.controller? with
    | none => false
    | some owner =>
      owner.kind == monitorKind && owner.name == m.metadata.name &&
        (owner.uid == "" || owner.uid == m.metadata.uid)

end Monitor

end MonitorOperator
