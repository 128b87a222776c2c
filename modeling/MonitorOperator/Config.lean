import MonitorOperator.Child
import MonitorOperator.Config.Setting
import MonitorOperator.Pass
import MonitorOperator.Queue.Backoff
import MonitorOperator.Text.Integer

/-!
The configuration of the operator. Every field has a default and may be set by an environment
variable, whose name is the name of the field behind a common beginning.
-/

namespace MonitorOperator

structure Config where
  workers : UInt64 := 2
  apiPort : UInt16 := 8080
  backoffBaseMillis : UInt64 := 5
  backoffMaxSeconds : UInt64 := 300
  failedSeconds : UInt64 := 5
  resyncSeconds : UInt64 := 30
  unrecognizedSeconds : UInt64 := 10
  image : String := ({} : Child.Template).image
  hostLogPath : String := ({} : Child.Template).hostLogPath
  serviceAccount : String := ({} : Child.Template).serviceAccount
  dedupSeconds : UInt64 := 900
  manifestPath : Option String := none
deriving DecidableEq, Repr

namespace Config

structure Fault where
  field : String
deriving DecidableEq, Repr

def Fault.message (_ : Fault) : String := "Invalid PODMONITOR_* configuration"

abbrev Environment := List (String × String)

def commonStart : List Char := "podmonitor_".toList

/-- The variable of a name. The case of letters does not matter; of several the last one counts. -/
def value? (env : Environment) (name : List Char) : Option String :=
  (env.reverse.find? (fun v => Setting.lowered v.1 = name)).map (·.2)

def isNameChar (c : Char) : Bool := c.isAlphanum || c = ' ' || c = '_' || c = '-'

inductive PartPath where
  | afterNumber
  | nameStart
  | inName
  | inNumber (read : List Char)
deriving DecidableEq, Repr

def isPartNumber (cs : List Char) : Bool :=
  let isGap (c : Char) : Bool := c = ' ' || c = '\t'
  let number := ((cs.dropWhile isGap).reverse.dropWhile isGap).reverse
  number.head? ≠ some '+' &&
    (Text.integer? Int64.minValue.toInt Int64.maxValue.toInt number).isSome

def PartPath.begin? (c : Char) : Option PartPath :=
  if c = '.' then some .nameStart else if c = '[' then some (.inNumber []) else none

def PartPath.next? (p : PartPath) (c : Char) : Option PartPath :=
  match p with
  | .afterNumber => begin? c
  | .nameStart => if isNameChar c then some .inName else none
  | .inName => if isNameChar c then some .inName else begin? c
  | .inNumber read =>
    if c ≠ ']' then some (.inNumber (c :: read))
    else if isPartNumber read.reverse then some .afterNumber
    else none

def isPartPath (cs : List Char) : Bool :=
  match cs.foldlM PartPath.next? .afterNumber with
  | some .afterNumber => true
  | some .inName => true
  | _ => false

/-- Whether a variable sets a part of a field. No field has parts. -/
def hasParts (env : Environment) (name : List Char) : Bool :=
  env.any (fun v =>
    let lowered := Setting.lowered v.1
    lowered ≠ name && name.isPrefixOf lowered && isPartPath (lowered.drop name.length))

def setting? (env : Environment) (field : String) : Except Fault (Option Setting) :=
  let name := commonStart ++ field.toList
  if hasParts env name then .error ⟨field⟩ else .ok ((value? env name).map Setting.ofText)

def number (env : Environment) (field : String) (default : UInt64) : Except Fault UInt64 := do
  match ← setting? env field with
  | none => return default
  | some s =>
    match s.number? with
    | some n => return n
    | none => throw ⟨field⟩

def port (env : Environment) (field : String) (default : UInt16) : Except Fault UInt16 := do
  let n ← number env field (UInt64.ofNat default.toNat)
  if n.toNat < UInt16.size then return UInt16.ofNat n.toNat else throw ⟨field⟩

def text? (env : Environment) (field : String) : Except Fault (Option String) := do
  return (← setting? env field).map Setting.written

def variableNames : List String :=
  ["WORKERS", "API_PORT", "BACKOFF_BASE_MS", "BACKOFF_MAX_SECS", "FAILED_REQUEUE_SECS",
    "RESYNC_SECS", "UNRECOGNIZED_REQUEUE_SECS", "MONITOR_IMAGE", "HOST_LOG_PATH",
    "SERVICE_ACCOUNT", "EVENT_DEDUP_SECS", "MANIFEST_PATH"].map ("PODMONITOR_" ++ ·)

def ofEnvironment (env : Environment) : Except Fault Config := do
  let c : Config := {}
  return {
    workers := ← number env "workers" c.workers
    apiPort := ← port env "api_port" c.apiPort
    backoffBaseMillis := ← number env "backoff_base_ms" c.backoffBaseMillis
    backoffMaxSeconds := ← number env "backoff_max_secs" c.backoffMaxSeconds
    failedSeconds := ← number env "failed_requeue_secs" c.failedSeconds
    resyncSeconds := ← number env "resync_secs" c.resyncSeconds
    unrecognizedSeconds := ← number env "unrecognized_requeue_secs" c.unrecognizedSeconds
    image := (← text? env "monitor_image").getD c.image
    hostLogPath := (← text? env "host_log_path").getD c.hostLogPath
    serviceAccount := (← text? env "service_account").getD c.serviceAccount
    dedupSeconds := ← number env "event_dedup_secs" c.dedupSeconds
    manifestPath := ← text? env "manifest_path" }

def backoff (c : Config) : Backoff.Bounds where
  base := .ofMillis c.backoffBaseMillis
  max := .ofSeconds c.backoffMaxSeconds

def window (c : Config) : Duration := .ofSeconds c.dedupSeconds

def delays (c : Config) : Pass.Delays where
  failed := .ofSeconds c.failedSeconds
  resync := .ofSeconds c.resyncSeconds
  unrecognized := .ofSeconds c.unrecognizedSeconds

def template (c : Config) : Child.Template :=
  { image := c.image, hostLogPath := c.hostLogPath, serviceAccount := c.serviceAccount }

end Config

end MonitorOperator
