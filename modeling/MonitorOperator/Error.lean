import MonitorOperator.Text.Quoted

/-!
What can go wrong: the answers of a store that are no success, and the failures of a pass.
-/

namespace MonitorOperator

/-- Why a store refuses a call. Kinds and keys are given as messages show them. -/
inductive StoreError where
  | notFound (kind key : String)
  | conflict (kind key : String) (observed current : UInt64)
  | alreadyExists (kind key : String)
  | unavailable (message : String)
deriving DecidableEq, Repr

namespace StoreError

def message : StoreError → String
  | .notFound kind key => kind ++ " " ++ key ++ " not found"
  | .conflict kind key observed current =>
    "conflict writing " ++ kind ++ " " ++ key ++ ": observed version " ++ toString observed.toNat
      ++ ", current " ++ toString current.toNat
  | .alreadyExists kind key => kind ++ " " ++ key ++ " already exists"
  | .unavailable message => "store unavailable: " ++ message

def isNotFound : StoreError → Bool
  | .notFound .. => true
  | _ => false

def isConflict : StoreError → Bool
  | .conflict .. => true
  | _ => false

def isAlreadyExists : StoreError → Bool
  | .alreadyExists .. => true
  | _ => false

end StoreError

inductive Error where
  | store (cause : StoreError)
  /-- a queue key that names no object -/
  | malformedKey (key message : String)
  /-- the name of a child is taken by a pod that another controller owns -/
  | childNotOwned (pod owner : String)
  | cacheSyncAborted
  | environment (message : String)
deriving DecidableEq, Repr

namespace Error

def message : Error → String
  | .store cause => "store error: " ++ cause.message
  | .malformedKey key message => "invalid resource key " ++ Text.quoted key ++ ": " ++ message
  | .childNotOwned pod owner =>
    "pod " ++ pod ++ " exists but is not controlled by PodMonitor " ++ owner
  | .cacheSyncAborted => "watch cache did not sync before shutdown"
  | .environment message => "invalid monitor environment: " ++ message

def isRetryable : Error → Bool
  | .store _ => true
  | .childNotOwned .. => true
  | .malformedKey .. => false
  | .cacheSyncAborted => false
  | .environment _ => false

end Error

end MonitorOperator
