import MonitorOperator.Cluster.Decode

/-!
The file that a store is seeded from.
-/

namespace MonitorOperator.Seed

inductive Fault where
  | unreadable (path : String)
  | malformed (path : String)
deriving DecidableEq, Repr

def Fault.message : Fault → String
  | .unreadable path => "Failed to read manifest " ++ path
  | .malformed path => "Failed to parse manifest " ++ path

def load (path : String) (content : Option ByteArray) : Except Fault Manifest :=
  match content.bind String.fromUTF8? with
  | none => .error (.unreadable path)
  | some text =>
    match Manifest.parse text with
    | .ok manifest => .ok manifest
    | .error _ => .error (.malformed path)

end MonitorOperator.Seed
