import MonitorOperator.Child
import MonitorOperator.Error
import MonitorOperator.Text.Blank
import MonitorOperator.Text.Integer

/-!
The child's side of its environment: what its process reads from the variables, and the file it
writes to.
-/

namespace MonitorOperator.Child

structure Settings where
  ns : String
  name : String
  /-- seconds between samples -/
  speed : Nat
  logDir : String
deriving DecidableEq, Repr

namespace Settings

def present (lookup : String → Option String) (name : String) : Option String :=
  (lookup name).filter (· ≠ "")

def speedOf? (raw : String) : Option Nat :=
  match Text.integer? Int64.minValue.toInt Int64.maxValue.toInt (Text.trim raw.toList) with
  | some i => if 0 < i then some i.toNat else none
  | none => none

def ofLookup (lookup : String → Option String) : Except Error Settings :=
  match present lookup nameVariable with
  | none => .error (.environment (nameVariable ++ " is not set"))
  | some name =>
    .ok {
      ns := (present lookup namespaceVariable).getD "default"
      name := name
      speed := ((present lookup speedVariable).bind speedOf?).getD defaultInterval.toInt.toNat
      logDir := (present lookup logDirVariable).getD "./log" }

/-- A path below a directory: an absolute one stands for itself, and the directory needs no second
slash at its end. -/
def joinPath (dir path : String) : String :=
  match path.toList with
  | '/' :: _ => path
  | _ =>
    match dir.toList.getLast? with
    | none => path
    | some '/' => dir ++ path
    | some _ => dir ++ "/" ++ path

def logPath (s : Settings) : String := joinPath s.logDir s.name

end Settings

end MonitorOperator.Child
