/-!
Keys of cluster objects and their text: the two halves with one slash between them.
-/

namespace MonitorOperator

structure Key where
  ns : String
  name : String
deriving DecidableEq, Repr, Inhabited

namespace Key

instance : Ord Key := ⟨compareLex (compareOn Key.ns) (compareOn Key.name)⟩

instance : Std.TransOrd Key :=
  inferInstanceAs (Std.TransCmp (compareLex (compareOn Key.ns) (compareOn Key.name)))

instance : Std.LawfulEqOrd Key where
  compare_self {a} :=
    @Std.ReflCmp.compare_self _ (compareLex (compareOn Key.ns) (compareOn Key.name)) _ a
  eq_of_compare {a b} h := by
    have h : compareLex (compareOn Key.ns) (compareOn Key.name) a b = .eq := h
    rw [compareLex_eq_eq] at h
    cases a; cases b
    simp only [compareOn, Std.compare_eq_iff_eq] at h
    simp [h.1, h.2]

def text (k : Key) : String := k.ns ++ "/" ++ k.name

inductive Fault where
  | noSlash
  | extraSlash
  | emptyPart
deriving DecidableEq, Repr

def Fault.message : Fault → String
  | .noSlash => "expected namespace/name"
  | .extraSlash => "unexpected extra '/'"
  | .emptyPart => "namespace and name must be non-empty"

def parse (text : String) : Except Fault Key :=
  let cs := text.toList
  match cs.dropWhile (· ≠ '/') with
  | [] => .error .noSlash
  | _ :: name =>
    let ns := cs.takeWhile (· ≠ '/')
    if '/' ∈ name then .error .extraSlash
    else if ns = [] ∨ name = [] then .error .emptyPart
    else .ok ⟨String.ofList ns, String.ofList name⟩

end Key

end MonitorOperator
