import MonitorOperator.Config

/-!
The command line. Three options take a value, which follows the option or an equals sign; each may be
given once. A value that follows its option is looked at only when the next option or the end shows
that it is complete, so an unknown argument behind it is found first.
-/

namespace MonitorOperator

structure Arguments where
  workers : Option UInt64 := none
  apiPort : Option UInt16 := none
  manifest : Option String := none
deriving DecidableEq, Repr

namespace Arguments

inductive Flag where
  | workers
  | apiPort
  | manifest
deriving DecidableEq, Repr

inductive Stop where
  | unknownArgument
  | missingValue
  | badValue
  /-- an option that is given twice -/
  | repeated
  | surplusValue
  | help
  | version
deriving DecidableEq, Repr

def Stop.name : Stop → String
  | .unknownArgument => "UnknownArgument"
  | .missingValue => "InvalidValue"
  | .badValue => "ValueValidation"
  | .repeated => "ArgumentConflict"
  | .surplusValue => "TooManyValues"
  | .help => "DisplayHelp"
  | .version => "DisplayVersion"

def workersOf? (value : String) : Option UInt64 :=
  let cs := match value.toList with
    | '+' :: rest => rest
    | cs => cs
  match Text.digits? cs with
  | some n => if n < UInt64.size then some (UInt64.ofNat n) else none
  | none => none

def portOf? (value : String) : Option UInt16 :=
  (Text.integer? 0 (UInt16.size - 1 : Nat) value.toList).map (fun i => UInt16.ofNat i.toNat)

def isSet (a : Arguments) : Flag → Bool
  | .workers => a.workers.isSome
  | .apiPort => a.apiPort.isSome
  | .manifest => a.manifest.isSome

def set (a : Arguments) (f : Flag) (value : String) : Except Stop Arguments :=
  if a.isSet f then .error .repeated
  else
    match f with
    | .workers =>
      match workersOf? value with
      | some n => .ok { a with workers := some n }
      | none => .error .badValue
    | .apiPort =>
      match portOf? value with
      | some n => .ok { a with apiPort := some n }
      | none => .error .badValue
    | .manifest =>
      if value = "" then .error .missingValue else .ok { a with manifest := some value }

structure Reading where
  arguments : Arguments := {}
  pending : Option (Flag × Option String) := none
  operandsOnly : Bool := false
deriving DecidableEq, Repr

def Reading.complete (r : Reading) : Except Stop Reading :=
  match r.pending with
  | none => .ok r
  | some (_, none) => .error .missingValue
  | some (f, some value) => do
    return { r with arguments := ← r.arguments.set f value, pending := none }

inductive Long where
  | valued (f : Flag)
  | help
  | version
deriving DecidableEq, Repr

def Long.ofName? (name : List Char) : Option Long :=
  if name = "workers".toList then some (.valued .workers)
  else if name = "api-port".toList then some (.valued .apiPort)
  else if name = "manifest".toList then some (.valued .manifest)
  else if name = "help".toList then some .help
  else if name = "version".toList then some .version
  else none

def attached? (cs : List Char) : Option String :=
  match cs.dropWhile (· ≠ '=') with
  | [] => none
  | _ :: value => some (String.ofList value)

def Reading.stop (r : Reading) (s : Stop) : Except Stop Reading := do
  let _ ← r.complete
  throw s

def Reading.long (r : Reading) (cs : List Char) : Except Stop Reading := do
  match Long.ofName? (cs.takeWhile (· ≠ '=')), attached? cs with
  | none, _ => throw .unknownArgument
  | some (.valued f), none => return { ← r.complete with pending := some (f, none) }
  | some (.valued f), some value =>
    let r ← r.complete
    return { r with arguments := ← r.arguments.set f value }
  | some _, some _ => throw .surplusValue
  | some .help, none => r.stop .help
  | some .version, none => r.stop .version

def Reading.short (r : Reading) (c : Char) : Except Stop Reading :=
  if c = 'h' then r.stop .help
  else if c = 'V' then r.stop .version
  else .error .unknownArgument

def Reading.operand (r : Reading) (argument : String) : Except Stop Reading :=
  match r.pending with
  | some (f, none) => .ok { r with pending := some (f, some argument) }
  | _ => .error .unknownArgument

def Reading.next (r : Reading) (argument : String) : Except Stop Reading :=
  if r.operandsOnly then .error .unknownArgument
  else
    match argument.toList with
    | ['-', '-'] => .ok { r with operandsOnly := true }
    | '-' :: '-' :: cs => r.long cs
    | '-' :: c :: _ => r.short c
    | _ => r.operand argument

def parse (arguments : List String) : Except Stop Arguments := do
  return (← (← arguments.foldlM Reading.next {}).complete).arguments

end Arguments

def Config.override (c : Config) (a : Arguments) : Config :=
  { c with
    workers := a.workers.getD c.workers
    apiPort := a.apiPort.getD c.apiPort
    manifestPath := match a.manifest with
      | some path => some path
      | none => c.manifestPath }

end MonitorOperator
