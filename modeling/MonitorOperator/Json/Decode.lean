import MonitorOperator.Json.Outline
import MonitorOperator.Json.Writer
import MonitorOperator.Table
import MonitorOperator.Text.Quoted

/-!
Typed reading of JSON: readers for scalars, lists, tables, enumerations and records, and the faults
they meet. A fault is met where a reader stands in the text, so the first one in the order of the
text is the answer; only fields that are missing are noticed at the end of their object.
-/

namespace MonitorOperator.Json

/-- Where the value of a reader comes from: straight from a text, from a part of one that was kept
first, or from a value. The three word some faults differently. -/
inductive Source where
  | text
  | kept
  | value
deriving DecidableEq, Repr

inductive Found where
  | null
  | bool (value : Bool)
  | number (value : Number)
  | string (value : String)
  | sequence
  | map
deriving DecidableEq, Repr

def Found.describe : Found → String
  | .null => "null"
  | .bool true => "boolean `true`"
  | .bool false => "boolean `false`"
  | .number (.integer i) => "integer `" ++ String.ofList (writeInt i) ++ "`"
  | .number n => "floating point `" ++ String.ofList n.write ++ "`"
  | .string s => "string " ++ Text.quoted s
  | .sequence => "sequence"
  | .map => "map"

inductive DataFault where
  | wrongType (found : Found) (expected : String)
  | outOfRange (value : Int) (expected : String)
  | severalMembers
  | shortArray (length : Nat) (type : String) (fields : Nat)
  | longKeptArray (length taken : Nat)
  | longArray (length : Nat)
  | unknownVariant (name : String) (known : List String)
  | duplicateField (name : String)
  | missingField (name : String)
deriving DecidableEq, Repr

def counted (n : Nat) (thing : String) : String :=
  toString n ++ " " ++ thing ++ (if n = 1 then "" else "s")

def choices : List String → String
  | [] => "there are no variants"
  | [a] => "expected `" ++ a ++ "`"
  | [a, b] => "expected `" ++ a ++ "` or `" ++ b ++ "`"
  | known => "expected one of " ++ ", ".intercalate (known.map (fun a => "`" ++ a ++ "`"))

def DataFault.message : DataFault → String
  | .wrongType found expected => "invalid type: " ++ found.describe ++ ", expected " ++ expected
  | .outOfRange value expected =>
    "invalid value: " ++ (Found.number (.integer value)).describe ++ ", expected " ++ expected
  | .severalMembers => "invalid value: map, expected map with a single key"
  | .shortArray length type fields =>
    "invalid length " ++ toString length ++ ", expected struct " ++ type ++ " with "
      ++ counted fields "element"
  | .longKeptArray length taken =>
    "invalid length " ++ toString length ++ ", expected " ++ counted taken "element" ++ " in sequence"
  | .longArray length =>
    "invalid length " ++ toString length ++ ", expected fewer elements in array"
  | .unknownVariant name known => "unknown variant `" ++ name ++ "`, " ++ choices known
  | .duplicateField name => "duplicate field `" ++ name ++ "`"
  | .missingField name => "missing field `" ++ name ++ "`"

inductive Fault where
  | text (cause : Break)
  | data (cause : DataFault)
deriving DecidableEq, Repr

abbrev Reader (α : Type) := Source → Outline → Except Fault α

def refuse (expected : String) : Outline → Fault
  | .null => .data (.wrongType .null expected)
  | .bool b => .data (.wrongType (.bool b) expected)
  | .number n => .data (.wrongType (.number n) expected)
  | .string s => .data (.wrongType (.string s) expected)
  | .array _ => .data (.wrongType .sequence expected)
  | .object _ => .data (.wrongType .map expected)
  | .broken kept _ => .text kept
  | .torn kept _ => .text kept

def readText : Reader String
  | _, .string s => .ok s
  | _, o => .error (refuse "a string" o)

def readBool : Reader Bool
  | _, .bool b => .ok b
  | _, o => .error (refuse "a boolean" o)

def readInt (low high : Int) (expected : String) : Reader Int
  | _, .number (.integer i) =>
    if low ≤ i ∧ i ≤ high then .ok i else .error (.data (.outOfRange i expected))
  | _, o => .error (refuse expected o)

def readUInt64 : Reader UInt64 := fun source o =>
  (readInt 0 (UInt64.size - 1 : Nat) "u64" source o).map (fun i => UInt64.ofNat i.toNat)

def readInt32 : Reader Int32 := fun source o =>
  (readInt Int32.minValue.toInt Int32.maxValue.toInt "i32" source o).map Int32.ofInt

def readInt64 : Reader Int64 := fun source o =>
  (readInt Int64.minValue.toInt Int64.maxValue.toInt "i64" source o).map Int64.ofInt

def readOption {α : Type} (read : Reader α) : Reader (Option α)
  | _, .null => .ok none
  | source, o => (read source o).map some

def variant {α : Type} (known : List (String × α)) (name : String) : Except Fault α :=
  match known.find? (·.1 == name) with
  | some (_, a) => .ok a
  | none => .error (.data (.unknownVariant name (known.map (·.1))))

def readUnit : Reader Unit
  | _, .null => .ok ()
  | .kept, .object .close => .ok ()
  | _, o => .error (refuse "unit" o)

def readVariant {α : Type} (known : List (String × α)) : Reader α
  | _, .string name => variant known name
  | _, .broken kept _ => .error (.text kept)
  | .text, .object .close => .error (.text .malformed)
  | .text, .object (.stop cause) => .error (.text cause)
  | .text, .object (.dangling cause) => .error (.text cause)
  | .text, .object (.member (.broken kept _) _ _) => .error (.text kept)
  | .text, .object (.member (.text name) value rest) => do
    let a ← variant known name
    readUnit .text value
    match rest with
    | .close => return a
    | .stop cause => .error (.text cause)
    | _ => .error (.text .malformed)
  | .text, _ => .error (.text .malformed)
  | source, .object (.member (.text name) value .close) => do
    let a ← variant known name
    readUnit source value
    return a
  | _, .object _ => .error (.data .severalMembers)
  | _, o => .error (refuse "string or map" o)

def readTag {α : Type} (known : List (String × α)) : Reader α
  | _, .string name => variant known name
  | _, o => .error (refuse "variant identifier" o)

def readItemsOf {α : Type} (read : Reader α) (source : Source) : Items → Except Fault (List α)
  | .close => .ok []
  | .stop cause => .error (.text cause)
  | .item value rest => do
    let a ← read source value
    let rest ← readItemsOf read source rest
    return a :: rest

def readList {α : Type} (read : Reader α) : Reader (List α)
  | source, .array items => readItemsOf read source items
  | _, o => .error (refuse "a sequence" o)

/-- The members of an object added to a table, the last of a name in place of the others. -/
def readMembersOf {α : Type} (read : Reader α) (source : Source) :
    Table String α → Members → Except Fault (Table String α)
  | table, .close => .ok table
  | _, .stop cause => .error (.text cause)
  | _, .dangling cause => .error (.text cause)
  | _, .member (.broken kept _) _ _ => .error (.text kept)
  | table, .member (.text name) value rest => do
    let a ← read source value
    readMembersOf read source (table.insert name a) rest

def readTable {α : Type} (read : Reader α) : Reader (Table String α)
  | source, .object members => readMembersOf read source ∅ members
  | _, o => .error (refuse "a map" o)

/-- A field of a record that is read into a draft `σ`. `spare` says whether it may be absent from the
end of an array. -/
structure Field (σ : Type) where
  name : String
  given : σ → Bool
  read : Source → Outline → σ → Except Fault σ
  spare : Bool

def field {σ β : Type} (name : String) (place : σ → Option β) (fill : σ → β → σ) (read : Reader β)
    (spare : Bool) : Field σ where
  name := name
  given := fun draft => (place draft).isSome
  read := fun source o draft => (read source o).map (fill draft)
  spare := spare

structure Record (σ α : Type) where
  type : String
  start : σ
  fields : List (Field σ)
  finish : σ → Except Fault α

def demand {β : Type} (name : String) : Option β → Except Fault β
  | some b => .ok b
  | none => .error (.data (.missingField name))

namespace Record

variable {σ α : Type}

def ofMembers (r : Record σ α) (source : Source) : σ → Members → Except Fault σ
  | draft, .close => .ok draft
  | _, .stop cause => .error (.text cause)
  | _, .dangling cause => .error (.text cause)
  | _, .member (.broken kept _) _ _ => .error (.text kept)
  | draft, .member (.text name) value rest =>
    match r.fields.find? (·.name == name) with
    | none =>
      match value.skip with
      | some cause => .error (.text cause)
      | none => r.ofMembers source draft rest
    | some f =>
      if f.given draft then .error (.data (.duplicateField name))
      else do
        let draft ← f.read source value draft
        r.ofMembers source draft rest

def countItems : Items → Nat
  | .item _ rest => countItems rest + 1
  | _ => 0

def ending (source : Source) (taken : Nat) : Items → Except Fault Unit
  | .close => .ok ()
  | .stop cause => .error (.text cause)
  | .item value rest =>
    let length := taken + countItems (.item value rest)
    match source with
    | .text => .error (.text .malformed)
    | .kept => .error (.data (.longKeptArray length taken))
    | .value => .error (.data (.longArray length))

def ofItems (r : Record σ α) (source : Source) : List (Field σ) → σ → Items → Except Fault σ
  | [], draft, items => (ending source r.fields.length items).map (fun _ => draft)
  | _ :: _, _, .stop cause => .error (.text cause)
  | f :: fields, draft, .close =>
    if f.spare then r.ofItems source fields draft .close
    else
      let index := r.fields.length - (fields.length + 1)
      .error (.data (.shortArray index r.type r.fields.length))
  | f :: fields, draft, .item value rest => do
    let draft ← f.read source value draft
    r.ofItems source fields draft rest

def read (r : Record σ α) : Reader α
  | source, .object members => do r.finish (← r.ofMembers source r.start members)
  | source, .array items => do r.finish (← r.ofItems source r.fields r.start items)
  | _, o => .error (refuse ("struct " ++ r.type) o)

end Record

def depthLimit : Nat := 127

def readTextWith {α : Type} (read : Reader α) (text : String) : Except Fault α := do
  let (value, clean) := outline text
  let a ← read .text value
  if clean then return a else .error (.text .malformed)

def readValueWith {α : Type} (read : Reader α) (value : Json) : Except Fault α :=
  read .value (toOutline value)

mutual

/-- A value with the members of every object in the order of their names, the last of equal names. -/
def canonical : Json → Json
  | .array items => .array (canonicalItems items)
  | .object members => .object (Table.ofList (canonicalMembers members)).entries
  | value => value

def canonicalItems : List Json → List Json
  | [] => []
  | item :: rest => canonical item :: canonicalItems rest

def canonicalMembers : List (String × Json) → List (String × Json)
  | [] => []
  | (name, value) :: rest => (name, canonical value) :: canonicalMembers rest

end

def readAny : Reader Json := fun _ o =>
  match o.keep depthLimit with
  | .ok value => .ok (canonical value)
  | .error cause => .error (.text cause)

def parse (text : String) : Except Fault Json := readTextWith readAny text

end MonitorOperator.Json
