import MonitorOperator.Json.Basic

/-!
The outline of a JSON text: everything a typed reader may meet in it, with the places where the
text breaks. A reader that keeps a value and one that skips it break at different places, so a
broken place says what happens to each.
-/

namespace MonitorOperator.Json

inductive Break where
  | malformed
  | truncated
deriving DecidableEq, Repr

inductive Name where
  | text (s : String)
  | broken (kept : Break) (skipped : Option Break)
deriving DecidableEq, Repr

mutual

/-- A value of a text. A break stops a reader that keeps the value with `kept` and one that skips it
with `skipped`, if at all: `broken` in a string or where a value should start, `torn` in a word or a
number. -/
inductive Outline where
  | null
  | bool (value : Bool)
  | number (value : Number)
  | string (value : String)
  | array (items : Items)
  | object (members : Members)
  | broken (kept : Break) (skipped : Option Break)
  | torn (kept : Break) (skipped : Option Break)

inductive Items where
  | close
  | stop (cause : Break)
  | item (value : Outline) (rest : Items)

inductive Members where
  | close
  /-- neither a comma nor the brace stands here -/
  | stop (cause : Break)
  /-- no name stands where one should -/
  | dangling (cause : Break)
  | member (name : Name) (value : Outline) (rest : Members)

end

instance : Inhabited Outline := ⟨.null⟩

structure StringBody where
  kept : Except Break (List Char)
  skipped : Option Break
  rest : List Char

namespace StringBody

def halt (cause : Break) : StringBody := ⟨.error cause, some cause, []⟩

def push (c : Char) (b : StringBody) : StringBody := { b with kept := b.kept.map (c :: ·) }

def spoil (cause : Break) (b : StringBody) : StringBody := { b with kept := .error cause }

end StringBody

def hexDigit? (c : Char) : Option Nat :=
  if '0' ≤ c ∧ c ≤ '9' then some (c.toNat - '0'.toNat)
  else if 'a' ≤ c ∧ c ≤ 'f' then some (c.toNat - 'a'.toNat + 10)
  else if 'A' ≤ c ∧ c ≤ 'F' then some (c.toNat - 'A'.toNat + 10)
  else none

def hexUnit? (a b c d : Char) : Option Nat := do
  return (((← hexDigit? a) * 16 + (← hexDigit? b)) * 16 + (← hexDigit? c)) * 16 + (← hexDigit? d)

def isHighSurrogate (n : Nat) : Bool := 0xD800 ≤ n && n ≤ 0xDBFF

def isLowSurrogate (n : Nat) : Bool := 0xDC00 ≤ n && n ≤ 0xDFFF

def pairedChar (high low : Nat) : Char :=
  Char.ofNat (0x10000 + (high - 0xD800) * 0x400 + (low - 0xDC00))

/-- Text too short for four digits ends early only if fewer than four bytes are left of it. -/
def shortUnit (rest : List Char) : Break :=
  if (String.ofList (rest.take 4)).utf8ByteSize < 4 then .truncated else .malformed

def loneSurrogate : List Char → Break
  | [] => .truncated
  | ['\\'] => .truncated
  | '\\' :: 'u' :: rest => shortUnit rest
  | _ => .malformed

def simpleEscape? (c : Char) : Option Char :=
  if c = '"' then some '"'
  else if c = '\\' then some '\\'
  else if c = '/' then some '/'
  else if c = 'b' then some '\x08'
  else if c = 'f' then some '\x0c'
  else if c = 'n' then some '\n'
  else if c = 'r' then some '\r'
  else if c = 't' then some '\t'
  else none

def readString : List Char → StringBody
  | [] => .halt .truncated
  | ['\\'] => .halt .truncated
  | '\\' :: 'u' :: a :: b :: c :: d :: rest =>
    match hexUnit? a b c d with
    | none => .halt .malformed
    | some unit =>
      if isHighSurrogate unit then
        match rest with
        | '\\' :: 'u' :: e :: f :: g :: h :: rest' =>
          match hexUnit? e f g h with
          | some low =>
            if isLowSurrogate low then (readString rest').push (pairedChar unit low)
            else (readString ('\\' :: 'u' :: e :: f :: g :: h :: rest')).spoil .malformed
          | none => .halt .malformed
        | other => (readString other).spoil (loneSurrogate other)
      else if isLowSurrogate unit then (readString rest).spoil .malformed
      else (readString rest).push (Char.ofNat unit)
  | '\\' :: 'u' :: rest => .halt (shortUnit rest)
  | '\\' :: c :: rest =>
    match simpleEscape? c with
    | some c => (readString rest).push c
    | none => .halt .malformed
  | c :: rest =>
    if c = '"' then ⟨.ok [], none, rest⟩
    else if c.toNat < 0x20 then .halt .malformed
    else (readString rest).push c

def readDigits (cs : List Char) : List Char × List Char :=
  (cs.takeWhile Char.isDigit, cs.dropWhile Char.isDigit)

def digitValue (c : Char) : Nat := c.toNat - '0'.toNat

/-- Takes digits into a 64-bit word as long as they fit; counts the ones that are left. -/
def accumulate (word : Nat) : List Char → Nat × Nat
  | [] => (word, 0)
  | c :: rest =>
    if word * 10 + digitValue c < UInt64.size then accumulate (word * 10 + digitValue c) rest
    else (word, rest.length + 1)

def powerStep : Nat := 308

/-- A word scaled by a power of ten, each step rounded, in steps of at most `10 ^ 308`. `none` is too
large. -/
def scaled? : Nat → Decimal.Magnitude → Int → Option Decimal.Magnitude
  | 0, m, _ => some m
  | steps + 1, m, power =>
    let step (n : Nat) := (Decimal.Magnitude.nearest? (Nat.pow 10 n) 1).getD .zero
    if power.natAbs ≤ powerStep then
      if 0 ≤ power then m.times? (step power.natAbs) else m.dividedBy? (step power.natAbs)
    else if m.mantissa = 0 then some m
    else if 0 ≤ power then none
    else (m.dividedBy? (step powerStep)).bind (fun m => scaled? steps m (power + powerStep))

def realNumber (negative : Bool) (word : Nat) (power : Int) (rest : List Char) :
    Outline × List Char :=
  match (Decimal.Magnitude.nearest? word 1).bind (fun m => scaled? 4 m power) with
  | some m => (.number (.real negative m), rest)
  | none => (.torn .malformed none, rest)

/-- A number that lacks digits. Skipping one never notices that the text ended. -/
def digitsMissing (rest : List Char) : Outline × List Char :=
  (.torn (if rest.isEmpty then .truncated else .malformed) (some .malformed), [])

/-- Reads the exponent behind its letter. An exponent beyond 32 bits is zero or too large. -/
def readExponent (negative : Bool) (word : Nat) (power : Int) (cs : List Char) :
    Outline × List Char :=
  let (down, cs) := match cs with
    | '+' :: rest => (false, rest)
    | '-' :: rest => (true, rest)
    | rest => (false, rest)
  let (digits, rest) := readDigits cs
  if digits.isEmpty then digitsMissing rest
  else
    let exponent := digits.foldl (fun n c => n * 10 + digitValue c) 0
    if exponent ≤ Int32.maxValue.toInt.toNat then
      realNumber negative word (if down then power - exponent else power + exponent) rest
    else if word ≠ 0 ∧ !down then (.torn .malformed none, rest)
    else (.number (.real negative .zero), rest)

def readTail (negative : Bool) (word : Nat) (power : Int) : List Char → Outline × List Char
  | 'e' :: rest => readExponent negative word power rest
  | 'E' :: rest => readExponent negative word power rest
  | rest => realNumber negative word power rest

/-- Reads the fraction behind its point. Digits that no longer fit the word are dropped. -/
def readFraction (negative : Bool) (word : Nat) (power : Int) (cs : List Char) :
    Outline × List Char :=
  let (digits, rest) := readDigits cs
  if digits.isEmpty then digitsMissing rest
  else
    let (word, left) := accumulate word digits
    readTail negative word (power - (digits.length - left : Nat)) rest

def readNumberTail (negative : Bool) (digits rest : List Char) : Outline × List Char :=
  let (word, left) := accumulate 0 digits
  match rest with
  | '.' :: rest => readFraction negative word left rest
  | 'e' :: rest => readExponent negative word left rest
  | 'E' :: rest => readExponent negative word left rest
  | rest =>
    if left = 0 ∧ !negative then (.number (.integer word), rest)
    else if left = 0 ∧ 0 < word ∧ word ≤ Int64.minValue.toInt.natAbs then (.number (.integer (-word)), rest)
    else realNumber negative word left rest

def readNumber (negative : Bool) (cs : List Char) : Outline × List Char :=
  match readDigits cs with
  | ([], rest) => digitsMissing rest
  | (['0'], rest) => readNumberTail negative ['0'] rest
  | ('0' :: _ :: _, _) => (.torn .malformed (some .malformed), [])
  | (digits, rest) => readNumberTail negative digits rest

def isSpace (c : Char) : Bool := c = ' ' || c = '\n' || c = '\t' || c = '\r'

def skipSpace (cs : List Char) : List Char := cs.dropWhile isSpace

def readWord (value : Outline) : List Char → List Char → Outline × List Char
  | [], rest => (value, rest)
  | _ :: _, [] => (.torn .truncated (some .truncated), [])
  | expected :: word, c :: rest =>
    if c = expected then readWord value word rest else (.torn .malformed (some .malformed), [])

def StringBody.outline (b : StringBody) : Outline :=
  match b.kept with
  | .ok cs => .string (String.ofList cs)
  | .error cause => .broken cause b.skipped

def StringBody.name (b : StringBody) : Name :=
  match b.kept with
  | .ok cs => .text (String.ofList cs)
  | .error cause => .broken cause b.skipped

def Outline.halt (cause : Break) : Outline := .broken cause (some cause)

mutual

/-- Reads a value; the count bounds the depth of the reading and the length of the text is enough
for it. -/
def readValue : Nat → List Char → Outline × List Char
  | 0, _ => (.halt .truncated, [])
  | n + 1, cs =>
    match skipSpace cs with
    | [] => (.halt .truncated, [])
    | c :: rest =>
      if c = 'n' then readWord .null ['u', 'l', 'l'] rest
      else if c = 't' then readWord (.bool true) ['r', 'u', 'e'] rest
      else if c = 'f' then readWord (.bool false) ['a', 'l', 's', 'e'] rest
      else if c = '"' then ((readString rest).outline, (readString rest).rest)
      else if c = '[' then
        let (items, rest) := readItems n true rest
        (.array items, rest)
      else if c = '\x7b' then
        let (members, rest) := readMembers n true rest
        (.object members, rest)
      else if c = '-' then readNumber true rest
      else if c.isDigit then readNumber false (c :: rest)
      else (.halt .malformed, [])

def readItems : Nat → Bool → List Char → Items × List Char
  | 0, _, _ => (.stop .truncated, [])
  | n + 1, first, cs =>
    match skipSpace cs with
    | [] => (.stop .truncated, [])
    | c :: rest =>
      if c = ']' then (.close, rest)
      else if first || c = ',' then
        let (value, rest) := readValue n (if first then c :: rest else rest)
        let (items, rest) := readItems n false rest
        (.item value items, rest)
      else (.stop .malformed, [])

def readMembers : Nat → Bool → List Char → Members × List Char
  | 0, _, _ => (.stop .truncated, [])
  | n + 1, first, cs =>
    match skipSpace cs with
    | [] => (.stop .truncated, [])
    | c :: rest =>
      if c = '\x7d' then (.close, rest)
      else if first || c = ',' then
        match skipSpace (if first then c :: rest else rest) with
        | [] => (.dangling .truncated, [])
        | c :: rest =>
          if c = '"' then
            let name := readString rest
            match skipSpace name.rest with
            | [] => (.member name.name (.halt .truncated) .close, [])
            | c :: rest =>
              if c = ':' then
                let (value, rest) := readValue n rest
                let (members, rest) := readMembers n false rest
                (.member name.name value members, rest)
              else (.member name.name (.halt .malformed) .close, [])
          else (.dangling .malformed, [])
      else (.stop .malformed, [])

end

def outline (text : String) : Outline × Bool :=
  let cs := text.toList
  let (value, rest) := readValue (2 * cs.length + 1) cs
  (value, (skipSpace rest).isEmpty)

mutual

def Outline.skip : Outline → Option Break
  | .array items => items.skip
  | .object members => members.skip
  | .broken _ skipped => skipped
  | .torn _ skipped => skipped
  | _ => none

def Items.skip : Items → Option Break
  | .close => none
  | .stop cause => some cause
  | .item value rest => value.skip <|> rest.skip

def Members.skip : Members → Option Break
  | .close => none
  | .stop cause => some cause
  | .dangling cause => some cause
  | .member (.broken _ (some cause)) _ _ => some cause
  | .member _ value rest => value.skip <|> rest.skip

end

mutual

def Outline.keep (room : Nat) : Outline → Except Break Json
  | .null => .ok .null
  | .bool b => .ok (.bool b)
  | .number n => .ok (.number n)
  | .string s => .ok (.string s)
  | .array items =>
    match room with
    | 0 => .error .malformed
    | room + 1 => (items.keep room).map .array
  | .object members =>
    match room with
    | 0 => .error .malformed
    | room + 1 => (members.keep room).map .object
  | .broken kept _ => .error kept
  | .torn kept _ => .error kept

def Items.keep (room : Nat) : Items → Except Break (List Json)
  | .close => .ok []
  | .stop cause => .error cause
  | .item value rest => do
    let value ← value.keep room
    let rest ← rest.keep room
    return value :: rest

def Members.keep (room : Nat) : Members → Except Break (List (String × Json))
  | .close => .ok []
  | .stop cause => .error cause
  | .dangling cause => .error cause
  | .member (.broken kept _) _ _ => .error kept
  | .member (.text name) value rest => do
    let value ← value.keep room
    let rest ← rest.keep room
    return (name, value) :: rest

end

mutual

def toOutline : Json → Outline
  | .null => .null
  | .bool b => .bool b
  | .number n => .number n
  | .string s => .string s
  | .array items => .array (itemsOutline items)
  | .object members => .object (membersOutline members)

def itemsOutline : List Json → Items
  | [] => .close
  | item :: rest => .item (toOutline item) (itemsOutline rest)

def membersOutline : List (String × Json) → Members
  | [] => .close
  | (name, value) :: rest => .member (.text name) (toOutline value) (membersOutline rest)

end

end MonitorOperator.Json
