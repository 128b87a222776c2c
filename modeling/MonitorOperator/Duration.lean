/-!
Lengths of time: whole seconds in 64 bits and nanoseconds below one second, kept as a count of
nanoseconds with its bound.
-/

namespace MonitorOperator

def nanosPerSecond : Nat := 1000000000

def Duration.limit : Nat := UInt64.size * nanosPerSecond

/-- A length of time below `2 ^ 64` seconds. -/
structure Duration where
  nanos : Nat
  bounded : nanos < Duration.limit
deriving DecidableEq

namespace Duration

instance : LE Duration := ⟨fun a b => a.nanos ≤ b.nanos⟩

instance : LT Duration := ⟨fun a b => a.nanos < b.nanos⟩

instance (a b : Duration) : Decidable (a ≤ b) := inferInstanceAs (Decidable (a.nanos ≤ b.nanos))

instance (a b : Duration) : Decidable (a < b) := inferInstanceAs (Decidable (a.nanos < b.nanos))

def zero : Duration := ⟨0, by decide⟩

instance : Inhabited Duration := ⟨zero⟩

def ofNanos? (n : Nat) : Option Duration :=
  if h : n < limit then some ⟨n, h⟩ else none

def ofSeconds (s : UInt64) : Duration :=
  ⟨s.toNat * nanosPerSecond,
    Nat.mul_lt_mul_of_pos_right s.toNat_lt (by decide)⟩

def ofMillis (ms : UInt64) : Duration :=
  ⟨ms.toNat * 1000000, by
    have := ms.toNat_lt
    simp only [limit, nanosPerSecond, UInt64.size]
    omega⟩

def ofParts? (seconds : UInt64) (nanos : UInt32) : Option Duration :=
  ofNanos? (seconds.toNat * nanosPerSecond + nanos.toNat)

def seconds (d : Duration) : Nat := d.nanos / nanosPerSecond

def subsecNanos (d : Duration) : Nat := d.nanos % nanosPerSecond

def millis (d : Duration) : Nat := d.nanos / 1000000

def isZero (d : Duration) : Bool := d.nanos == 0

def min (a b : Duration) : Duration := if a ≤ b then a else b

/-- The product, if its seconds fit. The nanoseconds are multiplied apart, and what they come to in
whole seconds is carried over. -/
def times? (d : Duration) (factor : Nat) : Option Duration :=
  let seconds := d.seconds * factor
  let nanos := d.subsecNanos * factor
  if seconds < UInt64.size then
    if h : seconds + nanos / nanosPerSecond < UInt64.size then
      some ⟨(seconds + nanos / nanosPerSecond) * nanosPerSecond + nanos % nanosPerSecond, by
        simp only [limit, nanosPerSecond] at h ⊢
        omega⟩
    else none
  else none

@[simp] theorem min_nanos (a b : Duration) : (a.min b).nanos = Nat.min a.nanos b.nanos := by
  simp only [min, Nat.min_def]
  exact apply_ite nanos (a ≤ b) a b

theorem times?_eq_ofNanos? (d : Duration) (factor : Nat) :
    d.times? factor = ofNanos? (d.nanos * factor) := by
  have parts : d.nanos * factor =
      d.seconds * factor * nanosPerSecond + d.subsecNanos * factor := by
    rw [Nat.mul_right_comm, ← Nat.add_mul, seconds, subsecNanos, Nat.div_add_mod']
  -- the product fits if and only if its seconds do, carried ones included
  have fits : d.nanos * factor < limit ↔
      d.seconds * factor + d.subsecNanos * factor / nanosPerSecond < UInt64.size := by
    simp only [parts, limit, nanosPerSecond]
    omega
  simp only [times?, ofNanos?]
  by_cases carried :
      d.seconds * factor + d.subsecNanos * factor / nanosPerSecond < UInt64.size
  · rw [if_pos (Nat.lt_of_le_of_lt (Nat.le_add_right ..) carried), dif_pos carried,
      dif_pos (fits.mpr carried), Option.some.injEq, Duration.mk.injEq, parts]
    simp only [nanosPerSecond]
    omega
  · rw [dif_neg carried, ite_self, dif_neg (mt fits.mp carried)]

end Duration

end MonitorOperator
