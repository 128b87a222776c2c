import MonitorOperator.Duration
import MonitorOperator.Table

/-!
Delays before a key that failed is tried again. The first failure of a key waits for the base, each
further one twice as long as the one before, and none longer than the bound.
-/

namespace MonitorOperator

structure Backoff.Bounds where
  base : Duration := .ofMillis 5
  max : Duration := .ofSeconds 300
deriving DecidableEq

/-- The failures of each key since it last succeeded, and the bounds of the delays. -/
structure Backoff where
  base : Duration
  max : Duration
  base_pos : 0 < base.nanos
  base_le_max : base ≤ max
  failures : Table String Nat := ∅
deriving DecidableEq

namespace Backoff

def maxFailures : Nat := UInt32.size - 1

def Bounds.least (b : Bounds) : Duration := if b.base.isZero then .ofMillis 1 else b.base

/-- The bound in use: it is not below the base. -/
def Bounds.most (b : Bounds) : Duration := if b.max < b.least then b.least else b.max

theorem Bounds.least_pos (b : Bounds) : 0 < b.least.nanos := by
  by_cases h : b.base.nanos = 0
  · simp [least, Duration.isZero, h]; decide
  · simp [least, Duration.isZero, h]; omega

theorem Bounds.least_le_most (b : Bounds) : b.least ≤ b.most := by
  simp only [most]
  split
  · exact Nat.le_refl _
  · next h => exact Nat.le_of_not_lt h

def new (b : Bounds) : Backoff := ⟨b.least, b.most, b.least_pos, b.least_le_most, ∅⟩

def attempts (b : Backoff) (key : String) : Nat := (b.failures.get? key).getD 0

def tracked (b : Backoff) : Nat := b.failures.size

def factor (failures : Nat) : Nat := if failures < 32 then Nat.pow 2 failures else UInt32.size - 1

def delay (b : Backoff) (failures : Nat) : Duration :=
  match b.base.times? (factor failures) with
  | some d => d.min b.max
  | none => b.max

def fail (b : Backoff) (key : String) : Backoff × Duration :=
  let failures := b.attempts key
  ({ b with failures := b.failures.insert key (min (failures + 1) maxFailures) }, b.delay failures)

theorem factor_pos (failures : Nat) : 0 < factor failures := by
  simp only [factor]
  split
  · exact Nat.two_pow_pos failures
  · decide

theorem delay_pos (b : Backoff) (failures : Nat) : 0 < (b.delay failures).nanos := by
  have max_pos : 0 < b.max.nanos := Nat.lt_of_lt_of_le b.base_pos b.base_le_max
  simp only [delay]
  split
  · next d product =>
    rw [Duration.times?_eq_ofNanos?, Duration.ofNanos?] at product
    split at product
    · cases Option.some.inj product
      rw [Duration.min_nanos]
      exact Nat.lt_min.mpr ⟨Nat.mul_pos b.base_pos (factor_pos failures), max_pos⟩
    · contradiction
  · exact max_pos

theorem fail_pos (b : Backoff) (key : String) : 0 < (b.fail key).2.nanos := b.delay_pos _

def forget (b : Backoff) (key : String) : Backoff := { b with failures := b.failures.erase key }

end Backoff

end MonitorOperator
