import MonitorOperator.Queue.Backoff
import Mathlib.Algebra.Group.Nat.Defs
import Mathlib.Data.List.Induction

/-! The delays of a run. A key's failures are counted since it last succeeded, and its delay is the
base times a power of two, cut off twice: the power at `2 ^ 32 - 1`, and the product at the bound.
Main statements: what any calls lead to, in exact numbers, and how far the delays double. -/

namespace MonitorOperator.Backoff

theorem Bounds.least_nanos (bounds : Bounds) :
    bounds.least.nanos = if bounds.base.nanos = 0 then 1000000 else bounds.base.nanos := by
  simp only [least, Duration.isZero, beq_iff_eq]
  split <;> rfl

theorem Bounds.most_nanos (bounds : Bounds) :
    bounds.most.nanos = Nat.max bounds.max.nanos bounds.least.nanos := by
  simp only [most]
  split
  · next below => exact (Nat.max_eq_right (Nat.le_of_lt below)).symm
  · next above => exact (Nat.max_eq_left (Nat.le_of_not_lt above)).symm

theorem factor_eq (failures : Nat) : factor failures = min (2 ^ failures) (2 ^ 32 - 1) := by
  by_cases small : failures < 32
  · have power : 2 ^ failures ≤ 2 ^ 31 := Nat.pow_le_pow_right (by decide) (by omega)
    have value : factor failures = 2 ^ failures := if_pos small
    omega
  · have power : 2 ^ 32 ≤ 2 ^ failures := Nat.pow_le_pow_right (by decide) (by omega)
    have value : factor failures = 2 ^ 32 - 1 := if_neg small
    omega

theorem factor_le {m n : Nat} (h : m ≤ n) : factor m ≤ factor n := by
  have power : 2 ^ m ≤ 2 ^ n := Nat.pow_le_pow_right (by decide) h
  rw [factor_eq, factor_eq]
  omega

theorem factor_min (failures : Nat) : factor (min failures maxFailures) = factor failures := by
  obtain low | high := Nat.le_total failures maxFailures
  · rw [Nat.min_eq_left low]
  · have past : ¬ failures < 32 := Nat.not_lt.mpr (Nat.le_trans (by decide) high)
    rw [Nat.min_eq_right high]
    exact (if_neg past).symm

/-- A product that does not fit is above any bound, so that the bound is right for it. -/
theorem delay_nanos (b : Backoff) (failures : Nat) :
    (b.delay failures).nanos = min b.max.nanos (b.base.nanos * factor failures) := by
  rw [delay, Duration.times?_eq_ofNanos?, Duration.ofNanos?]
  by_cases fits : b.base.nanos * factor failures < Duration.limit
  · rw [dif_pos fits]
    exact (Duration.min_nanos _ _).trans (Nat.min_comm ..)
  · rw [dif_neg fits]
    exact (Nat.min_eq_left (Nat.le_trans (Nat.le_of_lt b.max.bounded) (Nat.le_of_not_lt fits))).symm

inductive Call where
  | fail (key : String)
  | forget (key : String)
deriving DecidableEq

def Call.key : Call → String
  | .fail key => key
  | .forget key => key

@[simp] theorem Call.key_fail (key : String) : (fail key).key = key := rfl

@[simp] theorem Call.key_forget (key : String) : (forget key).key = key := rfl

def call (b : Backoff) : Call → Backoff
  | .fail key => (b.fail key).1
  | .forget key => b.forget key

def after (b : Backoff) (calls : List Call) : Backoff := calls.foldl call b

def streak (key : String) (calls : List Call) : Nat :=
  (calls.reverse.takeWhile (· ≠ .forget key)).count (.fail key)

def delayAfter (bounds : Bounds) (calls : List Call) (key : String) : Duration :=
  (((new bounds).after calls).fail key).2

section Streaks

variable (key other : String) (calls more : List Call)

theorem streak_fail : streak key (calls ++ [.fail other]) =
    if other = key then streak key calls + 1 else streak key calls := by
  by_cases same : other = key <;> simp [streak, same]

theorem streak_forget : streak key (calls ++ [.forget other]) =
    if other = key then 0 else streak key calls := by
  by_cases same : other = key <;> simp [streak, same]

theorem streak_filter : streak key (calls.filter (·.key == key)) = streak key calls := by
  induction calls using List.reverseRecOn with
  | nil => rfl
  | append_singleton calls c ih =>
    rw [List.filter_append]
    cases c with
    | fail other => by_cases same : other = key <;> simp [same, streak_fail, ih]
    | forget other => by_cases same : other = key <;> simp [same, streak_forget, ih]

theorem streak_append_apart (apart : ∀ c ∈ more, c.key ≠ key) :
    streak key (calls ++ more) = streak key calls := by
  have none : more.filter (·.key == key) = [] := by simpa using apart
  rw [← streak_filter, List.filter_append, none, List.append_nil, streak_filter]

theorem streak_next (apart : ∀ c ∈ more, c.key ≠ key) :
    streak key (calls ++ .fail key :: more) = streak key calls + 1 := by
  rw [List.append_cons, streak_append_apart key _ more apart, streak_fail, if_pos rfl]

theorem streak_le_append (unforgotten : .forget key ∉ more) :
    streak key calls ≤ streak key (calls ++ more) := by
  induction more using List.reverseRecOn with
  | nil => exact Nat.le_of_eq (by rw [List.append_nil])
  | append_singleton more c ih =>
    have earlier := ih fun member => unforgotten (List.mem_append_left _ member)
    rw [← List.append_assoc]
    cases c with
    | fail other =>
      rw [streak_fail]
      split
      · exact Nat.le_succ_of_le earlier
      · exact earlier
    | forget other =>
      have differ : other ≠ key := fun same => unforgotten (by simp [same])
      rw [streak_forget, if_neg differ]
      exact earlier

theorem streak_replicate (n : Nat) : streak key (List.replicate n (.fail key)) = n := by
  induction n with
  | zero => rfl
  | succ n ih => rw [List.replicate_succ', streak_fail, if_pos rfl, ih]

end Streaks

section Counts

variable (bounds : Bounds) (calls : List Call)

theorem after_concat (b : Backoff) (c : Call) :
    b.after (calls ++ [c]) = (b.after calls).call c := by
  simp [after]

theorem after_bounds (b : Backoff) :
    (b.after calls).base = b.base ∧ (b.after calls).max = b.max := by
  induction calls generalizing b with
  | nil => exact ⟨rfl, rfl⟩
  | cons c calls ih =>
    obtain ⟨base, most⟩ := ih (b.call c)
    cases c <;> exact ⟨base, most⟩

theorem attempts_eq {b : Backoff} {key : String} {n : Nat}
    (h : b.failures.get? key = if n = 0 then none else some (min n maxFailures)) :
    b.attempts key = min n maxFailures := by
  rw [attempts, h]
  split
  · next none => simp [none]
  · rfl

theorem failures_after (key : String) : ((new bounds).after calls).failures.get? key =
    if streak key calls = 0 then none else some (min (streak key calls) maxFailures) := by
  induction calls using List.reverseRecOn generalizing key with
  | nil => exact Table.get?_empty key
  | append_singleton calls c ih =>
    rw [after_concat]
    cases c with
    | fail other =>
      simp only [call, fail, Table.get?_insert, streak_fail, attempts_eq (ih other), ih]
      by_cases same : key = other
      · subst same
        simp only [if_true, Nat.succ_ne_zero, if_false, Option.some.injEq]
        omega
      · simp [same, Ne.symm same]
    | forget other =>
      simp only [call, forget, Table.get?_erase, streak_forget, ih]
      by_cases same : key = other
      · simp [same]
      · simp [same, Ne.symm same]

theorem attempts_after (key : String) :
    ((new bounds).after calls).attempts key = min (streak key calls) maxFailures :=
  attempts_eq (failures_after bounds calls key)

theorem delayAfter_eq (key : String) :
    delayAfter bounds calls key = (new bounds).delay (streak key calls) := by
  obtain ⟨base, most⟩ := after_bounds calls (new bounds)
  simp only [delayAfter, fail, delay, attempts_after, factor_min, base, most]

theorem delayAfter_nanos (key : String) : (delayAfter bounds calls key).nanos =
    min bounds.most.nanos (bounds.least.nanos * factor (streak key calls)) := by
  rw [delayAfter_eq]
  exact delay_nanos (new bounds) _

theorem tracked_after : ∃ keys : List String, keys.Nodup ∧
    keys.length = ((new bounds).after calls).tracked ∧
    ∀ key, key ∈ keys ↔ 0 < ((new bounds).after calls).attempts key := by
  refine ⟨((new bounds).after calls).failures.keys, Table.nodup_keys _, List.length_map _, ?_⟩
  intro key
  have largest : 0 < maxFailures := by decide
  rw [Table.mem_keys_iff, Table.contains, failures_after, attempts_after]
  split
  · next none => simp [none]
  · next some => simp only [Option.isSome_some, true_iff]; omega

end Counts

/-- After any calls, a key that fails waits for the base times the power of two of its failures since
it was last forgotten, with the factor and the product cut off; the product need not fit a duration.
So delays are positive, do not pass the bound, do not fall before the key is forgotten, and do not
depend on other keys. The counts stop at the largest, and are kept for those keys alone that failed
since they were last forgotten. -/
theorem delays_in_closed_form (bounds : Bounds) (calls : List Call) (key : String) :
    let least := if bounds.base.nanos = 0 then 1000000 else bounds.base.nanos
    let most := Nat.max bounds.max.nanos least
    let b := (new bounds).after calls
    (delayAfter bounds calls key).nanos =
        min most (least * min (2 ^ streak key calls) (2 ^ 32 - 1)) ∧
      b.attempts key = min (streak key calls) (2 ^ 32 - 1) ∧
      (∃ keys : List String, keys.Nodup ∧ keys.length = b.tracked ∧
        ∀ k, k ∈ keys ↔ 0 < b.attempts k) ∧
      0 < (delayAfter bounds calls key).nanos ∧
      (delayAfter bounds calls key).nanos ≤ most ∧
      (∀ more, .forget key ∉ more →
        delayAfter bounds calls key ≤ delayAfter bounds (calls ++ more) key) ∧
      ∀ others, others.filter (·.key == key) = calls.filter (·.key == key) →
        delayAfter bounds others key = delayAfter bounds calls key := by
  intro least most b
  have clamped : bounds.least.nanos = least := bounds.least_nanos
  have capped : bounds.most.nanos = most := by rw [bounds.most_nanos, clamped]
  have closed := fun calls => delayAfter_nanos bounds calls key
  refine ⟨?_, attempts_after bounds calls key, tracked_after bounds calls, fail_pos .., ?_, ?_, ?_⟩
  · rw [closed, factor_eq, clamped, capped]
  · rw [closed, ← capped]
    exact Nat.min_le_left ..
  · intro more unforgotten
    have grown := factor_le (streak_le_append key calls more unforgotten)
    have product := Nat.mul_le_mul_left bounds.least.nanos grown
    show (delayAfter bounds calls key).nanos ≤ (delayAfter bounds (calls ++ more) key).nanos
    rw [closed, closed]
    omega
  · intro others same
    have counted : streak key others = streak key calls := by
      rw [← streak_filter, same, streak_filter]
    rw [delayAfter_eq, delayAfter_eq, counted]

theorem delays_in_closed_form_past_durations :
    let bounds : Bounds :=
      { base := .ofSeconds 10000000000000000000, max := .ofSeconds 18446744073709551615 }
    let calls : List Call := [.fail "a/x", .fail "a/y"]
    let more : List Call := [.forget "a/y", .fail "a/x"]
    .forget "a/x" ∉ more ∧
      delayAfter bounds calls "a/x" ≤ delayAfter bounds (calls ++ more) "a/x" ∧
      [.fail "a/x"].filter (·.key == "a/x") = calls.filter (·.key == "a/x") ∧
      delayAfter bounds [.fail "a/x"] "a/x" = delayAfter bounds calls "a/x" ∧
      delayAfter bounds calls "a/x" = bounds.max := by
  intro bounds calls more
  have unforgotten : .forget "a/x" ∉ more := by decide
  have same : [.fail "a/x"].filter (·.key == "a/x") = calls.filter (·.key == "a/x") := by decide
  obtain ⟨_, _, _, _, _, grows, apart⟩ := delays_in_closed_form bounds calls "a/x"
  exact ⟨unforgotten, grows more unforgotten, same, apart _ same, by decide⟩

section Doubling

variable {least most n : Nat}

theorem doubles_before (early : n < 31) :
    min most (least * factor (n + 1)) = min (2 * min most (least * factor n)) most := by
  have power : 2 ^ (n + 1) ≤ 2 ^ 31 := Nat.pow_le_pow_right (by decide) early
  have half : 2 ^ (n + 1) = 2 ^ n * 2 := rfl
  have whole : factor n = 2 ^ n := by
    rw [factor_eq]
    omega
  have twice : least * factor (n + 1) = 2 * (least * factor n) := by
    rw [factor_eq, whole, Nat.min_eq_left (by omega), half, ← Nat.mul_assoc, Nat.mul_comm]
  omega

theorem factor_top (late : 32 ≤ n) : factor n = 2 ^ 32 - 1 := if_neg (Nat.not_lt.mpr late)

theorem doubles_in_reach (reach : most ≤ least * (2 ^ 32 - 1)) :
    min most (least * factor (n + 1)) = min (2 * min most (least * factor n)) most := by
  obtain early | late := Nat.lt_or_ge n 31
  · exact doubles_before early
  · -- twice the factor is more than the largest, so that both sides are the bound
    have next : least * factor (n + 1) = least * (2 ^ 32 - 1) := by
      rw [factor_top (Nat.succ_le_succ late)]
    have half : least * factor 31 ≤ least * factor n := Nat.mul_le_mul_left _ (factor_le late)
    have value : factor 31 = 2 ^ 31 := rfl
    rw [value] at half
    omega

theorem not_doubles_at_top (positive : 0 < least) (past : least * (2 ^ 32 - 1) < most) :
    min most (least * factor 32) ≠ min (2 * min most (least * factor 31)) most := by
  have half : factor 31 = 2 ^ 31 := rfl
  have top : factor 32 = 2 ^ 32 - 1 := rfl
  rw [half, top]
  omega

end Doubling

/-- The next delay of a key is the double of the last one, or the bound, for a key with up to 31
failures. It is so for any number of failures, and the bound is reached in the end, if and only if
the largest factor takes the base to the bound; otherwise the delays stop below it. -/
theorem delays_double_with_the_factor (bounds : Bounds) :
    let least := bounds.least.nanos
    let most := bounds.most.nanos
    let delay (calls key) := (delayAfter bounds calls key).nanos
    (∀ calls more key, (∀ c ∈ more, c.key ≠ key) → streak key calls < 31 →
        delay (calls ++ .fail key :: more) key = min (2 * delay calls key) most) ∧
      (∀ calls key, 32 ≤ streak key calls →
        delay calls key = min most (least * (2 ^ 32 - 1))) ∧
      ((∀ calls more key, (∀ c ∈ more, c.key ≠ key) →
          delay (calls ++ .fail key :: more) key = min (2 * delay calls key) most) ↔
        most ≤ least * (2 ^ 32 - 1)) ∧
      ((∀ key, ∃ n, ∀ calls, n ≤ streak key calls → delay calls key = most) ↔
        most ≤ least * (2 ^ 32 - 1)) := by
  intro least most delay
  have closed (calls key) : delay calls key = min most (least * factor (streak key calls)) :=
    delayAfter_nanos bounds calls key
  have top {calls key} (late : 32 ≤ streak key calls) :
      delay calls key = min most (least * (2 ^ 32 - 1)) := by rw [closed, factor_top late]
  refine ⟨?_, fun _ _ => top, ⟨?_, ?_⟩, ?_, ?_⟩
  · intro calls more key apart early
    rw [closed, closed, streak_next key calls more apart]
    exact doubles_before early
  · intro doubles
    refine Nat.le_of_not_lt fun past => ?_
    have step := doubles (List.replicate 31 (.fail "")) [] "" (List.forall_mem_nil _)
    rw [closed, closed, streak_next "" _ [] (List.forall_mem_nil _), streak_replicate] at step
    exact not_doubles_at_top bounds.least_pos past step
  · intro reach calls more key apart
    rw [closed, closed, streak_next key calls more apart]
    exact doubles_in_reach reach
  · intro reaches
    obtain ⟨n, reached⟩ := reaches ""
    have many := streak_replicate "" (n + 32)
    have equal := reached (List.replicate (n + 32) (.fail "")) (by omega)
    rw [top (by omega)] at equal
    omega
  · intro reach key
    refine ⟨32, fun calls late => ?_⟩
    rw [top late]
    omega

theorem delays_double_with_the_factor_by_default :
    let bounds : Bounds := {}
    let calls : List Call := [.fail "a/x"]
    let more : List Call := [.fail "a/y", .forget "a/y"]
    (∀ c ∈ more, c.key ≠ "a/x") ∧ bounds.most.nanos ≤ bounds.least.nanos * (2 ^ 32 - 1) ∧
      (delayAfter bounds (calls ++ .fail "a/x" :: more) "a/x").nanos =
        min (2 * (delayAfter bounds calls "a/x").nanos) bounds.most.nanos ∧
      ∃ n, ∀ calls, n ≤ streak "a/x" calls →
        (delayAfter bounds calls "a/x").nanos = bounds.most.nanos := by
  intro bounds calls more
  have apart : ∀ c ∈ more, c.key ≠ "a/x" := by decide
  have reach : bounds.most.nanos ≤ bounds.least.nanos * (2 ^ 32 - 1) := by decide
  obtain ⟨_, _, doubles, reached⟩ := delays_double_with_the_factor bounds
  exact ⟨apart, reach, doubles.mpr reach calls more "a/x" apart, reached.mpr reach "a/x"⟩

/-- With a base of a millisecond, a bound of ten million seconds is out of reach: the delay stops
below one half of it. -/
theorem delay_stops_short :
    let bounds : Bounds := { base := .ofMillis 1, max := .ofSeconds 10000000 }
    let calls : List Call := List.replicate 32 (.fail "a/x")
    bounds.most.nanos = 10000000000000000 ∧
      (delayAfter bounds calls "a/x").nanos = 4294967295000000 ∧
      (delayAfter bounds (calls ++ [.fail "a/x"]) "a/x").nanos = 4294967295000000 ∧
      ¬ (delayAfter bounds (calls ++ [.fail "a/x"]) "a/x").nanos =
        min (2 * (delayAfter bounds calls "a/x").nanos) bounds.most.nanos ∧
      ∀ calls, (delayAfter bounds calls "a/x").nanos < bounds.most.nanos := by
  intro bounds calls
  have many : streak "a/x" calls = 32 := streak_replicate "a/x" 32
  have first : (delayAfter bounds calls "a/x").nanos = 4294967295000000 := by
    rw [delayAfter_nanos, many]
    decide
  have second : (delayAfter bounds (calls ++ [.fail "a/x"]) "a/x").nanos = 4294967295000000 := by
    rw [delayAfter_nanos, streak_fail, if_pos rfl, many]
    decide
  refine ⟨by decide, first, second, by rw [first, second]; decide, fun calls => ?_⟩
  have small : factor (streak "a/x" calls) ≤ 2 ^ 32 - 1 := factor_eq _ ▸ Nat.min_le_right ..
  have product := Nat.mul_le_mul_left bounds.least.nanos small
  have short : bounds.least.nanos * (2 ^ 32 - 1) < bounds.most.nanos := by decide
  rw [delayAfter_nanos]
  omega

end MonitorOperator.Backoff
