import Mathlib.Data.List.Basic
import MonitorOperator.Queue.WorkQueue

/-! What each call does to a queue, and who stands in line. While every key is released by whoever
holds it, the line holds exactly the keys that need work and that nobody holds, each of them once.
-/

namespace MonitorOperator.WorkQueue

/-- Everything an added key can meet: the queue takes no more keys, the key needs work already, or
it is new, and then it joins the line unless somebody holds it. -/
theorem add_cases (q : WorkQueue) (key : String) :
    (q.shuttingDown = true ∨ q.dirty.contains key = true) ∧ q.add key = q ∨
    (q.shuttingDown = false ∧ q.dirty.contains key = false) ∧
      (q.processing.contains key = true ∧ q.add key = { q with dirty := q.dirty.insert key () } ∨
       q.processing.contains key = false ∧
        q.add key = { q with dirty := q.dirty.insert key (), ready := q.ready ++ [key] }) := by
  cases down : q.shuttingDown <;> cases dirty : q.dirty.contains key <;>
    cases held : q.processing.contains key <;> simp [add, down, dirty, held]

@[simp] theorem add_shuttingDown (q : WorkQueue) (key : String) :
    (q.add key).shuttingDown = q.shuttingDown := by
  obtain ⟨_, h⟩ | ⟨_, ⟨_, h⟩ | ⟨_, h⟩⟩ := q.add_cases key <;> rw [h]

@[simp] theorem add_processing (q : WorkQueue) (key : String) :
    (q.add key).processing = q.processing := by
  obtain ⟨_, h⟩ | ⟨_, ⟨_, h⟩ | ⟨_, h⟩⟩ := q.add_cases key <;> rw [h]

@[simp] theorem add_waiting (q : WorkQueue) (key : String) : (q.add key).waiting = q.waiting := by
  obtain ⟨_, h⟩ | ⟨_, ⟨_, h⟩ | ⟨_, h⟩⟩ := q.add_cases key <;> rw [h]

theorem dirty_add {q : WorkQueue} (taking : q.shuttingDown = false) (key other : String) :
    (q.add key).dirty.contains other = (decide (other = key) || q.dirty.contains other) := by
  obtain ⟨h, same⟩ | ⟨_, ⟨_, h⟩ | ⟨_, h⟩⟩ := q.add_cases key
  · have dirty : q.dirty.contains key = true := by simpa [taking] using h
    rw [same]
    by_cases eq : other = key
    · simp [eq, dirty]
    · simp [eq]
  · rw [h, Table.contains_insert]
  · rw [h, Table.contains_insert]

theorem ready_add (q : WorkQueue) (key : String) :
    (q.add key).ready = q.ready ∨ (q.add key).ready = q.ready ++ [key] := by
  obtain ⟨_, h⟩ | ⟨_, ⟨_, h⟩ | ⟨_, h⟩⟩ := q.add_cases key
  · exact .inl (by rw [h])
  · exact .inl (by rw [h])
  · exact .inr (by rw [h])

theorem take?_eq_some {q t : WorkQueue} {key : String} :
    q.take? = some (key, t) ↔ q.shuttingDown = false ∧ ∃ rest, q.ready = key :: rest ∧
      t = { q with
        ready := rest
        dirty := q.dirty.erase key
        processing := q.processing.insert key () } := by
  cases down : q.shuttingDown with
  | true => simp [take?, down]
  | false =>
    cases line : q.ready with
    | nil => simp [take?, down, line]
    | cons first rest =>
      simp only [take?, down, line, Bool.false_eq_true, if_false, Option.some.injEq, Prod.mk.injEq,
        List.cons.injEq, true_and]
      constructor
      · rintro ⟨rfl, rfl⟩
        exact ⟨rest, ⟨rfl, rfl⟩, rfl⟩
      · rintro ⟨_, ⟨rfl, rfl⟩, rfl⟩
        exact ⟨rfl, rfl⟩

theorem take?_eq_none {q : WorkQueue} : q.take? = none ↔ q.shuttingDown = true ∨ q.ready = [] := by
  cases down : q.shuttingDown <;> cases line : q.ready <;> simp [take?, down, line]

theorem done_cases (q : WorkQueue) (key : String) :
    q.dirty.contains key = true ∧ q.shuttingDown = false ∧
      q.done key = { q with processing := q.processing.erase key, ready := q.ready ++ [key] } ∨
    (q.dirty.contains key = false ∨ q.shuttingDown = true) ∧
      q.done key = { q with processing := q.processing.erase key } := by
  cases down : q.shuttingDown <;> cases dirty : q.dirty.contains key <;> simp [done, down, dirty]

@[simp] theorem done_shuttingDown (q : WorkQueue) (key : String) :
    (q.done key).shuttingDown = q.shuttingDown := by
  obtain ⟨_, _, h⟩ | ⟨_, h⟩ := q.done_cases key <;> rw [h]

@[simp] theorem done_dirty (q : WorkQueue) (key : String) : (q.done key).dirty = q.dirty := by
  obtain ⟨_, _, h⟩ | ⟨_, h⟩ := q.done_cases key <;> rw [h]

@[simp] theorem done_waiting (q : WorkQueue) (key : String) : (q.done key).waiting = q.waiting := by
  obtain ⟨_, _, h⟩ | ⟨_, h⟩ := q.done_cases key <;> rw [h]

@[simp] theorem done_processing (q : WorkQueue) (key : String) :
    (q.done key).processing = q.processing.erase key := by
  obtain ⟨_, _, h⟩ | ⟨_, h⟩ := q.done_cases key <;> rw [h]

theorem ready_done (q : WorkQueue) (key : String) :
    (q.done key).ready = q.ready ∨ (q.done key).ready = q.ready ++ [key] := by
  obtain ⟨_, _, h⟩ | ⟨_, h⟩ := q.done_cases key
  · exact .inr (by rw [h])
  · exact .inl (by rw [h])

/-- A delayed key is added at once without a delay. Otherwise it is kept for later, unless an
earlier moment is kept already, the queue takes no more keys, or the clock ends before. -/
theorem addAfter_cases (q : WorkQueue) (now : Moment) (key : String) (delay : Duration) :
    delay.isZero = true ∧ q.addAfter now key delay = (q.add key, none) ∨
    delay.isZero = false ∧
      ((q.shuttingDown = true ∨ q.waiting.contains key = true ∨ isBeyond now delay = true) ∧
          q.addAfter now key delay = (q, none) ∨
        (q.shuttingDown = false ∧ isBeyond now delay = false) ∧ q.addAfter now key delay =
          ({ q with waiting := q.waiting.insert key (now + delay.nanos) },
            some (now + delay.nanos))) := by
  cases zero : delay.isZero with
  | true => simp [addAfter, zero]
  | false =>
    refine .inr ⟨rfl, ?_⟩
    cases beyond : isBeyond now delay with
    | true => simp [addAfter, zero, beyond]
    | false =>
      cases down : q.shuttingDown with
      | true => simp [addAfter, zero, beyond, down]
      | false =>
        cases due : q.isDueBy key (now + delay.nanos) with
        | false => simp [addAfter, zero, beyond, down, due]
        | true =>
          have kept : q.waiting.contains key = true := by
            unfold isDueBy at due
            split at due
            · contradiction
            · rename_i h
              simp [Table.contains, h]
          simp [addAfter, zero, beyond, down, due, kept]

theorem addRateLimited_cases (q : WorkQueue) (now : Moment) (key : String) :
    ∃ backoff delay, q.backoff.fail key = (backoff, delay) ∧ delay.isZero = false ∧
      ((q.shuttingDown = true ∨ q.waiting.contains key = true ∨ isBeyond now delay = true) ∧
          q.addRateLimited now key = ({ q with backoff := backoff }, none, delay) ∨
        (q.shuttingDown = false ∧ isBeyond now delay = false) ∧ q.addRateLimited now key =
          ({ q with backoff := backoff, waiting := q.waiting.insert key (now + delay.nanos) },
            some (now + delay.nanos), delay)) := by
  have delayed : (q.backoff.fail key).2.isZero = false := by
    simpa [Duration.isZero, Nat.pos_iff_ne_zero] using q.backoff.fail_pos key
  refine ⟨_, _, rfl, delayed, ?_⟩
  obtain ⟨zero, _⟩ | ⟨_, kept⟩ :=
    ({ q with backoff := (q.backoff.fail key).1 } : WorkQueue).addAfter_cases now key
      (q.backoff.fail key).2
  · rw [delayed] at zero; contradiction
  · rcases kept with ⟨why, eq⟩ | ⟨taking, eq⟩
    · exact .inl ⟨why, by simp only [addRateLimited, eq]; rfl⟩
    · exact .inr ⟨taking, by simp only [addRateLimited, eq]; rfl⟩

structure Alike (q t : WorkQueue) : Prop where
  ready : t.ready = q.ready
  dirty : t.dirty = q.dirty
  processing : t.processing = q.processing
  waiting : t.waiting = q.waiting
  shuttingDown : t.shuttingDown = q.shuttingDown

theorem Alike.refl (q : WorkQueue) : q.Alike q := ⟨rfl, rfl, rfl, rfl, rfl⟩

/-- What becomes of a key that is to be added later: it is added at once, or it waits already, or
from now on it waits for an alarm. -/
inductive Delayed (q : WorkQueue) (key : String) : WorkQueue → Option Moment → Prop where
  | added : Delayed q key (q.add key) none
  | kept {t : WorkQueue} (there : q.shuttingDown = true ∨ q.waiting.contains key = true)
      (alike : q.Alike t) : Delayed q key t none
  | waits {t : WorkQueue} (due : Moment)
      (alike : Alike { q with waiting := q.waiting.insert key due } t) :
      Delayed q key t (some due)

theorem addAfter_delayed (q : WorkQueue) {now : Moment} (key : String) {delay : Duration}
    (fits : isBeyond now delay = false) :
    q.Delayed key (q.addAfter now key delay).1 (q.addAfter now key delay).2 := by
  obtain ⟨_, eq⟩ | ⟨_, ⟨there, eq⟩ | ⟨_, eq⟩⟩ := q.addAfter_cases now key delay
  · rw [eq]; exact .added
  · rw [eq]; exact .kept (by simpa [fits] using there) (.refl q)
  · rw [eq]; exact .waits _ (.refl _)

theorem addRateLimited_delayed (q : WorkQueue) {now : Moment} {key : String}
    (fits : isBeyond now (q.backoff.fail key).2 = false) :
    q.Delayed key (q.addRateLimited now key).1 (q.addRateLimited now key).2.1 := by
  obtain ⟨_, _, fail, _, ⟨there, eq⟩ | ⟨_, eq⟩⟩ := q.addRateLimited_cases now key
  · rw [fail] at fits
    rw [eq]
    exact .kept (by simpa [fits] using there) ⟨rfl, rfl, rfl, rfl, rfl⟩
  · rw [eq]; exact .waits _ ⟨rfl, rfl, rfl, rfl, rfl⟩

/-- From a second after its start on, this delay leads beyond the end of the clock. -/
def overlong : Duration := ⟨Moment.limit - nanosPerSecond, by decide⟩

theorem addAfter_beyond (q : WorkQueue) {now : Moment} (key : String) {delay : Duration}
    (beyond : isBeyond now delay = true) : q.addAfter now key delay = (q, none) := by
  have positive : delay.isZero = false := by
    simpa using (Bool.and_eq_true_iff.mp beyond).1
  simp [addAfter, positive, beyond]

theorem addRateLimited_beyond (q : WorkQueue) {now : Moment} {key : String}
    (beyond : isBeyond now (q.backoff.fail key).2 = true) :
    q.addRateLimited now key =
      ({ q with backoff := (q.backoff.fail key).1 }, none, (q.backoff.fail key).2) := by
  simp only [addRateLimited, addAfter_beyond _ key beyond]

theorem release?_eq_some {q t : WorkQueue} {key : String} {due : Moment} :
    q.release? key due = some t ↔
      q.waiting.get? key = some due ∧ t = { q with waiting := q.waiting.erase key } := by
  by_cases h : q.waiting.get? key = some due <;> simp [release?, h, eq_comm]

/-- In line stand the keys that need work and that nobody holds, each of them once. -/
structure InLine (q : WorkQueue) : Prop where
  once : q.ready.Nodup
  standing : ∀ key, key ∈ q.ready ↔
    q.dirty.contains key = true ∧ q.processing.contains key = false

theorem InLine.congr {q t : WorkQueue} (h : q.InLine) (ready : t.ready = q.ready)
    (dirty : t.dirty = q.dirty) (processing : t.processing = q.processing) : t.InLine :=
  ⟨ready ▸ h.once, fun key => by rw [ready, dirty, processing]; exact h.standing key⟩

theorem InLine.new (name : String) (bounds : Backoff.Bounds) : (new name bounds).InLine :=
  ⟨List.nodup_nil, fun key => by simp [WorkQueue.new, Table.contains]⟩

theorem InLine.add {q : WorkQueue} (h : q.InLine) (key : String) : (q.add key).InLine := by
  obtain ⟨_, same⟩ | ⟨⟨_, clean⟩, ⟨held, eq⟩ | ⟨free, eq⟩⟩ := q.add_cases key
  · rw [same]; exact h
  · rw [eq]
    refine ⟨h.once, fun other => ?_⟩
    rw [h.standing, Table.contains_insert]
    by_cases hk : other = key
    · simp [hk, held]
    · simp [hk]
  · have absent : key ∉ q.ready := by
      intro member
      have := ((h.standing key).mp member).1
      exact absurd this (by simp [clean])
    rw [eq]
    refine ⟨List.nodup_append.mpr ⟨h.once, by simp, ?_⟩, fun other => ?_⟩
    · intro a member b single same
      rw [List.mem_singleton.mp single] at same
      exact absent (same ▸ member)
    · rw [List.mem_append, List.mem_singleton, h.standing, Table.contains_insert]
      by_cases hk : other = key
      · simp [hk, free]
      · simp [hk]

theorem InLine.take {q t : WorkQueue} {key : String} (h : q.InLine)
    (taken : q.take? = some (key, t)) : t.InLine := by
  obtain ⟨_, rest, line, rfl⟩ := take?_eq_some.mp taken
  have once := List.nodup_cons.mp (line ▸ h.once)
  refine ⟨once.2, fun other => ?_⟩
  have standing := h.standing other
  rw [line, List.mem_cons] at standing
  simp only [Table.contains_erase, Table.contains_insert]
  by_cases hk : other = key
  · subst hk; simp [once.1]
  · simpa [hk] using standing

theorem InLine.free_of_take {q t : WorkQueue} {key : String} (h : q.InLine)
    (taken : q.take? = some (key, t)) :
    q.dirty.contains key = true ∧ q.processing.contains key = false := by
  obtain ⟨_, rest, line, _⟩ := take?_eq_some.mp taken
  exact (h.standing key).mp (by simp [line])

theorem InLine.done {q : WorkQueue} {key : String} (h : q.InLine)
    (taking : q.shuttingDown = false) (held : q.processing.contains key = true) :
    (q.done key).InLine := by
  have absent : key ∉ q.ready := by
    intro member
    have := ((h.standing key).mp member).2
    exact absurd held (by simp [this])
  obtain ⟨dirty, _, eq⟩ | ⟨idle, eq⟩ := q.done_cases key
  · rw [eq]
    refine ⟨List.nodup_append.mpr ⟨h.once, by simp, ?_⟩, fun other => ?_⟩
    · intro a member b single same
      rw [List.mem_singleton.mp single] at same
      exact absent (same ▸ member)
    · rw [List.mem_append, List.mem_singleton, h.standing, Table.contains_erase]
      by_cases hk : other = key
      · simp [hk, dirty]
      · simp [hk]
  · have clean : q.dirty.contains key = false := by simpa [taking] using idle
    rw [eq]
    refine ⟨h.once, fun other => ?_⟩
    rw [h.standing, Table.contains_erase]
    by_cases hk : other = key
    · simp [hk, clean]
    · simp [hk]

theorem InLine.queued_add_deferred {q : WorkQueue} (h : q.InLine) :
    q.stats.queued + q.stats.deferred = q.dirty.size := by
  have line : q.ready.Perm (q.dirty.keys.filter (fun key => !q.processing.contains key)) := by
    refine (List.perm_ext_iff_of_nodup h.once (q.dirty.nodup_keys.filter _)).mpr fun key => ?_
    rw [h.standing, List.mem_filter, Table.mem_keys_iff]
    simp
  have split := List.length_eq_length_filter_add q.processing.contains (l := q.dirty.keys)
  have size : q.dirty.keys.length = q.dirty.size := List.length_map ..
  simp only [stats, line.length_eq]
  omega

end MonitorOperator.WorkQueue
