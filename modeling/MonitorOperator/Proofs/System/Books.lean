import MonitorOperator.Proofs.Queue.Due
import MonitorOperator.Proofs.System.Ledger

/-! The books of a ledger: its queue, its tasks, its history and the health of the store. A turn is
all that a move can do to them, and every turn keeps them balanced. -/

namespace MonitorOperator.System

def isFailure : Except Error Pass.Action → Bool
  | .ok _ => false
  | .error cause => cause.isRetryable

/-- What a result that is told says of the health of the store. -/
def standing : Except Error Pass.Action → Health.Status
  | .ok _ => .healthy
  | .error _ => .degraded

/-- How many passes on a key failed since one did not, and since the monitor was deleted. -/
def failures (key : String) : List Entry → Nat
  | [] => 0
  | .ended other result :: history =>
    if other = key then (if isFailure result then failures key history + 1 else 0)
    else failures key history
  | .deleted other :: history => if other = key then 0 else failures key history
  | _ :: history => failures key history

def lastTold : List Entry → Option (Except Error Pass.Action)
  | [] => none
  | .told result :: _ => some result
  | _ :: history => lastTold history

structure Books where
  queue : WorkQueue
  tasks : Nat → Option Task
  rung : List (String × Moment)
  history : List Entry
  /-- the health of the store -/
  status : Option Health.Status

def Ledger.books (l : Ledger) : Books where
  queue := l.queue
  tasks := l.tasks
  rung := l.rung
  history := l.history
  status := l.board.status? Health.storeComponent

structure Task.Alike (task later : Task) : Prop where
  held : later.held = task.held
  result : later.result = task.result
  asked : later.asked = task.asked

namespace Books

variable {b c : Books} {mover : Nat} {key : String} {task : Task}

def held (b : Books) (worker : Nat) : Option String := (b.tasks worker).bind Task.held

def put (b : Books) (worker : Nat) (task : Task) : Books :=
  { b with tasks := Function.update b.tasks worker (some task) }

theorem held_of (mine : b.tasks mover = some task) : b.held mover = task.held := by
  rw [held, mine]; rfl

theorem held_put (b : Books) (worker : Nat) (task : Task) :
    (b.put worker task).held = Function.update b.held worker task.held :=
  Function.comp_update (fun own : Option Task => own.bind Task.held) b.tasks worker (some task)

theorem held_put_alike {later : Task} (mine : b.tasks mover = some task)
    (kept : later.held = task.held) : (b.put mover later).held = b.held := by
  rw [held_put, kept, ← held_of mine, Function.update_eq_self]

@[simp] theorem put_self (b : Books) (worker : Nat) (task : Task) :
    (b.put worker task).tasks worker = some task := Function.update_self ..

theorem put_of_ne {worker other : Nat} (apart : other ≠ worker) (b : Books) (task : Task) :
    (b.put worker task).tasks other = b.tasks other := Function.update_of_ne apart ..

/-- All that a move can do to the books. If it is a worker's move, that worker is the mover. -/
inductive Turn (b : Books) (mover : Nat) : Books → Prop where
  | same : Turn b mover b
  | added (key : String) (rung : List (String × Moment))
      (kept : ∀ e ∈ b.rung, e.1 = key ∨ e ∈ rung) :
      Turn b mover { b with queue := b.queue.add key, rung := rung }
  | deleted (key : String) :
      Turn b mover { b with queue := b.queue.forget key, history := .deleted key :: b.history }
  | rang (key : String) (due : Moment) (waits : b.queue.waiting.get? key = some due) :
      Turn b mover { b with
        queue := { b.queue with waiting := b.queue.waiting.erase key }
        rung := (key, due) :: b.rung }
  | took (key : String) (queue : WorkQueue) (task : Task) (free : b.tasks mover = none)
      (taken : b.queue.take? = some (key, queue)) (holds : task.held = some key)
      (result : task.result = none) (asked : task.asked = none) :
      Turn b mover { b.put mover task with
        queue := queue, history := .delivered mover key :: b.history }
  | freed (task : Task) (mine : b.tasks mover = some task) (gone : task.held = none) :
      Turn b mover { b with tasks := Function.update b.tasks mover none }
  | worked (task later : Task) (mine : b.tasks mover = some task) (alike : task.Alike later) :
      Turn b mover (b.put mover later)
  | told (task later : Task) (result : Except Error Pass.Action)
      (mine : b.tasks mover = some task) (alike : task.Alike later)
      (stored : ∀ cause, result = .error cause → ∃ e, cause = .store e) :
      Turn b mover { b.put mover later with
        history := .told result :: b.history, status := some (standing result) }
  | ended (task later : Task) (key : String) (result : Except Error Pass.Action)
      (mine : b.tasks mover = some task) (holds : task.held = some key)
      (held : later.held = task.held) (known : later.result = some result)
      (asked : later.asked = none) (final : isFailure result = false) :
      Turn b mover { b.put mover later with
        queue := b.queue.forget key, history := .ended key result :: b.history }
  | failed (task later : Task) (key : String) (result : Except Error Pass.Action) (now : Moment)
      (mine : b.tasks mover = some task) (holds : task.held = some key)
      (held : later.held = task.held) (known : later.result = some result)
      (asked : later.asked = none ∨
        later.asked = some (now, (b.queue.addRateLimited now key).2.2) ∧
          WorkQueue.isBeyond now (b.queue.backoff.fail key).2 = false)
      (again : isFailure result = true) :
      Turn b mover { b.put mover later with
        queue := (b.queue.addRateLimited now key).1, history := .ended key result :: b.history }
  | renewed (task later : Task) (key : String) (now : Moment) (delay : Duration)
      (mine : b.tasks mover = some task) (holds : task.held = some key)
      (held : later.held = task.held) (result : later.result = task.result)
      (asked : later.asked = some (now, delay))
      (fits : WorkQueue.isBeyond now delay = false) :
      Turn b mover { b.put mover later with queue := (b.queue.addAfter now key delay).1 }
  | released (task later : Task) (key : String) (result : Except Error Pass.Action)
      (mine : b.tasks mover = some task) (holds : task.held = some key) (gone : later.held = none)
      (known : task.result = some result) (asked : isFailure result = true → task.asked ≠ none) :
      Turn b mover { b.put mover later with
        queue := b.queue.done key, history := .released mover key :: b.history }

structure Orderly (b : Books) : Prop where
  taking : b.queue.shuttingDown = false
  line : b.queue.InLine
  holds : ∀ worker key, b.held worker = some key → b.queue.processing.contains key = true
  alone : ∀ worker other key, b.held worker = some key → b.held other = some key → worker = other

theorem Turn.others (turn : Turn b mover c) {worker : Nat} (apart : worker ≠ mover) :
    c.tasks worker = b.tasks worker := by
  cases turn with
  | same => rfl
  | added key rung kept => rfl
  | deleted key => rfl
  | rang key due waits => rfl
  | freed task mine gone => exact Function.update_of_ne apart ..
  | _ => exact put_of_ne apart _ _

def Counted (b : Books) : Prop :=
  ∀ key, b.queue.attempts key = min (failures key b.history) Backoff.maxFailures

theorem Turn.counted (turn : Turn b mover c) (h : b.Counted) : c.Counted := by
  intro key
  have counted := h key
  unfold WorkQueue.attempts at counted ⊢
  cases turn with
  | same => exact counted
  | added other rung kept => rw [WorkQueue.add_backoff]; exact counted
  | deleted other =>
    simp only [WorkQueue.forget, Backoff.attempts_forget, failures, eq_comm (a := other)]
    split
    · exact (Nat.zero_min _).symm
    · exact counted
  | rang other due waits => exact counted
  | took other queue task free taken holds result asked =>
    obtain ⟨_, rest, _, rfl⟩ := WorkQueue.take?_eq_some.mp taken
    exact counted
  | freed task mine gone => exact counted
  | worked task later mine alike => exact counted
  | told task later result mine alike stored => exact counted
  | ended task later other result mine holds held known asked final =>
    simp only [WorkQueue.forget, Backoff.attempts_forget, failures, final, eq_comm (a := other)]
    split
    · exact (Nat.zero_min _).symm
    · exact counted
  | failed task later other result now mine holds held known asked again =>
    simp only [WorkQueue.addRateLimited_backoff, Backoff.attempts_fail, failures, again, if_true,
      eq_comm (a := other)]
    split
    · rename_i same
      subst same
      rw [counted]
      omega
    · exact counted
  | renewed task later other now delay mine holds held result asked fits =>
    simp only [WorkQueue.addAfter_backoff]
    exact counted
  | released task later other result mine holds gone known asked =>
    simp only [WorkQueue.done_backoff]
    exact counted

inductive Hands (b : Books) (mover : Nat) (c : Books) : Prop where
  | kept (held : c.held = b.held)
      (delivered : ∀ worker key, c.history.count (.delivered worker key) =
        b.history.count (.delivered worker key))
      (released : ∀ worker key, c.history.count (.released worker key) =
        b.history.count (.released worker key))
  | took (key : String) (free : b.held mover = none)
      (held : c.held = Function.update b.held mover (some key))
      (history : c.history = .delivered mover key :: b.history)
  | released (key : String) (holds : b.held mover = some key)
      (held : c.held = Function.update b.held mover none)
      (history : c.history = .released mover key :: b.history)

theorem Turn.hands (turn : Turn b mover c) : Hands b mover c := by
  cases turn with
  | took key queue task free taken holds result asked =>
    refine .took key (by rw [held, free]; rfl) ?_ rfl
    rw [← holds]
    exact held_put ..
  | freed task mine gone =>
    refine .kept (funext fun worker => ?_) (fun _ _ => rfl) fun _ _ => rfl
    by_cases own : worker = mover
    · subst own
      rw [held_of mine, gone]
      simp [held]
    · simp [held, own]
  | worked task later mine alike =>
    exact .kept (held_put_alike mine alike.held) (fun _ _ => rfl) fun _ _ => rfl
  | told task later result mine alike stored =>
    exact .kept (held_put_alike mine alike.held) (by simp) (by simp)
  | ended task later key result mine holds held known asked final =>
    exact .kept (held_put_alike mine held) (by simp) (by simp)
  | failed task later key result now mine holds held known asked again =>
    exact .kept (held_put_alike mine held) (by simp) (by simp)
  | renewed task later key now delay mine holds held result asked fits =>
    exact .kept (held_put_alike mine held) (fun _ _ => rfl) fun _ _ => rfl
  | released task later key result mine holds gone known asked =>
    refine .released key (by rw [held_of mine, holds]) ?_ rfl
    rw [← gone]
    exact held_put ..
  | deleted key => exact .kept rfl (by simp) (by simp)
  | _ => exact .kept rfl (fun _ _ => rfl) fun _ _ => rfl

/-- Every delivery of a key to a worker was followed by one release, unless the worker holds the
key. -/
def Handed (b : Books) : Prop :=
  ∀ worker key, b.history.count (.delivered worker key) =
    b.history.count (.released worker key) + if b.held worker = some key then 1 else 0

theorem Turn.handed (turn : Turn b mover c) (h : b.Handed) : c.Handed := by
  intro worker key
  have balance := h worker key
  cases turn.hands with
  | kept held delivered released => rw [held, delivered, released, balance]
  | took other free held history =>
    rw [held, history, List.count_cons, List.count_cons]
    by_cases own : worker = mover
    · subst own
      rw [free] at balance
      simpa using balance
    · simp [own, Ne.symm own, balance]
  | released other holds held history =>
    rw [held, history, List.count_cons, List.count_cons]
    by_cases own : worker = mover
    · subst own
      rw [holds] at balance
      simpa using balance
    · simp [own, Ne.symm own, balance]

structure Told (first : Option Health.Status) (b : Books) : Prop where
  status : b.status = (lastTold b.history).elim first fun result => some (standing result)
  stored : ∀ cause, lastTold b.history = some (.error cause) → ∃ e, cause = .store e

theorem Turn.told_kept {first : Option Health.Status} (turn : Turn b mover c) (h : b.Told first) :
    c.Told first := by
  cases turn with
  | told task later result mine alike stored =>
    exact ⟨rfl, fun cause last => stored cause (Option.some.inj last)⟩
  | _ => exact ⟨h.status, h.stored⟩

theorem Turn.due {limit : Moment} (turn : Turn b mover c) (orderly : b.Orderly)
    (h : b.queue.Due b.rung key limit) :
    c.queue.Due c.rung key limit ∨
      b.queue.processing.contains key = false ∧ c.queue.processing.contains key = true := by
  cases turn with
  | added other rung kept => exact .inl (h.add orderly.taking kept)
  | deleted other => exact .inl (h.congr rfl rfl)
  | rang other due waits => exact .inl (h.ring waits)
  | took other queue task free taken holds result asked =>
    by_cases same : key = other
    · subst same
      refine .inr ⟨(orderly.line.free_of_take taken).2, ?_⟩
      obtain ⟨_, rest, _, rfl⟩ := WorkQueue.take?_eq_some.mp taken
      simp [Table.contains_insert]
    · exact .inl (h.take taken same)
  | ended task later other result mine holds held known asked final => exact .inl (h.congr rfl rfl)
  | failed task later other result now mine holds held known asked again =>
    exact .inl (h.addRateLimited orderly.taking now other)
  | renewed task later other now delay mine holds held result asked fits =>
    exact .inl (h.addAfter orderly.taking now other delay)
  | released task later other result mine holds gone known asked =>
    exact .inl (h.congr (by simp) (by simp))
  | _ => exact .inl h

/-- A key in hand is due by the moment that was asked for, and did not fail since its pass ended
otherwise. -/
structure Minds (b : Books) (task : Task) (key : String) : Prop where
  due : ∀ moment delay, task.asked = some (moment, delay) →
    b.queue.Due b.rung key (moment + delay.nanos)
  calm : ∀ result, task.result = some result → isFailure result = false →
    failures key b.history = 0

def Minded (b : Books) : Prop :=
  ∀ worker task key, b.tasks worker = some task → task.held = some key → b.Minds task key

theorem Turn.calm (turn : Turn b mover c) (other : b.held mover ≠ some key)
    (calm : failures key b.history = 0) : failures key c.history = 0 := by
  have apart {task : Task} {text : String} (mine : b.tasks mover = some task)
      (holds : task.held = some text) : text ≠ key := by
    rintro rfl
    exact other ((held_of mine).trans holds)
  cases turn with
  | deleted text => simp [failures, calm]
  | ended task later text result mine holds held known asked final =>
    simp [failures, apart mine holds, calm]
  | failed task later text result now mine holds held known asked again =>
    simp [failures, apart mine holds, calm]
  | _ => exact calm

theorem Minds.alike {later : Task} (h : b.Minds task key) (alike : task.Alike later) :
    b.Minds later key :=
  ⟨fun moment delay asked => h.due moment delay (alike.asked.symm.trans asked),
    fun result known => h.calm result (alike.result.symm.trans known)⟩

theorem Minds.turn (h : b.Minds task key) (turn : Turn b mover c) (orderly : b.Orderly)
    (processed : b.queue.processing.contains key = true)
    (calm : failures key b.history = 0 → failures key c.history = 0) : c.Minds task key := by
  refine ⟨fun moment delay asked => ?_, fun result known final => calm (h.calm result known final)⟩
  exact (turn.due orderly (h.due moment delay asked)).resolve_right (by simp [processed])

theorem Turn.own (turn : Turn b mover c) (orderly : b.Orderly) (h : b.Minded)
    (mine : c.tasks mover = some task) (holds : task.held = some key) : c.Minds task key := by
  have still (before : b.tasks mover = some task)
      (calm : failures key b.history = 0 → failures key c.history = 0) : c.Minds task key :=
    (h mover task key before holds).turn turn orderly
      (orderly.holds mover key ((held_of before).trans holds)) calm
  cases turn with
  | same => exact still mine id
  | added other rung kept => exact still mine id
  | deleted other => exact still mine fun calm => by simp [failures, calm]
  | rang other due waits => exact still mine id
  | took other queue fresh free taken held result asked =>
    cases (put_self ..).symm.trans mine
    exact ⟨by simp [asked], by simp [result]⟩
  | freed before gone held =>
    simp at mine
  -- from here on the task is a new one, made from the one before
  | worked before later was alike =>
    cases (put_self ..).symm.trans mine
    have minds := (h mover before key was (alike.held.symm.trans holds)).alike alike
    exact ⟨minds.due, minds.calm⟩
  | told before later result was alike stored =>
    cases (put_self ..).symm.trans mine
    have minds := (h mover before key was (alike.held.symm.trans holds)).alike alike
    exact ⟨minds.due, minds.calm⟩
  | ended before later other result was held same known asked final =>
    cases (put_self ..).symm.trans mine
    cases held.symm.trans (same.symm.trans holds)
    exact ⟨by simp [asked], by simp [failures, final]⟩
  | failed before later other result now was held same known asked again =>
    cases (put_self ..).symm.trans mine
    cases held.symm.trans (same.symm.trans holds)
    constructor
    · intro moment delay requested
      rcases asked with unasked | ⟨asked, fits⟩
      · cases unasked.symm.trans requested
      · cases asked.symm.trans requested
        exact WorkQueue.due_addRateLimited orderly.taking fits
    · intro other same final
      cases known.symm.trans same
      rw [again] at final
      contradiction
  | renewed before later other now delay was held same result asked fits =>
    cases (put_self ..).symm.trans mine
    cases held.symm.trans (same.symm.trans holds)
    constructor
    · intro moment time requested
      cases asked.symm.trans requested
      exact WorkQueue.due_addAfter orderly.taking key fits
    · exact fun other known => (h mover before key was held).calm other (result.symm.trans known)
  | released before later other result was held gone known asked =>
    cases (put_self ..).symm.trans mine
    rw [gone] at holds
    contradiction

theorem Turn.minded (turn : Turn b mover c) (orderly : b.Orderly) (h : b.Minded) : c.Minded := by
  intro worker task key mine holds
  by_cases own : worker = mover
  · subst own
    exact turn.own orderly h mine holds
  · rw [turn.others own] at mine
    have held : b.held worker = some key := (held_of mine).trans holds
    have other : b.held mover ≠ some key := fun mine =>
      own (orderly.alone worker mover key held mine)
    exact (h worker task key mine holds).turn turn orderly (orderly.holds worker key held)
      (turn.calm other)

def Tended (b : Books) : Prop :=
  ∀ key, 0 < b.queue.attempts key →
    (∃ limit, b.queue.Due b.rung key limit) ∨ b.queue.processing.contains key = true

theorem Turn.failed_before (turn : Turn b mover c) (orderly : b.Orderly) (counted : b.Counted)
    (failed : 0 < c.queue.attempts key) :
    0 < b.queue.attempts key ∨ b.queue.processing.contains key = true := by
  by_cases mine : b.held mover = some key
  · exact .inr (orderly.holds mover key mine)
  · rw [turn.counted counted key, Nat.lt_min] at failed
    rw [counted key, Nat.lt_min]
    have before : failures key b.history ≠ 0 := fun calm =>
      Nat.ne_of_gt failed.1 (turn.calm mine calm)
    exact .inl ⟨Nat.pos_of_ne_zero before, failed.2⟩

theorem Turn.due_of_released (turn : Turn b mover c) (minded : b.Minded) (counted : b.Counted)
    (failed : 0 < c.queue.attempts key) (processed : b.queue.processing.contains key = true)
    (after : c.queue.processing.contains key = false) :
    ∃ limit, c.queue.Due c.rung key limit := by
  rw [turn.counted counted key, Nat.lt_min] at failed
  cases turn with
  | added other rung kept =>
    simp [processed] at after
  | took other queue task free taken holds result asked =>
    obtain ⟨_, rest, _, rfl⟩ := WorkQueue.take?_eq_some.mp taken
    simp [Table.contains_insert, processed] at after
  | failed task later other result now mine holds held known asked again =>
    have same := b.queue.addRateLimited_processing now other
    simp [same, processed] at after
  | renewed task later other now delay mine holds held result asked fits =>
    simp [WorkQueue.addAfter_processing, processed] at after
  | released task later other result mine holds gone known asked =>
    have same : key = other := by simpa [Table.contains_erase, processed] using after
    subst same
    have minds := minded mover task key mine holds
    cases again : isFailure result with
    | true =>
      obtain ⟨⟨moment, delay⟩, requested⟩ := Option.ne_none_iff_exists'.mp (asked again)
      exact ⟨_, (minds.due moment delay requested).congr (by simp) (by simp)⟩
    | false =>
      exact (Nat.ne_of_gt failed.1 (minds.calm result known again)).elim
  | _ => exact absurd (processed.symm.trans after) (by decide)

theorem Turn.tended (turn : Turn b mover c) (orderly : b.Orderly) (minded : b.Minded)
    (counted : b.Counted) (h : b.Tended) : c.Tended := by
  intro key failed
  -- the key was tended or in hand before, and a hand that lets go of it knows that it is due
  have stood := (turn.failed_before orderly counted failed).elim (h key) .inr
  rcases stood with ⟨limit, due⟩ | processed
  · rcases turn.due orderly due with due | ⟨_, taken⟩
    · exact .inl ⟨limit, due⟩
    · exact .inr taken
  · cases after : c.queue.processing.contains key with
    | true => exact .inr rfl
    | false => exact .inl (turn.due_of_released minded counted failed processed after)

structure Balanced (first : Option Health.Status) (b : Books) : Prop where
  counted : b.Counted
  handed : b.Handed
  told : b.Told first
  minded : b.Minded
  tended : b.Tended

theorem Balanced.turn {first : Option Health.Status} (h : b.Balanced first) (turn : Turn b mover c)
    (orderly : b.Orderly) : c.Balanced first where
  counted := turn.counted h.counted
  handed := turn.handed h.handed
  told := turn.told_kept h.told
  minded := turn.minded orderly h.minded
  tended := turn.tended orderly h.minded h.counted h.tended

end Books

end MonitorOperator.System
