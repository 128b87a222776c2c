import MonitorOperator.Proofs.System.Books
import MonitorOperator.Proofs.System.Steps
import MonitorOperator.Proofs.Worker.Service

/-! A ledger follows its system. The duty of a worker fits what its task says of the pass, the calls
that the duty makes are those that the worker makes, and what a move does to the system is a turn of
the books. -/

namespace MonitorOperator

namespace System

namespace Task

variable {task : Task} {c : Worker.Call} {more : Worker.Reply c → Worker.Steps Unit}

/-- What was done about the result of a pass: when the key was to be added again and with which
delay, and whether the result was told. What is tried again failed for the store, and nothing is
told of a key that is dropped. -/
inductive Accounted :
    Option (Except Error Pass.Action) → Option (Moment × Duration) → Bool → Prop where
  | requeued (moment : Moment) (delay : Duration) :
      Accounted (some (.ok (.requeue delay))) (some (moment, delay)) true
  | awaiting : Accounted (some (.ok .awaitChange)) none true
  | retried (cause : StoreError) (moment : Moment) (delay : Duration) :
      Accounted (some (.error (.store cause))) (some (moment, delay)) true
  | dropped (cause : Error) (final : cause.isRetryable = false) :
      Accounted (some (.error cause)) none false

def Blank (task : Task) : Prop := task.result = none ∧ task.asked = none ∧ task.told = false

def Retrying (task : Task) (cause : Error) : Prop :=
  (∃ e, cause = .store e) ∧ task.result = some (.error cause) ∧
    ∃ moment delay, task.asked = some (moment, delay)

def Fits (task : Task) : Prop :=
  match task.duty with
  | .opening .. => task.Blank
  | .timing .. => task.Blank
  | .passing _ p => task.Blank ∧ ∃ d t log, (Pass.sync d t task.key).Leaves log p
  | .praising _ action => task.result = some (.ok action) ∧ task.asked = none
  | .renewing _ delay => task.result = some (.ok (.requeue delay)) ∧ task.told = true
  | .counting _ cause _ => task.Retrying cause
  | .consulting _ cause _ => task.Retrying cause
  | .warning _ cause _ _ => task.Retrying cause
  | .blaming _ cause => task.Retrying (.store cause)
  | .dropping _ cause =>
    task.result = some (.error cause) ∧ cause.isRetryable = false ∧ task.asked = none ∧
      task.told = false
  | _ => Accounted task.result task.asked task.told

theorem stored_of_leaves {d : Pass.Delays} {t : Child.Template} {key : String} {log : Pass.Log}
    {cause : Error} (leaves : (Pass.sync d t key).Leaves log (.finish (.error cause)))
    (retryable : cause.isRetryable = true) : ∃ e, cause = .store e :=
  (Pass.synced_of_tells (leaves.tells ⟨rfl, rfl⟩)).stored retryable

theorem Fits.next (fits : task.Fits) (site : Deployment) : (task.next site).Fits := by
  obtain ⟨key, duty, calls, result, asked, told⟩ := task
  cases duty with
  | opening d t => exact fits
  | timing d t => exact ⟨fits, d, t, [], .start⟩
  | passing start p =>
    obtain ⟨blank, d, t, log, leaves⟩ := fits
    cases p with
    | call c more => exact ⟨blank, d, t, _, leaves.step _⟩
    | finish result =>
      cases result with
      | ok action => exact ⟨rfl, blank.2.1⟩
      | error cause =>
        cases retryable : cause.isRetryable with
        | true =>
          simp only [Fits, Task.next, Duty.next, retryable, if_true]
          exact ⟨stored_of_leaves leaves retryable, rfl, _, _, rfl⟩
        | false =>
          simp only [Fits, Task.next, Duty.next, retryable, Bool.false_eq_true, if_false]
          exact ⟨trivial, trivial, trivial, blank.2.2⟩
  | praising start action =>
    obtain ⟨rfl, rfl⟩ := fits
    cases action with
    | requeue delay => exact ⟨rfl, rfl⟩
    | awaitChange => exact .awaiting
  | renewing start delay =>
    obtain ⟨rfl, rfl⟩ := fits
    exact .requeued _ delay
  | warning start cause delay attempts =>
    obtain ⟨⟨e, rfl⟩, result, asked⟩ := fits
    exact ⟨⟨e, rfl⟩, result, asked⟩
  | blaming start cause =>
    obtain ⟨_, rfl, moment, delay, rfl⟩ := fits
    exact .retried cause moment delay
  | dropping start cause =>
    obtain ⟨rfl, final, rfl, rfl⟩ := fits
    exact .dropped cause final
  | _ => exact fits

theorem next_key (task : Task) (site : Deployment) : (task.next site).key = task.key := by
  simp only [next]
  split <;> rfl

theorem next_duty (task : Task) (site : Deployment) :
    (task.next site).duty = task.duty.next task.key site := by
  simp only [next]
  split <;> rfl

theorem next_calls (task : Task) (site : Deployment) :
    (task.next site).calls = task.calls + 1 := by
  simp only [next]
  split <;> rfl

theorem next_fallen (task : Task) (site : Deployment) :
    (task.next site).fallen = task.fallen := by
  simp only [next]
  split <;> rfl

theorem next_rest (rest : task.rest = .call c more) (site : Deployment) :
    (task.next site).rest = more (Deployment.reply c site).2 := by
  rw [Task.rest, next_key, next_duty, Duty.rest_next rest site]

theorem held_next (rest : task.rest = .call c more) (site : Deployment) :
    (task.next site).held = heldAfter task.held c := by
  simp only [held, next_duty, next_key]
  rw [Task.rest] at rest
  cases duty : task.duty with
  | passing start p =>
    rw [duty] at rest
    cases p with
    | call c more =>
      cases rest
      rfl
    | finish result =>
      have settled := Duty.settled task.key start result
      rw [rest] at settled
      cases settled with
      | done action => rfl
      | retried cause retryable =>
        simp only [Duty.next, retryable, if_true]
        rfl
      | dropped cause final =>
        simp only [Duty.next, final, Bool.false_eq_true, if_false]
        rfl
  | praising start action =>
    rw [duty] at rest
    cases rest
    cases action <;> rfl
  | warning start cause delay attempts =>
    rw [duty] at rest
    cases rest
    cases cause <;> rfl
  | ended =>
    rw [duty] at rest
    contradiction
  | _ =>
    rw [duty] at rest
    cases rest
    rfl

def Serves (task : Task) : Prop :=
  ∃ d t log, (Worker.serve d t task.key).Leaves log task.rest ∧ log.length = task.calls

theorem Serves.next (serves : task.Serves) (rest : task.rest = .call c more) (site : Deployment) :
    (task.next site).Serves := by
  obtain ⟨d, t, log, leaves, length⟩ := serves
  rw [rest] at leaves
  refine ⟨d, t, log ++ [⟨c, (Deployment.reply c site).2⟩], ?_, ?_⟩
  · rw [next_key, next_rest rest]
    exact leaves.step _
  · rw [next_calls, List.length_append, length, List.length_singleton]

theorem Serves.calls_lt (serves : task.Serves) (rest : task.rest = .call c more) :
    task.calls < 20 := by
  obtain ⟨d, t, log, leaves, length⟩ := serves
  rw [rest] at leaves
  exact length ▸ Worker.length_lt_of_leaves leaves

theorem Accounted.asked {result : Option (Except Error Pass.Action)}
    {asked : Option (Moment × Duration)} {told : Bool} (h : Accounted result asked told) :
    ∃ r, result = some r ∧ (isFailure r = true → asked ≠ none) := by
  cases h with
  | requeued moment delay => exact ⟨_, rfl, fun _ => by simp⟩
  | awaiting => exact ⟨_, rfl, fun again => by contradiction⟩
  | retried cause moment delay => exact ⟨_, rfl, fun _ => by simp⟩
  | dropped cause final =>
    refine ⟨_, rfl, fun again => ?_⟩
    rw [isFailure, final] at again
    contradiction

end Task

theorem status_report (b : Health.Board) (name : String) (r : Health.Report) :
    (b.report name r).status? name = some r.status := by
  simp [Health.Board.report, Health.Board.status?, Table.get?_insert]

theorem setAlarm_operator (d : Deployment) (key : String) (alarm : Option Moment) :
    (d.setAlarm key alarm).operator = d.operator := by cases alarm <;> rfl

namespace Ledger

variable {l : Ledger} {worker : Nat} {task : Task} {c : Worker.Call}
  {more : Worker.Reply c → Worker.Steps Unit}

def booksAfter (l : Ledger) (worker : Nat) (task later : Task) (c : Worker.Call) : Books :=
  { l.books.put worker later with
    queue := (Deployment.reply c l.site).1.operator.queue
    history := (task.entry? worker).toList ++ l.history
    status := (Deployment.reply c l.site).1.operator.board.status? Health.storeComponent }

theorem turn_of_result {start : Moment} {result : Except Error Pass.Action}
    (mine : l.tasks worker = some task) (duty : task.duty = .passing start (.finish result))
    (blank : task.Blank) (rest : task.rest = .call c more)
    (stands : Deployment.fails c l.site = false) :
    l.books.Turn worker (l.booksAfter worker task (task.next l.site) c) := by
  obtain ⟨key, _, calls, _, _, _, fallen⟩ := task
  cases duty
  obtain ⟨rfl, rfl, rfl⟩ := blank
  have settled := Duty.settled key start result
  replace rest : (Duty.passing start (.finish result)).rest key = .call c more := rest
  rw [rest] at settled
  cases settled with
  | done action => exact .ended _ _ key (.ok action) mine rfl rfl rfl rfl rfl
  | retried cause retryable =>
    simp only [booksAfter, Deployment.reply, Deployment.addRateLimited, setAlarm_operator]
    refine .failed _ _ key (.error cause) l.site.now mine rfl ?_ rfl ?_ retryable
    · simp only [Task.next, Duty.next, retryable, if_true]
      rfl
    · refine .inr ⟨?_, stands⟩
      simp only [Task.next, retryable, if_true]
      rfl
  | dropped cause final =>
    refine .ended _ _ key (.error cause) mine rfl ?_ rfl ?_ final
    · simp only [Task.next, Duty.next, final, Bool.false_eq_true, if_false]
      rfl
    · simp only [Task.next, final, Bool.false_eq_true, if_false]

/-- A call of a worker is a turn of the books. -/
theorem turn_of_call (mine : l.tasks worker = some task) (rest : task.rest = .call c more)
    (fits : task.Fits) (stands : Deployment.fails c l.site = false) :
    l.books.Turn worker (l.booksAfter worker task (task.next l.site) c) := by
  -- most calls do not reach the books: what remains are the result of a pass, what is told of it,
  -- the second request of a key and its release
  obtain ⟨key, duty, calls, result, asked, told, fallen⟩ := task
  cases duty with
  | passing start p =>
    obtain ⟨blank, d, t, log, leaves⟩ := fits
    cases p with
    | call c more =>
      cases rest
      obtain ⟨metrics, recorder, same⟩ := Deployment.replyToPass_operator c l.site
      simp only [booksAfter, Deployment.reply, same]
      exact .worked _ _ mine ⟨rfl, rfl, rfl⟩
    | finish result => exact turn_of_result mine rfl blank rest stands
  | praising start action =>
    obtain ⟨rfl, rfl⟩ := fits
    cases rest
    simp only [booksAfter, Deployment.reply, Deployment.setBoard, Health.Board.setHealthy,
      status_report]
    exact .told _ _ (.ok action) mine ⟨by cases action <;> rfl, rfl, rfl⟩
      fun cause other => by contradiction
  | renewing start delay =>
    cases rest
    simp only [booksAfter, Deployment.reply, Deployment.addAfter, setAlarm_operator]
    exact .renewed _ _ key l.site.now delay mine rfl rfl rfl rfl stands
  | blaming start cause =>
    obtain ⟨_, rfl, _⟩ := fits
    cases rest
    simp only [booksAfter, Deployment.reply, Deployment.setBoard, Health.Board.setDegraded,
      status_report]
    exact .told _ _ (.error (.store cause)) mine ⟨rfl, rfl, rfl⟩
      fun failure same => ⟨cause, (Except.error.inj same).symm⟩
  | releasing =>
    obtain ⟨r, rfl, asks⟩ := Task.Accounted.asked fits
    cases rest
    exact .released _ _ key r mine rfl rfl rfl asks
  | ended => contradiction
  | warning start cause delay attempts =>
    cases rest
    cases cause <;> exact .worked _ _ mine ⟨rfl, rfl, rfl⟩
  | _ =>
    cases rest
    exact .worked _ _ mine ⟨rfl, rfl, rfl⟩

theorem turn_of_fall (mine : l.tasks worker = some task) (rest : task.rest = .call c more)
    (fits : task.Fits) (fails : Deployment.fails c l.site = true) :
    l.books.Turn worker (l.booksAfter worker task (task.fall l.site) c) := by
  obtain ⟨key, duty, calls, result, asked, told, fallen⟩ := task
  cases duty with
  | passing start p =>
    obtain ⟨⟨rfl, rfl, rfl⟩, d, t, log, leaves⟩ := fits
    cases p with
    | call c more =>
      cases rest
      contradiction
    | finish result =>
      have settled := Duty.settled key start result
      replace rest : (Duty.passing start (.finish result)).rest key = .call c more := rest
      rw [rest] at settled
      cases settled with
      | retried cause retryable =>
        simp only [booksAfter, Deployment.reply, Deployment.addRateLimited, setAlarm_operator]
        exact .failed _ _ key (.error cause) l.site.now mine rfl rfl rfl (.inl rfl) retryable
      | _ => contradiction
  | renewing start delay =>
    cases rest
    simp only [booksAfter, Deployment.reply, Deployment.addAfter,
      l.queue.addAfter_beyond key fails]
    exact .worked _ _ mine ⟨rfl, rfl, rfl⟩
  | ended => contradiction
  | _ =>
    cases rest
    contradiction

theorem task_of_hand {held : Option String} {rest : Worker.Steps Unit}
    (busy : l.hand worker = .working held rest) :
    ∃ task, l.tasks worker = some task ∧ task.fallen = false ∧ task.held = held ∧
      task.rest = rest := by
  unfold hand at busy
  cases mine : l.tasks worker with
  | none =>
    rw [mine] at busy
    contradiction
  | some task =>
    simp only [mine, Task.hand] at busy
    split at busy
    · contradiction
    · rename_i stands
      cases busy
      exact ⟨task, rfl, by simpa using stands, rfl, rfl⟩

theorem idle_of_hand (free : l.hand worker = .free) : l.tasks worker = none := by
  unfold hand at free
  cases mine : l.tasks worker with
  | none => rfl
  | some task =>
    simp only [mine, Task.hand] at free
    split at free <;> contradiction

/-- What a ledger keeps beside the balance of its books: it says of each worker and of each alarm
what the system says, and what it says of the passes fits while their workers stand. -/
structure Faithful (l : Ledger) : Prop where
  hands : l.system.hands = l.hand
  ringing : l.system.ringing = l.rung.map (·.1)
  tasks : ∀ worker task, l.tasks worker = some task → task.fallen = false →
    task.Fits ∧ task.Serves

structure Follows (l l' : Ledger) : Prop where
  faithful : l'.Faithful
  turn : ∃ mover, Books.Turn l.books mover l'.books

theorem Faithful.aside (h : l.Faithful) {t : System} (hands : t.hands = l.system.hands)
    (ringing : t.ringing = l.system.ringing) (queue : t.queue = l.queue)
    (board : t.site.operator.board = l.board) : l.Follows { l with system := t } := by
  refine ⟨⟨hands.trans h.hands, ringing.trans h.ringing, h.tasks⟩, 0, ?_⟩
  have same : ({ l with system := t } : Ledger).books = l.books := by
    simp only [books, Ledger.queue, Ledger.board, System.queue] at queue board ⊢
    rw [queue, board]
  rw [same]
  exact .same

theorem Faithful.assign (h : l.Faithful) {t : System} {task : Option Task} (entry : Option Entry)
    (hands : t.hands = Function.update l.system.hands worker (Task.hand task))
    (ringing : t.ringing = l.system.ringing)
    (good : ∀ own, task = some own → own.fallen = false → own.Fits ∧ own.Serves) :
    Faithful { (l.assign worker task).enter entry with system := t } := by
  refine ⟨?_, ringing.trans h.ringing, fun other own mine => ?_⟩
  · rw [hands, h.hands]
    exact (l.hand_assign worker task).symm
  · replace mine : Function.update l.tasks worker task other = some own := mine
    rw [Function.update_apply] at mine
    split at mine
    · exact good own mine
    · exact h.tasks other own mine

theorem Faithful.route {t : System} (h : l.Faithful) (routed : Routed l.system t) :
    l.Follows { l.noteRoute with system := t } := by
  -- the router reaches the books only when it wakes a key or forgets one
  cases routed with
  | roused wake todo syncs stage =>
    cases wake with
    | monitor key =>
      simp only [noteRoute, stage]
      refine ⟨⟨h.hands, h.ringing, h.tasks⟩, 0, ?_⟩
      exact .added key.text l.rung fun e member => .inr member
    | forget key =>
      simp only [noteRoute, stage]
      exact ⟨⟨h.hands, h.ringing, h.tasks⟩, 0, .deleted key.text⟩
    | orphan pod owner =>
      simp only [noteRoute, stage]
      exact h.aside rfl rfl rfl rfl
    | nobody =>
      simp only [noteRoute, stage]
      exact h.aside rfl rfl rfl rfl
  | rejoined syncs stage =>
    simp only [noteRoute, stage]
    cases syncs <;> exact h.aside rfl rfl rfl rfl
  | _ =>
    simp only [noteRoute, *]
    exact h.aside rfl rfl rfl rfl

theorem Faithful.ring (h : l.Faithful) (due : Moment) (alarm : Alarm) :
    l.Follows { l.noteRing due alarm with system := l.system.ring due alarm } := by
  cases alarm with
  | relist router =>
    simp only [noteRing, System.ring]
    split <;> exact h.aside rfl rfl rfl rfl
  | add key =>
    by_cases waits : l.queue.waiting.get? key = some due
    · have released := WorkQueue.release?_eq_some.mpr ⟨waits, rfl⟩
      have after : l.system.ring due (.add key) = { l.system with
          site := { l.site with agenda := ⟨l.system.alarms.erase (due, .add key)⟩ }.setQueue
            { l.queue with waiting := l.queue.waiting.erase key }
          ringing := key :: l.system.ringing } := by
        simp only [System.ring, System.queue]
        rw [released]
      simp only [noteRing, waits, if_true, after]
      refine ⟨⟨h.hands, ?_, h.tasks⟩, 0, .rang key due waits⟩
      exact congrArg (key :: ·) h.ringing
    · have kept : l.queue.release? key due = none := by
        rw [WorkQueue.release?, if_neg waits]
      have after : l.system.ring due (.add key) = { l.system with
          site := { l.site with agenda := ⟨l.system.alarms.erase (due, .add key)⟩ } } := by
        simp only [System.ring, System.queue]
        rw [kept]
      simp only [noteRing, waits, if_false, after]
      exact h.aside rfl rfl rfl rfl

theorem Faithful.complete (h : l.Faithful) (key : String) :
    l.Follows { l with rung := l.rung.eraseP (·.1 == key), system := l.system.complete key } := by
  refine ⟨⟨h.hands, ?_, h.tasks⟩, 0, .added key _ fun e member => ?_⟩
  · change l.system.ringing.erase key = _
    rw [h.ringing, List.erase_eq_eraseP', List.eraseP_map]
    rfl
  · by_cases same : e.1 = key
    · exact .inl same
    · exact .inr ((List.mem_eraseP_of_neg (by simpa using same)).mpr member)

theorem Faithful.take (h : l.Faithful) {key : String} {queue : WorkQueue}
    (free : l.system.hands worker = .free) (taken : l.queue.take? = some (key, queue)) :
    l.Follows { l.noteTake worker with
      system := { l.system with site := l.site.setQueue queue }.hand worker (.working (some key)
        (Worker.serve l.site.operator.delays l.site.operator.template key)) } := by
  have idle := idle_of_hand (h.hands ▸ free)
  simp only [noteTake, taken]
  refine ⟨h.assign _ rfl rfl ?_, worker, .took key queue _ idle taken rfl rfl rfl⟩
  rintro own ⟨⟩ _
  exact ⟨⟨rfl, rfl, rfl⟩, _, _, [], .start, rfl⟩

theorem Faithful.leave (h : l.Faithful) {held : Option String}
    (last : l.system.hands worker = .working held (.finish ())) :
    l.Follows { l.noteWork worker with system := l.system.hand worker .free } := by
  rw [h.hands] at last
  obtain ⟨task, mine, _, holds, rest⟩ := task_of_hand last
  have ended := Duty.eq_ended rest
  simp only [noteWork, mine, rest]
  refine ⟨h.assign none rfl rfl (fun own other => by contradiction), worker, ?_⟩
  exact .freed task mine (by simp only [Task.held, ended])

theorem noteWork_of_call (mine : l.tasks worker = some task) (rest : task.rest = .call c more)
    (stands : Deployment.fails c l.site = false) :
    l.noteWork worker =
      (l.assign worker (some (task.next l.site))).enter (task.entry? worker) := by
  simp only [noteWork, mine, rest, stands, Bool.false_eq_true, if_false]

theorem noteWork_of_fall (mine : l.tasks worker = some task) (rest : task.rest = .call c more)
    (fails : Deployment.fails c l.site = true) :
    l.noteWork worker =
      (l.assign worker (some (task.fall l.site))).enter (task.entry? worker) := by
  simp only [noteWork, mine, rest, fails, if_true]

theorem Faithful.call (h : l.Faithful) {held : Option String}
    (busy : l.system.hands worker = .working held (.call c more))
    (stands : Deployment.fails c l.site = false) :
    l.Follows { l.noteWork worker with
      system := { l.system with site := (Deployment.reply c l.site).1 }.hand worker
        (.working (heldAfter held c) (more (Deployment.reply c l.site).2)) } := by
  rw [h.hands] at busy
  obtain ⟨task, mine, standing, rfl, rest⟩ := task_of_hand busy
  obtain ⟨fits, serves⟩ := h.tasks worker task mine standing
  rw [noteWork_of_call mine rest stands]
  refine ⟨h.assign _ ?_ rfl ?_, worker, turn_of_call mine rest fits stands⟩
  · simp only [Task.hand, Task.next_fallen, standing, Task.held_next rest, Task.next_rest rest]
    rfl
  · rintro own ⟨⟩ _
    exact ⟨fits.next l.site, serves.next rest l.site⟩

theorem Faithful.fall (h : l.Faithful) {held : Option String}
    (busy : l.system.hands worker = .working held (.call c more))
    (fails : Deployment.fails c l.site = true) :
    l.Follows { l.noteWork worker with
      system := { l.system with site := (Deployment.reply c l.site).1 }.hand worker
        (.fallen held) } := by
  rw [h.hands] at busy
  obtain ⟨task, mine, standing, rfl, rest⟩ := task_of_hand busy
  obtain ⟨fits, _⟩ := h.tasks worker task mine standing
  rw [noteWork_of_fall mine rest fails]
  refine ⟨h.assign _ rfl rfl ?_, worker, turn_of_fall mine rest fits fails⟩
  rintro own ⟨⟩ _
  contradiction

theorem Faithful.step {l' : Ledger} {move : Move} (h : l.Faithful) (step : l.step? move = some l') :
    l.Follows l' := by
  obtain ⟨t, moved, rfl⟩ := step?_eq_some.mp step
  cases stepped moved with
  | outside op => exact h.aside rfl rfl rfl rfl
  | waited time => exact h.aside rfl rfl rfl rfl
  | routed _ routed => exact h.route routed
  | rang due alarm set late => exact h.ring due alarm
  | completed key rung => exact h.complete key
  | took worker key queue free taken => exact h.take free taken
  | ended worker held last => exact h.leave last
  | called worker held c next busy stands => exact h.call busy stands
  | fell worker held c next busy fails => exact h.fall busy fails

end Ledger

end System

end MonitorOperator
