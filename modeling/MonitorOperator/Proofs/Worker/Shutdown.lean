import MonitorOperator.Proofs.Worker.Crew

/-! Workers after the shutdown of their queue: they finish what they hold and end, unless they fall at
a request beyond the end of the clock. Main statement: `shutdown_is_final`. -/

namespace MonitorOperator.Crew

variable {s t u : Crew} {m : Move}

/-- What can have become of a crew since the shutdown of its queue. -/
structure Closed (s t : Crew) : Prop where
  queue : s.queue.Closed t.queue
  served : ∀ (i : Nat) key, t.lobby.consumers[i]? = some (.served key) →
    s.lobby.consumers[i]? = some (.served key)
  serving : ∀ (w i : Nat) key log rest, t.loops[w]? = some (.serving i key log rest) →
    ∃ before more, s.loops[w]? = some (.serving i key before more)

theorem not_served (sound : s.Sound) {i : Nat} (visiting : .visiting i ∈ s.loops) (key : String) :
    s.lobby.consumers[i]? ≠ some (.served key) := by
  intro served
  have visits : s.lobby.is Consumer.visits i = true := sound.loops _ visiting
  rw [Lobby.is_of served] at visits
  contradiction

theorem serving_before (sound : s.Sound) {lobby : Lobby} {w i : Nat} {key : String}
    {log : List (Program.Exchange Worker.Reply)} {rest : Worker.Steps Unit}
    (served : ∀ (i : Nat) key, lobby.consumers[i]? = some (.served key) →
      s.lobby.consumers[i]? = some (.served key))
    (busy : (s.hear lobby).loops[w]? = some (.serving i key log rest)) :
    s.loops[w]? = some (.serving i key log rest) := by
  obtain ⟨loop, before, heard⟩ := Option.map_eq_some_iff.mp ((List.getElem?_map ..).symm.trans busy)
  cases loop with
  | visiting j =>
    simp only [Loop.hear] at heard
    split at heard
    · rename_i other there
      exact (not_served sound (List.mem_of_getElem? before) other (served j other there)).elim
    · contradiction
    · contradiction
  | _ => exact heard ▸ before

theorem Called.idles {a b : Lobby} {released : Option String} (called : Called a b released)
    (down : a.traffic.queue.shuttingDown = true) (empty : a.traffic.queue.waiting = ∅) :
    a.traffic.queue.Idles b.traffic.queue released := by
  cases called with
  | aside same => exact .of_eq (congrArg (·.traffic.queue) same)
  | queue call step => exact (Lobby.step_turn step).idles down empty

theorem Stepped.idles (stepped : Stepped s m t) (down : s.queue.shuttingDown = true)
    (empty : s.queue.waiting = ∅) : s.queue.Idles t.queue (s.released? m) := by
  cases stepped with
  | lobby m patient lobby turn => exact turn.idles down empty
  | entered w idle => exact .of_eq rfl
  | worked w answer i key log c next r lobby busy called => exact called.idles down empty
  | fell w answer i key log c next lobby busy failed called => exact called.idles down empty

theorem Closed.start (sound : s.Sound) (down : s.step? (.lobby (.call .shutdown)) = some t) :
    s.Closed t := by
  have stepped := stepped down
  cases stepped with
  | lobby m patient lobby turn =>
    cases turn with
    | called c traffic other step =>
      cases Option.some.inj step
      refine ⟨WorkQueue.closed_shutdown _, fun _ _ => id, fun w i key log rest busy => ?_⟩
      exact ⟨log, rest, serving_before sound (fun _ _ => id) busy⟩

theorem getElem?_set_cases {loops : List Loop} {w v : Nat} {new loop : Loop}
    (there : (loops.set w new)[v]? = some loop) : v = w ∧ loop = new ∨ loops[v]? = some loop := by
  rw [List.getElem?_set] at there
  split at there
  · rename_i same
    split at there
    · exact .inl ⟨same.symm, (Option.some.inj there).symm⟩
    · contradiction
  · exact .inr there

theorem resume_serving {i j : Nat} {key other : String} {rest more : Worker.Steps Unit}
    {log before : List (Program.Exchange Worker.Reply)}
    (same : Loop.resume i key before more = .serving j other log rest) :
    i = j ∧ key = other ∧ before = log ∧ more = rest := by
  cases more with
  | finish a => contradiction
  | call c next =>
    cases same
    exact ⟨rfl, rfl, rfl, rfl⟩

theorem Closed.step (h : s.Closed t) (sound : t.Sound) (stepped : Stepped t m u) : s.Closed u := by
  have queue := h.queue.idles (stepped.idles h.queue.down h.queue.waiting)
  cases stepped with
  | lobby m patient lobby turn =>
    have served (i : Nat) (key : String) (there : lobby.consumers[i]? = some (.served key)) :
        t.lobby.consumers[i]? = some (.served key) := turn.served_before h.queue.down there
    refine ⟨queue, fun i key there => h.served i key (served i key there), ?_⟩
    intro w i key log rest busy
    exact h.serving w i key log rest (serving_before sound served busy)
  | entered w idle =>
    refine ⟨queue, fun i key there => h.served i key ?_, fun v i key log rest busy => ?_⟩
    · exact Lobby.Turn.came.served_before h.queue.down there
    · rcases getElem?_set_cases busy with ⟨_, visiting⟩ | busy
      · contradiction
      · exact h.serving v i key log rest busy
  | worked w answer i key log c next r lobby busy called =>
    refine ⟨queue, fun j other there => h.served j other (called.consumers ▸ there), ?_⟩
    intro v j other log rest there
    rcases getElem?_set_cases there with ⟨rfl, resumed⟩ | there
    · obtain ⟨rfl, rfl, _, _⟩ := resume_serving resumed.symm
      exact h.serving v i key _ _ busy
    · exact h.serving v j other log rest there
  | fell w answer i key log c next lobby busy failed called =>
    refine ⟨queue, fun j other there => h.served j other (called.consumers ▸ there), ?_⟩
    intro v j other log rest there
    rcases getElem?_set_cases there with ⟨_, fallen⟩ | there
    · contradiction
    · exact h.serving v j other log rest there

/-- Bounds the moves of a worker, and those that its next visit takes. -/
def effortOf : Loop → Nat
  | .idle => 8
  | .serving _ _ log _ => 29 - log.length
  | _ => 0

def effort (s : Crew) : Nat := s.lobby.effort + (s.loops.map effortOf).sum

theorem effortOf_hear (sound : s.Sound) {lobby : Lobby} {loop : Loop} (there : loop ∈ s.loops)
    (served : ∀ (i : Nat) key, lobby.consumers[i]? = some (.served key) →
      s.lobby.consumers[i]? = some (.served key)) :
    effortOf (loop.hear s.delays s.template lobby.consumers) = effortOf loop := by
  cases loop with
  | visiting i =>
    simp only [Loop.hear]
    split
    · rename_i key given
      exact (not_served sound there key (served i key given)).elim
    · rfl
    · rfl
  | _ => rfl

theorem effort_hear (sound : s.Sound) {lobby : Lobby}
    (served : ∀ (i : Nat) key, lobby.consumers[i]? = some (.served key) →
      s.lobby.consumers[i]? = some (.served key)) :
    (s.hear lobby).effort = lobby.effort + (s.loops.map effortOf).sum := by
  have same : (s.hear lobby).loops.map effortOf = s.loops.map effortOf := by
    rw [hear, List.map_map]
    exact List.map_congr_left fun loop there => effortOf_hear sound there served
  rw [effort, same]
  rfl

theorem effort_come (lobby : Lobby) :
    Lobby.effort { lobby with consumers := lobby.consumers ++ [.arriving] } ≤ lobby.effort + 7 := by
  simp only [Lobby.effort, List.map_append, List.sum_append, List.length_append, List.map_cons,
    List.map_nil, List.sum_cons, List.sum_nil, List.length_cons, List.length_nil, Lobby.effortOf]
  split <;> omega

theorem effortOf_resume {i : Nat} {key : String} {log : List (Program.Exchange Worker.Reply)}
    {e : Program.Exchange Worker.Reply} (few : log.length < 20) (rest : Worker.Steps Unit) :
    effortOf (.resume i key (log ++ [e]) rest) < 29 - log.length := by
  cases rest with
  | finish a =>
    simp only [Loop.resume, effortOf]
    omega
  | call c next =>
    simp only [Loop.resume, effortOf, List.length_append, List.length_singleton]
    omega

theorem Called.effort {a b : Lobby} {released : Option String} (called : Called a b released)
    (down : a.traffic.queue.shuttingDown = true) (empty : a.traffic.queue.waiting = ∅) :
    b.effort = a.effort := by
  have idles := called.idles down empty
  cases called with
  | aside same => rw [same]
  | queue call step =>
    cases Lobby.step_turn step
    exact Lobby.effort_called down idles

theorem effort_lt (sound : s.Sound) (stepped : Stepped s m t) (own : m.own = true)
    (down : s.queue.shuttingDown = true) (empty : s.queue.waiting = ∅) : t.effort < s.effort := by
  cases stepped with
  | lobby m patient lobby turn =>
    rw [effort_hear sound fun i key there => turn.served_before down there]
    exact Nat.add_lt_add_right (Lobby.effort_lt sound.lobby.enrolled turn own) _
  | entered w idle =>
    have more := effort_come s.lobby
    have moved := Lobby.sum_map_set idle (.visiting s.lobby.consumers.length) effortOf
    simp only [effort, effortOf] at moved ⊢
    omega
  | worked w answer i key log c next r lobby busy called =>
    have same := called.effort down empty
    have few := Worker.length_lt_of_leaves (sound.loops _ (List.mem_of_getElem? busy)).1
    have moved := Lobby.sum_map_set busy (.resume i key (log ++ [⟨c, r⟩]) (next r)) effortOf
    have less : effortOf (.resume i key (log ++ [⟨c, r⟩]) (next r)) < 29 - log.length :=
      effortOf_resume few (next r)
    have worth : effortOf (.serving i key log (.call c next)) = 29 - log.length := rfl
    simp only [effort, same]
    omega
  | fell w answer i key log c next lobby busy failed called =>
    have same := called.effort down empty
    have few := Worker.length_lt_of_leaves (sound.loops _ (List.mem_of_getElem? busy)).1
    have moved := Lobby.sum_map_set busy (.fallen key) effortOf
    have worth : effortOf (.serving i key log (.call c next)) = 29 - log.length := rfl
    have nothing : effortOf (.fallen key) = 0 := rfl
    simp only [effort, same]
    omega

theorem length_le_effort {moves : List Move} (closed : s.Closed t) (sound : t.Sound)
    (own : ∀ m ∈ moves, m.own = true) (run : after? step? t moves = some u) :
    moves.length + u.effort ≤ t.effort := by
  induction moves generalizing t with
  | nil =>
    cases Option.some.inj run
    exact Nat.le_of_eq (Nat.zero_add _)
  | cons m moves ih =>
    rw [after?_cons, Option.bind_eq_some_iff] at run
    obtain ⟨v, step, rest⟩ := run
    have stepped := stepped step
    have nearer := effort_lt sound stepped (own m (List.mem_cons_self ..)) closed.queue.down
      closed.queue.waiting
    have tail := ih (closed.step sound stepped) (sound.step stepped)
      (fun m member => own m (List.mem_cons_of_mem _ member)) rest
    rw [List.length_cons]
    omega

theorem work_step {w i : Nat} {key : String} {log : List (Program.Exchange Worker.Reply)}
    {c : Worker.Call} {next : Worker.Reply c → Worker.Steps Unit}
    (busy : s.loops[w]? = some (.serving i key log (.call c next)))
    (answer : (c : Worker.Call) → Worker.Reply c) :
    ∃ r t, s.step? (.work w answer) = some t ∧
      (t.loops[w]? = some (.resume i key (log ++ [⟨c, r⟩]) (next r)) ∨
        t.loops[w]? = some (.fallen key)) ∧
      Called s.lobby t.lobby ((onQueue? i c).bind Traffic.Call.released?) := by
  obtain ⟨lobby, called⟩ := called?_isSome s.lobby i c
  have inside : w < s.loops.length := (List.getElem?_eq_some_iff.mp busy).1
  refine ⟨reply s.lobby answer c, ?_⟩
  simp only [step?, busy, called, Option.map_some]
  refine ⟨_, rfl, ?_, called_of_called? called⟩
  rw [List.getElem?_set_self inside]
  cases fails s.lobby c with
  | true => exact .inr rfl
  | false => exact .inl rfl

/-- Once nobody has a move left after the shutdown, every worker has ended or fallen. -/
theorem Quiet.ended (quiet : s.Quiet) (sound : s.Sound) (down : s.queue.shuttingDown = true) :
    (∀ loop ∈ s.loops, loop = .ended ∨ ∃ key, loop = .fallen key) ∧
      ∀ i, s.lobby.is Consumer.visits i = false := by
  have still : s.lobby.Quiet := by
    intro m own
    have nobody : s.loops.any (Loop.abandons m) = false := by
      cases m with
      | giveUp i => contradiction
      | _ => simp [Loop.abandons]
    have none := quiet (.lobby m) own
    simpa only [step?, nobody, Bool.false_eq_true, if_false, Option.map_eq_none_iff] using none
  have alone := sound.lobby.visits_down still down
  refine ⟨fun loop member => ?_, alone⟩
  obtain ⟨w, there⟩ := List.getElem?_of_mem member
  have fits := sound.loops loop member
  cases loop with
  | idle =>
    have none := quiet (.enter w) rfl
    simp [step?, there, Lobby.step?] at none
  | visiting i =>
    have visits : s.lobby.is Consumer.visits i = true := fits
    rw [alone i] at visits
    contradiction
  | serving i key log rest =>
    obtain ⟨_, c, next, rfl⟩ := fits
    obtain ⟨r, t, step, _⟩ := work_step there fun c => Classical.choice inferInstance
    rw [quiet (.work w _) rfl] at step
    contradiction
  | fallen key => exact .inr ⟨key, rfl⟩
  | ended => exact .inl rfl

theorem not_held_of_last {a b : Lobby} {i : Nat} {key : String} {c : Worker.Call} {r : Worker.Reply c}
    {log : List (Program.Exchange Worker.Reply)}
    (called : Called a b ((onQueue? i c).bind Traffic.Call.released?))
    (down : a.traffic.queue.shuttingDown = true) (empty : a.traffic.queue.waiting = ∅)
    (released : ⟨.done key, ()⟩ ∈ log ++ [⟨c, r⟩]) :
    ⟨.done key, ()⟩ ∈ log ∨ b.traffic.queue.processing.contains key = false := by
  rcases List.mem_append.mp released with before | last
  · exact .inl before
  · cases List.mem_singleton.mp last
    refine .inr ?_
    cases called.idles down empty with
    | released _ queue =>
      rw [queue, Table.contains_erase]
      simp

/-- A worker at work after the shutdown comes to the end of it by its own calls, whatever the
replies, and releases its key, unless it falls. The induction is on the replies that are to come. -/
theorem finishes {w i : Nat} {key : String} {log : List (Program.Exchange Worker.Reply)}
    {rest : Worker.Steps Unit} (answers : List ((c : Worker.Call) → Worker.Reply c))
    (sound : s.Sound) (down : s.queue.shuttingDown = true) (empty : s.queue.waiting = ∅)
    (busy : s.loops[w]? = some (.serving i key log rest))
    (enough : 20 ≤ log.length + answers.length) :
    ∃ n t, after? step? s ((answers.take n).map (.work w)) = some t ∧
      s.queue.Closed t.queue ∧
      (t.loops[w]? = some .idle ∧
          (⟨.done key, ()⟩ ∈ log ∨ t.queue.processing.contains key = false) ∨
        t.loops[w]? = some (.fallen key)) := by
  induction answers generalizing s log rest with
  | nil =>
    obtain ⟨leaves, c, next, rfl⟩ := sound.loops _ (List.mem_of_getElem? busy)
    have few := Worker.length_lt_of_leaves leaves
    simp only [List.length_nil] at enough
    omega
  | cons answer answers ih =>
    obtain ⟨leaves, c, next, rfl⟩ := sound.loops _ (List.mem_of_getElem? busy)
    obtain ⟨r, u, step, there, called⟩ := work_step busy answer
    have closed : s.queue.Closed u.queue :=
      (WorkQueue.Closed.refl down empty).idles (called.idles down empty)
    have last (released : ⟨.done key, ()⟩ ∈ log ++ [⟨c, r⟩]) :=
      not_held_of_last called down empty released
    have first : after? step? s (((answer :: answers).take 1).map (.work w)) = some u := by
      simp [step, after?]
    have leaves := leaves.step r
    -- it stands after the call and has fewer replies to come, or it has fallen at it
    rcases there with there | fallen
    · cases more : next r with
      | finish a =>
        rw [more] at there leaves
        have released := (Worker.served_of_tells (leaves.tells ⟨rfl, rfl⟩)).2
        rw [List.append_nil] at released
        exact ⟨1, u, first, closed, .inl ⟨there, last released⟩⟩
      | call d after =>
        rw [more] at there
        obtain ⟨n, t, run, later, done⟩ := ih (sound.step (stepped step)) closed.down
          closed.waiting there
          (by simp only [List.length_append, List.length_cons] at enough ⊢; omega)
        refine ⟨n + 1, t, ?_, closed.trans later, done.imp_left (And.imp_right fun released => ?_)⟩
        · simp only [List.take_succ_cons, List.map_cons, after?_cons, step, Option.bind_some, run]
        · rcases released with before | free
          · refine (last before).imp_right fun free => ?_
            apply Bool.eq_false_iff.mpr
            intro held
            rw [later.processing key held] at free
            contradiction
          · exact .inr free
    · exact ⟨1, u, first, closed, .inr fallen⟩

theorem Stepped.fails_of_fallen (stepped : Stepped s m t) {w : Nat} {key : String}
    (fallen : t.loops[w]? = some (.fallen key)) :
    s.loops[w]? = some (.fallen key) ∨ ∃ i log c next,
      s.loops[w]? = some (.serving i key log (.call c next)) ∧ fails s.lobby c = true := by
  cases stepped with
  | lobby m patient lobby turn =>
    left
    obtain ⟨loop, before, heard⟩ :=
      Option.map_eq_some_iff.mp ((List.getElem?_map ..).symm.trans fallen)
    cases loop with
    | visiting i =>
      simp only [Loop.hear] at heard
      split at heard <;> contradiction
    | _ => exact heard ▸ before
  | entered v idle =>
    rcases getElem?_set_cases fallen with ⟨_, visiting⟩ | before
    · contradiction
    · exact .inl before
  | worked v answer i other log c next r lobby busy called =>
    rcases getElem?_set_cases fallen with ⟨_, resumed⟩ | before
    · unfold Loop.resume at resumed
      split at resumed <;> contradiction
    · exact .inl before
  | fell v answer i other log c next lobby busy failed called =>
    rcases getElem?_set_cases fallen with ⟨rfl, same⟩ | before
    · cases same
      exact .inr ⟨i, log, c, next, busy, failed⟩
    · exact .inl before

theorem closed_of_run {later : List Move} (sound : s.Sound)
    (down : s.step? (.lobby (.call .shutdown)) = some t) (run : after? step? t later = some u) :
    s.Closed u ∧ u.Sound := by
  apply after?_invariant (P := fun u => s.Closed u ∧ u.Sound) ?_ later ?_ run
  · rintro v m next ⟨closed, sound⟩ step
    exact ⟨closed.step sound (stepped step), sound.step (stepped step)⟩
  · exact ⟨.start sound down, sound.step (stepped down)⟩

/-- Shutdown is final, wherever it finds a crew, with alarms that were set before it and consumers
that wait. From then on the line and the keys that need work stay as they are, nothing waits, and
keys are only released. Nobody is served, so that no worker begins with a key. A worker that is at
work ends it by its own calls, whatever the replies to them, and releases its key, unless it falls,
which it does at a request beyond the end of the clock and nowhere else. Without anyone from outside
the moves come to an end, and where they do, every worker has ended or fallen and nobody waits. -/
theorem shutdown_is_final (name : String) (bounds : Backoff.Bounds) (d : Pass.Delays)
    (template : Child.Template) (workers : Nat) (moves later : List Move)
    (run : after? step? (new name bounds d template workers) moves = some s)
    (down : s.step? (.lobby (.call .shutdown)) = some t)
    (after : after? step? t later = some u) :
    s.queue.Closed u.queue ∧
      (∀ m v, u.step? m = some v → u.queue.Idles v.queue (u.released? m)) ∧
      (∀ (i : Nat) key, u.lobby.consumers[i]? = some (.served key) →
        s.lobby.consumers[i]? = some (.served key)) ∧
      (∀ (w i : Nat) key log rest, u.loops[w]? = some (.serving i key log rest) →
        (∃ before more, s.loops[w]? = some (.serving i key before more)) ∧
          ∀ answers : List ((c : Worker.Call) → Worker.Reply c), 20 ≤ log.length + answers.length →
            ∃ n v, after? step? u ((answers.take n).map (.work w)) = some v ∧
              (v.loops[w]? = some .idle ∧
                  (⟨.done key, ()⟩ ∈ log ∨ v.queue.processing.contains key = false) ∨
                v.loops[w]? = some (.fallen key))) ∧
      (∀ m v (w : Nat) key, u.step? m = some v → v.loops[w]? = some (.fallen key) →
        u.loops[w]? = some (.fallen key) ∨ ∃ i log c next,
          u.loops[w]? = some (.serving i key log (.call c next)) ∧ fails u.lobby c = true) ∧
      (∀ more v, (∀ m ∈ more, m.own = true) → after? step? u more = some v →
        more.length ≤ u.effort) ∧
      (u.Quiet → (∀ loop ∈ u.loops, loop = .ended ∨ ∃ key, loop = .fallen key) ∧
        ∀ c ∈ u.lobby.consumers,
        c = .dismissed ∨ c = .gone ∨ c ∈ s.lobby.consumers ∧ c.key?.isSome) := by
  obtain ⟨closed, sound⟩ := closed_of_run (sound_of_run run) down after
  have shut := closed.queue.down
  have empty := closed.queue.waiting
  refine ⟨closed.queue, fun m v step => (stepped step).idles shut empty, closed.served, ?_, ?_, ?_,
    ?_⟩
  · intro w i key log rest busy
    refine ⟨closed.serving w i key log rest busy, fun answers enough => ?_⟩
    obtain ⟨n, v, run, _, ends⟩ := finishes answers sound shut empty busy enough
    exact ⟨n, v, run, ends⟩
  · intro m v w key step fallen
    exact (stepped step).fails_of_fallen fallen
  · intro more v own run
    exact Nat.le_of_add_right_le (length_le_effort closed sound own run)
  · intro quiet
    obtain ⟨ended, alone⟩ := quiet.ended sound shut
    refine ⟨ended, fun c member => ?_⟩
    obtain ⟨i, there⟩ := List.getElem?_of_mem member
    have visits := alone i
    rw [Lobby.is_of there] at visits
    cases c with
    | dismissed => exact .inl rfl
    | gone => exact .inr (.inl rfl)
    | served key => exact .inr (.inr ⟨List.mem_of_getElem? (closed.served i key there), rfl⟩)
    | _ => contradiction

theorem shutdown_is_final_for_two : ∃ s t u,
    after? step? (new "monitors" {} {} {} 2)
      [.enter 0, .lobby (.proceed 0), .lobby (.proceed 0), .enter 1, .lobby (.call (.add "a/b")),
        .lobby .signal, .lobby (.proceed 0), .lobby (.proceed 0), .lobby (.proceed 0),
        .lobby (.proceed 1), .lobby (.proceed 1)] = some s ∧
      s.step? (.lobby (.call .shutdown)) = some t ∧
      after? step? t [.lobby .signalAll, .lobby (.proceed 1), .lobby (.proceed 1),
        .lobby (.proceed 1)] = some u ∧
      s.lobby.consumers = [.served "a/b", .blocked] ∧
      u.lobby.consumers = [.served "a/b", .dismissed] ∧ s.queue.Closed u.queue := by
  refine ⟨_, _, _, rfl, rfl, rfl, rfl, rfl, ?_⟩
  exact (shutdown_is_final "monitors" {} {} {} 2
    [.enter 0, .lobby (.proceed 0), .lobby (.proceed 0), .enter 1, .lobby (.call (.add "a/b")),
      .lobby .signal, .lobby (.proceed 0), .lobby (.proceed 0), .lobby (.proceed 0),
      .lobby (.proceed 1), .lobby (.proceed 1)]
    [.lobby .signalAll, .lobby (.proceed 1), .lobby (.proceed 1), .lobby (.proceed 1)]
    rfl rfl rfl).1

/-- Replies for a monitor that runs, with its child in place. -/
def runningReply (m : Monitor) : (c : Worker.Call) → Worker.Reply c
  | .pass (.getMonitor _) => .ok m
  | .pass (.getPod _) => .ok (Child.build m {})
  | .pass (.updateStatus m) => .ok m
  | .pass (.createPod p) => .ok p
  | .pass (.cachedPod _) => none
  | .pass (.report _) => ()
  | .clock => (0 : Moment)
  | .addRateLimited _ => Duration.zero
  | .attempts _ => (0 : Nat)
  | .started | .finished | .forget _ | .addAfter .. | .countRetry | .observe .. | .storeWell
  | .storeFailing _ | .log _ | .done _ | .showDepth => ()

def runningAnswers : List ((c : Worker.Call) → Worker.Reply c) :=
  List.replicate 7 (runningReply {
    metadata := { ns := "a", name := "x", uid := "1" }, status := { phase := .running } })

/-- The last pass on `a/x` asks for a delay beyond the end of the clock: its worker falls with the key,
and nobody has a move left that would release it. -/
theorem unreleased_after_shutdown : ∃ s t u,
    after? step? (new "monitors" {} { resync := WorkQueue.overlong } {} 1)
      [.lobby (.call (.wait nanosPerSecond)), .enter 0, .lobby (.call (.add "a/x")), .lobby .signal,
        .lobby (.proceed 0), .lobby (.proceed 0), .lobby (.leave 0)] = some s ∧
      s.step? (.lobby (.call .shutdown)) = some t ∧
      after? step? t (.lobby .signalAll :: runningAnswers.map (.work 0)) = some u ∧
      u.loops = [.fallen "a/x"] ∧ u.queue.processing.contains "a/x" = true ∧ u.Quiet := by
  refine ⟨_, _, _, rfl, rfl, rfl, rfl, rfl, fun m own => ?_⟩
  cases m with
  | lobby m =>
    cases m with
    | signal => rfl
    | signalAll => rfl
    | proceed i => cases i <;> rfl
    | leave i => rfl
    | _ => contradiction
  | enter w => cases w <;> rfl
  | work w answer => cases w <;> rfl

end MonitorOperator.Crew
