import MonitorOperator.Worker

/-! What a worker has learnt before it releases a key: that nothing is left to do for its monitor,
or that the key comes again. This is so whatever the replies are, and whatever happens between two
calls. -/

namespace MonitorOperator

namespace Pass

def Call.IsAside : Call → Prop
  | .getMonitor _ => False
  | .updateStatus _ => False
  | _ => True

def Aside {α : Type} (post : α → Prop) : Steps α → Prop
  | .finish a => post a
  | .call c next => c.IsAside ∧ ∀ r, Aside post (next r)

theorem Aside.bind {α β : Type} {mid : α → Prop} {post : β → Prop} {p : Steps α} {f : α → Steps β}
    (h : Aside mid p) (next : ∀ a, mid a → Aside post (f a)) : Aside post (p >>= f) := by
  induction p with
  | finish a => exact next a h
  | call c rest ih => exact ⟨h.1, fun r => ih r (h.2 r)⟩

def Retryable {α : Type} (r : Except Error α) : Prop :=
  ∀ cause, r = .error cause → cause.isRetryable = true

theorem retryable_ok {α : Type} (a : α) : Retryable (.ok a : Except Error α) :=
  fun _ h => nomatch h

theorem retryable_store {α : Type} (e : StoreError) :
    Retryable (.error (.store e) : Except Error α) := by
  intro cause h
  cases h
  rfl

theorem retryable_owned (m : Monitor) (pod : Pod) : Retryable (owned m pod) := by
  unfold owned
  split
  · exact retryable_ok _
  · intro cause h
    cases h
    rfl

theorem ensureChild_aside (t : Child.Template) (m : Monitor) :
    Aside Retryable (ensureChild t m) := by
  refine ⟨trivial, fun r => ?_⟩
  cases r with
  | ok pod => exact retryable_owned m pod
  | error e =>
    change Aside Retryable (if _ then _ else _)
    split
    · exact retryable_store e
    · refine ⟨trivial, fun r => ?_⟩
      cases r with
      | ok pod => exact ⟨trivial, fun _ => retryable_ok _⟩
      | error e =>
        change Aside Retryable (if _ then _ else _)
        split
        · exact retryable_store e
        · refine ⟨trivial, fun r => ?_⟩
          cases r with
          | ok pod => exact retryable_owned m pod
          | error e => exact retryable_store e

/-- A move after which nothing is done until a change writes another status, or is out of the last
phase. -/
def Sensible (m : Monitor) (r : Except Error Move) : Prop :=
  Retryable r ∧ ∀ next, r = .ok next → next.action = .awaitChange →
    m.status.changed next.status = true ∨ m.status.phase = .completed

theorem sensible_requeue (m : Monitor) (status : MonitorStatus) (delay : Duration)
    (failure : EventReason) :
    Sensible m (.ok ⟨status, .requeue delay, failure⟩) := by
  refine ⟨retryable_ok _, fun next h wait => ?_⟩
  cases h
  contradiction

theorem changed_of_phase {observed desired : MonitorStatus} (h : observed.phase ≠ desired.phase) :
    observed.changed desired = true := by
  simp [MonitorStatus.changed, h]

theorem Sensible.map {m : Monitor} {r : Except Error Found} {f : Found → Move} (h : Retryable r)
    (sensible : ∀ found, Sensible m (.ok (f found))) : Sensible m (r.map f) := by
  cases r with
  | ok found => exact sensible found
  | error cause =>
    refine ⟨fun other eq => ?_, fun _ eq => nomatch eq⟩
    cases eq
    exact h cause rfl

theorem sensible_afterChild (d : Delays) {m : Monitor} (running : m.status.phase = .running)
    (found : Found) : Sensible m (.ok (afterChild d m found)) := by
  cases found with
  | created => exact sensible_requeue m _ _ _
  | existing pod =>
    simp only [afterChild]
    split
    · refine ⟨retryable_ok _, fun next h _ => ?_⟩
      cases h
      exact .inl (changed_of_phase (by rw [running]; exact nofun))
    · exact sensible_requeue m _ _ _

theorem start_aside (d : Delays) (t : Child.Template) (m : Monitor) :
    Aside (Sensible m) (move.start d t m) := by
  refine ⟨trivial, fun found => ?_⟩
  cases found with
  | none => exact sensible_requeue m _ _ _
  | some _ =>
    refine (ensureChild_aside t m).bind fun r retryable => ?_
    exact Sensible.map retryable fun _ => sensible_requeue m _ _ _

theorem move_aside (d : Delays) (t : Child.Template) (m : Monitor) :
    Aside (Sensible m) (move d t m) := by
  unfold move
  split
  · rename_i unset
    refine ⟨retryable_ok _, fun next h _ => ?_⟩
    cases h
    exact .inl (changed_of_phase (by rw [unset]; exact nofun))
  · exact start_aside d t m
  · exact start_aside d t m
  · rename_i running
    refine (ensureChild_aside t m).bind fun r retryable => ?_
    exact Sensible.map retryable (sensible_afterChild d running)
  · rename_i completed
    exact ⟨retryable_ok _, fun _ _ _ => .inr completed⟩
  · exact ⟨trivial, fun _ => sensible_requeue m _ _ _⟩

end Pass

namespace Worker

/-- What replies can be relied on for: a monitor that was read by a key has that key. -/
def Faithful : (c : Call) → Reply c → Prop
  | .pass (.getMonitor key), .ok m => m.key = key
  | _, _ => True

/-- A reply after which the text of a key may be released: its monitor is completed or gone, or its
status was written, which is a change; or the text is added anew. -/
def Learns (text : String) : (c : Call) → Reply c → Prop
  | .pass (.getMonitor key), .ok m => Key.parse text = .ok key ∧ m.status.phase = .completed
  | .pass (.getMonitor key), .error e => Key.parse text = .ok key ∧ e.isNotFound = true
  | .pass (.updateStatus m), .ok _ => Key.parse text = .ok m.key
  | .addAfter key _, _ => key = text
  | .addRateLimited key, _ => key = text
  | _, _ => False

/-- A text that a worker holds, with whether it may be released, or one that it has released. -/
inductive Grip where
  | holding (known : Prop)
  | released

def Call.isDone : Call → Bool
  | .done _ => true
  | _ => false

def Grip.after (text : String) (c : Call) (r : Reply c) : Grip → Grip
  | .released => .released
  | .holding known => if c.isDone then .released else .holding (known ∨ Learns text c r)

/-- A worker that releases nothing but the text it holds, and only once it may. -/
def Minds {α : Type} (text : String) (post : Grip → α → Prop) : Grip → Steps α → Prop
  | grip, .finish a => post grip a
  | grip, .call c next =>
    (∀ key, c = .done key → key = text ∧ ∃ known, grip = .holding known ∧ known) ∧
      ∀ r, Faithful c r → Minds text post (grip.after text c r) (next r)

theorem Minds.bind {α β : Type} {text : String} {mid : Grip → α → Prop} {post : Grip → β → Prop}
    {p : Steps α} {f : α → Steps β} {grip : Grip} (h : Minds text mid grip p)
    (next : ∀ grip a, mid grip a → Minds text post grip (f a)) :
    Minds text post grip (p >>= f) := by
  induction p generalizing grip with
  | finish a => exact next grip a h
  | call c rest ih => exact ⟨h.1, fun r faithful => ih r (h.2 r faithful)⟩

theorem Minds.weaken {text : String} {p : Steps Unit} {known more : Prop} (h : known → more)
    (minds : Minds text (fun grip _ => grip = .released) (.holding known) p) :
    Minds text (fun grip _ => grip = .released) (.holding more) p := by
  induction p generalizing known more with
  | finish a => exact nomatch minds
  | call c rest ih =>
    refine ⟨fun key eq => ?_, fun r faithful => ?_⟩
    · obtain ⟨same, _, holding, yes⟩ := minds.1 key eq
      cases holding
      exact ⟨same, _, rfl, h yes⟩
    · have later := minds.2 r faithful
      cases released : c.isDone with
      | true => simpa [Grip.after, released] using later
      | false =>
        simp only [Grip.after, released, Bool.false_eq_true, if_false] at later ⊢
        exact ih r (Or.imp_left h) later

theorem ofPass_bind {α β : Type} (p : Pass.Steps α) (f : α → Pass.Steps β) :
    ofPass (p >>= f) = ofPass p >>= fun a => ofPass (f a) := by
  induction p with
  | finish a => rfl
  | call c next ih =>
    exact congrArg (Program.call (Call.pass c)) (funext fun r => ih r)

theorem minds_of_aside {α : Type} {text : String} {post : α → Prop} {known : Prop}
    {p : Pass.Steps α}
    (h : Pass.Aside post p) :
    Minds text (fun grip a => grip = .holding known ∧ post a) (.holding known) (ofPass p) := by
  induction p with
  | finish a => exact ⟨rfl, h⟩
  | call c next ih =>
    refine ⟨fun _ eq => (nomatch eq), fun r _ => ?_⟩
    have nothing : Learns text (.pass c) r = False := by
      cases c with
      | getMonitor key => exact h.1.elim
      | updateStatus m => exact h.1.elim
      | _ => rfl
    have still : Grip.after text (.pass c) r (.holding known) = .holding known := by
      simp [Grip.after, Call.isDone, nothing]
    rw [still]
    exact ih r (h.2 r)

theorem minds_call {α : Type} {text : String} {post : Grip → α → Prop} {known : Prop} {c : Call}
    {next : Reply c → Steps α} (keeps : c.isDone = false)
    (go : ∀ r, Faithful c r → Minds text post (.holding (known ∨ Learns text c r)) (next r)) :
    Minds text post (.holding known) (.call c next) := by
  refine ⟨fun key eq => ?_, fun r faithful => ?_⟩
  · rw [eq] at keeps
    contradiction
  · simp only [Grip.after, keeps, Bool.false_eq_true, if_false]
    exact go r faithful

def Passed (grip : Grip) (r : Except Error Pass.Action) : Prop :=
  ∃ known, grip = .holding known ∧ (r = .ok .awaitChange → known) ∧
    ∀ cause, r = .error cause → cause.isRetryable = false → known

theorem passed_retryable {known : Prop} {cause : Error} (h : cause.isRetryable = true) :
    Passed (.holding known) (.error cause) := by
  refine ⟨known, rfl, fun eq => (nomatch eq), fun other eq never => ?_⟩
  cases eq
  rw [h] at never
  contradiction

theorem passed_ok {known : Prop} {action : Pass.Action} (h : action = .awaitChange → known) :
    Passed (.holding known) (.ok action) :=
  ⟨known, rfl, fun eq => h (Except.ok.inj eq), fun _ eq => nomatch eq⟩

theorem conclude_minds {text : String} {m : Monitor} {next : Pass.Move} {known : Prop}
    (parsed : Key.parse text = .ok m.key)
    (sensible : next.action = .awaitChange → m.status.changed next.status = true ∨ known) :
    Minds text Passed (.holding known) (ofPass (Pass.conclude m next)) := by
  unfold Pass.conclude
  cases changed : m.status.changed next.status with
  | false => exact passed_ok fun wait => (sensible wait).resolve_left (by simp [changed])
  | true =>
    refine minds_call rfl fun r _ => ?_
    cases r with
    | error e => exact passed_retryable rfl
    | ok written => exact minds_call rfl fun _ _ => passed_ok fun _ => .inl (.inr parsed)

theorem ofMonitor_minds {text : String} {d : Pass.Delays} {t : Child.Template} {m : Monitor}
    {known : Prop} (parsed : Key.parse text = .ok m.key)
    (completed : m.status.phase = .completed → known) :
    Minds text Passed (.holding known) (ofPass (Pass.ofMonitor d t m.key m)) := by
  rw [Pass.ofMonitor, ofPass_bind]
  refine (minds_of_aside (Pass.move_aside d t m)).bind fun grip r ⟨same, retryable, sensible⟩ => ?_
  subst same
  cases r with
  | ok next =>
    exact conclude_minds parsed fun wait => (sensible next rfl wait).imp_right completed
  | error e =>
    cases e with
    | childNotOwned pod owner =>
      refine minds_call rfl fun _ _ => ?_
      exact conclude_minds parsed fun wait => nomatch wait
    | _ => exact passed_retryable (retryable _ rfl)

def NamesNothing (text : String) : Prop := ∀ key, Key.parse text ≠ .ok key

theorem sync_minds {text : String} {d : Pass.Delays} {t : Child.Template} {known : Prop}
    (nothing : NamesNothing text → known) :
    Minds text Passed (.holding known) (ofPass (Pass.sync d t text)) := by
  unfold Pass.sync
  split
  · rename_i key parsed
    refine minds_call rfl fun r faithful => ?_
    cases r with
    | ok m =>
      have same : m.key = key := faithful
      subst same
      exact ofMonitor_minds parsed fun completed => .inr ⟨parsed, completed⟩
    | error e =>
      change Minds text Passed _ (ofPass (if _ then _ else _))
      split
      · rename_i missing
        exact passed_ok fun _ => .inr ⟨parsed, missing⟩
      · exact passed_retryable rfl
  · rename_i cause malformed
    refine ⟨_, rfl, fun eq => (nomatch eq), fun _ _ _ => nothing fun key parsed => ?_⟩
    rw [malformed] at parsed
    contradiction

def MayRelease {α : Type} (grip : Grip) (_ : α) : Prop := ∃ known, grip = .holding known ∧ known

theorem follow_minds {text : String} {grip : Grip} {r : Except Error Pass.Action}
    (passed : Passed grip r) : Minds text MayRelease grip (follow text r) := by
  obtain ⟨known, rfl, waiting, dropped⟩ := passed
  cases r with
  | ok action =>
    refine minds_call rfl fun _ _ => minds_call rfl fun _ _ => ?_
    cases action with
    | requeue delay => exact minds_call rfl fun _ _ => ⟨_, rfl, .inr rfl⟩
    | awaitChange => exact ⟨_, rfl, .inl (.inl (waiting rfl))⟩
  | error cause =>
    simp only [follow]
    split
    · refine minds_call rfl fun delay _ => minds_call rfl fun _ _ => ?_
      refine minds_call rfl fun attempts _ => minds_call rfl fun _ _ => ?_
      have added : (((known ∨ Learns text (.addRateLimited text) delay) ∨ False) ∨ False) ∨ False :=
        .inl (.inl (.inl (.inr rfl)))
      cases cause with
      | store e => exact minds_call rfl fun _ _ => ⟨_, rfl, .inl added⟩
      | _ => exact ⟨_, rfl, added⟩
    · rename_i final
      have may := dropped cause rfl (by simpa using final)
      exact minds_call rfl fun _ _ => minds_call rfl fun _ _ => ⟨_, rfl, .inl (.inl may)⟩

/-- A worker releases the text it was given, and only once it may: its monitor is gone or completed,
its status was written, or the text was added again. -/
theorem serve_minds (text : String) (d : Pass.Delays) (t : Child.Template) :
    Minds text (fun grip _ => grip = .released) (.holding (NamesNothing text))
      (serve d t text) := by
  refine minds_call rfl fun _ _ => minds_call rfl fun start _ => ?_
  refine (sync_minds fun nothing => .inl (.inl nothing)).bind fun grip r passed => ?_
  refine (follow_minds passed).bind fun grip outcome may => ?_
  obtain ⟨known, rfl, yes⟩ := may
  refine minds_call rfl fun _ _ => minds_call rfl fun _ _ => minds_call rfl fun _ _ => ?_
  refine ⟨fun key eq => ⟨(Call.done.inj eq).symm, _, rfl, .inl (.inl (.inl yes))⟩, fun _ _ => ?_⟩
  exact ⟨fun _ eq => (nomatch eq), fun _ _ => rfl⟩

end Worker

end MonitorOperator
