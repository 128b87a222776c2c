import MonitorOperator.Proofs.Deployment.Reply
import MonitorOperator.Proofs.Event.Deduplication
import MonitorOperator.Proofs.Metrics
import MonitorOperator.Proofs.Pass.Reporting
import MonitorOperator.Proofs.Run
import MonitorOperator.Proofs.Store.Refusal

/-! What operators can see of passes, against what passes have done to the store. Passes run at the
same time, calls fail, the store and the cache change beside them; but no one else writes statuses
or creates children. Main statement: `records_agree_with_store`. -/

namespace MonitorOperator

open Pass (Deed Log Accounted crossingNames)

structure Sortie where
  text : String
  said : Log := []
  rest : Pass.Steps (Except Error Pass.Action)

namespace Sortie

def result? (p : Sortie) : Option (Except Error Pass.Action) :=
  match p.rest with
  | .finish result => some result
  | .call .. => none

theorem rest_of_result {p : Sortie} {result : Except Error Pass.Action}
    (ended : p.result? = some result) : p.rest = .finish result := by
  unfold result? at ended
  split at ended
  · next r last => rw [last, Option.some.inj ended]
  · contradiction

end Sortie

/-- A deployment with all passes that were ever started on it, those that have ended too, and with
what its recorder was given so far. -/
structure Roster where
  site : Deployment
  passes : List Sortie := []
  submitted : List Recorder.Submission := []

inductive Roster.Move where
  | outside (op : Store.Operation)
  /-- the cache has other content now -/
  | cache (c : Cache)
  /-- other calls will fail, miss pods or be followed by a write of someone else -/
  | faults (plan : List (Drill.Endpoint × StoreError)) (staleReads touches failingPublishes : Nat)
  | clock (wall : Moment) (stamp : Recorder.Stamp)
  | start (text : String)
  /-- a pass makes its next call -/
  | call (pass : Nat)

namespace Pass.Deed

/-- What the recorder is given for a deed. -/
def submissions (d : Deployment) (deeds : List Deed) : List Recorder.Submission :=
  (deeds.filterMap event?).map (⟨d.wall, d.stamp, ·⟩)

def count (m : Metrics) : Deed → Metrics
  | .told r => r.count m
  | _ => m

end Pass.Deed

namespace Roster

abbrev store (w : Roster) : Store := w.site.drill.store

abbrev metrics (w : Roster) : Metrics := w.site.operator.metrics

abbrev recorder (w : Roster) : Recorder := w.site.operator.recorder

def deeds (w : Roster) : List Deed := w.passes.flatMap (·.said.deeds)

def crossings (w : Roster) : List Metrics.Edge := w.passes.flatMap (·.said.crossings)

def Settled (w : Roster) : Prop := ∀ p ∈ w.passes, p.result?.isSome

def start {σ τ : Type} (s : Store) (stamp : Recorder.Stamp) (parts : Operator.Parts σ τ) : Roster :=
  { site := { drill := { store := s }, operator := .ofParts parts, stamp := stamp } }

def setDrill (w : Roster) (d : Drill) : Roster := { w with site := { w.site with drill := d } }

def answer (w : Roster) (n : Nat) (p : Sortie) (c : Pass.Call)
    (next : Pass.Reply c → Pass.Steps (Except Error Pass.Action)) : Roster :=
  let (site, reply) := Deployment.replyToPass c w.site
  { site := site
    passes := w.passes.set n { p with said := p.said ++ [⟨c, reply⟩], rest := next reply }
    submitted := w.submitted ++ Deed.submissions w.site (Log.deeds [⟨c, reply⟩]) }

def step? (w : Roster) : Move → Option Roster
  | .outside op =>
    if op.isStatusWrite || op.isCreation then none
    else some (w.setDrill { w.site.drill with store := op.run w.store })
  | .cache c => some { w with site := w.site.setCache c }
  | .faults plan staleReads touches failingPublishes =>
    some (w.setDrill ⟨w.store, plan, staleReads, touches, failingPublishes⟩)
  | .clock wall stamp => some { w with site := { w.site with wall := wall, stamp := stamp } }
  | .start text =>
    let rest := Pass.sync w.site.operator.delays w.site.operator.template text
    some { w with passes := w.passes ++ [{ text := text, rest := rest }] }
  | .call n =>
    match w.passes[n]? with
    | none => none
    | some p =>
      match p.rest with
      | .finish _ => none
      | .call c next => some (w.answer n p c next)

structure Aside (d e : Deployment) : Prop where
  writes : e.drill.store.statusWrites = d.drill.store.statusWrites
  creations : e.drill.store.podsCreated = d.drill.store.podsCreated
  operator : ∃ cache, e.operator = { d.operator with cache := cache }

inductive Stepped (w : Roster) : Roster → Prop where
  | aside (site : Deployment) (aside : Aside w.site site) : Stepped w { w with site := site }
  | started (text : String) : Stepped w { w with
      passes := w.passes ++ [{
        text := text
        rest := Pass.sync w.site.operator.delays w.site.operator.template text }] }
  | called (n : Nat) (p : Sortie) (there : w.passes[n]? = some p) (c : Pass.Call)
      (next : Pass.Reply c → Pass.Steps (Except Error Pass.Action)) (busy : p.rest = .call c next) :
      Stepped w (w.answer n p c next)

theorem aside_outside (d : Deployment) (op : Store.Operation)
    (other : (op.isStatusWrite || op.isCreation) = false) :
    Aside d { d with drill := { d.drill with store := op.run d.drill.store } } := by
  have tally := op.tally_run d.drill.store
  simp only [Bool.or_eq_false_iff] at other
  simp only [Store.tally, other.1, other.2, Bool.false_and, Bool.toNat_false,
    UInt64.reduceOfNat, UInt64.add_zero, Store.Tally.mk.injEq] at tally
  exact ⟨tally.1, tally.2.1, _, rfl⟩

theorem stepped {w w' : Roster} {move : Move} (step : w.step? move = some w') : Stepped w w' := by
  cases move with
  | outside op =>
    simp only [step?] at step
    split at step
    · contradiction
    · rename_i other
      cases Option.some.inj step
      exact .aside _ (aside_outside w.site op (by simpa using other))
  | cache c => cases Option.some.inj step; exact .aside _ ⟨rfl, rfl, c, rfl⟩
  | faults plan staleReads touches failingPublishes =>
    cases Option.some.inj step
    exact .aside _ ⟨rfl, rfl, _, rfl⟩
  | clock wall stamp => cases Option.some.inj step; exact .aside _ ⟨rfl, rfl, _, rfl⟩
  | start text => cases Option.some.inj step; exact .started text
  | call n =>
    simp only [step?] at step
    split at step
    · contradiction
    · rename_i p there
      split at step
      · contradiction
      · rename_i c next busy
        cases Option.some.inj step
        exact .called n p there c next busy

end Roster

namespace Drill

theorem intercept_cases (d : Drill) (e : Endpoint) :
    (∃ rest cause, d.intercept e = (rest, some cause) ∧ rest.store = d.store)
    ∨ d.intercept e = (d, none) := by
  unfold intercept
  cases d.plan.find? (·.1 = e) with
  | none => exact .inr rfl
  | some planned => exact .inl ⟨_, _, rfl, rfl⟩

theorem tally_getMonitor (d : Drill) (key : Key) :
    (d.getMonitor key).1.store.tally = d.store.tally := by
  unfold getMonitor
  rcases d.intercept_cases .getMonitor with ⟨rest, cause, planned, same⟩ | unplanned
  · rw [planned]
    exact congrArg Store.tally same
  · rw [unplanned]
    dsimp only
    split
    · rfl
    · split
      · rfl
      · exact Store.tally_apply ..

theorem getPod_store (d : Drill) (key : Key) : (d.getPod key).1.store = d.store := by
  unfold getPod
  rcases d.intercept_cases .getPod with ⟨rest, cause, planned, same⟩ | unplanned
  · rw [planned]
    exact same
  · rw [unplanned]
    dsimp only
    split <;> rfl

theorem updateStatus_cases (d : Drill) (m : Monitor) :
    ((d.updateStatus m).1.store = d.store ∧ ∃ cause, (d.updateStatus m).2 = .error cause)
    ∨ d.updateStatus m = d.onStore (d.store.updateStatus m) := by
  unfold updateStatus
  rcases d.intercept_cases .updateStatus with ⟨rest, cause, planned, same⟩ | unplanned
  · rw [planned]
    exact .inl ⟨same, cause, rfl⟩
  · rw [unplanned]
    exact .inr rfl

theorem createPod_cases (d : Drill) (p : Pod) :
    ((d.createPod p).1.store = d.store ∧ ∃ cause, (d.createPod p).2 = .error cause)
    ∨ d.createPod p = d.onStore (d.store.createPod p) := by
  unfold createPod
  rcases d.intercept_cases .createPod with ⟨rest, cause, planned, same⟩ | unplanned
  · rw [planned]
    exact .inl ⟨same, cause, rfl⟩
  · rw [unplanned]
    exact .inr rfl

theorem tally_publish (d : Drill) (event : Event) :
    (d.publish event).1.store.tally = d.store.tally := by
  unfold publish; split <;> rfl

end Drill

namespace Roster

structure Answered (d e : Deployment) (new : List Deed) : Prop where
  writes : e.drill.store.statusWrites =
    d.drill.store.statusWrites + UInt64.ofNat (new.countP Deed.isWrite)
  creations : e.drill.store.podsCreated =
    d.drill.store.podsCreated + UInt64.ofNat (new.countP Deed.isCreation)
  metrics : e.operator.metrics = new.foldl Deed.count d.operator.metrics
  recorder : e.operator.recorder = d.operator.recorder.after (Deed.submissions d new)
  delays : e.operator.delays = d.operator.delays
  template : e.operator.template = d.operator.template

theorem answered_idle {d e : Deployment} (tally : e.drill.store.tally = d.drill.store.tally)
    (operator : e.operator = d.operator) : Answered d e [] := by
  simp only [Store.tally, Store.Tally.mk.injEq] at tally
  exact ⟨tally.1.trans (UInt64.add_zero _).symm, tally.2.1.trans (UInt64.add_zero _).symm,
    congrArg (·.metrics) operator, congrArg (·.recorder) operator, congrArg (·.delays) operator,
    congrArg (·.template) operator⟩

theorem answered_operation {d e : Deployment} {op : Store.Operation} {deed : Deed}
    (store : e.drill.store = op.run d.drill.store) (operator : e.operator = d.operator)
    (write : deed.isWrite = op.isStatusWrite) (creation : deed.isCreation = op.isCreation)
    (uncounted : ∀ m, deed.count m = m) (unheard : deed.event? = none) :
    Answered d e (if op.accepted d.drill.store then [deed] else []) := by
  have tally := op.tally_run d.drill.store
  simp only [← store, Store.tally, ← write, ← creation, Store.Tally.mk.injEq] at tally
  cases accepted : op.accepted d.drill.store with
  | true =>
    have one (p : Deed → Bool) : [deed].countP p = (p deed).toNat := by
      rw [List.countP_singleton]
      cases p deed <;> rfl
    rw [accepted, Bool.and_true, Bool.and_true, ← one, ← one] at tally
    refine ⟨tally.1, tally.2.1, ?_, ?_, congrArg (·.delays) operator,
      congrArg (·.template) operator⟩
    · exact (congrArg (·.metrics) operator).trans (uncounted _).symm
    · rw [operator, if_pos rfl, Deed.submissions, List.filterMap_cons_none unheard]
      rfl
  | false =>
    rw [accepted, Bool.and_false, Bool.and_false] at tally
    exact ⟨tally.1, tally.2.1, congrArg (·.metrics) operator, congrArg (·.recorder) operator,
      congrArg (·.delays) operator, congrArg (·.template) operator⟩

theorem answered_updateStatus (d : Deployment) (m : Monitor) :
    Answered d (d.onDrill (d.drill.updateStatus m)).1
      (Log.deeds [⟨.updateStatus m, (d.drill.updateStatus m).2⟩]) := by
  rcases d.drill.updateStatus_cases m with ⟨same, cause, refused⟩ | through
  · rw [refused]
    exact answered_idle (congrArg Store.tally same) rfl
  · have deeds : Log.deeds [⟨.updateStatus m, (d.drill.store.updateStatus m).2⟩]
        = if (Store.Operation.updateStatus m).accepted d.drill.store then [.wrote m] else [] := by
      rw [Store.Operation.accepted, Store.Operation.refusal?]
      cases (d.drill.store.updateStatus m).2 <;> rfl
    rw [through]
    exact deeds ▸ answered_operation rfl rfl rfl rfl (fun _ => rfl) rfl

theorem answered_createPod (d : Deployment) (p : Pod) :
    Answered d (d.onDrill (d.drill.createPod p)).1
      (Log.deeds [⟨.createPod p, (d.drill.createPod p).2⟩]) := by
  rcases d.drill.createPod_cases p with ⟨same, cause, refused⟩ | through
  · rw [refused]
    exact answered_idle (congrArg Store.tally same) rfl
  · have deeds : Log.deeds [⟨.createPod p, (d.drill.store.createPod p).2⟩]
        = if (Store.Operation.createPod p).accepted d.drill.store then [.created p] else [] := by
      rw [Store.Operation.accepted, Store.Operation.refusal?]
      cases (d.drill.store.createPod p).2 <;> rfl
    rw [through]
    exact deeds ▸ answered_operation rfl rfl rfl rfl (fun _ => rfl) rfl

theorem tally_record (d : Deployment) (call : Recorder.Report) :
    (d.record call).drill.store.tally = d.drill.store.tally := by
  obtain same | ⟨event, same⟩ := (d.record_reported call).drill
  · rw [same]
  · rw [same]; exact d.drill.tally_publish event

theorem record_operator (d : Deployment) (call : Recorder.Report) :
    (d.record call).operator =
      { d.operator with recorder := (d.operator.recorder.record d.wall d.stamp call).1 } := by
  cases answer : d.operator.recorder.record d.wall d.stamp call with
  | mk recorder event =>
    simp only [Deployment.record, answer]
    cases event with
    | none => rfl
    | some event =>
      simp only [Deployment.onDrill]
      cases (d.drill.publish event).2 <;> rfl

theorem answered_event (d : Deployment) {r : Pass.Report} {call : Recorder.Report}
    (event : r.event? = some call) : Answered d (d.report r) [.told r] := by
  have tally := tally_record ((d.setMetrics (r.count d.operator.metrics)).log r.notice) call
  have operator := record_operator ((d.setMetrics (r.count d.operator.metrics)).log r.notice) call
  have report : d.report r
      = ((d.setMetrics (r.count d.operator.metrics)).log r.notice).record call := by
    rw [Deployment.report, event]
  simp only [Store.tally, Store.Tally.mk.injEq] at tally
  rw [report]
  refine ⟨tally.1.trans (UInt64.add_zero _).symm, tally.2.1.trans (UInt64.add_zero _).symm,
    by rw [operator]; rfl, ?_, by rw [operator]; rfl, by rw [operator]; rfl⟩
  rw [operator, Deed.submissions, List.filterMap_cons_some (b := call) (by exact event)]
  rfl

theorem answered_report (d : Deployment) (r : Pass.Report) :
    Answered d (d.report r) (Log.deeds [⟨.report r, ()⟩]) := by
  cases r with
  | childCreated m pod => exact answered_event d rfl
  | statusWritten before u failure => exact answered_event d rfl
  | childNameTaken key cause => exact answered_idle rfl rfl
  | phaseUnknown key phase => exact answered_idle rfl rfl

theorem answered (d : Deployment) (c : Pass.Call) :
    Answered d (Deployment.replyToPass c d).1
      (Log.deeds [⟨c, (Deployment.replyToPass c d).2⟩]) := by
  cases c with
  | getMonitor key => exact answered_idle (d.drill.tally_getMonitor key) rfl
  | updateStatus m => exact answered_updateStatus d m
  | getPod key => exact answered_idle (congrArg Store.tally (d.drill.getPod_store key)) rfl
  | createPod p => exact answered_createPod d p
  | cachedPod key => exact answered_idle rfl rfl
  | report r => exact answered_report d r

end Roster

namespace Pass

theorem crossingNames_apart :
    ∀ a ∈ crossingNames, ∀ b ∈ crossingNames, a.joined = b.joined → a = b := by decide

structure Deed.Counted (new : List Deed) (m n : Metrics) : Prop where
  within : n.Within crossingNames
  crossed : n.crossed = m.crossed + UInt64.ofNat (new.countP isTransition)
  crossedAt : ∀ e, n.crossedAt e = m.crossedAt e + UInt64.ofNat (new.countP (·.edge? == some e))
  children : n.childrenCreated = m.childrenCreated + UInt64.ofNat (new.countP isBirth)

theorem Deed.Counted.append {new more : List Deed} {l m n : Metrics} (h : Counted new l m)
    (h' : Counted more m n) : Counted (new ++ more) l n where
  within := h'.within
  crossed := by
    rw [h'.crossed, h.crossed, List.countP_append, UInt64.ofNat_add, UInt64.add_assoc]
  crossedAt e := by
    rw [h'.crossedAt, h.crossedAt, List.countP_append, UInt64.ofNat_add, UInt64.add_assoc]
  children := by
    rw [h'.children, h.children, List.countP_append, UInt64.ofNat_add, UInt64.add_assoc]

theorem Deed.Counted.perm {new other : List Deed} {m n : Metrics} (h : Counted new m n)
    (same : other.Perm new) : Counted other m n :=
  ⟨h.within, same.countP_eq _ ▸ h.crossed, fun e => same.countP_eq _ ▸ h.crossedAt e,
    same.countP_eq _ ▸ h.children⟩

theorem Deed.counted_one {m : Metrics} (within : m.Within crossingNames) (deed : Deed)
    (named : ∀ e, deed.edge? = some e → e ∈ crossingNames) : Counted [deed] m (deed.count m) := by
  have idle {deed : Deed} (edge : deed.edge? = none) (birth : deed.isBirth = false) :
      Counted [deed] m m :=
    ⟨within, by simp [isTransition, edge], by simp [edge], by simp [birth]⟩
  cases deed with
  | created pod => exact idle rfl rfl
  | wrote u => exact idle rfl rfl
  | told r =>
    cases r with
    | childCreated owner pod =>
      exact ⟨within, (UInt64.add_zero _).symm, fun e => (UInt64.add_zero _).symm, rfl⟩
    | childNameTaken key cause => exact idle rfl rfl
    | phaseUnknown key phase => exact idle rfl rfl
    | statusWritten before u failure =>
      have mine := named _ rfl
      refine ⟨m.within_transition crossingNames_apart within mine, m.crossed_transition _ _,
        fun e => ?_, (UInt64.add_zero _).symm⟩
      rw [count, Report.count, m.crossedAt_transition crossingNames_apart within mine,
        List.countP_singleton]
      simp only [edge?, beq_iff_eq, Option.some.injEq, @eq_comm _ e]
      split <;> rfl

theorem Deed.counted {m : Metrics} (within : m.Within crossingNames) (new : List Deed)
    (named : ∀ deed ∈ new, ∀ e, deed.edge? = some e → e ∈ crossingNames) :
    Counted new m (new.foldl count m) := by
  induction new generalizing m with
  | nil =>
    exact ⟨within, (UInt64.add_zero _).symm, fun e => (UInt64.add_zero _).symm,
      (UInt64.add_zero _).symm⟩
  | cons deed rest ih =>
    have first := counted_one within deed (named deed (by simp))
    exact first.append (ih first.within fun d member => named d (List.mem_cons_of_mem _ member))

theorem accounted_of_leaves {d : Delays} {t : Child.Template} {text : String} {said : Log}
    {rest : Steps (Except Error Action)} (leaves : (sync d t text).Leaves said rest) :
    ∃ whole result, Accounted t whole result ∧ said.deeds <+: whole.deeds ∧
      ∀ r, rest = .finish r → whole = said ∧ result = r := by
  obtain ⟨more, result, tells⟩ := rest.exists_tells
  refine ⟨said ++ more, result, accounted_of_synced (synced_of_tells (leaves.tells tells)),
    ⟨Log.deeds more, (Log.deeds_append said more).symm⟩, ?_⟩
  rintro r rfl
  obtain ⟨rfl, rfl⟩ := tells
  exact ⟨List.append_nil said, rfl⟩

end Pass

namespace Roster

variable {σ τ : Type}

theorem flatMap_set_perm {α β : Type} {f : α → List β} {l : List α} {n : Nat} {a b : α}
    {new : List β} (there : l[n]? = some a) (grown : f b = f a ++ new) :
    ((l.set n b).flatMap f).Perm (l.flatMap f ++ new) := by
  induction l generalizing n with
  | nil => simp at there
  | cons head rest ih =>
    cases n with
    | zero =>
      cases Option.some.inj there
      rw [List.set_cons_zero, List.flatMap_cons, List.flatMap_cons, grown, List.append_assoc,
        List.append_assoc]
      exact List.perm_append_comm.append_left _
    | succ n =>
      rw [List.set_cons_succ, List.flatMap_cons, List.flatMap_cons, List.append_assoc]
      exact (ih there).append_left _

/-- The books of a run: the deeds of its passes are what the store has counted, and the reports
among them what the operator has. -/
structure Books (s : Store) (parts : Operator.Parts σ τ) (w : Roster) : Prop where
  delays : w.site.operator.delays = parts.delays
  template : w.site.operator.template = parts.template
  passes : ∀ p ∈ w.passes, (Pass.sync parts.delays parts.template p.text).Leaves p.said p.rest
  writes : w.store.statusWrites = s.statusWrites + UInt64.ofNat (w.deeds.countP Deed.isWrite)
  creations : w.store.podsCreated = s.podsCreated + UInt64.ofNat (w.deeds.countP Deed.isCreation)
  counted : Deed.Counted w.deeds {} w.metrics
  recorder : w.recorder = (Recorder.new Operator.component parts.window).after w.submitted
  submitted : (w.submitted.map (·.report)).Perm (w.deeds.filterMap Deed.event?)

variable {s : Store} {parts : Operator.Parts σ τ} {w w' : Roster}

theorem Books.start (s : Store) (stamp : Recorder.Stamp) (parts : Operator.Parts σ τ) :
    Books s parts (start s stamp parts) where
  delays := rfl
  template := rfl
  passes _ member := nomatch member
  writes := (UInt64.add_zero _).symm
  creations := (UInt64.add_zero _).symm
  counted := ⟨fun _ there => (nomatch there), rfl, fun _ => rfl, rfl⟩
  recorder := rfl
  submitted := .refl _

theorem Books.answer (h : Books s parts w) {n : Nat} {p : Sortie} (there : w.passes[n]? = some p)
    {c : Pass.Call} {next : Pass.Reply c → Pass.Steps (Except Error Pass.Action)}
    (busy : p.rest = .call c next) : Books s parts (w.answer n p c next) := by
  have replied := answered w.site c
  have leaves := h.passes p (List.mem_of_getElem? there)
  rw [busy] at leaves
  have further := leaves.step (Deployment.replyToPass c w.site).2
  have deeds : (w.answer n p c next).deeds.Perm
      (w.deeds ++ Log.deeds [⟨c, (Deployment.replyToPass c w.site).2⟩]) :=
    flatMap_set_perm there (Log.deeds_append ..)
  have named : ∀ deed ∈ Log.deeds [⟨c, (Deployment.replyToPass c w.site).2⟩], ∀ e,
      deed.edge? = some e → e ∈ crossingNames := by
    intro deed member e crosses
    obtain ⟨whole, result, accounted, early, -⟩ := Pass.accounted_of_leaves further
    refine accounted.named (early.subset ?_) crosses
    rw [Log.deeds_append]
    exact List.mem_append_right _ member
  constructor
  · exact replied.delays.trans h.delays
  · exact replied.template.trans h.template
  · intro q member
    rcases List.mem_or_eq_of_mem_set member with old | rfl
    · exact h.passes q old
    · exact further
  · rw [deeds.countP_eq, List.countP_append, UInt64.ofNat_add, ← UInt64.add_assoc, ← h.writes]
    exact replied.writes
  · rw [deeds.countP_eq, List.countP_append, UInt64.ofNat_add, ← UInt64.add_assoc,
      ← h.creations]
    exact replied.creations
  · have metrics : (w.answer n p c next).metrics = _ := replied.metrics
    rw [metrics]
    exact (h.counted.append (Deed.counted h.counted.within _ named)).perm deeds
  · have recorder : (w.answer n p c next).recorder = _ := replied.recorder
    rw [recorder, show w.site.operator.recorder = _ from h.recorder]
    exact (List.foldl_append ..).symm
  · refine .trans ?_ (deeds.filterMap _).symm
    have reports : (w.answer n p c next).submitted.map (·.report) = w.submitted.map (·.report)
        ++ (Log.deeds [⟨c, (Deployment.replyToPass c w.site).2⟩]).filterMap Deed.event? := by
      simp [Roster.answer, Deed.submissions, List.map_append, List.map_map, Function.comp_def]
    rw [reports, List.filterMap_append]
    exact h.submitted.append_right _

theorem Books.step (h : Books s parts w) (step : Stepped w w') : Books s parts w' := by
  cases step with
  | aside site aside =>
    obtain ⟨cache, operator⟩ := aside.operator
    refine ⟨?_, ?_, h.passes, aside.writes.trans h.writes, aside.creations.trans h.creations, ?_,
      ?_, h.submitted⟩
    · exact (congrArg (·.delays) operator).trans h.delays
    · exact (congrArg (·.template) operator).trans h.template
    · rw [show ({ w with site := site } : Roster).metrics = w.metrics from
        congrArg (·.metrics) operator]
      exact h.counted
    · exact (congrArg (·.recorder) operator).trans h.recorder
  | started text =>
    have deeds : ({ w with passes := w.passes ++ [{
        text := text
        rest := Pass.sync w.site.operator.delays w.site.operator.template text }] } : Roster).deeds
          = w.deeds := by simp [Roster.deeds, Log.deeds]
    refine ⟨h.delays, h.template, ?_, deeds ▸ h.writes, deeds ▸ h.creations, deeds ▸ h.counted,
      h.recorder, deeds ▸ h.submitted⟩
    intro p member
    rcases List.mem_append.mp member with old | new
    · exact h.passes p old
    · cases List.mem_singleton.mp new
      rw [h.delays, h.template]
      exact .start
  | called n p there c next busy => exact h.answer there busy

theorem books_of_run {stamp : Recorder.Stamp} {moves : List Move}
    (run : after? step? (Roster.start s stamp parts) moves = some w) : Books s parts w :=
  after?_invariant (fun _ _ _ h step => h.step (stepped step)) moves (.start s stamp parts) run

theorem behind_flatMap {passes : List Sortie} (each : ∀ p ∈ passes, Pass.Behind p.said.deeds) :
    Pass.Behind (passes.flatMap (·.said.deeds)) := by
  induction passes with
  | nil => exact .nil
  | cons p rest ih =>
    rw [List.flatMap_cons]
    exact (each p (by simp)).append (ih fun q member => each q (List.mem_cons_of_mem _ member))

theorem Books.behind (h : Books s parts w) : Pass.Behind w.deeds := by
  refine behind_flatMap fun p member => ?_
  obtain ⟨whole, result, accounted, early, -⟩ := Pass.accounted_of_leaves (h.passes p member)
  exact accounted.behind early

theorem Books.accounted (h : Books s parts w) {p : Sortie} (member : p ∈ w.passes)
    {result : Except Error Pass.Action} (ended : p.result? = some result) :
    Accounted parts.template p.said result := by
  obtain ⟨whole, r, accounted, -, same⟩ := Pass.accounted_of_leaves (h.passes p member)
  obtain ⟨rfl, rfl⟩ := same result (Sortie.rest_of_result ended)
  exact accounted

/-- Once no pass is on its way, every deed has been reported. -/
theorem Books.reported (h : Books s parts w) (settled : w.Settled) :
    w.deeds.countP Deed.isBirth = w.deeds.countP Deed.isCreation ∧
    w.deeds.filterMap Deed.edge? = w.crossings ∧
    w.crossings.length = w.deeds.countP Deed.isWrite := by
  have counts (p : Sortie) (member : p ∈ w.passes) :
      p.said.deeds.countP Deed.isBirth = p.said.deeds.countP Deed.isCreation ∧
      p.said.deeds.filterMap Deed.edge? = p.said.crossings ∧
      p.said.crossings.length = p.said.deeds.countP Deed.isWrite := by
    obtain ⟨result, ended⟩ := Option.isSome_iff_exists.mp (settled p member)
    exact (h.accounted member ended).counts
  refine ⟨?_, ?_, ?_⟩
  · rw [deeds, List.countP_flatMap, List.countP_flatMap]
    exact congrArg List.sum (List.map_congr_left fun p member => (counts p member).1)
  · rw [deeds, crossings, List.filterMap_flatMap, List.flatMap_def, List.flatMap_def]
    exact congrArg List.flatten (List.map_congr_left fun p member => (counts p member).2.1)
  · rw [deeds, crossings, List.length_flatMap, List.countP_flatMap]
    exact congrArg List.sum (List.map_congr_left fun p member => (counts p member).2.2)

/-- In every run of passes that are the only ones to write statuses and to create children, whatever
fails and changes beside them: a pass that has ended has reported what it got done and nothing else.
The store has counted the statuses and children that the passes got done, and at no time are the
counts of the operator ahead of it. The recorder was given the events of the reports, each once.
Once no pass is on its way, the operator has counted as many changes of phase as statuses were
written, each under the phases that were read and written, and as many children as were created.
Counts are words and wrap. -/
theorem records_agree_with_store {σ τ : Type} (s : Store) (stamp : Recorder.Stamp)
    (parts : Operator.Parts σ τ) (moves : List Move) (w : Roster)
    (run : after? step? (start s stamp parts) moves = some w) :
    (∀ p ∈ w.passes, ∀ result, p.result? = some result →
      Accounted parts.template p.said result ∧
      ((∃ cause, result = .error cause) ∨ p.said.deeds.countP Deed.isWrite = 0 →
        p.said.deeds.filterMap Deed.edge? = [])) ∧
    w.store.statusWrites = s.statusWrites + UInt64.ofNat (w.deeds.countP Deed.isWrite) ∧
    w.store.podsCreated = s.podsCreated + UInt64.ofNat (w.deeds.countP Deed.isCreation) ∧
    w.metrics.crossed = UInt64.ofNat (w.deeds.countP Deed.isTransition) ∧
    w.deeds.countP Deed.isTransition ≤ w.deeds.countP Deed.isWrite ∧
    w.metrics.childrenCreated = UInt64.ofNat (w.deeds.countP Deed.isBirth) ∧
    w.deeds.countP Deed.isBirth ≤ w.deeds.countP Deed.isCreation ∧
    w.recorder = (Recorder.new Operator.component parts.window).after w.submitted ∧
    (w.submitted.map (·.report)).Perm (w.deeds.filterMap Deed.event?) ∧
    (w.Settled →
      s.statusWrites + w.metrics.crossed = w.store.statusWrites ∧
      w.crossings.length = w.deeds.countP Deed.isWrite ∧
      w.deeds.countP Deed.isTransition = w.crossings.length ∧
      (∀ e, w.metrics.crossedAt e = UInt64.ofNat (w.crossings.count e)) ∧
      w.deeds.countP Deed.isBirth = w.deeds.countP Deed.isCreation ∧
      s.podsCreated + w.metrics.childrenCreated = w.store.podsCreated) := by
  have books := books_of_run run
  have counted := books.counted
  have crossed : w.metrics.crossed = UInt64.ofNat (w.deeds.countP Deed.isTransition) :=
    counted.crossed.trans (UInt64.zero_add _)
  have children : w.metrics.childrenCreated = UInt64.ofNat (w.deeds.countP Deed.isBirth) :=
    counted.children.trans (UInt64.zero_add _)
  refine ⟨fun p member result ended => ?_, books.writes, books.creations, crossed,
    books.behind.transitions, children, books.behind.births, books.recorder, books.submitted,
    fun settled => ?_⟩
  · have accounted := books.accounted member ended
    exact ⟨accounted, accounted.quiet⟩
  · obtain ⟨births, edges, length⟩ := books.reported settled
    have transitions : w.deeds.countP Deed.isTransition = w.crossings.length := by
      rw [← edges, List.length_filterMap_eq_countP]
      rfl
    refine ⟨?_, length, transitions, fun e => ?_, births, ?_⟩
    · rw [books.writes, crossed, ← length, transitions]
    · rw [← edges, List.count_filterMap]
      exact (counted.crossedAt e).trans (UInt64.zero_add _)
    · rw [books.creations, children, births]

theorem records_agree_with_store_of_conflict :
    let pass (n : Nat) (calls : Nat) : List Move :=
      .start "a/x" :: List.replicate calls (.call n)
    let moves : List Move :=
      [.outside (.apply { metadata := { ns := "a", name := "x" } })] ++ pass 0 3 ++
      [.faults [(.updateStatus, .unavailable "offline")] 0 0 0] ++ pass 1 3 ++
      [.cache { pods := Table.ofList [(⟨"a", "x"⟩, { metadata := { ns := "a", name := "x" } })] },
        .outside (.putPod { metadata := { ns := "a", name := "pm-x" } })] ++ pass 2 6 ++
      [.outside (.deletePod ⟨"a", "pm-x"⟩)] ++ pass 3 7
    ∃ w, after? step? (start (Store.empty 10) ⟨"0", ""⟩ ({} : Operator.Parts Unit Unit)) moves
        = some w ∧ w.Settled ∧
      w.store.statusWrites = 3 ∧ w.metrics.crossed = 3 ∧ w.metrics.childrenCreated = 1 ∧
      w.metrics.crossedAt ⟨"Pending", "Failed"⟩ = 1 ∧
      w.submitted.map (·.report.reason) =
        ["PhaseChanged", "ChildNameConflict", "ChildPodCreated", "PhaseChanged"] := by
  intro pass moves
  have ends : (after? step? (start (Store.empty 10) ⟨"0", ""⟩ ({} : Operator.Parts Unit Unit))
      moves).map (fun w => (w.passes.all (·.result?.isSome), w.store.statusWrites,
        w.store.podsCreated, w.crossings, w.submitted.map (·.report.reason))) =
      some (true, 3, 1,
        [⟨"None", "Pending"⟩, ⟨"Pending", "Failed"⟩, ⟨"Failed", "Running"⟩],
        ["PhaseChanged", "ChildNameConflict", "ChildPodCreated", "PhaseChanged"]) := rfl
  obtain ⟨w, run, ends⟩ := Option.map_eq_some_iff.mp ends
  simp only [Prod.mk.injEq, List.all_eq_true] at ends
  obtain ⟨settled, writes, created, crossings, reasons⟩ := ends
  obtain ⟨-, -, -, -, -, -, -, -, -, total⟩ := records_agree_with_store _ _ _ _ w run
  obtain ⟨crossed, -, -, each, -, children⟩ := total settled
  rw [writes, Store.empty, UInt64.zero_add] at crossed
  rw [created, Store.empty, UInt64.zero_add] at children
  exact ⟨w, run, settled, writes, crossed, children, by rw [each, crossings]; rfl, reasons⟩

end Roster

end MonitorOperator
