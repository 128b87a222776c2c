import MonitorOperator.Proofs.Deployment.Scene
import MonitorOperator.Proofs.Pass.Lookups
import MonitorOperator.Proofs.Passes.Careers

/-! What a pass leaves behind. It adds at most the child of its monitor, and of what is there it
changes nothing but the status of its monitor, with the version. Main statement: this holds of every
stretch of a pass, whatever comes between its calls, and whatever a store answers, a pass acts on no
pod that does not belong to its monitor. -/

namespace MonitorOperator

def Monitor.declared (m : Monitor) : Monitor := { m.unversioned with status := {} }

namespace Store

/-- Nothing has changed but the status and the version of the monitor of a key, and no pod is new
but the one that has the name of its child. -/
structure Spares (key : Key) (s t : Store) : Prop where
  monitors : ∀ other, other ≠ key → t.monitors.get? other = s.monitors.get? other
  monitor : (t.monitors.get? key).map Monitor.declared =
    (s.monitors.get? key).map Monitor.declared
  pods : ∀ other p, s.pods.get? other = some p → t.pods.get? other = some p
  child : ∀ other, other ≠ key.child → t.pods.get? other = s.pods.get? other

/-- What a pass over a text may do to a store. Over a text that is not the text of a key it does
nothing. -/
def Footprint (text : String) (s t : Store) : Prop :=
  match Key.parse text with
  | .ok key => Spares key s t
  | .error _ => t = s

variable {key : Key} {s t u : Store} {text : String}

theorem Spares.refl (key : Key) (s : Store) : Spares key s s :=
  ⟨fun _ _ => rfl, rfl, fun _ _ found => found, fun _ _ => rfl⟩

theorem Spares.trans (h : Spares key s t) (h' : Spares key t u) : Spares key s u where
  monitors other apart := (h'.monitors other apart).trans (h.monitors other apart)
  monitor := h'.monitor.trans h.monitor
  pods other p found := h'.pods other p (h.pods other p found)
  child other apart := (h'.child other apart).trans (h.child other apart)

theorem Footprint.refl (text : String) (s : Store) : Footprint text s s := by
  unfold Footprint
  cases Key.parse text with
  | ok key => exact .refl key s
  | error cause => rfl

theorem Footprint.trans (h : Footprint text s t) (h' : Footprint text t u) : Footprint text s u := by
  unfold Footprint at h h' ⊢
  cases parsed : Key.parse text with
  | ok key =>
    rw [parsed] at h h'
    exact Spares.trans h h'
  | error cause =>
    rw [parsed] at h h'
    exact Eq.trans h' h

theorem Spares.footprint (h : Spares key s t) (parsed : Key.parse text = .ok key) :
    Footprint text s t := by
  unfold Footprint
  rw [parsed]
  exact h

end Store

theorem Pass.Scene.Answers.spares {fault : StoreError → Prop} {target : Option Pod} {v v' : Scene}
    {c : Call} {reply : Reply c} (h : v.Answers fault target c reply v') :
    v'.monitor.map Monitor.declared = v.monitor.map Monitor.declared ∧
      ∀ p, v.child = some p → v'.child = some p := by
  have still (same : v' = v) : v'.monitor.map Monitor.declared = v.monitor.map Monitor.declared ∧
      ∀ p, v.child = some p → v'.child = some p := by
    subst same
    exact ⟨rfl, fun _ found => found⟩
  cases c with
  | getMonitor key =>
    cases reply with
    | ok m => exact still h.2.2
    | error e => exact still h.2
  | updateStatus u =>
    cases reply with
    | ok written =>
      obtain ⟨m, version, stored, rfl⟩ := h
      rw [stored]
      exact ⟨rfl, fun _ found => found⟩
    | error e => exact still h.2
  | getPod key =>
    cases reply with
    | ok p => exact still h.2
    | error e => exact still h.2
  | createPod p =>
    cases reply with
    | ok q =>
      obtain ⟨absent, _, rfl⟩ := h
      refine ⟨rfl, fun p found => ?_⟩
      rw [absent] at found
      contradiction
    | error e => exact still h.2
  | cachedPod key => exact still h.2
  | report r => exact still h

theorem Deployment.replyToPass_spares {d : Deployment} (plain : d.Plain)
    (keyed : d.drill.store.Keyed) {key : Key} {c : Pass.Call} (within : c.Within key) :
    Store.Spares key d.drill.store (replyToPass c d).1.drill.store := by
  obtain ⟨answers, beside⟩ := replyToPass_answers plain keyed within
  obtain ⟨monitor, child⟩ := answers.spares
  refine ⟨beside.monitors, monitor, fun other p found => ?_, beside.pods⟩
  by_cases mine : other = key.child
  · subst mine
    exact child p found
  · rw [beside.pods other mine]
    exact found

namespace Passes

/-- A pass over a text, which has read its monitor under its own key. -/
structure Flight.Over (text : String) (f : Flight) : Prop where
  leaves : ∃ d t, (Pass.sync d t text).Leaves f.said f.rest
  named : ∀ key m, ⟨.getMonitor key, .ok m⟩ ∈ f.said → m.key = key

structure Over (pass : Nat) (text : String) (w : Passes) : Prop where
  plain : w.site.Plain
  keyed : w.store.Keyed
  flight : ∀ f, w.flights pass = some f → f.Over text

variable {pass : Nat} {text : String} {w w' : Passes}

theorem Over.start (plain : w.site.Plain) (keyed : w.store.Keyed)
    (step : Stepped w (.start pass text) w') : Over pass text w' := by
  cases step with
  | started _ _ free =>
    refine ⟨plain, keyed, fun f flies => ?_⟩
    rcases set_eq_some.mp flies with ⟨_, same⟩ | ⟨apart, _⟩
    · cases same
      exact ⟨⟨_, _, .start⟩, fun _ _ read => nomatch read⟩
    · exact (apart rfl).elim

theorem Over.set (h : Over pass text w) (other : Nat) (new : Option Flight)
    (fits : ∀ f, other = pass → new = some f → f.Over text) :
    Over pass text (w.set other new) := by
  refine ⟨h.plain, h.keyed, fun f flies => ?_⟩
  rcases set_eq_some.mp flies with ⟨mine, same⟩ | ⟨_, before⟩
  · exact fits f mine.symm same
  · exact h.flight f before

theorem Over.called (h : Over pass text w) {other : Nat} {f : Flight}
    (flies : w.flights other = some f) {c : Pass.Call}
    {next : Pass.Reply c → Pass.Steps (Except Error Pass.Action)} (busy : f.rest = .call c next) :
    Over pass text (w.answer other f c next) := by
  have replied := Deployment.reply_replied h.plain h.keyed (.pass c)
  obtain ⟨_, effect⟩ := replied.store
  have answered : Over pass text { w with
      site := (Deployment.replyToPass c w.site).1
      late := f.note w.late c (Deployment.replyToPass c w.site).2 } :=
    ⟨replied.plain, h.keyed.step effect, h.flight⟩
  refine answered.set other _ fun g mine same => ?_
  subst mine
  cases same
  obtain ⟨⟨d, t, leaves⟩, named⟩ := h.flight f flies
  rw [busy] at leaves
  refine ⟨⟨d, t, leaves.step _⟩, fun key m read => ?_⟩
  rcases List.mem_append.mp read with early | last
  · exact named key m early
  · obtain ⟨rfl, told⟩ := Sigma.mk.inj (List.mem_singleton.mp last)
    exact h.keyed.monitors key m (Deployment.stored_of_told h.plain (eq_of_heq told).symm)

theorem Over.step {move : Move} (h : Over pass text w) (other : ∀ text', move ≠ .start pass text')
    (step : Stepped w move w') : Over pass text w' := by
  have plain := step.plain h.plain h.keyed
  have keyed := step.keyed h.plain h.keyed
  cases step with
  | wrote op =>
    refine ⟨plain, keyed, fun f flies => ?_⟩
    obtain ⟨was, flew, rfl⟩ := Option.map_eq_some_iff.mp flies
    obtain ⟨said, rest⟩ := was.said_overtake (op.deletes? w.store)
    obtain ⟨leaves, named⟩ := h.flight was flew
    exact ⟨by rw [said, rest]; exact leaves, by rw [said]; exact named⟩
  | cached c => exact ⟨plain, keyed, h.flight⟩
  | started started text' free =>
    exact h.set started _ fun f mine _ => (other text' (mine ▸ rfl)).elim
  | landed landed f flies result ended => exact h.set landed none fun _ _ same => nomatch same
  | called caller f flies c next busy => exact h.called flies busy

theorem Over.footprint (h : Over pass text w) (step : Stepped w (.call pass) w') :
    Store.Footprint text w.store w'.store := by
  cases step with
  | landed _ f flies result ended => exact .refl text w.store
  | called _ f flies c next busy =>
    obtain ⟨⟨d, t, leaves⟩, named⟩ := h.flight f flies
    rw [busy] at leaves
    obtain ⟨key, parsed⟩ := Pass.parsed_of_leaves leaves
    have within : c.Within key := Pass.within_of_opening leaves parsed fun m rest opens =>
      named key m (by rw [opens]; exact List.mem_cons_self ..)
    exact (Deployment.replyToPass_spares h.plain h.keyed within).footprint parsed

theorem Over.footprints (h : Over pass text w) {calls : Nat}
    (run : after? step? w (List.replicate calls (.call pass)) = some w') :
    Store.Footprint text w.store w'.store := by
  have both : Over pass text w' ∧ Store.Footprint text w.store w'.store := by
    refine after?_invariant_of_mem (List.replicate calls (Move.call pass))
      (P := fun v => Over pass text v ∧ Store.Footprint text w.store v.store)
      (fun u move u' member ⟨h, spared⟩ step => ?_) ⟨h, .refl text w.store⟩ run
    obtain rfl := List.eq_of_mem_replicate member
    exact ⟨h.step (by simp) (stepped step), spared.trans (h.footprint (stepped step))⟩
  exact both.2

/-- A pass that has started once and not again is over its text, whatever came before and between. -/
theorem over_of_run {σ τ : Type} {retention : Nat} {stamp : Recorder.Stamp}
    {parts : Operator.Parts σ τ} {before between : List Move}
    (single : ∀ text', .start pass text' ∉ between)
    (run : after? step? (start (Store.empty retention) stamp parts)
      (before ++ .start pass text :: between) = some w) : Over pass text w := by
  rw [after?_append, Option.bind_eq_some_iff] at run
  obtain ⟨v, early, run⟩ := run
  rw [after?_cons, Option.bind_eq_some_iff] at run
  obtain ⟨u, started, late⟩ := run
  have plain : (start (Store.empty retention) stamp parts).site.Plain := rfl
  obtain ⟨plain, keyed⟩ := keyed_of_run plain (.empty retention) early
  have first : Over pass text u := .start plain keyed (stepped started)
  refine after?_invariant_of_mem between (fun u move u' member h step => ?_) first late
  exact h.step (fun text' same => single text' (same ▸ member)) (stepped step)

/-- Whatever the cache holds and whatever a store answers, a pass acts on no pod that does not
belong to its monitor. In a run over one store, with other passes, other writes and other content of
the cache between its calls, each stretch of a pass, up to the whole, leaves every pod as it is that
is there, and no monitor or pod is changed but the status of the monitor of its key with the
version, and the pod that has the name of the child, which may be added. -/
theorem passes_act_on_own :
    (∀ {σ : Type} (answer : (c : Pass.Call) → σ → σ × Pass.Reply c) (s : σ) (d : Pass.Delays)
      (t : Child.Template) (text : String),
      Pass.ActsOnOwn t ((Pass.sync d t text).transcript answer s)
        ((Pass.sync d t text).run answer s).2) ∧
    ∀ {σ τ : Type} (retention : Nat) (stamp : Recorder.Stamp) (parts : Operator.Parts σ τ)
      (before between : List Move) (pass : Nat) (text : String) (w : Passes),
      (∀ text', .start pass text' ∉ between) →
      after? step? (start (Store.empty retention) stamp parts)
        (before ++ .start pass text :: between) = some w →
      ∀ calls w', after? step? w (List.replicate calls (.call pass)) = some w' →
        Store.Footprint text w.store w'.store := by
  constructor
  · intro σ answer s d t text
    exact Pass.actsOnOwn_of_synced (Pass.synced_of_tells (Program.tells_transcript answer _ s))
  · intro σ τ retention stamp parts before between pass text w single run calls w' rest
    exact (over_of_run single run).footprints rest

/-- Someone else puts a pod under the name of the child after a pass has looked for it in vain. The
rest of the pass leaves that pod alone and the monitor failed. -/
theorem passes_act_on_own_after_race :
    let before : List Move := [
      .outside (.apply { metadata := { ns := "a", name := "x" }, status := .plain .pending }),
      .cache { pods := Table.ofList [(⟨"a", "x"⟩, { metadata := { ns := "a", name := "x" } })] }]
    let between : List Move := List.replicate 3 (.call 0) ++
      [.outside (.putPod { metadata := { ns := "a", name := "pm-x" } })]
    ∃ w w', after? step? (start (Store.empty 10) ⟨"0", ""⟩ ({} : Operator.Parts Unit Unit))
        (before ++ .start 0 "a/x" :: between) = some w ∧
      after? step? w (List.replicate 6 (.call 0)) = some w' ∧
      Store.Footprint "a/x" w.store w'.store ∧
      w'.status? ⟨"a", "x"⟩ = some (.failure (Error.childNotOwned "a/pm-x" "a/x").message) := by
  intro before between
  have ends : ((after? step? (start (Store.empty 10) ⟨"0", ""⟩ ({} : Operator.Parts Unit Unit))
      (before ++ .start 0 "a/x" :: between)).bind fun w =>
        (after? step? w (List.replicate 6 (.call 0))).map fun w' => w'.status? ⟨"a", "x"⟩) =
      some (some (.failure (Error.childNotOwned "a/pm-x" "a/x").message)) := rfl
  obtain ⟨w, run, calls⟩ := Option.bind_eq_some_iff.mp ends
  obtain ⟨w', calls, status⟩ := Option.map_eq_some_iff.mp calls
  refine ⟨w, w', run, calls, ?_, status⟩
  refine passes_act_on_own.2 10 ⟨"0", ""⟩ ({} : Operator.Parts Unit Unit) before between 0 "a/x" w
    (fun text => ?_) run 6 w' calls
  simp [between]

end Passes

end MonitorOperator
