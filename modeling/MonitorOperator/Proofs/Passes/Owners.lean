import MonitorOperator.Proofs.Deployment.Reply
import MonitorOperator.Proofs.Passes.Moves

/-! Children and their monitors. Main statement: however passes, deletions and other writes come
between each other, the monitor that a pod names as its manager is there, except where a pass has
created the pod after the monitor that it had read was deleted. -/

namespace MonitorOperator

namespace Deployment

theorem replyToPass_tame {d : Deployment} (plain : d.Plain) (keyed : d.drill.store.Keyed)
    (c : Pass.Call) (creates : ∀ p, c ≠ .createPod p) :
    Store.Tame d.drill.store (replyToPass c d).1.drill.store := by
  by_cases updates : ∃ m, c = .updateStatus m
  · obtain ⟨m, rfl⟩ := updates
    have written := (reply_updateStatus plain m).1
    change (replyToPass (.updateStatus m) d).1.drill.store = _ at written
    rw [written]
    exact Store.updateStatus_tame keyed m
  · obtain ⟨_, _, published⟩ := replyToPass_published plain (not_exists.mp updates) creates
    rw [published]
    exact .of_alike ⟨rfl, rfl, rfl, rfl⟩

theorem replyToPass_holds {d : Deployment} (plain : d.Plain) (keyed : d.drill.store.Keyed)
    (c : Pass.Call) {key : Key} {uid : String} (holds : d.drill.store.Holds key uid) :
    (replyToPass c d).1.drill.store.Holds key uid := by
  by_cases creates : ∃ p, c = .createPod p
  · obtain ⟨p, rfl⟩ := creates
    have answer := replyToPass_createPod plain p
    cases reply : (replyToPass (.createPod p) d).2 with
    | ok made =>
      rw [reply] at answer
      rw [Store.Holds, (Store.createPod_eq_ok answer).1]
      exact holds
    | error e =>
      rw [reply] at answer
      rw [Store.createPod_eq_error answer]
      exact holds
  · exact (replyToPass_tame plain keyed c (not_exists.mp creates)).monitors key uid holds

theorem holds_of_getMonitor {d : Deployment} (plain : d.Plain) (keyed : d.drill.store.Keyed)
    {key : Key} {m : Monitor} (told : (replyToPass (.getMonitor key) d).2 = .ok m) :
    d.drill.store.Holds m.key m.metadata.uid := by
  have found := stored_of_told plain told
  exact ⟨m, keyed.monitors key m found ▸ found, rfl⟩

end Deployment

namespace Passes

/-- A pass that is not overtaken still has its monitor in the store, in the incarnation that it has
read. -/
def Flight.Stands (f : Flight) (s : Store) : Prop :=
  f.overtaken = false → ∀ m ∈ f.said.readings, s.Holds m.key m.metadata.uid

/-- The passes on their way, and the pods so far. -/
structure Owned (w : Passes) : Prop where
  plain : w.site.Plain
  keyed : w.store.Keyed
  leaves : ∀ pass f, w.flights pass = some f →
    ∃ d t text, (Pass.sync d t text).Leaves f.said f.rest
  standing : ∀ pass f, w.flights pass = some f → f.Stands w.store
  owners : ∀ key p, w.store.pods.get? key = some p → w.late.contains key = false →
    w.store.HasOwner p

variable {w w' : Passes}

theorem Flight.fresh_of_overtake {f : Flight} {gone m : Monitor}
    (fresh : (f.overtake (some gone)).overtaken = false) (read : m ∈ f.said.readings) :
    f.overtaken = false ∧ ¬ (m.key = gone.key ∧ m.metadata.uid = gone.metadata.uid) := by
  simp only [overtake, Bool.or_eq_false_iff, List.any_eq_false, decide_eq_true_eq] at fresh
  exact ⟨fresh.1, fresh.2 m read⟩

theorem Owned.wrote (h : w.Owned) (op : Store.Operation) (adds : op.addsPods = false) :
    (w.write op).Owned := by
  have plain : (w.write op).site.Plain := by
    change { w.site.drill with store := op.run w.store } = ({ store := op.run w.store } : Drill)
    rw [h.plain]
  have keyed : (w.write op).store.Keyed := h.keyed.step (op.effect h.keyed)
  have before {pass : Nat} {f : Flight} (flies : (w.write op).flights pass = some f) :
      ∃ was, w.flights pass = some was ∧ was.overtake (op.deletes? w.store) = f :=
    Option.map_eq_some_iff.mp flies
  cases deletes : op.deletes? w.store with
  | none =>
    rw [deletes] at before
    have tame : Store.Tame w.store (w.write op).store := op.tame h.keyed adds deletes
    refine ⟨plain, keyed, fun pass f flies => ?_, fun pass f flies fresh m read => ?_,
      fun key p found timely => ?_⟩
    · obtain ⟨was, flew, rfl⟩ := before flies
      exact h.leaves pass was flew
    · obtain ⟨was, flew, rfl⟩ := before flies
      exact tame.monitors _ _ (h.standing pass was flew fresh m read)
    · obtain ⟨was, there, ns, owners⟩ := tame.pods key p found
      exact (h.owners key was there timely).congr tame.monitors ns owners
  | some gone =>
    rw [deletes] at before
    obtain ⟨present, monitors, pods⟩ := Store.Operation.run_of_deletes h.keyed deletes
    refine ⟨plain, keyed, fun pass f flies => ?_, fun pass f flies fresh m read => ?_,
      fun key p found timely => ?_⟩
    · obtain ⟨was, flew, rfl⟩ := before flies
      exact h.leaves pass was flew
    · obtain ⟨was, flew, rfl⟩ := before flies
      obtain ⟨fresh, other⟩ := Flight.fresh_of_overtake fresh read
      obtain ⟨stored, found, uid⟩ := h.standing pass was flew fresh m read
      have apart : m.key ≠ gone.key := by
        intro same
        rw [same, present] at found
        cases found
        exact other ⟨same, uid.symm⟩
      refine ⟨stored, ?_, uid⟩
      change (op.run w.store).monitors.get? m.key = some stored
      rw [monitors, Table.get?_erase, if_neg apart]
      exact found
    · change (op.run w.store).pods.get? key = some p at found
      rw [pods, Table.get?_filter] at found
      obtain ⟨there, free⟩ := Option.filter_eq_some_iff.mp found
      exact (h.owners key p there timely).of_deleted present monitors (by simpa using free)

theorem Owned.owners_created (h : w.Owned) {f : Flight} {p : Pod}
    {next : Except StoreError Pod → Pass.Steps (Except Error Pass.Action)} {d : Pass.Delays}
    {t : Child.Template} {text : String} (standing : f.Stands w.store)
    (leaves : (Pass.sync d t text).Leaves f.said (.call (.createPod p) next)) {s : Store}
    {reply : Except StoreError Pod} (answer : w.store.createPod p = (s, reply)) {key : Key}
    {q : Pod} (found : s.pods.get? key = some q)
    (timely : (f.note w.late (.createPod p) reply).contains key = false) : s.HasOwner q := by
  cases reply with
  | error e =>
    rw [Store.createPod_eq_error answer] at found ⊢
    exact h.owners key q found timely
  | ok made =>
    obtain ⟨monitors, pods, ns, owners⟩ := Store.createPod_eq_ok answer
    have still (key : Key) (uid : String) (holds : w.store.Holds key uid) : s.Holds key uid := by
      rw [Store.Holds, monitors]
      exact holds
    rw [pods, Table.get?_insert] at found
    simp only [Flight.note] at timely
    by_cases mine : key = p.key
    · rw [if_pos mine] at found
      cases found
      subst mine
      split at timely
      · rw [Table.contains_insert] at timely
        simp at timely
      · rename_i fresh
        obtain ⟨name, m, rest, said, rfl⟩ := Pass.creation_of_leaves leaves
        have read : m ∈ f.said.readings := by rw [said]; exact List.mem_cons_self ..
        have holds := standing (by simpa using fresh) m read
        have built : w.store.HasOwner (Child.build m t) := by
          rintro _ ⟨⟩ _
          exact holds
        exact built.congr still ns owners
    · rw [if_neg mine] at found
      refine (h.owners key q found ?_).congr still rfl rfl
      split at timely
      · rw [Table.contains_insert] at timely
        simpa [mine] using timely
      · rw [Table.contains_erase] at timely
        simpa [mine] using timely

theorem Owned.owners_answered (h : w.Owned) {f : Flight} {c : Pass.Call}
    {next : Pass.Reply c → Pass.Steps (Except Error Pass.Action)} {d : Pass.Delays}
    {t : Child.Template} {text : String} (standing : f.Stands w.store)
    (leaves : (Pass.sync d t text).Leaves f.said (.call c next)) (key : Key) (q : Pod)
    (found : (Deployment.replyToPass c w.site).1.drill.store.pods.get? key = some q)
    (timely : (f.note w.late c (Deployment.replyToPass c w.site).2).contains key = false) :
    (Deployment.replyToPass c w.site).1.drill.store.HasOwner q := by
  by_cases creates : ∃ p, c = .createPod p
  · obtain ⟨p, rfl⟩ := creates
    exact h.owners_created standing leaves (Deployment.replyToPass_createPod h.plain p) found timely
  · have tame := Deployment.replyToPass_tame h.plain h.keyed c (not_exists.mp creates)
    have late : f.note w.late c (Deployment.replyToPass c w.site).2 = w.late := by
      cases c with
      | createPod p => exact (creates ⟨p, rfl⟩).elim
      | _ => rfl
    rw [late] at timely
    obtain ⟨was, there, ns, owners⟩ := tame.pods key q found
    exact (h.owners key was there timely).congr tame.monitors ns owners

theorem Owned.set (h : w.Owned) (pass : Nat) (new : Option Flight)
    (fits : ∀ f, new = some f →
      (∃ d t text, (Pass.sync d t text).Leaves f.said f.rest) ∧ f.Stands w.store) :
    (w.set pass new).Owned := by
  refine ⟨h.plain, h.keyed, fun other f flies => ?_, fun other f flies => ?_, h.owners⟩
  · rcases set_eq_some.mp flies with ⟨_, same⟩ | ⟨_, before⟩
    · exact (fits f same).1
    · exact h.leaves other f before
  · rcases set_eq_some.mp flies with ⟨_, same⟩ | ⟨_, before⟩
    · exact (fits f same).2
    · exact h.standing other f before

theorem Owned.called (h : w.Owned) {pass : Nat} {f : Flight} (flies : w.flights pass = some f)
    {c : Pass.Call} {next : Pass.Reply c → Pass.Steps (Except Error Pass.Action)}
    (busy : f.rest = .call c next) : (w.answer pass f c next).Owned := by
  have replied := Deployment.reply_replied h.plain h.keyed (.pass c)
  have keyed : (w.answer pass f c next).store.Keyed := by
    obtain ⟨written, effect⟩ := replied.store
    exact h.keyed.step effect
  have still {key : Key} {uid : String} (holds : w.store.Holds key uid) :
      (w.answer pass f c next).store.Holds key uid :=
    Deployment.replyToPass_holds h.plain h.keyed c holds
  have standing := h.standing pass f flies
  obtain ⟨d, t, text, leaves⟩ := h.leaves pass f flies
  rw [busy] at leaves
  have answered : Owned { w with
      site := (Deployment.replyToPass c w.site).1
      late := f.note w.late c (Deployment.replyToPass c w.site).2 } := by
    refine ⟨replied.plain, keyed, h.leaves, fun other g flies fresh m read => ?_, ?_⟩
    · exact still (h.standing other g flies fresh m read)
    · exact h.owners_answered standing leaves
  -- the pass itself: what it has just read, if anything, is what the store holds
  refine answered.set pass _ fun g same => ?_
  cases same
  refine ⟨⟨d, t, text, leaves.step _⟩, fun fresh m read => ?_⟩
  rcases Pass.Log.mem_readings_snoc read with early | ⟨key, last⟩
  · exact still (standing fresh m early)
  · obtain ⟨rfl, told⟩ := Sigma.mk.inj last
    exact still (Deployment.holds_of_getMonitor h.plain h.keyed (eq_of_heq told))

theorem Owned.step {move : Move} (h : w.Owned)
    (adds : ∀ op, move = .outside op → op.addsPods = false) (step : Stepped w move w') :
    w'.Owned := by
  cases step with
  | wrote op => exact h.wrote op (adds op rfl)
  | cached c => exact ⟨h.plain, h.keyed, h.leaves, h.standing, h.owners⟩
  | started pass text free =>
    refine h.set pass _ fun f same => ?_
    cases same
    exact ⟨⟨_, _, text, .start⟩, fun _ _ read => nomatch read⟩
  | landed pass f flies result ended => exact h.set pass none fun _ same => nomatch same
  | called pass f flies c next busy => exact h.called flies busy

/-- The monitor of a key is not kept from its child by one that another monitor left behind. -/
theorem Owned.controls (h : w.Owned) {m : Monitor} {p : Pod} {owner : Owner}
    (stored : w.store.monitors.get? m.key = some m)
    (found : w.store.pods.get? (Child.key m) = some p) (named : p.metadata.controller? = some owner)
    (kind : owner.kind = monitorKind) (name : owner.name = m.metadata.name)
    (timely : w.late.contains (Child.key m) = false) : m.controls p.metadata = true := by
  obtain ⟨there, holds, uid⟩ := h.owners _ p found timely owner named kind
  have ns : p.metadata.ns = m.metadata.ns := congrArg Key.ns (h.keyed.pods _ p found)
  have key : (⟨p.metadata.ns, owner.name⟩ : Key) = m.key := by rw [ns, name]; rfl
  rw [key, stored] at holds
  cases holds
  simp [Monitor.controls, named, ns, kind, name, uid]

/-- In every run of passes, deletions and other writes, of whatever calls and in whatever order,
over a store that has no children of monitors at first and gets pods from passes only: the monitor
that a pod names as its manager is there, in the incarnation that it names, and a monitor controls
whatever child of its name is there; except for a child that a pass has created after the monitor
that the pass had read was deleted. -/
theorem children_have_owners {σ τ : Type} (retention : Nat) (earlier : List Store.Operation)
    (stamp : Recorder.Stamp) (parts : Operator.Parts σ τ)
    (unowned : ∀ key p owner, ((Store.empty retention).after earlier).pods.get? key = some p →
      p.metadata.controller? = some owner → owner.kind ≠ monitorKind)
    (moves : List Move) (adds : ∀ op, .outside op ∈ moves → op.addsPods = false) (w : Passes)
    (run : after? step? (start ((Store.empty retention).after earlier) stamp parts) moves =
      some w) :
    (∀ key p, w.store.pods.get? key = some p → w.late.contains key = false → w.store.HasOwner p) ∧
    ∀ m p owner, w.store.monitors.get? m.key = some m → w.store.pods.get? (Child.key m) = some p →
      p.metadata.controller? = some owner → owner.kind = monitorKind →
      owner.name = m.metadata.name → w.late.contains (Child.key m) = false →
      m.controls p.metadata = true := by
  have first : (start ((Store.empty retention).after earlier) stamp parts).Owned :=
    ⟨rfl, Store.Keyed.empty retention |>.after earlier, fun _ _ flies => (nomatch flies),
      fun _ _ flies => (nomatch flies),
      fun key p found _ owner named kind => (unowned key p owner found named kind).elim⟩
  have owned : w.Owned := by
    refine after?_invariant_of_mem moves (fun v move v' member h step => ?_) first run
    exact h.step (fun op same => adds op (same ▸ member)) (stepped step)
  exact ⟨owned.owners, fun m p owner stored found named kind name timely =>
    owned.controls stored found named kind name timely⟩

theorem children_have_owners_recreated :
    let moves : List Move := [
      .outside (.apply { metadata := { ns := "a", name := "x" }, status := .plain .running }),
      .start 0 "a/x"] ++ List.replicate 5 (.call 0) ++ [.outside (.deleteMonitor ⟨"a", "x"⟩),
      .outside (.apply { metadata := { ns := "a", name := "x" }, status := .plain .running }),
      .start 0 "a/x"] ++ List.replicate 5 (.call 0)
    ∃ w p m, after? step? (start ((Store.empty 10).after []) ⟨"0", ""⟩
        ({} : Operator.Parts Unit Unit)) moves = some w ∧
      w.store.pods.get? ⟨"a", "pm-x"⟩ = some p ∧ w.store.monitors.get? ⟨"a", "x"⟩ = some m ∧
      w.store.HasOwner p ∧ m.controls p.metadata = true := by
  intro moves
  obtain ⟨w, p, m, owner, run, found, stored, name, named, kind, owns, timely⟩ : ∃ w p m owner,
      after? step? (start ((Store.empty 10).after []) ⟨"0", ""⟩
        ({} : Operator.Parts Unit Unit)) moves = some w ∧
      w.store.pods.get? ⟨"a", "pm-x"⟩ = some p ∧ w.store.monitors.get? ⟨"a", "x"⟩ = some m ∧
      (m.key = ⟨"a", "x"⟩ ∧ Child.key m = ⟨"a", "pm-x"⟩) ∧ p.metadata.controller? = some owner ∧
      owner.kind = monitorKind ∧ owner.name = m.metadata.name ∧
      w.late.contains ⟨"a", "pm-x"⟩ = false :=
    ⟨_, _, _, _, rfl, rfl, rfl, ⟨rfl, rfl⟩, rfl, rfl, rfl, rfl⟩
  have adds (op : Store.Operation) (member : .outside op ∈ moves) : op.addsPods = false := by
    simp only [moves, List.mem_append, List.mem_cons, List.mem_replicate, reduceCtorEq,
      List.not_mem_nil, or_false, and_false, Move.outside.injEq] at member
    rcases member with rfl | rfl | rfl <;> rfl
  have h := children_have_owners 10 [] ⟨"0", ""⟩ ({} : Operator.Parts Unit Unit)
    (fun _ _ _ found => nomatch found) moves adds w run
  refine ⟨w, p, m, run, found, stored, h.1 _ p found timely, ?_⟩
  refine h.2 m p owner ?_ ?_ named kind owns ?_
  · rw [name.1]; exact stored
  · rw [name.2]; exact found
  · rw [name.2]; exact timely

/-- A monitor is deleted after a pass has looked for its child in vain. The pass creates the child
all the same and lands, no monitor is left, and a monitor that is applied under the same name fails
over the child. -/
theorem child_left_behind :
    ∃ w w' p m owner, after? step? (start ((Store.empty 10).after []) ⟨"0", ""⟩
        ({} : Operator.Parts Unit Unit)) ([
        .outside (.apply { metadata := { ns := "a", name := "x" }, status := .plain .running }),
        .start 0 "a/x", .call 0, .call 0, .outside (.deleteMonitor ⟨"a", "x"⟩)] ++
        List.replicate 3 (.call 0)) = some w ∧
      (∀ pass, w.flights pass = none) ∧ w.store.monitors = ∅ ∧
      w.store.pods.get? ⟨"a", "pm-x"⟩ = some p ∧ p.metadata.controller? = some owner ∧
      owner.kind = monitorKind ∧
      after? step? w ([
        .outside (.apply { metadata := { ns := "a", name := "x" }, status := .plain .running }),
        .start 1 "a/x"] ++ List.replicate 6 (.call 1)) = some w' ∧
      (∀ pass, w'.flights pass = none) ∧ w'.store.monitors.get? ⟨"a", "x"⟩ = some m ∧
      m.status.phase = .failed ∧ m.controls p.metadata = false := by
  refine ⟨_, _, _, _, _, rfl, fun pass => ?_, rfl, rfl, rfl, rfl, rfl, fun pass => ?_, rfl, rfl, ?_⟩
  · cases pass <;> rfl
  · rcases pass with _ | _ | pass <;> rfl
  · rfl

end Passes

end MonitorOperator
