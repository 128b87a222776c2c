import Mathlib.Data.List.Destutter
import MonitorOperator.Proofs.Deployment.Reply
import MonitorOperator.Proofs.Passes.Moves
import MonitorOperator.Proofs.Store.History
import MonitorOperator.Proofs.Store.Version

/-! The status of a monitor from its creation to its deletion. Main statement: where passes are the
only ones to write statuses, the phases that a monitor goes through form a path along the edges of
the phase machine, whatever else happens to the store and to the cache in between. -/

namespace MonitorOperator.Passes

/-- A status stays, or it gives way to one along an edge, with a reason exactly for a failure. -/
def Turned (s t : MonitorStatus) : Prop :=
  t = s ∨ Pass.Edge s.phase t.phase ∧ (t.reason ≠ "" ↔ t.phase = .failed)

/-- The statuses of a monitor from one state to another. Without repetitions its phases form a path,
phases that are left alone end it, and each status but the first has a reason exactly for a
failure. -/
structure Career (life : List MonitorStatus) : Prop where
  path : ((life.map (·.phase)).destutter (· ≠ ·)).IsChain fun p q => p ≠ q ∧ Pass.Edge p q
  rests : ∀ before s after, life = before ++ s :: after → Pass.Phase.Rests s.phase →
    ∀ t ∈ after, t = s
  reasons : ∀ first rest, life = first :: rest → ∀ s ∈ rest,
    s = first ∨ (s.reason ≠ "" ↔ s.phase = .failed)

/-- Between two phases that differ a chain of turns goes along an edge. -/
theorem path_of_turned {s : MonitorStatus} {life : List MonitorStatus}
    (turned : (s :: life).IsChain Turned) :
    (((s :: life).map (·.phase)).destutter (· ≠ ·)).head? = some s.phase ∧
      (((s :: life).map (·.phase)).destutter (· ≠ ·)).IsChain fun p q => p ≠ q ∧ Pass.Edge p q := by
  induction life generalizing s with
  | nil => simp
  | cons t life ih =>
    obtain ⟨turn, rest⟩ := List.isChain_cons_cons.mp turned
    obtain ⟨head, chain⟩ := ih rest
    simp only [List.map_cons, List.destutter_cons'] at head chain ⊢
    by_cases same : s.phase = t.phase
    -- What is left after a repetition begins with the same phase.
    · rw [List.destutter'_cons_neg _ (by simpa using same), same]
      exact ⟨head, chain⟩
    · have next : Pass.Edge s.phase t.phase := by
        rcases turn with rfl | ⟨next, _⟩
        · contradiction
        · exact next
      rw [List.destutter'_cons_pos _ same]
      refine ⟨rfl, List.isChain_cons.mpr ⟨fun p first => ?_, chain⟩⟩
      rw [head, Option.mem_some_iff] at first
      exact first ▸ ⟨same, next⟩

theorem not_edge_of_rests {p q : Phase} (rests : Pass.Phase.Rests p) : ¬ Pass.Edge p q := by
  intro edge
  cases edge <;> exact rests

theorem rest_of_turned {s : MonitorStatus} {after : List MonitorStatus}
    (turned : (s :: after).IsChain Turned) (rests : Pass.Phase.Rests s.phase) :
    ∀ t ∈ after, t = s := by
  induction after with
  | nil => simp
  | cons t after ih =>
    obtain ⟨turn, rest⟩ := List.isChain_cons_cons.mp turned
    obtain rfl := turn.resolve_right fun next => not_edge_of_rests rests next.1
    simpa using ih rest

theorem reason_of_turned {first : MonitorStatus} {rest : List MonitorStatus}
    (turned : (first :: rest).IsChain Turned) :
    ∀ s ∈ rest, s = first ∨ (s.reason ≠ "" ↔ s.phase = .failed) := by
  induction rest generalizing first with
  | nil => simp
  | cons t rest ih =>
    obtain ⟨turn, chain⟩ := List.isChain_cons_cons.mp turned
    have next : t = first ∨ (t.reason ≠ "" ↔ t.phase = .failed) := turn.imp_right And.right
    intro s member
    rcases List.mem_cons.mp member with rfl | later
    · exact next
    · rcases ih chain s later with rfl | reason
      · exact next
      · exact .inr reason

theorem career_of_turned {life : List MonitorStatus} (turned : life.IsChain Turned) :
    Career life := by
  refine ⟨?_, ?_, ?_⟩
  · cases life with
    | nil => exact .nil
    | cons s life => exact (path_of_turned turned).2
  · rintro before s after rfl
    exact rest_of_turned turned.right_of_append
  · rintro first rest rfl
    exact reason_of_turned turned

def Flight.Fits (f : Flight) (s : Store) : Prop :=
  f.said.writes = [] → ∀ m ∈ f.said.readings, ∀ stored, s.monitors.get? m.key = some stored →
    stored.metadata.version = m.metadata.version → stored = m

theorem Flight.Fits.mono {f : Flight} {s t : Store} (h : f.Fits s)
    (sub : ∀ key m, t.monitors.get? key = some m → s.monitors.get? key = some m) : f.Fits t :=
  fun unwritten m read stored found => h unwritten m read stored (sub _ _ found)

theorem Flight.said_overtake (f : Flight) (gone : Option Monitor) :
    (f.overtake gone).said = f.said ∧ (f.overtake gone).rest = f.rest := by
  cases gone <;> exact ⟨rfl, rfl⟩

/-- The passes on their way, each with a reading that fits the store. -/
structure Steady (w : Passes) : Prop where
  plain : w.site.Plain
  keyed : w.store.Keyed
  leaves : ∀ pass f, w.flights pass = some f →
    ∃ d t text, (Pass.sync d t text).Leaves f.said f.rest
  fits : ∀ pass f, w.flights pass = some f → f.Fits w.store

variable {w w' : Passes} {move : Move}

theorem Stepped.plain (plain : w.site.Plain) (keyed : w.store.Keyed) (step : Stepped w move w') :
    w'.site.Plain := by
  cases step with
  | wrote op =>
    change { w.site.drill with store := op.run w.store } = ({ store := op.run w.store } : Drill)
    rw [plain]
  | called pass f flies c next busy => exact (Deployment.reply_replied plain keyed (.pass c)).plain
  | _ => exact plain

theorem Stepped.effect (plain : w.site.Plain) (keyed : w.store.Keyed) (step : Stepped w move w') :
    ∃ o, Store.Effect w.store w'.store o := by
  cases step with
  | wrote op => exact ⟨_, op.effect keyed⟩
  | called pass f flies c next busy => exact (Deployment.reply_replied plain keyed (.pass c)).store
  | _ => exact ⟨none, .still (.refl _)⟩

theorem Stepped.keyed (plain : w.site.Plain) (keyed : w.store.Keyed) (step : Stepped w move w') :
    w'.store.Keyed := by
  obtain ⟨o, effect⟩ := step.effect plain keyed
  exact keyed.step effect

theorem keyed_of_run {moves : List Move} (plain : w.site.Plain) (keyed : w.store.Keyed)
    (run : after? step? w moves = some w') : w'.site.Plain ∧ w'.store.Keyed :=
  after?_invariant (P := fun v => v.site.Plain ∧ v.store.Keyed)
    (fun _ _ _ ⟨plain, keyed⟩ step =>
      ⟨(stepped step).plain plain keyed, (stepped step).keyed plain keyed⟩)
    moves ⟨plain, keyed⟩ run

theorem answer_updateStatus (plain : w.site.Plain) {pass : Nat} {f : Flight} {u : Monitor}
    {next : Except StoreError Monitor → Pass.Steps (Except Error Pass.Action)} :
    (w.answer pass f (.updateStatus u) next).store = (w.store.updateStatus u).1 :=
  (Deployment.reply_updateStatus plain u).1

theorem answer_monitors (plain : w.site.Plain) {pass : Nat} {f : Flight} {c : Pass.Call}
    {next : Pass.Reply c → Pass.Steps (Except Error Pass.Action)}
    (reads : ∀ m, c ≠ .updateStatus m) :
    (w.answer pass f c next).store.monitors = w.store.monitors := by
  change (Deployment.replyToPass c w.site).1.drill.store.monitors = _
  by_cases creates : ∃ p, c = .createPod p
  · obtain ⟨p, rfl⟩ := creates
    have answer := Deployment.replyToPass_createPod plain p
    cases reply : (Deployment.replyToPass (.createPod p) w.site).2 with
    | ok made =>
      rw [reply] at answer
      exact (Store.createPod_eq_ok answer).1
    | error e =>
      rw [reply] at answer
      rw [Store.createPod_eq_error answer]
  · obtain ⟨_, _, published⟩ :=
      Deployment.replyToPass_published plain reads (not_exists.mp creates)
    rw [published]

theorem Flight.Fits.answered {pass : Nat} {f : Flight} {c : Pass.Call}
    {next : Pass.Reply c → Pass.Steps (Except Error Pass.Action)} (h : f.Fits w.store)
    (plain : w.site.Plain) (keyed : w.store.Keyed) :
    (f.told c (Deployment.replyToPass c w.site).2
      (next (Deployment.replyToPass c w.site).2)).Fits (w.answer pass f c next).store := by
  intro unwritten m read stored found version
  have writes : f.said.writes = [] ∧ ∀ u, c ≠ .updateStatus u := by
    change Pass.Log.writes (f.said ++ [_]) = [] at unwritten
    rw [Pass.Log.writes_append, List.append_eq_nil_iff] at unwritten
    refine ⟨unwritten.1, ?_⟩
    rintro u rfl
    simp [Pass.Log.writes] at unwritten
  rw [answer_monitors plain writes.2] at found
  rcases Pass.Log.mem_readings_snoc read with early | ⟨key, last⟩
  · exact h writes.1 m early stored found version
  · obtain ⟨rfl, told⟩ := Sigma.mk.inj last
    have answer := (Deployment.reply_getMonitor plain key).2.symm.trans (eq_of_heq told)
    have there := (Store.getMonitor_eq_ok.mp answer).2
    have name := keyed.monitors key m there
    rw [name, there] at found
    exact (Option.some.inj found).symm

theorem Steady.step (h : w.Steady) (step : Stepped w move w')
    (others : ∀ pass f, move ≠ .call pass → w.flights pass = some f → f.Fits w'.store) :
    w'.Steady := by
  have plain := step.plain h.plain h.keyed
  have keyed := step.keyed h.plain h.keyed
  cases step with
  | wrote op =>
    -- a pass that is overtaken is marked, and nothing else about it changes
    have before {pass : Nat} {f : Flight} (flies : (w.write op).flights pass = some f) :
        ∃ was, w.flights pass = some was ∧ f.said = was.said ∧ f.rest = was.rest := by
      obtain ⟨was, flew, rfl⟩ := Option.map_eq_some_iff.mp flies
      exact ⟨was, flew, was.said_overtake _⟩
    refine ⟨plain, keyed, fun pass f flies => ?_, fun pass f flies => ?_⟩
    · obtain ⟨was, flew, said, rest⟩ := before flies
      rw [said, rest]
      exact h.leaves pass was flew
    · obtain ⟨was, flew, said, rest⟩ := before flies
      rw [Flight.Fits, said]
      exact others pass was nofun flew
  | cached c => exact ⟨plain, keyed, h.leaves, h.fits⟩
  | started pass text free =>
    refine ⟨plain, keyed, fun other f flies => ?_, fun other f flies => ?_⟩
    · rcases set_eq_some.mp flies with ⟨_, same⟩ | ⟨_, before⟩
      · cases same
        exact ⟨_, _, text, .start⟩
      · exact h.leaves other f before
    · rcases set_eq_some.mp flies with ⟨_, same⟩ | ⟨_, before⟩
      · cases same
        exact fun _ _ read => nomatch read
      · exact h.fits other f before
  | landed pass f flies result ended =>
    refine ⟨plain, keyed, fun other f flies => ?_, fun other f flies => ?_⟩
    · rcases set_eq_some.mp flies with ⟨_, never⟩ | ⟨_, before⟩
      · contradiction
      · exact h.leaves other f before
    · rcases set_eq_some.mp flies with ⟨_, never⟩ | ⟨_, before⟩
      · contradiction
      · exact h.fits other f before
  | called pass f flies c next busy =>
    obtain ⟨d, t, text, leaves⟩ := h.leaves pass f flies
    rw [busy] at leaves
    refine ⟨plain, keyed, fun other g flew => ?_, fun other g flew => ?_⟩
    · rcases set_eq_some.mp flew with ⟨_, same⟩ | ⟨_, before⟩
      · cases same
        exact ⟨d, t, text, leaves.step _⟩
      · exact h.leaves other g before
    · rcases set_eq_some.mp flew with ⟨_, same⟩ | ⟨differ, before⟩
      · cases same
        exact (h.fits pass f flies).answered h.plain h.keyed
      · exact others other g (fun same => differ (Move.call.inj same).symm) before

def status? (w : Passes) (key : Key) : Option MonitorStatus :=
  (w.store.monitors.get? key).map (·.status)

/-- Where passes alone write statuses, an operation from outside does not. -/
def Move.SparesStatus : Move → Prop
  | .outside (.updateStatus _) => False
  | _ => True

theorem Move.SparesStatus.ne {op : Store.Operation} (h : (Move.outside op).SparesStatus)
    (m : Monitor) : op ≠ .updateStatus m := by
  rintro rfl
  exact h

theorem Steady.turned_of_written (h : w.Steady) {pass : Nat} {f : Flight}
    (flies : w.flights pass = some f) {u : Monitor}
    {next : Except StoreError Monitor → Pass.Steps (Except Error Pass.Action)}
    (busy : f.rest = .call (.updateStatus u) next) {key : Key} {old new : Monitor}
    (before : w.store.monitors.get? key = some old)
    (after : (w.store.updateStatus u).1.monitors.get? key = some new) :
    Turned old.status new.status := by
  obtain ⟨d, t, text, leaves⟩ := h.leaves pass f flies
  rw [busy] at leaves
  obtain ⟨unwritten, m, read, same, edge, reason⟩ := Pass.write_of_leaves leaves
  cases answer : (w.store.updateStatus u).2 with
  | error e =>
    have effect := Store.updateStatus_effect h.keyed u
    rw [answer] at effect
    have there := effect.stored_before after nofun
    rw [before] at there
    cases there
    exact .inl rfl
  | ok written =>
    have ok : w.store.updateStatus u = ((w.store.updateStatus u).1, .ok written) :=
      Prod.ext rfl answer
    obtain ⟨_, stored, found, version, fresh⟩ := Store.updateStatus_eq_ok.mp answer
    have key : u.key = m.key := by rw [same]; rfl
    have token : u.metadata.version = m.metadata.version := by rw [same]
    -- The write has gone through, so that what the pass has read is what is stored.
    obtain rfl := h.fits pass f flies unwritten m read stored (key ▸ found) (version.trans token)
    rw [(Store.updateStatus_ok h.keyed ok).1, Table.get?_insert] at after
    split at after
    · rename_i mine
      rw [mine, found] at before
      cases before
      cases after
      rw [fresh]
      exact .inr ⟨edge, reason⟩
    · rw [before] at after
      cases after
      exact .inl rfl

theorem Steady.turned (h : w.Steady) (step : Stepped w move w') (spares : move.SparesStatus)
    {key : Key} {s t : MonitorStatus} (before : w.status? key = some s)
    (after : w'.status? key = some t) : Turned s t := by
  obtain ⟨old, there, rfl⟩ := Option.map_eq_some_iff.mp before
  obtain ⟨new, found, rfl⟩ := Option.map_eq_some_iff.mp after
  have same (monitors : w'.store.monitors = w.store.monitors) : Turned old.status new.status := by
    rw [monitors, there] at found
    cases found
    exact .inl rfl
  cases step with
  | wrote op => exact .inl (op.status_kept h.keyed spares.ne there found)
  | called pass f flies c next busy =>
    by_cases updates : ∃ u, c = .updateStatus u
    · obtain ⟨u, rfl⟩ := updates
      rw [answer_updateStatus h.plain] at found
      exact h.turned_of_written flies busy there found
    · exact same (answer_monitors h.plain (not_exists.mp updates))
  | _ => exact same rfl

theorem Stepped.status_given (plain : w.site.Plain) (keyed : w.store.Keyed)
    (step : Stepped w move w') (spares : move.SparesStatus) {key : Key} {s : MonitorStatus}
    (before : w.status? key = none) (after : w'.status? key = some s) :
    ∃ m, move = .outside (.apply m) ∧ m.key = key ∧ s = m.status := by
  have absent : w.store.monitors.get? key = none := Option.map_eq_none_iff.mp before
  obtain ⟨new, found, rfl⟩ := Option.map_eq_some_iff.mp after
  have never {P : Prop} (there : w.store.monitors.get? key = some new) : P := by
    rw [absent] at there
    contradiction
  cases step with
  | wrote op =>
    obtain ⟨m, rfl, name, status⟩ := op.status_given keyed spares.ne absent found
    exact ⟨m, rfl, name, status⟩
  | called pass f flies c next busy =>
    by_cases updates : ∃ u, c = .updateStatus u
    · obtain ⟨u, rfl⟩ := updates
      rw [answer_updateStatus plain] at found
      obtain ⟨old, there⟩ := Store.present_of_updateStatus keyed found
      rw [absent] at there
      contradiction
    · rw [answer_monitors plain (not_exists.mp updates)] at found
      exact never found
  | _ => exact never found

theorem Stepped.call_of_changed (keyed : w.store.Keyed) (step : Stepped w move w')
    (spares : move.SparesStatus) {key : Key} {s t : MonitorStatus} (before : w.status? key = some s)
    (after : w'.status? key = some t) (changed : t ≠ s) : ∃ pass, move = .call pass := by
  cases step with
  | wrote op =>
    obtain ⟨old, there, rfl⟩ := Option.map_eq_some_iff.mp before
    obtain ⟨new, found, rfl⟩ := Option.map_eq_some_iff.mp after
    exact (changed (op.status_kept keyed spares.ne there found)).elim
  | cached c => exact (changed (Option.some.inj (after.symm.trans before))).elim
  | started pass text free => exact (changed (Option.some.inj (after.symm.trans before))).elim
  | landed pass f flies result ended => exact ⟨pass, rfl⟩
  | called pass f flies c next busy => exact ⟨pass, rfl⟩

def Calm (w : Passes) : List Move → Prop
  | [] => True
  | move :: moves => ∀ w', w.step? move = some w' →
    (∀ pass f, move ≠ .call pass → w.flights pass = some f → f.Fits w.store → f.Fits w'.store) ∧
      w'.Calm moves

theorem Steady.turns (h : w.Steady) {moves : List Move} (calm : w.Calm moves)
    (spares : ∀ move ∈ moves, move.SparesStatus) (key : Key) :
    ((trail step? w moves).map (·.status? key)).IsChain fun o o' =>
      ∀ s t, o = some s → o' = some t → Turned s t := by
  induction moves generalizing w with
  | nil => exact .singleton _
  | cons move moves ih =>
    rw [trail]
    split
    · exact .singleton _
    · rename_i v step
      obtain ⟨left, rest⟩ := calm v step
      have first := stepped step
      have steady : v.Steady := h.step first fun pass f differ flies =>
        left pass f differ flies (h.fits pass f flies)
      have spared := spares move (List.mem_cons_self ..)
      refine List.isChain_cons.mpr ⟨fun o member s t before after => ?_, ?_⟩
      · rw [List.head?_map, head?_trail, Option.map_some, Option.mem_some_iff] at member
        exact h.turned first spared before (member.trans after)
      · exact ih steady rest fun move member => spares move (List.mem_cons_of_mem _ member)

/-! Passes that take turns leave to each other what they have read. -/

/-- A pass starts, or a monitor is written from outside. -/
def Move.Disturbs : Move → Prop
  | .start .. => True
  | .outside op => op.WritesMonitor
  | _ => False

/-- No pass is on its way when another one starts or when a monitor is written from outside. -/
def InTurn (w : Passes) : List Move → Prop
  | [] => True
  | move :: moves => (move.Disturbs → ∀ pass, w.flights pass = none) ∧
      ∀ w', w.step? move = some w' → w'.InTurn moves

def Sole (w : Passes) : Prop :=
  ∀ pass other f g, w.flights pass = some f → w.flights other = some g → pass = other

theorem Sole.step (h : w.Sole) (step : Stepped w move w')
    (turn : move.Disturbs → ∀ pass, w.flights pass = none) : w'.Sole := by
  intro pass other f g flies flew
  cases step with
  | wrote op =>
    obtain ⟨was, before, _⟩ := Option.map_eq_some_iff.mp flies
    obtain ⟨was', before', _⟩ := Option.map_eq_some_iff.mp flew
    exact h pass other was was' before before'
  | cached c => exact h pass other f g flies flew
  | started first text free =>
    have none := turn trivial
    rcases set_eq_some.mp flies with ⟨rfl, _⟩ | ⟨_, before⟩
    · rcases set_eq_some.mp flew with ⟨rfl, _⟩ | ⟨_, before⟩
      · rfl
      · rw [none] at before; contradiction
    · rw [none] at before; contradiction
  | landed first was flying result ended =>
    rcases set_eq_some.mp flies with ⟨_, never⟩ | ⟨differ, before⟩
    · contradiction
    · exact (differ (h pass first f was before flying)).elim
  | called first was flying c next busy =>
    rcases set_eq_some.mp flies with ⟨rfl, _⟩ | ⟨differ, before⟩
    · rcases set_eq_some.mp flew with ⟨rfl, _⟩ | ⟨differ, before⟩
      · rfl
      · exact (differ (h other _ g was before flying)).elim
    · exact (differ (h pass first f was before flying)).elim

theorem calm_of_inTurn {moves : List Move} (plain : w.site.Plain) (keyed : w.store.Keyed)
    (sole : w.Sole) (turns : w.InTurn moves) : w.Calm moves := by
  induction moves generalizing w with
  | nil => trivial
  | cons move moves ih =>
    intro v step
    have first := stepped step
    refine ⟨fun pass f differ flies fits => ?_, ?_⟩
    · by_cases disturbs : move.Disturbs
      · rw [turns.1 disturbs pass] at flies
        contradiction
      · cases first with
        | wrote op =>
          refine fits.mono fun key m found => (op.effect keyed).stored_before found ?_
          intro written same _
          exact disturbs (Store.Operation.writesMonitor_of_written same)
        | cached c => exact fits
        | started other text free => exact (disturbs trivial).elim
        | landed other g flew result ended =>
          exact (differ (by rw [sole pass other f g flies flew])).elim
        | called other g flew c next busy =>
          exact (differ (by rw [sole pass other f g flies flew])).elim
    · exact ih (first.plain plain keyed) (first.keyed plain keyed) (sole.step first turns.1)
        (turns.2 v step)

/-! So do passes of any order, as long as versions do not come round. -/

def written (w : Passes) : Nat := w.store.feed.versions.length

structure Numbered (w : Passes) : Prop where
  plain : w.site.Plain
  dated : w.store.Dated w.written
  early : ∀ pass f, w.flights pass = some f → ∀ m ∈ f.said.readings,
    m.metadata.version.toNat ≤ w.written

theorem Stepped.written_le (plain : w.site.Plain) (keyed : w.store.Keyed)
    (step : Stepped w move w') : w.written ≤ w'.written := by
  obtain ⟨o, effect⟩ := step.effect plain keyed
  rw [written, written, effect.versions_length]
  exact Nat.le_add_right ..

theorem written_le_of_run {moves : List Move} (plain : w.site.Plain) (keyed : w.store.Keyed)
    (run : after? step? w moves = some w') : w.written ≤ w'.written := by
  induction moves generalizing w with
  | nil => exact Nat.le_of_eq (by rw [Option.some.inj run])
  | cons move moves ih =>
    rw [after?_cons, Option.bind_eq_some_iff] at run
    obtain ⟨v, first, rest⟩ := run
    have step := stepped first
    exact Nat.le_trans (step.written_le plain keyed)
      (ih (step.plain plain keyed) (step.keyed plain keyed) rest)

theorem Numbered.step (h : w.Numbered) (step : Stepped w move w')
    (few : w'.written < UInt64.size) : w'.Numbered := by
  have keyed := h.dated.keyed
  have later := step.written_le h.plain keyed
  refine ⟨step.plain h.plain keyed, ?_, ?_⟩
  · obtain ⟨o, effect⟩ := step.effect h.plain keyed
    have count : w'.written = w.written + Store.writes o := by
      rw [written, written, effect.versions_length]
      cases o <;> rfl
    rw [count] at few ⊢
    exact h.dated.step effect few
  · intro pass f flies m read
    have before (was : Flight) (flew : w.flights pass = some was) (early : m ∈ was.said.readings) :
        m.metadata.version.toNat ≤ w'.written := Nat.le_trans (h.early pass was flew m early) later
    cases step with
    | wrote op =>
      obtain ⟨was, flew, rfl⟩ := Option.map_eq_some_iff.mp flies
      rw [(was.said_overtake _).1] at read
      exact before was flew read
    | cached c => exact before f flies read
    | started first text free =>
      rcases set_eq_some.mp flies with ⟨_, same⟩ | ⟨_, flew⟩
      · cases same
        contradiction
      · exact before f flew read
    | landed first was flying result ended =>
      rcases set_eq_some.mp flies with ⟨_, never⟩ | ⟨_, flew⟩
      · contradiction
      · exact before f flew read
    | called first was flying c next busy =>
      rcases set_eq_some.mp flies with ⟨rfl, same⟩ | ⟨_, flew⟩
      · cases same
        rcases Pass.Log.mem_readings_snoc read with early | ⟨key, last⟩
        · exact before was flying early
        · obtain ⟨rfl, told⟩ := Sigma.mk.inj last
          have answer := (Deployment.reply_getMonitor h.plain key).2.symm.trans (eq_of_heq told)
          have there := (Store.getMonitor_eq_ok.mp answer).2
          exact Nat.le_trans (h.dated.reached key m there) later
      · exact before f flew read

theorem Numbered.fits (h : w.Numbered) (step : Stepped w move w')
    (few : w'.written < UInt64.size) {pass : Nat} {f : Flight} (flies : w.flights pass = some f)
    (fits : f.Fits w.store) : f.Fits w'.store := by
  intro unwritten m read stored found version
  obtain ⟨o, effect⟩ := step.effect h.plain h.dated.keyed
  by_cases mine : ∃ v, o = some (.monitor v) ∧ v.key = m.key
  -- What is written now has the next version, and no pass can have read that one yet.
  · obtain ⟨v, rfl, name⟩ := mine
    have same : v = stored := Option.some.inj (effect.stored.symm.trans (name ▸ found))
    have fresh : v.metadata.version = w.store.nextVersion := effect.version
    have count : w'.written = w.written + 1 := effect.versions_length
    have late := h.dated.next_toNat (by omega)
    have early := h.early pass f flies m read
    rw [← version, ← same, fresh, late] at early
    omega
  · refine fits unwritten m read stored (effect.stored_before found ?_) version
    exact fun v eq name => mine ⟨v, eq, name⟩

theorem calm_of_few {moves : List Move} (h : w.Numbered) (run : after? step? w moves = some w')
    (few : w'.written < UInt64.size) : w.Calm moves := by
  induction moves generalizing w with
  | nil => trivial
  | cons move moves ih =>
    intro v step
    rw [after?_cons, step] at run
    have first := stepped step
    have keyed := h.dated.keyed
    have few : v.written < UInt64.size := Nat.lt_of_le_of_lt
      (written_le_of_run (first.plain h.plain keyed) (first.keyed h.plain keyed) run) few
    exact ⟨fun pass f _ flies => h.fits first few flies, ih (h.step first few) run⟩

section

variable {σ τ : Type} (retention : Nat) (stamp : Recorder.Stamp) (parts : Operator.Parts σ τ)

theorem Steady.start : (start (Store.empty retention) stamp parts).Steady :=
  ⟨rfl, .empty retention, fun _ _ flies => (nomatch flies), fun _ _ flies => nomatch flies⟩

theorem Numbered.start : (start (Store.empty retention) stamp parts).Numbered :=
  ⟨rfl, .empty retention, fun _ _ flies => nomatch flies⟩

theorem Sole.start : (start (Store.empty retention) stamp parts).Sole :=
  fun _ _ _ _ flies => nomatch flies

end

/-- In every run in which passes are the only ones to write statuses, be it that they take turns or
that fewer than `UInt64.size` objects are written while they come between each other: the statuses
of a monitor from its creation to its deletion make up a career along the edges of the phase
machine. It begins with the status that the monitor is applied with, and after that nothing but a
call of a pass changes the status. -/
theorem phases_follow_edges {σ τ : Type} (retention : Nat) (stamp : Recorder.Stamp)
    (parts : Operator.Parts σ τ) (moves : List Move) (w : Passes)
    (run : after? step? (start (Store.empty retention) stamp parts) moves = some w)
    (spares : ∀ move ∈ moves, move.SparesStatus)
    (calm : (start (Store.empty retention) stamp parts).InTurn moves ∨ w.written < UInt64.size)
    (key : Key) :
    (∀ life : List MonitorStatus, life.map some <:+:
      (trail step? (start (Store.empty retention) stamp parts) moves).map (·.status? key) →
        Career life) ∧
    ∀ before move after v v', moves = before ++ move :: after →
      after? step? (start (Store.empty retention) stamp parts) before = some v →
      v.step? move = some v' →
      (∀ s, v.status? key = none → v'.status? key = some s →
        ∃ m, move = .outside (.apply m) ∧ m.key = key ∧ s = m.status) ∧
      ∀ s t, v.status? key = some s → v'.status? key = some t → t ≠ s →
        ∃ pass, move = .call pass := by
  have steady := Steady.start retention stamp parts
  have calm : (start (Store.empty retention) stamp parts).Calm moves := by
    rcases calm with turns | few
    · exact calm_of_inTurn steady.plain steady.keyed (.start retention stamp parts) turns
    · exact calm_of_few (.start retention stamp parts) run few
  refine ⟨fun life part => career_of_turned ?_, ?_⟩
  · have chain := List.IsChain.infix (steady.turns calm spares key) part
    refine List.isChain_of_isChain_map (R := Turned) some (fun s t turned => ?_) chain
    exact turned s t rfl rfl
  · rintro before move after v v' rfl early step
    have spared := spares move (by simp)
    have sound := keyed_of_run steady.plain steady.keyed early
    exact ⟨fun s absent found => (stepped step).status_given sound.1 sound.2 spared absent found,
      fun s t old new changed => (stepped step).call_of_changed sound.2 spared old new changed⟩

def Move.pass (n : Nat) (text : String) (calls : Nat) : List Move :=
  .start n text :: List.replicate calls (.call n)

/-- A monitor waits for its pod, fails without it while the store is down now and then, runs once
the pod is there, is applied with another interval, and is completed. -/
theorem phases_follow_edges_to_completion :
    let moves : List Move :=
      [.outside (.apply { metadata := { ns := "a", name := "x" } })] ++ Move.pass 0 "a/x" 4 ++
      Move.pass 1 "a/x" 5 ++ [.outside (.setUnavailable true)] ++ Move.pass 2 "a/x" 2 ++
      [.outside (.setUnavailable false),
        .cache { pods := Table.ofList [(⟨"a", "x"⟩, { metadata := { ns := "a", name := "x" } })] }] ++
      Move.pass 3 "a/x" 8 ++
      [.outside (.apply { metadata := { ns := "a", name := "x" }, spec := { interval := 5 } }),
        .outside (.setPodPhase ⟨"a", "pm-x"⟩ .succeeded)] ++ Move.pass 4 "a/x" 5
    ∃ w life,
      after? step? (start (Store.empty 10) ⟨"0", ""⟩ ({} : Operator.Parts Unit Unit)) moves =
        some w ∧ w.status? ⟨"a", "x"⟩ = some (.plain .completed) ∧ Career life ∧
      (life.map (·.phase)).destutter (· ≠ ·) =
        [.unset, .pending, .failed, .running, .completed] := by
  intro moves
  have ends : (after? step? (start (Store.empty 10) ⟨"0", ""⟩ ({} : Operator.Parts Unit Unit))
      moves).map (fun w => (w.status? ⟨"a", "x"⟩, w.written)) =
        some (some (.plain .completed), 8) := rfl
  obtain ⟨w, run, ends⟩ := Option.map_eq_some_iff.mp ends
  obtain ⟨last, few⟩ := Prod.mk.inj ends
  have spares : ∀ move ∈ moves, move.SparesStatus := by
    simp [moves, Move.pass, Move.SparesStatus]
  have h := phases_follow_edges 10 ⟨"0", ""⟩ ({} : Operator.Parts Unit Unit) moves w run spares
    (.inr (by rw [few]; decide)) ⟨"a", "x"⟩
  let life : List MonitorStatus :=
    List.replicate 3 (.plain .unset) ++ List.replicate 6 (.plain .pending) ++
    List.replicate 15 (.failure "monitored pod a/x not found") ++
    List.replicate 8 (.plain .running) ++ List.replicate 3 (.plain .completed)
  exact ⟨w, life, run, last, h.1 life ⟨[none], [], rfl⟩, rfl⟩

end MonitorOperator.Passes
