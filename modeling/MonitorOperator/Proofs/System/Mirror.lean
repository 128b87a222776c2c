import MonitorOperator.Proofs.Pass.Transitions
import MonitorOperator.Proofs.System.Listing

/-! The cache as a mirror of the store. Main statements: a cache whose router has read the feed to
its end holds exactly what the store holds; and a step moves the cache back in the history only
where it takes in a change that is older than the listing. -/

namespace MonitorOperator.System

namespace Noted

theorem tracked_of_run {σ τ : Type} {retention : Nat} {stamp : Recorder.Stamp}
    {parts : Operator.Parts σ τ} {moves : List Move} {n : Noted} (placed : parts.cache.Placed)
    (run : after? step? { system := System.start retention stamp parts } moves = some n) :
    n.Tracked :=
  after?_invariant (fun _ _ _ h step => h.step step) moves (.start retention stamp parts placed) run

end Noted

/-- In every run, of whatever moves and in whatever order: once the router watches and its feed has
nothing more for it, the cache holds the monitors and the pods of the store. -/
theorem cache_converges {σ τ : Type} (retention : Nat) (stamp : Recorder.Stamp)
    (parts : Operator.Parts σ τ) (placed : parts.cache.Placed) (moves : List Move) (s : System)
    (run : after? step? (start retention stamp parts) moves = some s) (stage : s.stage = .watching)
    (drained : (s.feed.read s.position).1 = .nothing) :
    s.cache.monitors = s.store.monitors ∧ s.cache.pods = s.store.pods := by
  obtain ⟨n, noted, rfl⟩ := Noted.exists_of_run (n := { system := start retention stamp parts }) run
  have tracked := Noted.tracked_of_run placed noted
  have ended := Feed.read_nothing drained
  refine Cache.ext_at? (d := n.system.store.mirror) fun p => ?_
  have known := tracked.known
  rw [stage] at known
  cases known with
  | level inside level =>
    obtain ⟨k, late, _, same⟩ := level p
    rw [same, Feed.asOf_of_size_le (Nat.le_trans ended late)]
    exact (tracked.logged.same p).symm

theorem cache_converges_over_stale_changes :
    let moves : List Move := [.route, .outside (.putPod { metadata := { ns := "a", name := "x" } }),
      .outside (.putPod { metadata := { ns := "a", name := "x" } }),
      .outside (.apply { metadata := { ns := "a", name := "x" } }), .route,
      .outside (.deletePod ⟨"a", "x"⟩), .route] ++ List.replicate 19 .route
    ∃ s, after? step? (start 10 ⟨"0", ""⟩ ({} : Operator.Parts Unit Unit)) moves = some s ∧
      s.position = 4 ∧ (s.cache.monitors.get? ⟨"a", "x"⟩).isSome = true ∧ s.cache.pods = ∅ ∧
      s.cache.monitors = s.store.monitors ∧ s.cache.pods = s.store.pods := by
  intro moves
  have h := cache_converges 10 ⟨"0", ""⟩ ({} : Operator.Parts Unit Unit) Cache.placed_empty moves _
    rfl rfl rfl
  exact ⟨_, rfl, rfl, rfl, rfl, h⟩

namespace Noted

variable {n n' : Noted} {p : Place}

def Replays (n : Noted) (p : Place) : Prop :=
  ∃ c, n.system.stage = .taking [c] false ∧ c.place = p ∧ n.position ≤ n.mark p

/-- Up to where in the history the cache can be. -/
def limit (n : Noted) (p : Place) : Progress → Nat
  | .lists => n.feed.size
  | .halfway _ => n.monitorsAt
  | .handles _ true => n.mark p
  | .handles _ false => max n.position (n.mark p)

def Past (n : Noted) : Prop := ∀ p, n.Between p 0 (n.limit p n.system.stage.progress)

inductive Turn (n n' : Noted) (p : Place) : Prop where
  | same (cache : n'.cache.at? p = n.cache.at? p)
  | listed (c : Change) (todo : List Change) (stage : n.system.stage = .taking (c :: todo) true)
      (place : c.place = p) (ahead : n.position ≤ n.mark p)
      (now : n'.cache.at? p = n.listing.at? p) (leaves : n'.cache.at? p = c.leaves)
  | read (c : Change) (q : Nat) (stage : n.system.stage = .taking [c] false) (place : c.place = p)
      (next : n.position = q + 1) (there : n.feed.changes[q]? = some c)
      (was : n.Between p q (max q (n.mark p))) (now : n'.cache.at? p = (n.feed.asOf (q + 1)).at? p)
      (leaves : n'.cache.at? p = c.leaves)

theorem Tracked.turn {move : Move} (h : n.Tracked) (noted : n.step? move = some n') (p : Place) :
    n.Turn n' p := by
  obtain ⟨t, step, rfl⟩ := step?_eq_some.mp noted
  have same (cache : t.cache.at? p = n.cache.at? p) : n.Turn (n.note t) p :=
    .same (by rw [Noted.cache, note_system]; exact cache)
  rcases (stepped step).routed_or_elsewhere with routed | elsewhere
  · cases routed with
    | absorbed c todo syncs stage =>
      have after : (n.note (n.system.absorb c todo syncs)).cache.at? p =
          if p = c.place then c.leaves else n.cache.at? p := by
        rw [Noted.cache, note_system]
        exact Cache.at?_absorb ..
      by_cases mine : p = c.place
      · rw [if_pos mine] at after
        have known := h.known
        rw [stage] at known
        cases known with
        | catching _ ahead inside leads =>
          refine .listed c todo stage mine.symm (ahead p) ?_ after
          rw [after, mine]
          exact leads.tells c (List.mem_cons_self ..)
        | behind c q next there inside level =>
          refine .read c q stage mine.symm next there (level p) ?_ after
          rw [after, Feed.asOf_succ there, Cache.at?_absorb, if_pos mine]
      · rw [if_neg mine] at after
        exact .same after
    | rejoined syncs stage =>
      cases syncs with
      | true => exact same (Cache.at?_markSynced ..)
      | false => exact same rfl
    | _ => exact same rfl
  · exact same (by rw [elsewhere.cache])

theorem Tracked.limit_le_size (h : n.Tracked) (p : Place) :
    n.limit p n.system.stage.progress ≤ n.feed.size := by
  have known := h.known
  have reading := h.reading
  generalize n.system.stage.progress = progress at known ⊢
  cases known with
  | nothing => exact Nat.le_refl _
  | halfway ahead inside => exact inside
  | catching todo ahead inside leads => exact inside p
  | behind c q next there inside level => exact Nat.max_le.mpr ⟨reading, inside p⟩
  | level inside level => exact Nat.max_le.mpr ⟨reading, inside p⟩

theorem Tracked.limit_le {move : Move} (h : n.Tracked) (noted : n.step? move = some n')
    (p : Place) : n.limit p n.system.stage.progress ≤ n'.limit p n'.system.stage.progress := by
  obtain ⟨t, step, rfl⟩ := step?_eq_some.mp noted
  have inside := h.limit_le_size p
  have one := stepped step
  rcases one.routed_or_elsewhere with routed | elsewhere
  · rw [note_system]
    -- the limit moves with the second half of a listing, with its end and with each change read
    cases routed with
    | subscribed stage =>
      rw [stage]
      simp only [note, stage]
      exact Nat.le_refl _
    | failed cause stage =>
      rw [stage]
      simp only [note, stage]
      exact Nat.le_refl _
    | listed listing stage answer =>
      rw [stage]
      simp only [note, stage]
      exact Nat.le_refl _
    | compared monitors stage =>
      have known := h.known
      rw [stage] at known ⊢
      cases known with
      | halfway ahead within =>
        simp only [note, stage, listPods, Stage.progress, limit, mark]
        split
        · exact Nat.le_refl _
        · exact within
    | absorbed c todo syncs stage =>
      rw [stage]
      simp only [note, stage]
      cases syncs <;> exact Nat.le_refl _
    | roused wake todo syncs stage =>
      rw [stage]
      simp only [note, stage]
      cases syncs <;> exact Nat.le_refl _
    | rejoined syncs stage =>
      rw [stage]
      simp only [note, stage]
      cases syncs with
      | true => exact Nat.le_max_right ..
      | false => exact Nat.le_refl _
    | lagged missed position stage back =>
      rw [stage] at inside ⊢
      simp only [note, stage]
      exact inside
    | read c stage kept there =>
      rw [stage]
      simp only [note, stage]
      change max n.position (n.mark p) ≤ max (n.position + 1) (n.mark p)
      omega
  · rw [note_elsewhere elsewhere]
    -- nobody else touches the cache, and the history only grows
    have grows := (one.upstream h.plain h.keyed h.reading).2.grows.size
    rcases elsewhere.stage with same | lists
    · change _ ≤ limit { n with system := t } p t.stage.progress
      rw [same]
      have position : t.position = n.position := elsewhere.position
      cases n.system.stage.progress with
      | lists => exact grows
      | halfway monitors => exact Nat.le_refl _
      | handles todo syncs =>
        cases syncs with
        | true => exact Nat.le_refl _
        | false => exact Nat.le_of_eq (congrArg (max · (n.mark p)) position.symm)
    · change _ ≤ limit { n with system := t } p t.stage.progress
      rw [lists]
      exact Nat.le_trans inside grows

theorem Past.start {σ τ : Type} (retention : Nat) (stamp : Recorder.Stamp)
    (parts : Operator.Parts σ τ) (empty : parts.cache = {}) :
    Past { system := System.start retention stamp parts } := by
  intro p
  refine ⟨0, Nat.le_refl _, Nat.le_refl _, ?_⟩
  change parts.cache.at? p = _
  rw [empty]
  rfl

theorem Past.step {move : Move} (past : n.Past) (h : n.Tracked) (noted : n.step? move = some n') :
    n'.Past := by
  intro p
  have grows : n.feed.Grows n'.feed := by
    obtain ⟨t, step, rfl⟩ := step?_eq_some.mp noted
    rw [Noted.feed, Noted.feed, note_system]
    exact ((stepped step).upstream h.plain h.keyed h.reading).2.grows
  have inside := h.limit_le_size p
  have further := h.limit_le noted p
  -- the cache has now what stood there at a time that is not past the limit
  have reached (k : Nat) (early : k ≤ n.limit p n.system.stage.progress)
      (now : n'.cache.at? p = (n.feed.asOf k).at? p) :
      n'.Between p 0 (n'.limit p n'.system.stage.progress) := by
    refine ⟨k, Nat.zero_le _, Nat.le_trans early further, ?_⟩
    rw [now, grows.asOf (Nat.le_trans early inside)]
  cases h.turn noted p with
  | same cache => exact ((past p).kept cache grows inside).mono (Nat.le_refl _) further
  | listed c todo stage place ahead now leaves =>
    refine reached (n.mark p) ?_ (now.trans (n.listing_at? p))
    rw [stage]
    exact Nat.le_refl _
  | read c q stage place next there was now leaves =>
    refine reached (q + 1) ?_ now
    rw [stage, ← next]
    exact Nat.le_max_left ..

/-- An object comes into the cache that is newer than anything the cache has taken in before: the
listing has it, which was read after all those changes, or it was written after the listing and
after all other changes of its place. -/
inductive Newer (n : Noted) (p : Place) (o : Object) : Prop where
  | listed (c : Change) (todo : List Change) (stage : n.system.stage = .taking (c :: todo) true)
      (leaves : c.leaves = some o) (place : c.place = p) (ahead : n.position ≤ n.mark p)
      (there : (n.feed.asOf (n.mark p)).at? p = some o)
  | written (c : Change) (q : Nat) (stage : n.system.stage = .taking [c] false)
      (leaves : c.leaves = some o) (place : c.place = p) (next : n.position = q + 1)
      (there : n.feed.changes[q]? = some c) (unlisted : n.mark p ≤ q)
      (was : n.cache.at? p = (n.feed.asOf q).at? p)

/-- What a step that moves on in the history does to what the cache has at a place. The versions of
a store count its writes, as long as there are numbers for them. -/
structure Forward (n n' : Noted) (p : Place) : Prop where
  version : n.feed.versions.length < UInt64.size → ∀ o o', n.cache.at? p = some o →
    n'.cache.at? p = some o' → o.metadata.version ≤ o'.metadata.version
  returns : ∀ o, n.cache.at? p = none → n'.cache.at? p = some o → n.Newer p o

theorem Tracked.forward {move : Move} (h : n.Tracked) (past : n.Past)
    (noted : n.step? move = some n') (p : Place) (fresh : ¬ n.Replays p) : n.Forward n' p := by
  cases h.turn noted p with
  | same cache =>
    refine ⟨fun few o o' before after => ?_, fun o before after => ?_⟩
    · rw [cache, before] at after
      cases after
      exact UInt64.le_refl _
    · rw [cache, before] at after
      contradiction
  | listed c todo stage place ahead now leaves =>
    refine ⟨fun few o o' before after => ?_, fun o before after => ?_⟩
    · obtain ⟨k, _, early, same⟩ := past p
      rw [stage] at early
      exact h.logged.counted.le few early (same.symm.trans before)
        ((n.listing_at? p).symm.trans (now.symm.trans after))
    · exact .listed c todo stage (leaves.symm.trans after) place ahead
        ((n.listing_at? p).symm.trans (now.symm.trans after))
  | read c q stage place next there was now leaves =>
    have unlisted : n.mark p ≤ q := by
      rw [← Nat.not_lt]
      exact fun replayed => fresh ⟨c, stage, place, next ▸ replayed⟩
    obtain ⟨k, late, early, same⟩ := was
    rw [Nat.max_eq_left unlisted] at early
    cases Nat.le_antisymm early late
    refine ⟨fun few o o' before after => ?_, fun o before after => ?_⟩
    · exact h.logged.counted.le few (Nat.le_succ _) (same.symm.trans before) (now.symm.trans after)
    · exact .written c q stage (leaves.symm.trans after) place next there unlisted same

/-- A router that has read the feed up to where the listing was read has in its cache exactly what
the feed has told so far. -/
theorem Tracked.caught_up (h : n.Tracked) (stage : n.system.stage = .watching)
    (read : n.mark p ≤ n.position) : n.cache.at? p = (n.feed.asOf n.position).at? p := by
  have known := h.known
  rw [stage] at known
  cases known with
  | level inside level =>
    obtain ⟨k, late, early, same⟩ := level p
    rw [Nat.max_eq_left read] at early
    rw [same, Nat.le_antisymm early late]

theorem Tracked.not_running (h : n.Tracked) (stage : n.system.stage = .watching) {key : Key}
    (read : n.podsAt ≤ n.position) (gone : (n.feed.asOf n.podsAt).pods.get? key = none)
    (quiet : n.feed.Quiet ⟨false, key⟩ n.podsAt n.position) {d : Pass.Delays} {t : Child.Template}
    {text : String} {log : Pass.Log} {result : Except Error Pass.Action}
    (tells : (Pass.sync d t text).Tells log result)
    (asked : ∀ reply, ⟨.cachedPod key, reply⟩ ∈ log →
      reply = (Deployment.replyToPass (.cachedPod key) n.system.site).2)
    {u : Monitor} (written : u ∈ log.writes) (name : u.key = key) : u.status.phase ≠ .running := by
  intro running
  have table := Pass.followsTable_of_synced (Pass.synced_of_tells tells)
  obtain ⟨target, found⟩ := table.found_of_running written running
  have cached : n.cache.at? ⟨false, key⟩ = none := by
    rw [h.caught_up (p := ⟨false, key⟩) stage read, ← quiet.at? read]
    exact congrArg (Option.map Object.pod) gone
  have absent : n.cache.pods.get? key = none := Option.map_eq_none_iff.mp cached
  have answer := asked (some target) (name ▸ found)
  exact nomatch answer.trans absent

end Noted

/-- In every run, of whatever moves and in whatever order, of a system whose cache is empty at
first: a step that does not take in a change from before the listing moves the cache on in the
history. Once the router has read the feed up to the listing, the cache has what the feed has told;
and a pod that the listing does not have and that nobody has written since moves no monitor to
running. -/
theorem cache_moves_forward {σ τ : Type} (retention : Nat) (stamp : Recorder.Stamp)
    (parts : Operator.Parts σ τ) (empty : parts.cache = {}) (moves : List Move) (n : Noted)
    (run : after? Noted.step? { system := start retention stamp parts } moves = some n) :
    (∀ move n' p, n.step? move = some n' → ¬ n.Replays p → n.Forward n' p) ∧
    (n.system.stage = .watching → ∀ p, n.mark p ≤ n.position →
      n.cache.at? p = (n.feed.asOf n.position).at? p) ∧
    (n.system.stage = .watching → n.podsAt ≤ n.position → ∀ key,
      (n.feed.asOf n.podsAt).pods.get? key = none → n.feed.Quiet ⟨false, key⟩ n.podsAt n.position →
      ∀ (d : Pass.Delays) (t : Child.Template) (text : String) (log : Pass.Log)
        (result : Except Error Pass.Action), (Pass.sync d t text).Tells log result →
        (∀ reply, ⟨.cachedPod key, reply⟩ ∈ log →
          reply = (Deployment.replyToPass (.cachedPod key) n.system.site).2) →
        ∀ u ∈ log.writes, u.key = key → u.status.phase ≠ .running) := by
  have both : n.Tracked ∧ n.Past := by
    refine after?_invariant (P := fun n => n.Tracked ∧ n.Past) ?_ moves ⟨?_, ?_⟩ run
    · exact fun _ _ _ ⟨tracked, past⟩ step => ⟨tracked.step step, past.step tracked step⟩
    · exact .start retention stamp parts (empty ▸ Cache.placed_empty)
    · exact .start retention stamp parts empty
  obtain ⟨tracked, past⟩ := both
  refine ⟨fun move n' p noted fresh => tracked.forward past noted p fresh,
    fun stage p read => tracked.caught_up stage read, ?_⟩
  intro stage read key gone quiet d t text log result tells asked u written name
  exact tracked.not_running stage read gone quiet tells asked written name

/-- A pod is written before the listing and again after it. The router reads the first write once
more and then takes in the second one. -/
theorem cache_moves_forward_after_replay :
    let moves : List Move :=
      [.route, .outside (.putPod { metadata := { ns := "a", name := "x" } })] ++
      List.replicate 5 .route ++
      [.outside (.putPod { metadata := { ns := "a", name := "x" } })] ++ List.replicate 5 .route
    ∃ n n', after? Noted.step? { system := start 10 ⟨"0", ""⟩ ({} : Operator.Parts Unit Unit) }
        moves = some n ∧ n.step? .route = some n' ∧ n.podsAt = 1 ∧
      (n.cache.at? ⟨false, ⟨"a", "x"⟩⟩).map (·.metadata.version) = some 1 ∧
      (n'.cache.at? ⟨false, ⟨"a", "x"⟩⟩).map (·.metadata.version) = some 2 ∧
      n.Forward n' ⟨false, ⟨"a", "x"⟩⟩ := by
  intro moves
  obtain ⟨n, n', run, step, listed, position, before, after⟩ : ∃ n n', after? Noted.step?
        { system := start 10 ⟨"0", ""⟩ ({} : Operator.Parts Unit Unit) } moves = some n ∧
      n.step? .route = some n' ∧ n.podsAt = 1 ∧ n.position = 2 ∧
      (n.cache.at? ⟨false, ⟨"a", "x"⟩⟩).map (·.metadata.version) = some 1 ∧
      (n'.cache.at? ⟨false, ⟨"a", "x"⟩⟩).map (·.metadata.version) = some 2 :=
    ⟨_, _, rfl, rfl, rfl, rfl, rfl, rfl⟩
  have h := cache_moves_forward 10 ⟨"0", ""⟩ ({} : Operator.Parts Unit Unit) rfl moves n run
  refine ⟨n, n', run, step, listed, before, after, h.1 .route n' _ step ?_⟩
  rintro ⟨_, _, _, old⟩
  change n.position ≤ n.podsAt at old
  omega

/-- Two ways in which the router moves its cache back. A pod is written twice between the
subscription and the listing, and the older write is read after the listing. Or it is gone when the
pods are listed, comes back into the cache with a change that the feed had before, and a worker
that looks there moves its monitor to running. -/
theorem cache_moves_back :
    (∃ s t o o', after? step? (start 10 ⟨"0", ""⟩ ({} : Operator.Parts Unit Unit))
        ([.route, .outside (.putPod { metadata := { ns := "a", name := "x" } }),
          .outside (.putPod { metadata := { ns := "a", name := "x" } })] ++
          List.replicate 6 .route) = some s ∧
      s.step? .route = some t ∧ s.cache.at? ⟨false, ⟨"a", "x"⟩⟩ = some o ∧
      t.cache.at? ⟨false, ⟨"a", "x"⟩⟩ = some o' ∧ o'.metadata.version < o.metadata.version) ∧
    ∃ s t u m o, after? step? (start 10 ⟨"0", ""⟩ ({} : Operator.Parts Unit Unit))
        ([.outside (.apply { metadata := { ns := "a", name := "x" }, status := .plain .pending }),
          .route, .outside (.putPod { metadata := { ns := "a", name := "x" } }),
          .outside (.deletePod ⟨"a", "x"⟩)] ++ List.replicate 6 .route) = some s ∧
      s.store.pods = ∅ ∧ s.cache.at? ⟨false, ⟨"a", "x"⟩⟩ = none ∧
      s.step? .route = some t ∧ t.cache.at? ⟨false, ⟨"a", "x"⟩⟩ = some o ∧
      after? step? t (.take 0 :: List.replicate 8 (.work 0)) = some u ∧
      u.store.monitors.get? ⟨"a", "x"⟩ = some m ∧ m.status.phase = .running :=
  ⟨⟨_, _, _, _, rfl, rfl, rfl, rfl, by decide⟩,
    _, _, _, _, _, rfl, rfl, rfl, rfl, rfl, rfl, rfl, rfl⟩

end MonitorOperator.System
