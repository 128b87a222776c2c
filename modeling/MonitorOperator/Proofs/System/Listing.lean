import MonitorOperator.Proofs.Store.History
import MonitorOperator.Proofs.System.Upstream

/-! Where the cache of a system stands in the history of its store. The router subscribes to the
feed before it lists, so that the changes it reads first may be older than the listing. At each
place the cache has what stood there at some point of the history: at the point up to which the
router has read the feed, or at a later one up to that of the listing. -/

namespace MonitorOperator

namespace Deployment

theorem record_cache (d : Deployment) (r : Recorder.Report) :
    (d.record r).operator.cache = d.operator.cache := by
  simp only [record]
  split
  · rfl
  · split <;> rename_i published <;>
      exact (congrArg (fun x => x.1.operator.cache) published).symm

theorem reply_cache (c : Worker.Call) (d : Deployment) :
    (reply c d).1.operator.cache = d.operator.cache := by
  cases c with
  | pass c =>
    cases c with
    | report r =>
      simp only [reply, replyToPass, report]
      split
      · rfl
      · exact record_cache _ _
    | _ => rfl
  | addAfter key delay =>
    obtain ⟨_, eq⟩ | ⟨_, ⟨_, eq⟩ | ⟨_, eq⟩⟩ := d.operator.queue.addAfter_cases d.now key delay <;>
      simp only [reply, addAfter, eq] <;> rfl
  | addRateLimited key =>
    obtain ⟨_, _, _, _, ⟨_, eq⟩ | ⟨_, eq⟩⟩ := d.operator.queue.addRateLimited_cases d.now key <;>
      simp only [reply, addRateLimited, eq] <;> rfl
  | _ => rfl

end Deployment

theorem Store.monitors_of_list {s : Store} {listing : List Object} (answer : s.list = .ok listing) :
    listing.filter Object.isMonitor = s.monitors.values.map .monitor := by
  unfold list at answer
  split at answer
  · contradiction
  · cases answer
    simp [List.filter_append, List.filter_map, Function.comp_def, Object.isMonitor]

namespace System

abbrev cache (s : System) : Cache := s.site.operator.cache

abbrev feed (s : System) : Feed := s.store.feed

structure Elsewhere (s t : System) : Prop where
  cache : t.cache = s.cache
  stage : t.stage = s.stage ∨ t.stage = .listing
  position : t.position = s.position

theorem Stepped.routed_or_elsewhere {s t : System} {move : Move} (h : Stepped s move t) :
    Routed s t ∨ Elsewhere s t := by
  cases h with
  | routed _ h => exact .inl h
  | rang due alarm _ _ =>
    obtain ⟨_, position, _, _, stage⟩ := s.ring_cases due alarm
    refine .inr ⟨?_, stage, position⟩
    cases alarm <;> simp only [ring] <;> split <;> rfl
  | called worker held c next _ _ => exact .inr ⟨Deployment.reply_cache c s.site, .inl rfl, rfl⟩
  | fell worker held c next _ _ => exact .inr ⟨Deployment.reply_cache c s.site, .inl rfl, rfl⟩
  | _ => exact .inr ⟨rfl, .inl rfl, rfl⟩

theorem Routed.placed {s t : System} (h : Routed s t) (placed : s.cache.Placed) :
    t.cache.Placed := by
  cases h with
  | absorbed c todo syncs stage => exact placed.absorb c
  | rejoined syncs stage =>
    cases syncs with
    | true => exact fun p o found => placed p o ((Cache.at?_markSynced _ p).symm.trans found)
    | false => exact placed
  | _ => exact placed

theorem Upstream.effect {s t : System} (h : Upstream s t) :
    ∃ written, Store.Effect s.store t.store written := by
  have still (same : t.store = s.store) : ∃ written, Store.Effect s.store t.store written :=
    ⟨none, .still (same ▸ .refl _)⟩
  cases h with
  | wrote written effect _ _ => exact ⟨written, effect⟩
  | relists store _ _ => exact still store
  | listed store _ _ => exact still store
  | passes store _ _ _ => exact still store
  | read c store _ _ _ _ _ _ => exact still store

theorem Upstream.grows {s t : System} (h : Upstream s t) : s.feed.Grows t.feed := by
  obtain ⟨written, effect⟩ := h.effect
  exact effect.feed_grows

theorem Upstream.logged {s t : System} (h : Upstream s t) (keyed : s.store.Keyed)
    (logged : s.store.Logged) : t.store.Logged := by
  obtain ⟨written, effect⟩ := h.effect
  exact logged.step keyed effect

/-- A system, and how many changes its feed had when the router last read the monitors for a
listing, and when it last read the pods. -/
structure Noted where
  system : System
  monitorsAt : Nat := 0
  podsAt : Nat := 0

namespace Noted

abbrev cache (n : Noted) : Cache := n.system.cache

abbrev feed (n : Noted) : Feed := n.system.feed

abbrev position (n : Noted) : Nat := n.system.position

def note (n : Noted) (t : System) : Noted :=
  match n.system.stage, t.stage with
  | .listing, .listed _ => { n with system := t, monitorsAt := t.feed.size }
  | .listed _, .taking .. => { n with system := t, podsAt := t.feed.size }
  | _, _ => { n with system := t }

def step? (n : Noted) (move : Move) : Option Noted := (n.system.step? move).map n.note

@[simp] theorem note_system (n : Noted) (t : System) : (n.note t).system = t := by
  unfold note
  split <;> rfl

theorem step?_eq_some {n n' : Noted} {move : Move} :
    n.step? move = some n' ↔ ∃ t, n.system.step? move = some t ∧ n.note t = n' :=
  Option.map_eq_some_iff

theorem exists_of_run {moves : List Move} {n : Noted} {s : System}
    (run : after? System.step? n.system moves = some s) :
    ∃ n', after? step? n moves = some n' ∧ n'.system = s := by
  induction moves generalizing n with
  | nil => exact ⟨n, rfl, Option.some.inj run⟩
  | cons move moves ih =>
    rw [after?_cons, Option.bind_eq_some_iff] at run
    obtain ⟨t, step, rest⟩ := run
    obtain ⟨n', run', same⟩ := ih (n := n.note t) (by rw [note_system]; exact rest)
    refine ⟨n', ?_, same⟩
    rw [after?_cons, step?, step]
    exact run'

/-- At which point of the history the listing has what stands at a place. -/
def mark (n : Noted) (p : Place) : Nat := if p.isMonitor then n.monitorsAt else n.podsAt

def listing (n : Noted) : Cache :=
  { monitors := (n.feed.asOf n.monitorsAt).monitors, pods := (n.feed.asOf n.podsAt).pods }

theorem listing_at? (n : Noted) (p : Place) : n.listing.at? p = (n.feed.asOf (n.mark p)).at? p := by
  obtain ⟨isMonitor, key⟩ := p
  cases isMonitor <;> rfl

theorem placed_listing (n : Noted) : n.listing.Placed := by
  intro p o found
  rw [listing_at?] at found
  exact n.feed.placed_asOf _ p o found

def Between (n : Noted) (p : Place) (lo hi : Nat) : Prop :=
  ∃ k, lo ≤ k ∧ k ≤ hi ∧ n.cache.at? p = (n.feed.asOf k).at? p

end Noted

/-- What the router is at: about to list, between the two halves of a listing, or with changes in
hand, those of a listing if the cache is synced after them. -/
inductive Progress where
  | lists
  | halfway (monitors : List Object)
  | handles (todo : List Change) (syncs : Bool)

def Stage.progress : Stage → Progress
  | .unsubscribed => .lists
  | .listing => .lists
  | .resting => .lists
  | .listed monitors => .halfway monitors
  | .taking todo syncs => .handles todo syncs
  | .waking _ todo syncs => .handles todo syncs
  | .watching => .handles [] false

namespace Noted

/-- What the cache has of the history, by what the router is at. -/
inductive Known (n : Noted) : Progress → Prop where
  | nothing : Known n .lists
  | halfway (ahead : n.position ≤ n.monitorsAt) (inside : n.monitorsAt ≤ n.feed.size) :
      Known n (.halfway (n.listing.monitors.values.map .monitor))
  | catching (todo : List Change) (ahead : ∀ p, n.position ≤ n.mark p)
      (inside : ∀ p, n.mark p ≤ n.feed.size) (leads : n.cache.Leads n.listing.at? todo) :
      Known n (.handles todo true)
  | behind (c : Change) (q : Nat) (next : n.position = q + 1) (there : n.feed.changes[q]? = some c)
      (inside : ∀ p, n.mark p ≤ n.feed.size) (level : ∀ p, n.Between p q (max q (n.mark p))) :
      Known n (.handles [c] false)
  | level (inside : ∀ p, n.mark p ≤ n.feed.size)
      (level : ∀ p, n.Between p n.position (max n.position (n.mark p))) :
      Known n (.handles [] false)

structure Passes (n n' : Noted) : Prop where
  cache : n'.cache = n.cache
  position : n'.position = n.position
  monitorsAt : n'.monitorsAt = n.monitorsAt
  podsAt : n'.podsAt = n.podsAt
  grows : n.feed.Grows n'.feed

variable {n n' : Noted} {p : Place}

theorem Passes.mark (h : n.Passes n') (p : Place) : n'.mark p = n.mark p := by
  rw [Noted.mark, Noted.mark, h.monitorsAt, h.podsAt]

theorem Between.mono {lo hi lo' hi' : Nat} (h : n.Between p lo hi) (le : lo' ≤ lo) (ge : hi ≤ hi') :
    n.Between p lo' hi' := by
  obtain ⟨k, after, early, same⟩ := h
  exact ⟨k, Nat.le_trans le after, Nat.le_trans early ge, same⟩

theorem Between.kept {lo hi : Nat} (h : n.Between p lo hi) (cache : n'.cache.at? p = n.cache.at? p)
    (grows : n.feed.Grows n'.feed) (inside : hi ≤ n.feed.size) : n'.Between p lo hi := by
  obtain ⟨k, after, early, same⟩ := h
  refine ⟨k, after, early, ?_⟩
  rw [cache, grows.asOf (Nat.le_trans early inside), same]

theorem Passes.listing_at? (h : n.Passes n') (inside : ∀ p, n.mark p ≤ n.feed.size) (p : Place) :
    n'.listing.at? p = n.listing.at? p := by
  rw [Noted.listing_at?, Noted.listing_at?, h.mark p, h.grows.asOf (inside p)]

theorem Known.passes {progress : Progress} (h : n.Known progress) (passes : n.Passes n')
    (reading : n.position ≤ n.feed.size) : n'.Known progress := by
  have marked (inside : ∀ p, n.mark p ≤ n.feed.size) (p : Place) : n'.mark p ≤ n'.feed.size :=
    passes.mark p ▸ Nat.le_trans (inside p) passes.grows.size
  cases h with
  | nothing => exact .nothing
  | halfway ahead inside =>
    have same : n'.listing.monitors = n.listing.monitors := by
      rw [listing, listing, passes.monitorsAt, passes.grows.asOf inside]
    rw [← same]
    refine .halfway ?_ ?_
    · rw [passes.position, passes.monitorsAt]; exact ahead
    · rw [passes.monitorsAt]; exact Nat.le_trans inside passes.grows.size
  | catching todo ahead inside leads =>
    refine .catching todo (fun p => ?_) (marked inside) ?_
    · rw [passes.position, passes.mark]; exact ahead p
    · rw [passes.cache, funext (passes.listing_at? inside)]; exact leads
  | behind c q next there inside level =>
    refine .behind c q (passes.position.trans next) (passes.grows.kept q c there) (marked inside)
      fun p => ?_
    rw [passes.mark]
    exact (level p).kept (by rw [passes.cache]) passes.grows (Nat.max_le.mpr ⟨by omega, inside p⟩)
  | level inside level =>
    refine .level (marked inside) fun p => ?_
    rw [passes.position, passes.mark]
    exact (level p).kept (by rw [passes.cache]) passes.grows (Nat.max_le.mpr ⟨reading, inside p⟩)

structure Tracked (n : Noted) : Prop where
  plain : n.system.site.Plain
  keyed : n.system.store.Keyed
  reading : n.position ≤ n.feed.size
  logged : n.system.store.Logged
  placed : n.cache.Placed
  known : n.Known n.system.stage.progress

theorem Tracked.start {σ τ : Type} (retention : Nat) (stamp : Recorder.Stamp)
    (parts : Operator.Parts σ τ) (placed : parts.cache.Placed) :
    Tracked { system := System.start retention stamp parts } where
  plain := rfl
  keyed := ⟨fun _ _ found => (nomatch found), fun _ _ found => (nomatch found)⟩
  reading := Nat.le_refl _
  logged := .empty retention
  placed := placed
  known := .nothing

theorem Tracked.store_eq (h : n.Tracked) :
    n.system.store.monitors = (n.feed.asOf n.feed.size).monitors ∧
    n.system.store.pods = (n.feed.asOf n.feed.size).pods := Cache.ext_at? h.logged.same

theorem Tracked.known_listed (h : n.Tracked) {listing : List Object}
    (stage : n.system.stage = .listing) (answer : n.system.store.list = .ok listing) :
    (n.note { n.system with stage := .listed (listing.filter Object.isMonitor) }).Known
      (.halfway (listing.filter Object.isMonitor)) := by
  rw [Store.monitors_of_list answer, h.store_eq.1]
  simp only [note, stage]
  exact .halfway h.reading (Nat.le_refl _)

theorem Tracked.known_compared (h : n.Tracked) {monitors : List Object}
    (stage : n.system.stage = .listed monitors) :
    (n.note (n.system.listPods monitors)).Known (n.system.listPods monitors).stage.progress := by
  have known := h.known
  rw [stage] at known
  cases known with
  | halfway ahead inside =>
    have noted : n.note (n.system.listPods (n.listing.monitors.values.map .monitor)) =
        { n with
          system := n.system.listPods (n.listing.monitors.values.map .monitor)
          podsAt := n.feed.size } := by
      simp only [note, stage]
      rfl
    rw [noted]
    refine .catching _ (fun p => ?_) (fun p => ?_) ?_
    · unfold mark
      split
      · exact ahead
      · exact h.reading
    · unfold mark
      split
      · exact inside
      · exact Nat.le_refl _
    · refine Cache.leads_catchUp h.placed (placed_listing _) fun o => ?_
      rw [h.store_eq.2]
      rfl

theorem Between.absorb {c : Change} {q : Nat} (there : n.feed.changes[q]? = some c)
    (cache : n'.cache = n.cache.absorb c) (feed : n'.feed = n.feed)
    (h : n.Between p q (max q (n.mark p))) : n'.Between p (q + 1) (max (q + 1) (n.mark p)) := by
  have after : n'.cache.at? p = if p = c.place then c.leaves else n.cache.at? p := by
    rw [cache, Cache.at?_absorb]
  have next : (n.feed.asOf (q + 1)).at? p =
      if p = c.place then c.leaves else (n.feed.asOf q).at? p := by
    rw [Feed.asOf_succ there, Cache.at?_absorb]
  by_cases mine : p = c.place
  -- here the cache may have been ahead of the change, and is now where the change is
  · refine ⟨q + 1, Nat.le_refl _, Nat.le_max_left .., ?_⟩
    rw [after, feed, next, if_pos mine, if_pos mine]
  · rw [if_neg mine] at after next
    obtain ⟨k, late, early, same⟩ := h
    rcases Nat.eq_or_lt_of_le late with rfl | later
    · refine ⟨q + 1, Nat.le_refl _, Nat.le_max_left .., ?_⟩
      rw [after, feed, next, same]
    · refine ⟨k, later, by omega, ?_⟩
      rw [after, feed, same]

theorem Tracked.known_absorbed (h : n.Tracked) {c : Change} {todo : List Change} {syncs : Bool}
    (stage : n.system.stage = .taking (c :: todo) syncs) :
    (n.note (n.system.absorb c todo syncs)).Known (.handles todo syncs) := by
  have known := h.known
  rw [stage] at known
  have noted : n.note (n.system.absorb c todo syncs) =
      { n with system := n.system.absorb c todo syncs } := by simp only [note, stage]
  rw [noted]
  cases known with
  | catching _ ahead inside leads => exact .catching todo ahead inside leads.cons
  | behind c q next there inside level =>
    have position : ({ n with system := n.system.absorb c [] false } : Noted).position = q + 1 :=
      next
    refine .level inside fun p => ?_
    rw [position]
    exact Between.absorb (n := n) there rfl rfl (level p)

/-- Once the changes of a listing are in the cache, it is level with the router. -/
theorem Tracked.known_rejoined (h : n.Tracked) {syncs : Bool}
    (stage : n.system.stage = .taking [] syncs) :
    (n.note (n.system.rejoin syncs)).Known (.handles [] false) := by
  have known := h.known
  rw [stage] at known
  have noted : n.note (n.system.rejoin syncs) = { n with system := n.system.rejoin syncs } := by
    simp only [note, stage]
  rw [noted]
  cases known with
  | catching _ ahead inside leads =>
    refine .level inside fun p => ⟨n.mark p, ahead p, Nat.le_max_right .., ?_⟩
    exact (Cache.at?_markSynced _ p).trans ((leads.nil p).trans (n.listing_at? p))
  | level inside level => exact .level inside level

theorem Tracked.known_read (h : n.Tracked) {c : Change} (stage : n.system.stage = .watching)
    (there : n.feed.changes[n.position]? = some c) :
    (n.note { n.system with stage := .taking [c] false, position := n.position + 1 }).Known
      (.handles [c] false) := by
  have known := h.known
  rw [stage] at known
  simp only [note, stage]
  cases known with
  | level inside level => exact .behind c n.position rfl there inside level

theorem Tracked.known_routed (h : n.Tracked) {t : System} (step : Routed n.system t) :
    (n.note t).Known t.stage.progress := by
  cases step with
  | listed listing stage answer => exact h.known_listed stage answer
  | compared monitors stage => exact h.known_compared stage
  | absorbed c todo syncs stage => exact h.known_absorbed stage
  | rejoined syncs stage => exact h.known_rejoined stage
  | read c stage kept there => exact h.known_read stage there
  | roused wake todo syncs stage =>
    have known := h.known
    rw [stage] at known
    have noted : n.note (n.system.rouse wake todo syncs) =
        { n with system := n.system.rouse wake todo syncs } := by simp only [note, stage]
    rw [noted]
    exact known.passes ⟨rfl, rfl, rfl, rfl, .refl _⟩ h.reading
  | _ => exact .nothing

theorem note_elsewhere {t : System} (step : Elsewhere n.system t) :
    n.note t = { n with system := t } := by
  rcases step.stage with same | lists
  · simp only [note, same]
    split <;> rename_i first second
    · rw [first] at second; contradiction
    · rw [first] at second; contradiction
    · rfl
  · simp only [note, lists]
    split <;> first | contradiction | rfl

theorem Tracked.step {move : Move} (h : n.Tracked) (noted : n.step? move = some n') :
    n'.Tracked := by
  obtain ⟨t, step, rfl⟩ := step?_eq_some.mp noted
  have one := stepped step
  obtain ⟨plain, upstream⟩ := one.upstream h.plain h.keyed h.reading
  have common : t.store.Keyed ∧ t.position ≤ t.feed.size ∧ t.store.Logged :=
    ⟨upstream.keyed h.keyed, upstream.reading h.reading, upstream.logged h.keyed h.logged⟩
  rcases one.routed_or_elsewhere with routed | elsewhere
  · exact {
      plain := by rw [note_system]; exact plain
      keyed := by rw [note_system]; exact common.1
      reading := by rw [position, feed, note_system]; exact common.2.1
      logged := by rw [note_system]; exact common.2.2
      placed := by rw [cache, note_system]; exact routed.placed h.placed
      known := by rw [note_system]; exact h.known_routed routed }
  · rw [note_elsewhere elsewhere]
    refine ⟨plain, common.1, common.2.1, common.2.2, ?_, ?_⟩
    · change t.cache.Placed
      rw [elsewhere.cache]
      exact h.placed
    · change Known _ t.stage.progress
      rcases elsewhere.stage with same | lists
      · rw [same]
        exact h.known.passes ⟨elsewhere.cache, elsewhere.position, rfl, rfl, upstream.grows⟩
          h.reading
      · rw [lists]
        exact .nothing

end Noted

end System

end MonitorOperator
