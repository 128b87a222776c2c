import MonitorOperator.Proofs.System.Downstream

/-! What a step of the system can do upstream of the queue: to the store and to the router. A
monitor that is not quiet stays heralded until the router puts its key into the queue. -/

namespace MonitorOperator.System

def Stage.Relists : Stage → Prop
  | .unsubscribed => True
  | .listing => True
  | .resting => True
  | _ => False

def Stage.Heralds (key : Key) : Stage → Prop
  | .listed monitors => ∃ m, .monitor m ∈ monitors ∧ m.key = key
  | .taking todo _ => ∃ c ∈ todo, c.Wakes key
  | .waking wake todo _ => wake = .monitor key ∨ ∃ c ∈ todo, c.Wakes key
  | _ => False

/-- The router lost changes of the feed, and will list again when it reads on. -/
def Lags (s : System) : Prop := s.position + Feed.window < s.store.feed.size

/-- The router is to put the key of a monitor into the queue. -/
inductive Heralded (s : System) (key : Key) : Prop where
  | relists (h : s.stage.Relists)
  | inHand (h : s.stage.Heralds key)
  | lags (h : s.Lags)
  | unread (i : Nat) (c : Change) (ahead : s.position ≤ i)
      (there : s.store.feed.changes[i]? = some c) (wakes : c.Wakes key)

def Quiet (s : System) (key : Key) : Prop :=
  ∀ m, s.store.monitors.get? key = some m → m.status.phase = .completed

inductive Upstream (s t : System) : Prop where
  | wrote (written : Option Object) (effect : Store.Effect s.store t.store written)
      (stage : t.stage = s.stage) (position : t.position = s.position)
  | relists (store : t.store = s.store) (stage : t.stage.Relists)
      (position : t.position ≤ s.store.feed.size)
  | listed (store : t.store = s.store) (stage : ∀ key, ¬ s.Quiet key → t.stage.Heralds key)
      (position : t.position = s.position)
  | passes (store : t.store = s.store) (lists : ¬ s.stage.Relists)
      (stage : ∀ key, s.stage.Heralds key → t.stage.Heralds key ∨ t.queue = s.queue.add key.text)
      (position : t.position = s.position)
  | read (c : Change) (store : t.store = s.store) (lists : ¬ s.stage.Relists)
      (idle : ∀ key, ¬ s.stage.Heralds key) (kept : ¬ s.Lags)
      (there : s.store.feed.changes[s.position]? = some c)
      (stage : ∀ key, c.Wakes key → t.stage.Heralds key) (position : t.position = s.position + 1)

namespace Upstream

theorem reading {s t : System} (h : Upstream s t) (reading : s.position ≤ s.store.feed.size) :
    t.position ≤ t.store.feed.size := by
  cases h with
  | wrote written effect _ position =>
    have grows := effect.feed_grows.size
    omega
  | relists store _ position => rw [store]; exact position
  | listed store _ position => rw [store, position]; exact reading
  | passes store _ _ position => rw [store, position]; exact reading
  | read c store _ _ _ there _ position =>
    have inside := (Array.getElem?_eq_some_iff.mp there).1
    rw [store, position]
    exact inside

theorem keyed {s t : System} (h : Upstream s t) (keyed : s.store.Keyed) : t.store.Keyed := by
  cases h with
  | wrote written effect _ _ => exact keyed.step effect
  | relists store _ _ => rw [store]; exact keyed
  | listed store _ _ => rw [store]; exact keyed
  | passes store _ _ _ => rw [store]; exact keyed
  | read c store _ _ _ _ _ _ => rw [store]; exact keyed

theorem heralded {s t : System} {key : Key} (h : Upstream s t)
    (reading : s.position ≤ s.store.feed.size) (before : s.Quiet key ∨ s.Heralded key) :
    t.Quiet key ∨ t.Heralded key ∨ t.queue = s.queue.add key.text := by
  have still : t.store = s.store → s.Quiet key → t.Quiet key := fun store quiet m found =>
    quiet m (store ▸ found)
  cases h with
  | wrote written effect stage position =>
    have grows := effect.feed_grows
    rcases before with quiet | heralded
    · -- a monitor that is no longer quiet was written, and the change is ahead of the router
      by_cases woken : ∃ c, t.store.feed.changes[s.store.feed.size]? = some c ∧ c.Wakes key
      · obtain ⟨c, there, wakes⟩ := woken
        exact .inr (.inl (.unread _ c (position ▸ reading) there wakes))
      · exact .inl fun m found => quiet m ((effect.stored_or_wakes found).resolve_right woken)
    · refine .inr (.inl ?_)
      cases heralded with
      | relists h => exact .relists (stage ▸ h)
      | inHand h => exact .inHand (stage ▸ h)
      | lags h => exact .lags (by have := grows.size; unfold Lags at *; omega)
      | unread i c ahead there wakes =>
        exact .unread i c (position ▸ ahead) (grows.kept i c there) wakes
  | relists store stage position => exact .inr (.inl (.relists stage))
  | listed store stage position =>
    by_cases quiet : s.Quiet key
    · exact .inl (still store quiet)
    · exact .inr (.inl (.inHand (stage key quiet)))
  | passes store lists stage position =>
    rcases before with quiet | heralded
    · exact .inl (still store quiet)
    · cases heralded with
      | relists h => exact (lists h).elim
      | inHand h => exact .inr ((stage key h).imp_left .inHand)
      | lags h => exact .inr (.inl (.lags (by unfold Lags at *; rw [store, position]; exact h)))
      | unread i c ahead there wakes =>
        exact .inr (.inl (.unread i c (position ▸ ahead) (store ▸ there) wakes))
  | read c store lists idle kept there stage position =>
    rcases before with quiet | heralded
    · exact .inl (still store quiet)
    · cases heralded with
      | relists h => exact (lists h).elim
      | inHand h => exact (idle key h).elim
      | lags h => exact (kept h).elim
      | unread i d ahead there' wakes =>
        by_cases first : i = s.position
        · subst first
          cases Option.some.inj (there.symm.trans there')
          exact .inr (.inl (.inHand (stage key wakes)))
        · exact .inr (.inl (.unread i d (by omega) (store ▸ there') wakes))

end Upstream

theorem listed_heralds {s : System} {key : Key} {listing : List Object} (keyed : s.store.Keyed)
    (answer : s.store.list = .ok listing) (busy : ¬ s.Quiet key) :
    ∃ m, .monitor m ∈ listing.filter Object.isMonitor ∧ m.key = key := by
  simp only [Quiet, not_forall] at busy
  obtain ⟨m, found, _⟩ := busy
  refine ⟨m, List.mem_filter.mpr ⟨?_, rfl⟩, keyed.monitors key m found⟩
  unfold Store.list at answer
  split at answer
  · contradiction
  · cases answer
    exact List.mem_append_left _ (List.mem_map_of_mem ((Table.mem_values_iff _ m).mpr ⟨key, found⟩))

theorem mem_catchUp {c : Cache} {listing : List Object} {m : Monitor} (h : .monitor m ∈ listing) :
    .added (.monitor m) ∈ c.catchUp listing := by
  have listed : Object.monitor m ∈ listing.filter Object.isMonitor := List.mem_filter.mpr ⟨h, rfl⟩
  simp only [Cache.catchUp, List.mem_append]
  exact .inl (.inr (List.mem_map_of_mem listed))

theorem Routed.upstream {s t : System} (h : Routed s t) (keyed : s.store.Keyed)
    (reading : s.position ≤ s.store.feed.size) : Upstream s t := by
  cases h with
  | subscribed stage => exact .relists rfl trivial (Nat.le_refl _)
  | failed cause stage => exact .relists rfl trivial reading
  | listed listing stage answer =>
    exact .listed rfl (fun key busy => listed_heralds keyed answer busy) rfl
  | compared monitors stage =>
    refine .passes rfl (by rw [stage]; exact id) (fun key heralds => .inl ?_) rfl
    rw [stage] at heralds
    obtain ⟨m, member, same⟩ := heralds
    exact ⟨_, mem_catchUp (List.mem_append_left _ member), same⟩
  | absorbed c todo syncs stage =>
    refine .passes rfl (by rw [stage]; exact id) (fun key heralds => .inl ?_) rfl
    rw [stage] at heralds
    obtain ⟨d, member, wakes⟩ := heralds
    rcases List.mem_cons.mp member with rfl | later
    · exact .inl (wakes.ofChange _)
    · exact .inr ⟨d, later, wakes⟩
  | roused wake todo syncs stage =>
    refine .passes rfl (by rw [stage]; exact id) (fun key heralds => ?_) rfl
    rw [stage] at heralds
    rcases heralds with rfl | later
    · exact .inr rfl
    · exact .inl later
  | rejoined syncs stage =>
    have store := congrArg Drill.store (Routed.rejoined syncs stage).drill
    refine .passes store (by rw [stage]; exact id) (fun key heralds => ?_) rfl
    rw [stage] at heralds
    obtain ⟨_, member, _⟩ := heralds
    exact nomatch member
  | lagged missed position stage back => exact .relists rfl trivial back
  | read c stage kept there =>
    refine .read c rfl (by rw [stage]; exact id) (by rw [stage]; exact fun _ h => h) kept there
      (fun key wakes => ?_) rfl
    exact ⟨c, List.mem_singleton_self c, wakes⟩

theorem Stepped.upstream {s t : System} {move : Move} (h : Stepped s move t) (plain : s.site.Plain)
    (keyed : s.store.Keyed) (reading : s.position ≤ s.store.feed.size) :
    t.site.Plain ∧ Upstream s t := by
  have same : t.site.drill = s.site.drill → t.site.Plain := by
    intro drill
    rw [Deployment.Plain, drill]
    exact plain
  have still : t.site.drill = s.site.drill → t.stage = s.stage → t.position = s.position →
      t.site.Plain ∧ Upstream s t := by
    intro drill stage position
    have store : t.store = s.store := congrArg Drill.store drill
    refine ⟨same drill, .wrote none ?_ stage position⟩
    rw [store]
    exact .still (.refl _)
  cases h with
  | outside op =>
    refine ⟨?_, .wrote _ (op.effect keyed) rfl rfl⟩
    change { s.site.drill with store := op.run s.store } = ({ store := op.run s.store } : Drill)
    rw [plain]
  | waited time => exact still rfl rfl rfl
  | routed _ h => exact ⟨same h.drill, h.upstream keyed reading⟩
  | rang due alarm _ _ =>
    obtain ⟨drill, position, _, _, stage | stage⟩ := s.ring_cases due alarm
    · exact still drill stage position
    · have store := congrArg Drill.store drill
      exact ⟨same drill, .relists store (stage ▸ trivial) (position ▸ reading)⟩
  | completed key _ => exact still rfl rfl rfl
  | took worker key queue _ _ => exact still rfl rfl rfl
  | ended worker held _ => exact still rfl rfl rfl
  | called worker held c next _ _ =>
    have replied := Deployment.reply_replied plain keyed c
    obtain ⟨written, effect⟩ := replied.store
    exact ⟨replied.plain, .wrote written effect rfl rfl⟩
  | fell worker held c next _ _ =>
    have replied := Deployment.reply_replied plain keyed c
    obtain ⟨written, effect⟩ := replied.store
    exact ⟨replied.plain, .wrote written effect rfl rfl⟩

end MonitorOperator.System
