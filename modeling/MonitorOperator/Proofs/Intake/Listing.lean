import Mathlib.Data.List.Nodup
import MonitorOperator.Proofs.Intake.Wakes

/-! Taking in a listing whose objects stand at different places, in any order. What is missing from
it goes first, so that from then on the cache has no monitors but listed ones, and every pod is
routed to one of them if to any. Main statement: afterwards the cache is the listing, exactly the
listed monitors were woken, and the failures of the monitors that went are forgotten. -/

namespace MonitorOperator

theorem Object.place_eq_monitor {o : Object} {key : Key} :
    o.place = ⟨true, key⟩ ↔ ∃ m, o = .monitor m ∧ m.key = key := by
  cases o with
  | monitor m => simp [place, isMonitor, Object.key]
  | pod p => simp [place, isMonitor]

theorem Object.find?_place {listing : List Object} (apart : (listing.map place).Nodup) {p : Place}
    {o : Object} : listing.find? (fun o => o.place = p) = some o ↔ o ∈ listing ∧ o.place = p := by
  constructor
  · intro found
    exact ⟨List.mem_of_find?_eq_some found, by simpa using List.find?_some found⟩
  · rintro ⟨member, here⟩
    cases found : listing.find? (fun o => o.place = p) with
    | none => exact absurd here (by simpa using List.find?_eq_none.mp found o member)
    | some other =>
      have there : other.place = p := by simpa using List.find?_some found
      have same := List.inj_on_of_nodup_map apart (List.mem_of_find?_eq_some found) member
      rw [same (there.trans here.symm)]

namespace Cache

variable {c : Cache} {listing : List Object} {key : Key}

/-- What changes a listing begins with: the monitors that are missing from it go. Of the others,
none writes a monitor that is not listed. -/
theorem catchUp_split (c : Cache) (listing : List Object) :
    ∃ (gone : List Monitor) (rest : List Change),
    c.catchUp listing = gone.map (.deleted ∘ .monitor) ++ rest ∧
    (∀ m, m ∈ gone ↔
      m ∈ c.monitors.values ∧ ∀ o ∈ listing, o.place ≠ (Object.monitor m).place) ∧
    ∀ change ∈ rest, ∀ key, change.Wakes key → ∃ m, .monitor m ∈ listing ∧ m.key = key := by
  refine ⟨_, _, (List.append_assoc ..).trans ((List.append_assoc ..).trans rfl), ?_, ?_⟩
  · intro m
    simp only [List.mem_filter, List.all_eq_true, decide_eq_true_iff, place_ne_iff]
    exact and_congr_right fun _ =>
      ⟨fun gone o there same => gone o ⟨there, same⟩, fun gone o there => gone o there.1 there.2⟩
  · intro change member key writes
    simp only [List.mem_append, List.mem_map, List.mem_filter, Function.comp] at member
    rcases member with ⟨p, _, rfl⟩ | ⟨o, ⟨there, _⟩, rfl⟩ | ⟨o, ⟨there, _⟩, rfl⟩
    · exact writes.elim
    · cases o with
      | monitor m => exact ⟨m, there, writes⟩
      | pod p => exact writes.elim
    · cases o with
      | monitor m => exact ⟨m, there, writes⟩
      | pod p => exact writes.elim

theorem listed_of_kept (placed : c.Placed) {gone : List Monitor}
    (missing : ∀ m, m ∈ gone ↔
      m ∈ c.monitors.values ∧ ∀ o ∈ listing, o.place ≠ (Object.monitor m).place)
    (kept : ((gone.map (Change.deleted ∘ Object.monitor)).foldl absorb c).monitors.contains key =
      true) : ∃ m, .monitor m ∈ listing ∧ m.key = key := by
  obtain ⟨m, found⟩ := Option.isSome_iff_exists.mp kept
  have there : ((gone.map (Change.deleted ∘ Object.monitor)).foldl absorb c).at? ⟨true, key⟩ =
      some (.monitor m) := by rw [at?, found]; rfl
  rw [← List.map_map, at?_foldl_deleted] at there
  split at there
  · contradiction
  · rename_i stays
    obtain ⟨_, before, same⟩ := Option.map_eq_some_iff.mp there
    cases same
    have name := placed.monitor before
    by_contra unlisted
    apply stays
    rw [List.map_map, List.mem_map]
    refine ⟨m, (missing m).mpr ⟨(c.monitors.mem_values_iff m).mpr ⟨key, before⟩, ?_⟩,
      Object.place_eq_monitor.mpr ⟨m, rfl, name⟩⟩
    intro o listed same
    obtain ⟨w, rfl, named⟩ := Object.place_eq_monitor.mp
      (same.trans (Object.place_eq_monitor.mpr ⟨m, rfl, name⟩))
    exact unlisted ⟨w, listed, named⟩

theorem monitor_mem_wakes_catchUp (placed : c.Placed) :
    .monitor key ∈ c.wakes (c.catchUp listing) ↔ ∃ m, .monitor m ∈ listing ∧ m.key = key := by
  constructor
  · obtain ⟨gone, rest, split, missing, written⟩ := c.catchUp_split listing
    rw [split, wakes_append, wakes_of_gone, List.mem_append]
    rintro (first | later)
    · simp at first
    · exact written_of_mem_wakes (fun key kept => listed_of_kept placed missing kept) written later
  · rintro ⟨m, listed, name⟩
    exact monitor_mem_wakes (mem_catchUp_iff.mpr (.inl ⟨.monitor m, listed, rfl⟩)) name c

theorem forget_mem_wakes_catchUp (placed : c.Placed) :
    .forget key ∈ c.wakes (c.catchUp listing) ↔
      c.monitors.contains key = true ∧ ∀ m, .monitor m ∈ listing → m.key ≠ key := by
  rw [forget_mem_wakes_iff]
  constructor
  · rintro ⟨m, member, rfl⟩
    rcases mem_catchUp_iff.mp member with ⟨_, _, other⟩ | ⟨o, cached, same, missing⟩
    · contradiction
    · cases same
      obtain ⟨_, found, _⟩ := Option.map_eq_some_iff.mp ((mem_objects placed _).mp cached)
      have there : c.monitors.contains m.key = true := Option.isSome_iff_exists.mpr ⟨_, found⟩
      refine ⟨there, fun w listed name => ?_⟩
      exact missing _ listed (Object.place_eq_monitor.mpr ⟨w, rfl, name⟩)
  · rintro ⟨there, missing⟩
    obtain ⟨m, found⟩ := Option.isSome_iff_exists.mp there
    have name := placed.monitor found
    subst name
    have cached : .monitor m ∈ c.objects := (mem_objects placed _).mpr (by
      rw [Object.place, Object.isMonitor, Object.key, at?, found]; rfl)
    refine ⟨m, mem_catchUp_iff.mpr (.inr ⟨_, cached, rfl, fun o listed same => ?_⟩), rfl⟩
    obtain ⟨w, rfl, name⟩ := Object.place_eq_monitor.mp same
    exact missing w listed name

theorem at?_catchUp (placed : c.Placed) (apart : (listing.map Object.place).Nodup) (p : Place)
    (o : Object) : ((c.catchUp listing).foldl absorb c).at? p = some o ↔
      o ∈ listing ∧ o.place = p := by
  have leads : Leads (fun p => listing.find? (fun o => o.place = p)) c (c.catchUp listing) :=
    leads_of_listing placed (fun p o found => ((Object.find?_place apart).mp found).2)
      fun o => by rw [Object.find?_place apart, and_iff_left rfl]
  rw [leads.foldl p]
  exact Object.find?_place apart

end Cache

namespace Deployment

/-- What a listing makes of a deployment. The wake-ups that come of it are those of the changes that
lead from the cache to the listing. -/
structure TookIn (d : Deployment) (listing : List Object) (e : Deployment) : Prop where
  cached : ∀ place o, e.operator.cache.at? place = some o ↔ o ∈ listing ∧ o.place = place
  synced : e.operator.cache.synced = true
  calls : e.operator.queue =
    (d.operator.cache.wakes (d.operator.cache.catchUp listing)).foldl Wake.run d.operator.queue
  woken : ∀ key, .monitor key ∈ d.operator.cache.wakes (d.operator.cache.catchUp listing) ↔
    ∃ m, .monitor m ∈ listing ∧ m.key = key
  dirty : ∀ text, e.operator.queue.dirty.contains text = true ↔
    d.operator.queue.dirty.contains text = true ∨ ∃ m, .monitor m ∈ listing ∧ m.key.text = text
  forgotten : ∀ key, d.operator.cache.monitors.contains key = true →
    e.operator.cache.monitors.contains key = false → e.operator.queue.attempts key.text = 0
  remembered : ∀ text, (∀ key, d.operator.cache.monitors.contains key = true →
    e.operator.cache.monitors.contains key = false → key.text ≠ text) →
      e.operator.queue.attempts text = d.operator.queue.attempts text
  line : d.operator.queue.ready <+: e.operator.queue.ready
  held : e.operator.queue.processing = d.operator.queue.processing
  waiting : e.operator.queue.waiting = d.operator.queue.waiting
  others : e = { (d.setCache e.operator.cache).setQueue e.operator.queue with journal := e.journal }

theorem TookIn.of_relistFrom {d : Deployment} {listing : List Object}
    (placed : d.operator.cache.Placed) (taking : d.operator.queue.shuttingDown = false)
    (apart : (listing.map Object.place).Nodup) : d.TookIn listing (d.relistFrom listing) := by
  have cache : (d.relistFrom listing).operator.cache =
      ((d.operator.cache.catchUp listing).foldl Cache.absorb d.operator.cache).markSynced :=
    congrArg Cache.markSynced (Intake.cache_foldl_handle _ ⟨d.operator.cache, d.operator.queue, []⟩)
  have queue : (d.relistFrom listing).operator.queue =
      (d.operator.cache.wakes (d.operator.cache.catchUp listing)).foldl Wake.run
        d.operator.queue :=
    Intake.queue_foldl_handle _ ⟨d.operator.cache, d.operator.queue, []⟩
  have roused := WorkQueue.roused taking (d.operator.cache.wakes (d.operator.cache.catchUp listing))
  rw [← queue] at roused
  have cached : ∀ place o, (d.relistFrom listing).operator.cache.at? place = some o ↔
      o ∈ listing ∧ o.place = place := by
    intro place o
    rw [cache, Cache.at?_markSynced]
    exact Cache.at?_catchUp placed apart place o
  have woken : ∀ key, .monitor key ∈ d.operator.cache.wakes (d.operator.cache.catchUp listing) ↔
      ∃ m, .monitor m ∈ listing ∧ m.key = key := fun key => Cache.monitor_mem_wakes_catchUp placed
  -- a monitor that was dropped is one that is not listed
  have dropped : ∀ key, .forget key ∈ d.operator.cache.wakes (d.operator.cache.catchUp listing) ↔
      d.operator.cache.monitors.contains key = true ∧
        (d.relistFrom listing).operator.cache.monitors.contains key = false := by
    intro key
    rw [Cache.forget_mem_wakes_catchUp placed]
    refine and_congr_right fun _ => ?_
    rw [← Bool.not_eq_true, Table.contains, Option.isSome_iff_exists]
    constructor
    · rintro missing ⟨m, found⟩
      obtain ⟨listed, place⟩ := (cached ⟨true, key⟩ (.monitor m)).mp (by rw [Cache.at?, found]; rfl)
      exact missing m listed (congrArg Place.key place)
    · intro absent m listed name
      have there := (cached ⟨true, key⟩ (.monitor m)).mpr
        ⟨listed, Object.place_eq_monitor.mpr ⟨m, rfl, name⟩⟩
      obtain ⟨w, found, _⟩ := Option.map_eq_some_iff.mp there
      exact absent ⟨w, found⟩
  constructor
  case cached => exact cached
  case synced => rw [cache]; rfl
  case calls => exact queue
  case woken => exact woken
  case dirty =>
    intro text
    rw [roused.dirty]
    refine or_congr_right ?_
    simp only [woken]
    constructor
    · rintro ⟨_, ⟨m, listed, rfl⟩, name⟩
      exact ⟨m, listed, name⟩
    · rintro ⟨m, listed, name⟩
      exact ⟨m.key, ⟨m, listed, rfl⟩, name⟩
  case forgotten =>
    intro key before after
    exact roused.forgotten key ((dropped key).mpr ⟨before, after⟩)
  case remembered =>
    intro text apart
    refine roused.remembered text fun key there => ?_
    obtain ⟨before, after⟩ := (dropped key).mp there
    exact apart key before after
  case line => exact roused.line
  case held => exact roused.processing
  case waiting => exact roused.waiting
  case others => rfl

/-- A listing is taken in as a whole or not at all. If the source fails, nothing changes. Otherwise
the cache has what is listed, whatever it had before and in whatever order the objects come; it is
synced, and the answer is how many there are. The monitors that were woken are the listed ones, and
of those that the cache no longer has the failures are forgotten. A cache that grew by changes has
its objects at their own places, as is needed here. -/
theorem listings_taken_in_exactly (d : Deployment) (placed : d.operator.cache.Placed)
    (taking : d.operator.queue.shuttingDown = false) :
    (∀ cause, d.takeListing (.error cause) = (d, .error cause)) ∧
    ∀ listing : List Object, (listing.map Object.place).Nodup →
      (d.takeListing (.ok listing)).2 = .ok listing.length ∧
        d.TookIn listing (d.takeListing (.ok listing)).1 := by
  refine ⟨fun _ => rfl, fun listing apart => ⟨rfl, ?_⟩⟩
  exact .of_relistFrom placed taking apart

/-- A pod that changed hands is listed before its new owner, one that is missing still wakes its
owner, and a monitor that failed before is missing. -/
theorem listings_taken_in_exactly_pods_first :
    let x : Monitor := { metadata := { ns := "a", name := "x" } }
    let y : Monitor := { metadata := { ns := "a", name := "y" } }
    let old : Monitor := { metadata := { ns := "a", name := "old" } }
    let pod (name : String) (owner : Monitor) : Pod :=
      { metadata := { ns := "a", name := name, owners := [owner.ownerRef] } }
    let d : Deployment :=
      { operator := { Operator.ofParts ({} : Operator.Parts Unit Unit) with
          cache := [.added (.monitor x), .added (.monitor old), .added (.pod (pod "p" x)),
            .added (.pod (pod "q" x))].foldl Cache.absorb {}
          queue := ((WorkQueue.new "keys" {}).addRateLimited 0 "a/old").1 }
        stamp := ⟨"0", ""⟩ }
    let listing : List Object := [.pod (pod "p" y), .monitor y, .monitor x]
    let e := (d.takeListing (.ok listing)).1
    d.operator.cache.Placed ∧ d.operator.queue.shuttingDown = false ∧
      (listing.map Object.place).Nodup ∧ d.TookIn listing e ∧
      e.operator.queue.ready = ["a/x", "a/y"] ∧
      d.operator.queue.attempts "a/old" = 1 ∧ e.operator.queue.attempts "a/old" = 0 := by
  intro x y old pod d listing e
  have placed : d.operator.cache.Placed := Cache.placed_empty.foldl _
  have apart : (listing.map Object.place).Nodup := by decide
  have taken : d.TookIn listing e :=
    ((listings_taken_in_exactly d placed rfl).2 listing apart).2
  have ready : e.operator.queue.ready = ["a/x", "a/y"] := by decide
  have failed : d.operator.queue.attempts "a/old" = 1 := by decide
  have cached : d.operator.cache.monitors.contains ⟨"a", "old"⟩ = true := by decide
  have gone : e.operator.cache.monitors.contains ⟨"a", "old"⟩ = false := by decide
  have forgotten := taken.forgotten ⟨"a", "old"⟩ cached gone
  exact ⟨placed, rfl, apart, taken, ready, failed, forgotten⟩

end Deployment

end MonitorOperator
