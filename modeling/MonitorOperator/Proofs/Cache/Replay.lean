import MonitorOperator.Cache

/-! What changes add up to in a cache, place by place: each change decides what stands at its own
place and touches no other. So a cache that takes in what a source holds, and what it no longer
holds, ends up with what the source holds. -/

namespace MonitorOperator

structure Place where
  isMonitor : Bool
  key : Key
deriving DecidableEq

def Object.place (o : Object) : Place := ⟨o.isMonitor, o.key⟩

namespace Change

def place (c : Change) : Place := c.object.place

def leaves : Change → Option Object
  | .added o => some o
  | .modified o => some o
  | .deleted _ => none

theorem place_of_leaves {c : Change} {o : Object} (h : c.leaves = some o) : c.place = o.place := by
  cases c with
  | deleted o => contradiction
  | _ => cases h; rfl

end Change

namespace Cache

def at? (c : Cache) : Place → Option Object
  | ⟨true, key⟩ => (c.monitors.get? key).map .monitor
  | ⟨false, key⟩ => (c.pods.get? key).map .pod

theorem ext_at? {c d : Cache} (same : ∀ p, c.at? p = d.at? p) :
    c.monitors = d.monitors ∧ c.pods = d.pods := by
  refine ⟨Table.ext_get? fun key => ?_, Table.ext_get? fun key => ?_⟩
  · exact Option.map_injective (fun _ _ => Object.monitor.inj) (same ⟨true, key⟩)
  · exact Option.map_injective (fun _ _ => Object.pod.inj) (same ⟨false, key⟩)

theorem at?_put (c : Cache) (o : Object) (p : Place) :
    (c.put o).at? p = if p = o.place then some o else c.at? p := by
  obtain ⟨isMonitor, key⟩ := p
  cases o <;> cases isMonitor <;>
    simp only [put, at?, Object.place, Object.isMonitor, Object.key, Place.mk.injEq,
      Table.get?_insert, reduceCtorEq, false_and, true_and, if_false] <;>
    split <;> rfl

theorem at?_drop (c : Cache) (o : Object) (p : Place) :
    (c.drop o).at? p = if p = o.place then none else c.at? p := by
  obtain ⟨isMonitor, key⟩ := p
  cases o <;> cases isMonitor <;>
    simp only [drop, dropMonitor, dropPod, at?, Object.place, Object.isMonitor, Object.key,
      Place.mk.injEq, Table.get?_erase, reduceCtorEq, false_and, true_and, if_false] <;>
    split <;> rfl

theorem at?_absorb (c : Cache) (change : Change) (p : Place) :
    (c.absorb change).at? p = if p = change.place then change.leaves else c.at? p := by
  cases change with
  | deleted o => exact c.at?_drop o p
  | _ => exact c.at?_put _ p

theorem synced_absorb (c : Cache) (change : Change) : (c.absorb change).synced = c.synced := by
  cases change with
  | deleted o => cases o <;> rfl
  | _ o => cases o <;> rfl

theorem synced_foldl (changes : List Change) (c : Cache) :
    (changes.foldl absorb c).synced = c.synced := by
  induction changes generalizing c with
  | nil => rfl
  | cons change changes ih => exact (ih _).trans (c.synced_absorb change)

theorem at?_foldl_congr {c d : Cache} (same : ∀ p, c.at? p = d.at? p) (changes : List Change)
    (p : Place) : (changes.foldl absorb c).at? p = (changes.foldl absorb d).at? p := by
  induction changes generalizing c d with
  | nil => exact same p
  | cons change changes ih => exact ih fun p => by rw [at?_absorb, at?_absorb, same p]

theorem at?_foldl_deleted (objects : List Object) (c : Cache) (p : Place) :
    ((objects.map Change.deleted).foldl absorb c).at? p =
      if p ∈ objects.map Object.place then none else c.at? p := by
  induction objects generalizing c with
  | nil => rfl
  | cons o objects ih =>
    rw [List.map_cons, List.foldl_cons, ih, at?_absorb, List.map_cons]
    change (if _ then none else if p = o.place then none else c.at? p) = _
    by_cases later : p ∈ objects.map Object.place
    · rw [if_pos later, if_pos (List.mem_cons_of_mem _ later)]
    · by_cases mine : p = o.place
      · rw [if_neg later, if_pos mine, if_pos (mine ▸ List.mem_cons_self ..)]
      · have absent : p ∉ o.place :: objects.map Object.place := by simp [later, mine]
        rw [if_neg later, if_neg mine, if_neg absent]

@[simp] theorem at?_markSynced (c : Cache) (p : Place) : c.markSynced.at? p = c.at? p := by
  obtain ⟨isMonitor, key⟩ := p
  cases isMonitor <;> rfl

def Placed (c : Cache) : Prop := ∀ p o, c.at? p = some o → o.place = p

theorem placed_empty : Placed {} := by
  rintro ⟨isMonitor, key⟩ o found
  cases isMonitor <;> contradiction

theorem Placed.absorb {c : Cache} (h : c.Placed) (change : Change) : (c.absorb change).Placed := by
  intro p o found
  rw [at?_absorb] at found
  split at found
  · rename_i same
    rw [same, Change.place_of_leaves found]
  · exact h p o found

theorem Placed.foldl {c : Cache} (h : c.Placed) (changes : List Change) :
    (changes.foldl Cache.absorb c).Placed := by
  induction changes generalizing c with
  | nil => exact h
  | cons change changes ih => exact ih (h.absorb change)

theorem Placed.monitor {c : Cache} (h : c.Placed) {key : Key} {m : Monitor}
    (found : c.monitors.get? key = some m) : m.key = key := by
  have place := h ⟨true, key⟩ (.monitor m) (by simp [at?, found])
  exact congrArg Place.key place

theorem Placed.pod {c : Cache} (h : c.Placed) {key : Key} {p : Pod}
    (found : c.pods.get? key = some p) : p.key = key := by
  have place := h ⟨false, key⟩ (.pod p) (by simp [at?, found])
  exact congrArg Place.key place

/-- Some changes lead from a cache to what a source holds: each of them says what the source holds
at its place, and at every other place the cache has it already. -/
structure Leads (source : Place → Option Object) (c : Cache) (changes : List Change) : Prop where
  tells : ∀ change ∈ changes, change.leaves = source change.place
  all : ∀ p, c.at? p = source p ∨ ∃ change ∈ changes, change.place = p

theorem Leads.nil {source : Place → Option Object} {c : Cache} (h : Leads source c []) (p : Place) :
    c.at? p = source p := by
  rcases h.all p with same | ⟨_, member, _⟩
  · exact same
  · contradiction

theorem Leads.cons {source : Place → Option Object} {c : Cache} {change : Change}
    {changes : List Change} (h : Leads source c (change :: changes)) :
    Leads source (c.absorb change) changes := by
  refine ⟨fun other member => h.tells other (List.mem_cons_of_mem _ member), fun p => ?_⟩
  rw [at?_absorb]
  by_cases mine : p = change.place
  · rw [if_pos mine, mine]
    exact .inl (h.tells change (List.mem_cons_self ..))
  · rw [if_neg mine]
    refine (h.all p).imp_right fun ⟨other, member, same⟩ => ?_
    rcases List.mem_cons.mp member with rfl | later
    · exact (mine same.symm).elim
    · exact ⟨other, later, same⟩

theorem Leads.foldl {source : Place → Option Object} {c : Cache} {changes : List Change}
    (h : Leads source c changes) (p : Place) : (changes.foldl Cache.absorb c).at? p = source p := by
  induction changes generalizing c with
  | nil => exact h.nil p
  | cons change changes ih => exact ih h.cons

def objects (c : Cache) : List Object := c.monitors.values.map .monitor ++ c.pods.values.map .pod

theorem mem_objects {c : Cache} (placed : c.Placed) (o : Object) :
    o ∈ c.objects ↔ c.at? o.place = some o := by
  simp only [objects, List.mem_append, List.mem_map, Table.mem_values_iff]
  cases o with
  | monitor m =>
    simp only [Object.monitor.injEq, exists_eq_right, reduceCtorEq, and_false, exists_false,
      or_false, at?, Object.place, Object.isMonitor, Object.key]
    constructor
    · rintro ⟨key, found⟩
      rw [placed.monitor found, found]; rfl
    · intro found
      obtain ⟨w, found, same⟩ := Option.map_eq_some_iff.mp found
      cases same
      exact ⟨m.key, found⟩
  | pod p =>
    simp only [Object.pod.injEq, exists_eq_right, reduceCtorEq, and_false, exists_false, false_or,
      at?, Object.place, Object.isMonitor, Object.key]
    constructor
    · rintro ⟨key, found⟩
      rw [placed.pod found, found]; rfl
    · intro found
      obtain ⟨w, found, same⟩ := Option.map_eq_some_iff.mp found
      cases same
      exact ⟨p.key, found⟩

theorem place_ne_iff (o other : Object) :
    other.place ≠ o.place ↔ (other.isMonitor = o.isMonitor → other.key ≠ o.key) := by
  simp only [Object.place, ne_eq, Place.mk.injEq, not_and]

theorem mem_catchUp_iff {c : Cache} {listing : List Object} {change : Change} :
    change ∈ c.catchUp listing ↔
      (∃ o ∈ listing, change = .added o) ∨
      ∃ o ∈ c.objects, change = .deleted o ∧ ∀ other ∈ listing, other.place ≠ o.place := by
  simp only [catchUp, List.mem_append, List.mem_map, List.mem_filter, List.all_eq_true,
    decide_eq_true_iff, Function.comp, objects, place_ne_iff]
  constructor
  · rintro (((⟨m, ⟨cached, gone⟩, rfl⟩ | ⟨p, ⟨cached, gone⟩, rfl⟩) | ⟨o, ⟨listed, _⟩, rfl⟩) |
      ⟨o, ⟨listed, _⟩, rfl⟩)
    · exact .inr ⟨.monitor m, .inl ⟨m, cached, rfl⟩, rfl,
        fun o listed same => gone o ⟨listed, same⟩⟩
    · refine .inr ⟨.pod p, .inr ⟨p, cached, rfl⟩, rfl, fun o listed same => gone o ⟨listed, ?_⟩⟩
      rw [show o.isMonitor = false from same]; rfl
    · exact .inl ⟨o, listed, rfl⟩
    · exact .inl ⟨o, listed, rfl⟩
  · rintro (⟨o, listed, rfl⟩ | ⟨_, ⟨m, cached, rfl⟩ | ⟨p, cached, rfl⟩, rfl, gone⟩)
    · cases kind : o.isMonitor with
      | true => exact .inl (.inr ⟨o, ⟨listed, kind⟩, rfl⟩)
      | false => exact .inr ⟨o, ⟨listed, by simp [kind]⟩, rfl⟩
    · exact .inl (.inl (.inl ⟨m, ⟨cached, fun o listed => gone o listed.1 listed.2⟩, rfl⟩))
    · refine .inl (.inl (.inr ⟨p, ⟨cached, fun o listed => gone o listed.1 ?_⟩, rfl⟩))
      exact Bool.not_eq_true' _ ▸ listed.2

theorem leads_of_listing {c : Cache} (cached : c.Placed) {source : Place → Option Object}
    (placed : ∀ p o, source p = some o → o.place = p) {listing : List Object}
    (listed : ∀ o, o ∈ listing ↔ source o.place = some o) : Leads source c (c.catchUp listing) := by
  refine ⟨fun change member => ?_, fun p => ?_⟩
  · rcases mem_catchUp_iff.mp member with ⟨o, there, rfl⟩ | ⟨o, _, rfl, gone⟩
    · exact ((listed o).mp there).symm
    · cases found : source o.place with
      | none => exact found.symm
      | some other =>
        have place := placed _ other found
        exact (gone other ((listed other).mpr (place ▸ found)) place).elim
  · cases found : source p with
    | some o =>
      have place := placed p o found
      have there : o ∈ listing := (listed o).mpr (place ▸ found)
      exact .inr ⟨.added o, mem_catchUp_iff.mpr (.inl ⟨o, there, rfl⟩), place⟩
    | none =>
      cases old : c.at? p with
      | none => exact .inl rfl
      | some o =>
        have place := cached p o old
        refine .inr ⟨.deleted o,
          mem_catchUp_iff.mpr (.inr ⟨o, ?_, rfl, fun other there same => ?_⟩), place⟩
        · exact (mem_objects cached o).mpr (place ▸ old)
        · have still := (listed other).mp there
          rw [same, place, found] at still
          contradiction

theorem leads_catchUp {c source : Cache} (cached : c.Placed) (placed : source.Placed)
    {listing : List Object} (lists : ∀ o, o ∈ listing ↔ o ∈ source.objects) :
    Leads source.at? c (c.catchUp listing) :=
  leads_of_listing cached placed fun o => (lists o).trans (mem_objects placed o)

end Cache

end MonitorOperator
