import Mathlib.Data.List.Basic
import MonitorOperator.Proofs.Pass.Scene
import MonitorOperator.Proofs.Store.Operation

/-! Seeding a store from a manifest. Entries are written one after the other, and each keeps some of
what stands under its key and takes the rest from the manifest. Main statement: what is there
afterwards is told, up to uids of new objects and to versions, by what was there before and by the
last entry of each key, so that seeding again changes versions only. -/

namespace MonitorOperator

/-- A step that writes an entry under its key: what stands there then takes something from the entry
and keeps something of what stood there before. All other keys are left alone. -/
structure Upserts {σ α : Type} (key : α → Key) (at? : σ → Key → Option α) (step : σ → α → σ)
    (takes keeps : α → α → Prop) : Prop where
  written : ∀ s a, ∃ new, at? (step s a) (key a) = some new ∧ takes new a ∧
    ∀ old, at? s (key a) = some old → keeps new old
  apart : ∀ s a k, k ≠ key a → at? (step s a) k = at? s k
  trans : ∀ a b c, keeps a b → keeps b c → keeps a c

namespace Upserts

variable {σ α : Type} {key : α → Key} {at? : σ → Key → Option α} {step : σ → α → σ}
  {takes keeps : α → α → Prop}

omit step takes keeps at? in
theorem unlisted {entries : List α} {k : Key}
    (none : (entries.filter (key · = k)).getLast? = none) : ∀ a ∈ entries, key a ≠ k := by
  simpa using List.filter_eq_nil_iff.mp (List.getLast?_eq_none_iff.mp none)

theorem foldl_apart (h : Upserts key at? step takes keeps) (s : σ) {entries : List α} {k : Key}
    (absent : ∀ a ∈ entries, key a ≠ k) : at? (entries.foldl step s) k = at? s k := by
  induction entries generalizing s with
  | nil => rfl
  | cons a entries ih =>
    have first : k ≠ key a := (absent a (List.mem_cons_self ..)).symm
    exact (ih (step s a) fun b member => absent b (List.mem_cons_of_mem a member)).trans
      (h.apart s a k first)

/-- Of several entries of a key the last one counts, and what was there before all of them is kept
as if it had been the only one. -/
theorem foldl_listed (h : Upserts key at? step takes keeps) (s : σ) {entries : List α} {k : Key}
    {last : α} (listed : (entries.filter (key · = k)).getLast? = some last) :
    ∃ new, at? (entries.foldl step s) k = some new ∧ takes new last ∧
      ∀ old, at? s k = some old → keeps new old := by
  induction entries generalizing s with
  | nil => contradiction
  | cons a entries ih =>
    by_cases here : key a = k
    · subst here
      obtain ⟨first, found, took, kept⟩ := h.written s a
      cases later : (entries.filter (key · = key a)).getLast? with
      | none =>
        have same : a = last := by simpa [List.getLast?_cons, later] using listed
        subst same
        exact ⟨first, (h.foldl_apart _ (unlisted later)).trans found, took, kept⟩
      | some l =>
        have same : l = last := by simpa [List.getLast?_cons, later] using listed
        subst same
        obtain ⟨new, final, taken, kept'⟩ := ih (step s a) later
        exact ⟨new, final, taken, fun old before =>
          h.trans _ _ _ (kept' first found) (kept old before)⟩
    · have listed : (entries.filter (key · = k)).getLast? = some last := by
        simpa [here] using listed
      obtain ⟨new, final, taken, kept⟩ := ih (step s a) listed
      refine ⟨new, final, taken, fun old before => kept old ?_⟩
      rw [h.apart s a k (Ne.symm here)]
      exact before

theorem foldl_kept (h : Upserts key at? step takes keeps) (refl : ∀ a, keeps a a) (s : σ)
    (entries : List α) {k : Key} {old : α} (before : at? s k = some old) :
    ∃ new, at? (entries.foldl step s) k = some new ∧ keeps new old := by
  cases listed : (entries.filter (key · = k)).getLast? with
  | none =>
    exact ⟨old, (h.foldl_apart s (unlisted listed)).trans before, refl old⟩
  | some last =>
    obtain ⟨new, final, _, kept⟩ := h.foldl_listed s listed
    exact ⟨new, final, kept old before⟩

theorem foldl_again {β : Type} (h : Upserts key at? step takes keeps) {view : α → β}
    (whole : ∀ first second last, takes first last → takes second last → keeps second first →
      view second = view first)
    {s t : σ} {entries : List α} {k : Key} (after : at? t k = at? (entries.foldl step s) k) :
    (at? (entries.foldl step t) k).map view = (at? t k).map view := by
  cases listed : (entries.filter (key · = k)).getLast? with
  | none => rw [h.foldl_apart t (unlisted listed)]
  | some last =>
    obtain ⟨first, found, took, -⟩ := h.foldl_listed s listed
    obtain ⟨second, again, taken, kept⟩ := h.foldl_listed t listed
    have found : at? t k = some first := after.trans found
    rw [found, again]
    exact congrArg some (whole first second last took taken (kept first found))

end Upserts

/-- What a manifest says about a monitor: all but its uid, its version and its status. -/
def Monitor.stated (m : Monitor) : Monitor where
  metadata := { m.metadata with uid := "", version := 0 }
  spec := m.spec

def Pod.unversioned (p : Pod) : Pod := { p with metadata := { p.metadata with version := 0 } }

namespace Store

theorem upserts_apply :
    Upserts Monitor.key (fun (s : Store) k => s.monitors.get? k) (fun s m => (s.apply m).1)
      (fun new m => new.stated = m.stated)
      (fun new old => new.metadata.uid = old.metadata.uid ∧ new.status = old.status) where
  written s m := by
    have stored := (s.apply_effect m).stored
    rw [apply_key] at stored
    refine ⟨(s.apply m).2, stored, ?_, fun old found => ?_⟩
    · unfold apply
      split <;> rfl
    · simp only [apply, found]
      exact ⟨rfl, rfl⟩
  apart s m k other := by
    cases s.apply_effect m with
    | monitor _ _ _ _ monitors =>
      rw [apply_key] at monitors
      rw [monitors, Table.get?_insert, if_neg other]
  trans a b c ab bc := ⟨ab.1.trans bc.1, ab.2.trans bc.2⟩

theorem putPod_key (s : Store) (p : Pod) : (s.putPod p).2.key = p.key := by
  unfold putPod
  split <;> rfl

theorem upserts_putPod :
    Upserts Pod.key (fun (s : Store) k => s.pods.get? k) (fun s p => (s.putPod p).1)
      (fun new p => new.bare = p.bare) (fun new old => new.metadata.uid = old.metadata.uid) where
  written s p := by
    have taken : (s.putPod p).2.bare = p.bare := by
      unfold putPod
      split <;> rfl
    cases s.putPod_effect p with
    | pod _ _ _ _ _ pods =>
      refine ⟨(s.putPod p).2, ?_, taken, fun old found => ?_⟩
      · rw [pods, Table.get?_insert, putPod_key, if_pos rfl]
      · simp only [putPod, found]
        rfl
  apart s p k other := by
    cases s.putPod_effect p with
    | pod _ _ _ _ _ pods => rw [pods, Table.get?_insert, putPod_key, if_neg other]
  trans a b c ab bc := ab.trans bc

/-- The monitors of a manifest leave the pods alone, and its pods the monitors. -/
theorem pods_foldl_apply (s : Store) (ms : List Monitor) :
    (ms.foldl (fun s m => (s.apply m).1) s).pods = s.pods := by
  induction ms generalizing s with
  | nil => rfl
  | cons m ms ih =>
    refine (ih (s.apply m).1).trans ?_
    cases s.apply_effect m with
    | monitor _ _ _ _ _ pods => exact pods

theorem monitors_foldl_putPod (s : Store) (ps : List Pod) :
    (ps.foldl (fun s p => (s.putPod p).1) s).monitors = s.monitors := by
  induction ps generalizing s with
  | nil => rfl
  | cons p ps ih =>
    refine (ih (s.putPod p).1).trans ?_
    cases s.putPod_effect p with
    | pod _ _ _ _ monitors => exact monitors

theorem monitors_seed (s : Store) (m : Manifest) :
    (s.seed m).monitors = (m.monitors.foldl (fun s r => (s.apply r).1) s).monitors :=
  monitors_foldl_putPod _ m.pods

theorem unversioned_of_stated {first second last : Monitor} (took : first.stated = last.stated)
    (taken : second.stated = last.stated)
    (kept : second.metadata.uid = first.metadata.uid ∧ second.status = first.status) :
    second.unversioned = first.unversioned := by
  have same : second.stated = first.stated := taken.trans took.symm
  have whole (m : Monitor) : m.unversioned = { m.stated with
      metadata := { m.stated.metadata with uid := m.metadata.uid }
      status := m.status } := rfl
  rw [whole second, whole first, same, kept.1, kept.2]

theorem unversioned_of_bare {first second last : Pod} (took : first.bare = last.bare)
    (taken : second.bare = last.bare) (kept : second.metadata.uid = first.metadata.uid) :
    second.unversioned = first.unversioned := by
  have same : second.bare = first.bare := taken.trans took.symm
  have whole (p : Pod) : p.unversioned = { p.bare with
      metadata := { p.bare.metadata with uid := p.metadata.uid } } := rfl
  rw [whole second, whole first, same, kept]

/-- Seeding a store again changes nothing but versions. What was there before keeps its uid, and a
monitor its status. A monitor of the manifest has what the last entry of its key says, and so has a
pod, with all but its uid and its version. What the manifest does not name is left alone. -/
theorem seeding_settles (s : Store) (m : Manifest) :
    let t := s.seed m
    (∀ key, ((t.seed m).monitors.get? key).map Monitor.unversioned =
      (t.monitors.get? key).map Monitor.unversioned) ∧
    (∀ key, ((t.seed m).pods.get? key).map Pod.unversioned =
      (t.pods.get? key).map Pod.unversioned) ∧
    (∀ key old, s.monitors.get? key = some old → ∃ new, t.monitors.get? key = some new ∧
      new.metadata.uid = old.metadata.uid ∧ new.status = old.status) ∧
    (∀ key old, s.pods.get? key = some old → ∃ new, t.pods.get? key = some new ∧
      new.metadata.uid = old.metadata.uid) ∧
    (∀ key last, (m.monitors.filter (·.key = key)).getLast? = some last →
      ∃ new, t.monitors.get? key = some new ∧ new.spec = last.spec ∧
        new.metadata.labels = last.metadata.labels ∧
        new.metadata.owners = last.metadata.owners) ∧
    (∀ key last, (m.pods.filter (·.key = key)).getLast? = some last →
      ∃ new, t.pods.get? key = some new ∧ new.bare = last.bare) ∧
    (∀ key, (∀ r ∈ m.monitors, r.key ≠ key) → t.monitors.get? key = s.monitors.get? key) ∧
    (∀ key, (∀ p ∈ m.pods, p.key ≠ key) → t.pods.get? key = s.pods.get? key) := by
  intro t
  have start (s : Store) : (m.monitors.foldl (fun s r => (s.apply r).1) s).pods = s.pods :=
    s.pods_foldl_apply m.monitors
  refine ⟨fun key => ?_, fun key => ?_, fun key old before => ?_, fun key old before => ?_,
    fun key last listed => ?_, fun key last listed => ?_, fun key absent => ?_,
    fun key absent => ?_⟩
  · rw [monitors_seed]
    exact upserts_apply.foldl_again (fun _ _ _ => unversioned_of_stated)
      (congrArg (Table.get? · key) (s.monitors_seed m))
  · have again := upserts_putPod.foldl_again (fun _ _ _ => unversioned_of_bare)
      (t := m.monitors.foldl (fun s r => (s.apply r).1) t) (k := key)
      (congrArg (Table.get? · key) (start t))
    rwa [start t] at again
  · rw [monitors_seed]
    exact upserts_apply.foldl_kept (fun _ => ⟨rfl, rfl⟩) s m.monitors before
  · exact upserts_putPod.foldl_kept (fun _ => rfl) _ m.pods ((start s).symm ▸ before)
  · obtain ⟨new, found, took, -⟩ := upserts_apply.foldl_listed s listed
    rw [monitors_seed]
    exact ⟨new, found, congrArg (·.spec) took, congrArg (·.metadata.labels) took,
      congrArg (·.metadata.owners) took⟩
  · obtain ⟨new, found, took, -⟩ := upserts_putPod.foldl_listed _ listed
    exact ⟨new, found, took⟩
  · rw [monitors_seed]
    exact upserts_apply.foldl_apart s absent
  · exact (upserts_putPod.foldl_apart _ absent).trans (congrArg (Table.get? · key) (start s))

theorem seeding_settles_with_repeats :
    let entry (name log uid : String) (phase : Phase) : Monitor := {
      metadata := { ns := "a", name := name, uid := uid }
      spec := { logDirectory := log }
      status := .plain phase }
    let pod (uid : String) (phase : PodPhase) : Pod := {
      metadata := { ns := "a", name := "x", uid := uid }, status := { phase := phase } }
    let s := (empty 10).after [.apply (entry "x" "old" "u" .running)]
    let m : Manifest := {
      monitors := [entry "x" "early" "v" .failed, entry "y" "early" "" .pending,
        entry "x" "late" "" .unset, entry "y" "late" "w" .unset]
      pods := [pod "" .running, pod "p" .failed] }
    let t := s.seed m
    (∃ x, t.monitors.get? ⟨"a", "x"⟩ = some x ∧ x.metadata.uid = "u" ∧ x.status = .plain .running) ∧
      (∃ y, t.monitors.get? ⟨"a", "y"⟩ = some y ∧ y.spec.logDirectory = "late") ∧
      (t.monitors.get? ⟨"a", "y"⟩).map (fun y => (y.metadata.uid, y.status.phase)) =
        some ("00000001", .pending) ∧
      (∃ p, t.pods.get? ⟨"a", "x"⟩ = some p ∧ p.bare = (pod "" .failed).bare) ∧
      (t.seed m).monitors ≠ t.monitors ∧
      ((t.seed m).monitors.get? ⟨"a", "y"⟩).map Monitor.unversioned =
        (t.monitors.get? ⟨"a", "y"⟩).map Monitor.unversioned := by
  intro entry pod s m t
  obtain ⟨again, -, kept, -, monitors, pods, -⟩ := seeding_settles s m
  have there : s.monitors.get? ⟨"a", "x"⟩ = some { entry "x" "old" "u" .running with
      metadata := { ns := "a", name := "x", uid := "u", version := 1 } } := by decide
  obtain ⟨x, found, uid, status⟩ := kept ⟨"a", "x"⟩ _ there
  obtain ⟨y, stored, spec, -⟩ := monitors ⟨"a", "y"⟩ (entry "y" "late" "w" .unset) (by decide)
  exact ⟨⟨x, found, uid, status⟩, ⟨y, stored, congrArg (·.logDirectory) spec⟩, by decide,
    pods ⟨"a", "x"⟩ (pod "p" .failed) (by decide), by decide, again ⟨"a", "y"⟩⟩

end Store

end MonitorOperator
