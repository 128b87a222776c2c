import MonitorOperator.Proofs.Store.Operation

/-! Versions, and status writes that carry one. While fewer than `UInt64.size` objects are written,
every write has a later version than all writes before it, so a version tells for good which write
of which object it comes from. A status write that is accepted therefore meets the very monitor that
its version came with, and no second one with that version is accepted. -/

namespace MonitorOperator.Store

/-- The versions that are given out, one for each object that is written. -/
def issued (s : Store) : List Operation → List UInt64
  | [] => []
  | op :: ops => ((op.written? s).map (·.metadata.version)).toList ++ issued (op.run s) ops

def accepted (s : Store) : List Operation → List UInt64
  | [] => []
  | .updateStatus r :: ops =>
    match s.updateStatus r with
    | (t, .ok _) => r.metadata.version :: accepted t ops
    | (t, .error _) => accepted t ops
  | op :: ops => accepted (op.run s) ops

/-- Over some operations a key keeps its monitor: nobody writes it, and nobody removes it, be it to
create it anew. -/
def Keeps (key : Key) (m : Monitor) (s : Store) : List Operation → Prop
  | [] => s.monitors.get? key = some m
  | op :: ops => s.monitors.get? key = some m ∧
    (∀ w, op.written? s = some (.monitor w) → w.key ≠ key) ∧ Keeps key m (op.run s) ops

theorem Keeps.found {key : Key} {m : Monitor} {s : Store} {ops : List Operation}
    (h : Keeps key m s ops) : s.monitors.get? key = some m := by
  cases ops with
  | nil => exact h
  | cons _ _ => exact h.1

/-- A store after `n` writes. Its versions are no later than the last write's, and no two monitors
share one. -/
structure Dated (s : Store) (n : Nat) : Prop where
  keyed : s.Keyed
  next : s.nextVersion = UInt64.ofNat (n + 1)
  reached : ∀ key m, s.monitors.get? key = some m → m.metadata.version.toNat ≤ n
  apart : ∀ key m key' m', s.monitors.get? key = some m → s.monitors.get? key' = some m' →
    m.metadata.version = m'.metadata.version → key = key'

theorem Dated.empty (retention : Nat) : (empty retention).Dated 0 where
  keyed := ⟨fun _ _ found => (nomatch found), fun _ _ found => (nomatch found)⟩
  next := rfl
  reached _ _ found := nomatch found
  apart _ _ _ _ found := nomatch found

theorem Dated.next_toNat {s : Store} {n : Nat} (h : s.Dated n) (few : n + 1 < UInt64.size) :
    s.nextVersion.toNat = n + 1 := by
  rw [h.next]
  exact UInt64.toNat_ofNat_of_lt' few

def writes : Option Object → Nat
  | none => 0
  | some _ => 1

theorem Dated.monitors_sub {s t : Store} {n : Nat} (h : s.Dated n) (keyed : t.Keyed)
    (next : t.nextVersion = s.nextVersion)
    (sub : ∀ key m, t.monitors.get? key = some m → s.monitors.get? key = some m) : t.Dated n where
  keyed := keyed
  next := next.trans h.next
  reached key m found := h.reached key m (sub key m found)
  apart key m key' m' found found' := h.apart key m key' m' (sub key m found) (sub key' m' found')

theorem Dated.step {s t : Store} {n : Nat} {o : Option Object} (h : s.Dated n)
    (effect : Effect s t o) (few : n + writes o < UInt64.size) : t.Dated (n + writes o) := by
  have keyed := h.keyed.step effect
  have bumped : s.nextVersion + 1 = UInt64.ofNat (n + 1 + 1) := by
    rw [h.next, UInt64.ofNat_add (n + 1) 1]; rfl
  cases effect with
  | still alike => exact h.monitors_sub keyed alike.next fun key m found => alike.monitors ▸ found
  | podGone key p present monitors _ next _ =>
    exact h.monitors_sub keyed next fun key m found => monitors ▸ found
  | monitorGone key m present monitors _ next _ =>
    refine h.monitors_sub keyed next fun other w found => ?_
    rw [monitors, Table.get?_erase] at found
    split at found
    · contradiction
    · exact found
  | pod p change news fresh monitors pods next feed =>
    refine ⟨keyed, next.trans bumped, fun key m found => ?_, ?_⟩
    · exact Nat.le_succ_of_le (h.reached key m (monitors ▸ found))
    · rw [monitors]; exact h.apart
  | monitor m change news fresh monitors pods next feed =>
    have late : m.metadata.version.toNat = n + 1 := fresh ▸ h.next_toNat few
    refine ⟨keyed, next.trans bumped, fun key w found => ?_,
      fun key w key' w' found found' same => ?_⟩
    · rw [monitors, Table.get?_insert] at found
      split at found
      · rw [← Option.some.inj found, late]; exact Nat.le_refl _
      · exact Nat.le_succ_of_le (h.reached key w found)
    · rw [monitors, Table.get?_insert] at found found'
      split at found <;> split at found'
      · simp [*]
      · have := h.reached key' w' found'
        rw [← same, ← Option.some.inj found, late] at this
        exact absurd this (Nat.not_succ_le_self n)
      · have := h.reached key w found
        rw [same, ← Option.some.inj found', late] at this
        exact absurd this (Nat.not_succ_le_self n)
      · exact h.apart key w key' w' found found' same

theorem issued_cons (s : Store) (op : Operation) (ops : List Operation) :
    (issued s (op :: ops)).length = writes (op.written? s) + (issued (op.run s) ops).length := by
  cases h : op.written? s <;> simp [issued, h, writes]; omega

theorem Dated.after {s : Store} {n : Nat} (ops : List Operation) (h : s.Dated n)
    (few : n + (issued s ops).length < UInt64.size) :
    (s.after ops).Dated (n + (issued s ops).length) := by
  induction ops generalizing s n with
  | nil => exact h
  | cons op ops ih =>
    rw [issued_cons, ← Nat.add_assoc] at few ⊢
    exact ih (h.step (op.effect h.keyed) (by omega)) few

theorem Effect.version {s t : Store} {o : Object} (effect : Effect s t (some o)) :
    o.metadata.version = s.nextVersion := by
  cases effect with
  | monitor m change news fresh => exact fresh
  | pod p change news fresh => exact fresh

theorem writes_eq_one {s : Store} {op : Operation} {o : Object} (written : op.written? s = some o) :
    writes (op.written? s) = 1 := by rw [written]; rfl

theorem Dated.lt_issued {s : Store} {n : Nat} (ops : List Operation) (h : s.Dated n)
    (few : n + (issued s ops).length < UInt64.size) : ∀ v ∈ issued s ops, n < v.toNat := by
  induction ops generalizing s n with
  | nil => simp [issued]
  | cons op ops ih =>
    intro v member
    rw [issued_cons] at few
    simp only [issued, List.mem_append, Option.mem_toList, Option.map_eq_some_iff] at member
    rcases member with ⟨o, written, rfl⟩ | later
    · rw [writes_eq_one written] at few
      rw [Effect.version (written ▸ op.effect h.keyed), h.next_toNat (by omega)]
      exact Nat.lt_succ_self n
    · exact Nat.lt_of_le_of_lt (Nat.le_add_right ..)
        (ih (h.step (op.effect h.keyed) (by omega)) (by omega) v later)

theorem Dated.issued_le {s : Store} {n : Nat} (ops : List Operation) (h : s.Dated n)
    (few : n + (issued s ops).length < UInt64.size) :
    ∀ v ∈ issued s ops, v.toNat ≤ n + (issued s ops).length := by
  induction ops generalizing s n with
  | nil => simp [issued]
  | cons op ops ih =>
    intro v member
    rw [issued_cons, ← Nat.add_assoc] at few ⊢
    simp only [issued, List.mem_append, Option.mem_toList, Option.map_eq_some_iff] at member
    rcases member with ⟨o, written, rfl⟩ | later
    · rw [writes_eq_one written] at few ⊢
      rw [Effect.version (written ▸ op.effect h.keyed), h.next_toNat (by omega)]
      omega
    · exact ih (h.step (op.effect h.keyed) (by omega)) few v later

theorem Dated.issued_increasing {s : Store} {n : Nat} {ops : List Operation} (h : s.Dated n)
    (few : n + (issued s ops).length < UInt64.size) : (issued s ops).Pairwise (· < ·) := by
  induction ops generalizing s n with
  | nil => exact .nil
  | cons op ops ih =>
    rw [issued_cons] at few
    have next := h.step (op.effect h.keyed) (by omega)
    have later := next.lt_issued ops (by omega)
    have tail := ih next (by omega)
    cases written : op.written? s with
    | none => simpa [issued, written] using tail
    | some o =>
      simp only [issued, written, Option.map_some, Option.toList_some, List.singleton_append]
      refine List.pairwise_cons.mpr ⟨fun v member => ?_, tail⟩
      rw [writes_eq_one written] at few later
      rw [UInt64.lt_iff_toNat_lt, Effect.version (written ▸ op.effect h.keyed),
        h.next_toNat (by omega)]
      exact later v member

/-- A monitor that is there after some operations was there all along, or comes from one of them and
was there ever since. -/
theorem kept_or_written {s : Store} {ops : List Operation} {key : Key} {m : Monitor}
    (keyed : s.Keyed) (found : (s.after ops).monitors.get? key = some m) :
    Keeps key m s ops ∨ ∃ earlier op since, ops = earlier ++ op :: since ∧
      op.written? (s.after earlier) = some (.monitor m) ∧
      Keeps key m (op.run (s.after earlier)) since := by
  induction ops generalizing s with
  | nil => exact .inl found
  | cons op ops ih =>
    have effect := op.effect keyed
    rcases ih (keyed.step effect) found with kept | ⟨earlier, op', since, rfl, written, kept⟩
    · by_cases mine : ∃ w, op.written? s = some (.monitor w) ∧ w.key = key
      · obtain ⟨w, written, rfl⟩ := mine
        have same : w = m :=
          Option.some.inj ((Effect.stored (written ▸ effect)).symm.trans kept.found)
        exact .inr ⟨[], op, ops, rfl, same ▸ written, kept⟩
      · have apart : ∀ w, op.written? s = some (.monitor w) → w.key ≠ key :=
          fun w written same => mine ⟨w, written, same⟩
        exact .inl ⟨effect.stored_before kept.found apart, apart, kept⟩
    · exact .inr ⟨op :: earlier, op', since, rfl, written, kept⟩

/-- No monitor of the key has the version, and none will. -/
def Outdated (v : UInt64) (key : Key) (s : Store) (n : Nat) : Prop :=
  v.toNat ≤ n ∧ ∀ m, s.monitors.get? key = some m → m.metadata.version ≠ v

theorem Outdated.step {v : UInt64} {key : Key} {s t : Store} {n : Nat} {o : Option Object}
    (h : Outdated v key s n) (dated : s.Dated n) (effect : Effect s t o)
    (few : n + writes o < UInt64.size) : Outdated v key t (n + writes o) := by
  refine ⟨Nat.le_add_right_of_le h.1, fun m found same => ?_⟩
  by_cases mine : ∃ w, o = some (.monitor w) ∧ w.key = key
  · obtain ⟨w, rfl, rfl⟩ := mine
    have new : w = m := Option.some.inj (effect.stored.symm.trans found)
    have fresh : w.metadata.version = s.nextVersion := effect.version
    have late := dated.next_toNat few
    have early := h.1
    rw [← same, ← new, fresh, late] at early
    exact Nat.not_succ_le_self n early
  · exact h.2 m (effect.stored_before found fun w eq same => mine ⟨w, eq, same⟩) same

theorem Outdated.after {v : UInt64} {key : Key} {s : Store} {n : Nat} (ops : List Operation)
    (h : Outdated v key s n) (dated : s.Dated n) (few : n + (issued s ops).length < UInt64.size) :
    Outdated v key (s.after ops) (n + (issued s ops).length) := by
  induction ops generalizing s n with
  | nil => exact h
  | cons op ops ih =>
    rw [issued_cons, ← Nat.add_assoc] at few ⊢
    have effect := op.effect dated.keyed
    exact ih (h.step dated effect (by omega)) (dated.step effect (by omega)) few

theorem updateStatus_ok {s t : Store} {r written : Monitor} (keyed : s.Keyed)
    (ok : s.updateStatus r = (t, .ok written)) :
    t.monitors = s.monitors.insert r.key written ∧ t.pods = s.pods := by
  obtain ⟨_, stored, found, _, rfl⟩ := updateStatus_eq_ok.mp (congrArg Prod.snd ok)
  have key : stored.key = r.key := keyed.monitors r.key stored found
  have effect := updateStatus_effect keyed r
  rw [ok] at effect
  cases effect with
  | monitor _ _ _ _ monitors pods => exact ⟨key ▸ monitors, pods⟩

theorem present_of_updateStatus {s : Store} {r w : Monitor} {key : Key} (keyed : s.Keyed)
    (found : (s.updateStatus r).1.monitors.get? key = some w) :
    ∃ old, s.monitors.get? key = some old := by
  cases answer : (s.updateStatus r).2 with
  | error e =>
    have effect := updateStatus_effect keyed r
    rw [answer] at effect
    exact ⟨w, effect.stored_before found nofun⟩
  | ok written =>
    obtain ⟨_, stored, there, _, _⟩ := updateStatus_eq_ok.mp answer
    rw [(updateStatus_ok keyed (Prod.ext rfl answer)).1, Table.get?_insert] at found
    split at found
    · rename_i mine
      exact ⟨stored, mine ▸ there⟩
    · exact ⟨w, found⟩

theorem outdated_of_accepted {s t : Store} {n : Nat} {r written : Monitor} (dated : s.Dated n)
    (few : n + 1 < UInt64.size) (ok : s.updateStatus r = (t, .ok written)) (key : Key) :
    Outdated r.metadata.version key t (n + 1) := by
  obtain ⟨_, stored, found, same, fresh⟩ := updateStatus_eq_ok.mp (congrArg Prod.snd ok)
  have early := dated.reached _ _ found
  rw [same] at early
  refine ⟨Nat.le_succ_of_le early, fun m present version => ?_⟩
  rw [(updateStatus_ok dated.keyed ok).1, Table.get?_insert] at present
  split at present
  · have late := dated.next_toNat few
    rw [← Option.some.inj present, fresh] at version
    rw [show s.nextVersion = r.metadata.version from version] at late
    omega
  · rename_i differ
    exact differ (dated.apart _ _ _ _ present found (version.trans same.symm))

theorem not_accepted_of_outdated {v : UInt64} {s : Store} {n : Nat} {ops : List Operation}
    (dated : s.Dated n) (few : n + (issued s ops).length < UInt64.size)
    (old : ∀ key, Outdated v key s n) : v ∉ accepted s ops := by
  induction ops generalizing s n with
  | nil => simp [accepted]
  | cons op ops ih =>
    rw [issued_cons, ← Nat.add_assoc] at few
    have effect := op.effect dated.keyed
    have tail := ih (dated.step effect (by omega)) few
      fun key => (old key).step dated effect (by omega)
    cases op with
    | updateStatus r =>
      rw [show (Operation.updateStatus r).run s = (s.updateStatus r).1 from rfl] at tail
      simp only [accepted]
      split
      · rename_i t written ok
        obtain ⟨_, stored, found, same, _⟩ := updateStatus_eq_ok.mp (congrArg Prod.snd ok)
        rw [ok] at tail
        refine fun member => (List.mem_cons.mp member).elim (fun eq => ?_) tail
        exact (old r.key).2 stored found (same.trans eq.symm)
      · rename_i t cause refused
        rw [refused] at tail
        exact tail
    | _ => exact tail

theorem Dated.accepted_once {s : Store} {n : Nat} {ops : List Operation} (h : s.Dated n)
    (few : n + (issued s ops).length < UInt64.size) : (accepted s ops).Nodup := by
  induction ops generalizing s n with
  | nil => exact List.nodup_nil
  | cons op ops ih =>
    rw [issued_cons, ← Nat.add_assoc] at few
    have next := h.step (op.effect h.keyed) (by omega)
    have tail := ih next few
    cases op with
    | updateStatus r =>
      simp only [accepted]
      split
      · rename_i t written ok
        have one : writes ((Operation.updateStatus r).written? s) = 1 := by
          simp [Operation.written?, ok, Except.toOption, writes]
        rw [one] at few next
        rw [show (Operation.updateStatus r).run s = t from congrArg Prod.fst ok] at few next tail
        refine List.nodup_cons.mpr ⟨not_accepted_of_outdated next few fun key => ?_, tail⟩
        exact outdated_of_accepted h (by omega) ok key
      · rename_i t cause refused
        rw [show (Operation.updateStatus r).run s = t from congrArg Prod.fst refused] at tail
        exact tail
    | _ => exact tail

theorem issued_append (s : Store) (ops more : List Operation) :
    issued s (ops ++ more) = issued s ops ++ issued (s.after ops) more := by
  induction ops generalizing s with
  | nil => rfl
  | cons op ops ih => simp [issued, ih]

theorem outdated_of_applied {s : Store} {n : Nat} {v : UInt64} (dated : s.Dated n) (m : Monitor)
    (early : v.toNat ≤ n) (few : n + 1 < UInt64.size) : Outdated v m.key (s.apply m).1 (n + 1) := by
  have effect := s.apply_effect m
  have fresh : (s.apply m).2.metadata.version = s.nextVersion := effect.version
  have key := s.apply_key m
  refine ⟨Nat.le_succ_of_le early, fun w found same => ?_⟩
  have new : (s.apply m).2 = w := Option.some.inj ((key ▸ effect.stored).symm.trans found)
  have late := dated.next_toNat few
  rw [← fresh, new, same] at late
  omega

/-- No copy from before its monitor was last applied is accepted. -/
theorem refused_of_applied {retention : Nat} {earlier since : List Operation} {m r : Monitor}
    (few : (issued (empty retention) (earlier ++ .apply m :: since)).length < UInt64.size)
    (key : m.key = r.key) (member : r.metadata.version ∈ issued (empty retention) earlier)
    (t : Store) (written : Monitor) :
    ((empty retention).after (earlier ++ .apply m :: since)).updateStatus r ≠ (t, .ok written) := by
  intro ok
  rw [issued_append, List.length_append, issued_cons] at few
  have one : writes ((Operation.apply m).written? ((empty retention).after earlier)) = 1 := rfl
  rw [one] at few
  have start := Dated.empty retention
  have dated := start.after earlier (by omega)
  have early := start.issued_le earlier (by omega) _ member
  have old := outdated_of_applied dated m early (by omega)
  have applied := dated.step (apply_effect _ m) (by simp only [writes]; omega)
  have now := old.after since applied (by simp only [Operation.run] at few; omega)
  obtain ⟨_, stored, found, same, _⟩ := updateStatus_eq_ok.mp (congrArg Prod.snd ok)
  rw [after_append, ← key] at found
  exact now.2 stored found same

/-- In every run of fewer than `UInt64.size` writes: the versions that are given out increase, no
two status writes with one version are accepted, and a status write is accepted exactly if the store
is available and has the monitor under the version that the write carries. Then that very monitor
was written when the version was given out, its key kept it ever since, and nothing but its status
and its version changes; and no copy from before the monitor was last applied is accepted. -/
theorem status_writes_optimistic (retention : Nat) (ops : List Operation)
    (few : (issued (empty retention) ops).length < UInt64.size) :
    (issued (empty retention) ops).Pairwise (· < ·) ∧
    (accepted (empty retention) ops).Nodup ∧
    ∀ before r later s, ops = before ++ .updateStatus r :: later →
      (empty retention).after before = s →
      ((∃ t written, s.updateStatus r = (t, .ok written)) ↔
        s.unavailable = false ∧ ∃ stored, s.monitors.get? r.key = some stored ∧
          stored.metadata.version = r.metadata.version) ∧
      (∀ t written, s.updateStatus r = (t, .ok written) →
        ∃ stored earlier op since,
          s.monitors.get? r.key = some stored ∧
          stored.metadata.version = r.metadata.version ∧
          before = earlier ++ op :: since ∧
          op.written? ((empty retention).after earlier) = some (.monitor stored) ∧
          Keeps r.key stored (op.run ((empty retention).after earlier)) since ∧
          written = { stored with
            status := r.status
            metadata := { stored.metadata with version := s.nextVersion } } ∧
          t.monitors = s.monitors.insert r.key written ∧ t.pods = s.pods ∧
          ∀ v ∈ issued (empty retention) before, v < written.metadata.version) ∧
      ∀ earlier m since, before = earlier ++ .apply m :: since → m.key = r.key →
        r.metadata.version ∈ issued (empty retention) earlier →
        ∀ t written, s.updateStatus r ≠ (t, .ok written) := by
  have start := Dated.empty retention
  have few' : 0 + (issued (empty retention) ops).length < UInt64.size := by omega
  refine ⟨start.issued_increasing few', start.accepted_once few', ?_⟩
  rintro before r later s rfl rfl
  rw [issued_append, List.length_append, issued_cons] at few
  have dated := start.after before (by omega)
  refine ⟨?_, fun t written ok => ?_, ?_⟩
  · constructor
    · rintro ⟨t, written, ok⟩
      obtain ⟨available, stored, found, same, _⟩ := updateStatus_eq_ok.mp (congrArg Prod.snd ok)
      exact ⟨available, stored, found, same⟩
    · rintro ⟨available, stored, found, same⟩
      exact ⟨_, _, Prod.ext rfl (updateStatus_eq_ok.mpr ⟨available, stored, found, same, rfl⟩)⟩
  · obtain ⟨_, stored, found, same, eq⟩ := updateStatus_eq_ok.mp (congrArg Prod.snd ok)
    have one :
        writes ((Operation.updateStatus r).written? ((empty retention).after before)) = 1 := by
      simp [Operation.written?, ok, Except.toOption, writes]
    rw [one] at few
    have absent : (empty retention).monitors.get? r.key = none := rfl
    rcases kept_or_written start.keyed found with kept | ⟨earlier, op, since, split, written', kept⟩
    · rw [kept.found] at absent; contradiction
    · obtain ⟨monitors, pods⟩ := updateStatus_ok dated.keyed ok
      refine ⟨stored, earlier, op, since, found, same, split, written', kept, eq, monitors, pods,
        ?_⟩
      intro v member
      have reached := start.issued_le before (by omega) v member
      have late := dated.next_toNat (by omega)
      rw [UInt64.lt_iff_toNat_lt, eq]
      change v.toNat < ((empty retention).after before).nextVersion.toNat
      omega
  · rintro earlier m since rfl key member
    exact refused_of_applied (by omega) key member

theorem status_writes_optimistic_stale :
    let job : Monitor := { metadata := { ns := "a", name := "x", uid := "u" } }
    let copy : Monitor := { job with
      metadata := { job.metadata with version := 1 }, status := .plain .pending }
    let ops : List Operation := [.apply job, .updateStatus copy, .updateStatus copy, .apply job,
      .updateStatus { copy with metadata := { job.metadata with version := 2 } }]
    (issued (empty 10) ops).length < UInt64.size ∧ accepted (empty 10) ops = [1] ∧
      (issued (empty 10) ops).Pairwise (· < ·) ∧
      ∀ t written, ((empty 10).after (ops.take 4)).updateStatus
        { copy with metadata := { job.metadata with version := 2 } } ≠ (t, .ok written) := by
  intro job copy ops
  have h := status_writes_optimistic 10 ops (by decide)
  have last := h.2.2 (ops.take 4) _ [] _ rfl rfl
  refine ⟨by decide, by decide, h.1, last.2.2 (ops.take 3) job [] rfl rfl (by decide)⟩
end MonitorOperator.Store
