import Mathlib.Data.List.Nodup
import MonitorOperator.Proofs.Store.Differences
import MonitorOperator.Proofs.Store.Refusal

/-! Uids of objects. An object that is created without a uid gets one from a counter, and it keeps
its uid until it is removed. Main statement: whatever stands anywhere at any time with a uid from
the counter is the object that was created with it, unless a client has supplied the same text. -/

namespace MonitorOperator.Store

def hexValue (c : Char) : Nat := if c.isDigit then c.toNat - 48 else c.toNat - 87

/-- The number that hexadecimal digits denote. -/
def hexNumber (digits : List Char) : Nat := digits.foldl (fun n c => 16 * n + hexValue c) 0

theorem hexValue_digitChar : ∀ d < 16, hexValue (Nat.digitChar d) = d := by decide

theorem hexNumber_toDigits (n : Nat) : hexNumber (Nat.toDigits 16 n) = n := by
  induction n using Nat.strongRecOn with
  | ind n ih =>
    by_cases small : n < 16
    · rw [Nat.toDigits_of_lt_base small]
      simp [hexNumber, hexValue_digitChar n small]
    · have last := hexValue_digitChar (n % 16) (Nat.mod_lt n (by decide))
      have front := ih (n / 16) (by omega)
      rw [Nat.toDigits_of_base_le (by decide) (by omega), hexNumber, List.foldl_append, ← hexNumber,
        front, List.foldl_cons, List.foldl_nil, last]
      omega

theorem hexNumber_pad (k : Nat) (digits : List Char) :
    hexNumber (List.replicate k '0' ++ digits) = hexNumber digits := by
  induction k with
  | zero => rfl
  | succ k ih => exact ih

theorem uidText_injective {m n : UInt64} (same : uidText m = uidText n) : m = n := by
  have number (k : UInt64) : hexNumber (uidText k).toList = k.toNat := by
    rw [uidText, String.toList_ofList, hexNumber_pad, hexNumber_toDigits]
  apply UInt64.toNat.inj
  rw [← number m, ← number n, same]

theorem uidText_ne_empty (n : UInt64) : uidText n ≠ "" := by
  intro empty
  have digits := congrArg String.toList empty
  rw [uidText, String.toList_ofList, String.toList_empty, List.append_eq_nil_iff] at digits
  exact Nat.toDigits_ne_nil digits.2

namespace Operation

def given : Operation → String
  | .apply m => m.metadata.uid
  | .putPod p => p.metadata.uid
  | _ => ""

def created? (s : Store) (op : Operation) : Option Object :=
  (op.written? s).filter fun o => (s.mirror.at? o.place).isNone

def generated? (s : Store) (op : Operation) : Option String :=
  if op.given = "" then (op.created? s).map (·.metadata.uid) else none

def supplied? (s : Store) (op : Operation) : Option String :=
  if op.given = "" then none else (op.created? s).map (·.metadata.uid)

inductive Names (s : Store) (op : Operation) (o : Object) : Prop where
  | kept (was : Object) (present : s.mirror.at? o.place = some was)
      (uid : o.metadata.uid = was.metadata.uid) (next : (op.run s).nextUid = s.nextUid)
  | given (absent : s.mirror.at? o.place = none) (carried : op.given ≠ "")
      (uid : o.metadata.uid = op.given) (next : (op.run s).nextUid = s.nextUid)
  | made (absent : s.mirror.at? o.place = none) (bare : op.given = "")
      (uid : o.metadata.uid = uidText s.nextUid) (next : (op.run s).nextUid = s.nextUid + 1)

theorem names_apply (s : Store) (m : Monitor) :
    (Operation.apply m).Names s (.monitor (s.apply m).2) := by
  have place : s.mirror.at? (Object.monitor (s.apply m).2).place =
      (s.monitors.get? m.key).map .monitor := by
    rw [← s.apply_key m]
    rfl
  cases found : s.monitors.get? m.key with
  | some old =>
    rw [found] at place
    refine .kept (.monitor old) place ?_ ?_ <;> simp only [run, Store.apply, found] <;> rfl
  | none =>
    rw [found] at place
    by_cases bare : m.metadata.uid = ""
    · refine .made place bare ?_ ?_ <;>
        simp only [run, Store.apply, found, identify, if_pos bare] <;> rfl
    · refine .given place bare ?_ ?_ <;>
        simp only [run, Store.apply, found, identify, if_neg bare] <;> rfl

theorem at?_putPod (s : Store) (p : Pod) :
    s.mirror.at? (Object.pod (s.putPod p).2).place = (s.pods.get? p.key).map .pod := by
  have key : (s.putPod p).2.key = p.key := by
    unfold Store.putPod
    split <;> rfl
  rw [← key]
  rfl

theorem names_putPod (s : Store) (p : Pod) :
    (Operation.putPod p).Names s (.pod (s.putPod p).2) := by
  have place := at?_putPod s p
  cases found : s.pods.get? p.key with
  | some old =>
    rw [found] at place
    refine .kept (.pod old) place ?_ ?_ <;> simp only [run, Store.putPod, found] <;> rfl
  | none =>
    rw [found] at place
    by_cases bare : p.metadata.uid = ""
    · refine .made place bare ?_ ?_ <;>
        simp only [run, Store.putPod, found, identify, if_pos bare] <;> rfl
    · refine .given place bare ?_ ?_ <;>
        simp only [run, Store.putPod, found, identify, if_neg bare] <;> rfl

theorem names_setPodPhase {s : Store} (keyed : s.Keyed) {key : Key} {phase : PodPhase} {w : Pod}
    (written : (s.setPodPhase key phase).2 = some w) :
    (Operation.setPodPhase key phase).Names s (.pod w) := by
  cases found : s.pods.get? key with
  | none => simp [Store.setPodPhase, found] at written
  | some p =>
    have there : s.pods.get? p.key = some p := keyed.pods key p found ▸ found
    simp only [Store.setPodPhase, found, Option.some.injEq] at written
    subst written
    refine .kept (.pod p) (congrArg (Option.map Object.pod) there) rfl ?_
    simp only [run, Store.setPodPhase, found]
    rfl

theorem names_updateStatus {s : Store} (keyed : s.Keyed) {m w : Monitor}
    (accepted : (s.updateStatus m).2 = .ok w) :
    (Operation.updateStatus m).Names s (.monitor w) := by
  obtain ⟨up, stored, found, same, rfl⟩ := updateStatus_eq_ok.mp accepted
  have there : s.monitors.get? stored.key = some stored := keyed.monitors m.key stored found ▸ found
  refine .kept (.monitor stored) (congrArg (Option.map Object.monitor) there) rfl ?_
  simp only [run, Store.updateStatus, up, found, same]
  rfl

theorem names_createPod {s : Store} {p w : Pod} (accepted : (s.createPod p).2 = .ok w) :
    (Operation.createPod p).Names s (.pod w) := by
  unfold Store.createPod at accepted
  split at accepted
  · contradiction
  · split at accepted
    · contradiction
    · rename_i up free
      have absent : s.pods.get? p.key = none := by simpa [Table.contains] using free
      cases accepted
      refine .made (congrArg (Option.map Object.pod) absent) rfl rfl ?_
      simp only [run, Store.createPod, up, free]
      rfl

theorem names {s : Store} (keyed : s.Keyed) {op : Operation} {o : Object}
    (written : op.written? s = some o) : op.Names s o := by
  have ok {α : Type} {x : Except StoreError α} {a : α} (h : x.toOption = some a) : x = .ok a := by
    cases x <;> cases h
    rfl
  cases op with
  | apply m => exact Option.some.inj written ▸ names_apply s m
  | putPod p => exact Option.some.inj written ▸ names_putPod s p
  | setPodPhase key phase =>
    obtain ⟨w, answer, rfl⟩ := Option.map_eq_some_iff.mp written
    exact names_setPodPhase keyed answer
  | updateStatus m =>
    obtain ⟨w, answer, rfl⟩ := Option.map_eq_some_iff.mp written
    exact names_updateStatus keyed (ok answer)
  | createPod p =>
    obtain ⟨w, answer, rfl⟩ := Option.map_eq_some_iff.mp written
    exact names_createPod (ok answer)
  | _ => contradiction

theorem nextUid_of_unwritten {s : Store} {op : Operation} (nothing : op.written? s = none) :
    (op.run s).nextUid = s.nextUid := by
  cases op with
  | apply m => contradiction
  | putPod p => contradiction
  | setPodPhase key phase => rw [run, setPodPhase_eq_none (Option.map_eq_none_iff.mp nothing)]
  | deletePod key =>
    simp only [run, Store.deletePod]
    split <;> rfl
  | deleteMonitor key =>
    simp only [run, Store.deleteMonitor]
    split <;> rfl
  | updateStatus m =>
    cases answer : (s.updateStatus m).2 with
    | ok w => simp [written?, answer, Except.toOption] at nothing
    | error e =>
      have refused : (Operation.updateStatus m).refusal? s = some e := by
        rw [refusal?, answer]
        rfl
      rw [(refuses_of_refusal? refused).run]
  | createPod p =>
    cases answer : (s.createPod p).2 with
    | ok w => simp [written?, answer, Except.toOption] at nothing
    | error e =>
      have refused : (Operation.createPod p).refusal? s = some e := by
        rw [refusal?, answer]
        rfl
      rw [(refuses_of_refusal? refused).run]
  | _ => rfl

theorem generated?_spec {s : Store} (keyed : s.Keyed) (op : Operation) :
    (op.generated? s = none ∧ (op.run s).nextUid = s.nextUid) ∨
      (op.generated? s = some (uidText s.nextUid) ∧ (op.run s).nextUid = s.nextUid + 1) := by
  cases written : op.written? s with
  | none => exact .inl ⟨by simp [generated?, created?, written], nextUid_of_unwritten written⟩
  | some o =>
    cases names keyed written with
    | kept was present uid next =>
      exact .inl ⟨by simp [generated?, created?, written, Option.filter, present], next⟩
    | given absent carried uid next => exact .inl ⟨if_neg carried, next⟩
    | made absent bare uid next =>
      refine .inr ⟨?_, next⟩
      simp [generated?, created?, written, Option.filter, absent, bare, uid]

end Operation

theorem Effect.at?_before {s t : Store} (effect : Effect s t none) {p : Place} {o : Object}
    (found : t.mirror.at? p = some o) : s.mirror.at? p = some o := by
  obtain ⟨isMonitor, key⟩ := p
  cases effect with
  | still alike =>
    have mirror : t.mirror = s.mirror := by rw [Store.mirror, alike.monitors, alike.pods]; rfl
    exact mirror ▸ found
  | podGone other p present monitors pods =>
    cases isMonitor <;> simp only [mirror, Cache.at?, monitors, pods] at found ⊢
    · rw [Table.get?_erase] at found
      split at found
      · contradiction
      · exact found
    · exact found
  | monitorGone other m present monitors pods =>
    cases isMonitor <;> simp only [mirror, Cache.at?, monitors, pods] at found ⊢
    · rw [Table.get?_filter] at found
      obtain ⟨w, stays, rfl⟩ := Option.map_eq_some_iff.mp found
      rw [(Option.filter_eq_some_iff.mp stays).1]
      rfl
    · rw [Table.get?_erase] at found
      split at found
      · contradiction
      · exact found

theorem Operation.created_or_kept {s : Store} (keyed : s.Keyed) {op : Operation} {p : Place}
    {o : Object} (found : (op.run s).mirror.at? p = some o) :
    (op.created? s = some o ∧ o.place = p) ∨
      ∃ was, s.mirror.at? p = some was ∧ o.metadata.uid = was.metadata.uid := by
  cases written : op.written? s with
  | none => exact .inr ⟨o, (written ▸ op.effect keyed).at?_before found, rfl⟩
  | some w =>
    rw [((op.tells keyed).written w written).2 p] at found
    split at found
    · rename_i mine
      cases Option.some.inj found
      cases absent : s.mirror.at? o.place with
      | none => exact .inl ⟨by simp [created?, written, Option.filter, absent], mine.symm⟩
      | some was =>
        cases names keyed written with
        | kept old present uid next => exact .inr ⟨old, mine ▸ present, uid⟩
        | given free => cases absent.symm.trans free
        | made free => cases absent.symm.trans free
    · exact .inr ⟨o, found, rfl⟩

/-- A created object has the uid that was made up for it or the one that was supplied. -/
theorem Operation.uid_of_created {s : Store} (op : Operation) {c : Object}
    (created : op.created? s = some c) :
    op.generated? s = some c.metadata.uid ∨ op.supplied? s = some c.metadata.uid := by
  by_cases bare : op.given = ""
  · exact .inl (by simp [generated?, bare, created])
  · exact .inr (by simp [supplied?, bare, created])

theorem Operation.uid_ne_empty {s : Store} (keyed : s.Keyed) {op : Operation} {c : Object}
    (created : op.created? s = some c) : c.metadata.uid ≠ "" := by
  obtain ⟨written, free⟩ := Option.filter_eq_some_iff.mp created
  cases names keyed written with
  | kept was present => simp [present] at free
  | given absent carried uid => exact uid ▸ carried
  | made absent bare uid => exact uid ▸ uidText_ne_empty _

def generated (s : Store) : List Operation → List String
  | [] => []
  | op :: ops => (op.generated? s).toList ++ generated (op.run s) ops

/-- The uids that clients supply for objects that are created. -/
def supplied (s : Store) : List Operation → List String
  | [] => []
  | op :: ops => (op.supplied? s).toList ++ supplied (op.run s) ops

theorem generated_append (s : Store) (ops more : List Operation) :
    generated s (ops ++ more) = generated s ops ++ generated (s.after ops) more := by
  induction ops generalizing s with
  | nil => rfl
  | cons op ops ih => simp [generated, ih]

theorem supplied_append (s : Store) (ops more : List Operation) :
    supplied s (ops ++ more) = supplied s ops ++ supplied (s.after ops) more := by
  induction ops generalizing s with
  | nil => rfl
  | cons op ops ih => simp [supplied, ih]

def numbered (start : UInt64) (n : Nat) : List String :=
  (List.range n).map fun i => uidText (start + UInt64.ofNat i)

theorem numbered_succ (start : UInt64) (n : Nat) :
    numbered start (n + 1) = uidText start :: numbered (start + 1) n := by
  have shift (i : Nat) : start + UInt64.ofNat (i + 1) = start + 1 + UInt64.ofNat i := by
    rw [UInt64.ofNat_add, UInt64.add_assoc, UInt64.add_comm (UInt64.ofNat i)]
    rfl
  rw [numbered, List.range_succ_eq_map, List.map_cons, List.map_map, numbered]
  refine congrArg₂ List.cons (congrArg uidText (UInt64.add_zero start)) ?_
  exact List.map_congr_left fun i _ => congrArg uidText (shift i)

theorem generated_eq {s : Store} (keyed : s.Keyed) (ops : List Operation) :
    generated s ops = numbered s.nextUid (generated s ops).length := by
  induction ops generalizing s with
  | nil => rfl
  | cons op ops ih =>
    have rest := ih (keyed.step (op.effect keyed))
    obtain ⟨nothing, next⟩ | ⟨made, next⟩ := op.generated?_spec keyed
    · rw [next] at rest
      simpa [generated, nothing] using rest
    · rw [next] at rest
      simp only [generated, made, Option.toList_some, List.singleton_append, List.length_cons,
        numbered_succ]
      exact congrArg _ rest

theorem nodup_numbered {start : UInt64} {n : Nat} (few : n < UInt64.size) :
    (numbered start n).Nodup := by
  refine List.nodup_range.map_on fun i first j second same => ?_
  have counters := (UInt64.add_right_inj start).mp (uidText_injective same)
  have small (k : Nat) (member : k ∈ List.range n) : (UInt64.ofNat k).toNat = k :=
    UInt64.toNat_ofNat_of_lt' (Nat.lt_trans (List.mem_range.mp member) few)
  rw [← small i first, ← small j second, counters]

/-- Over some operations a place holds an object with a uid without a break. -/
def Bears (p : Place) (uid : String) (s : Store) : List Operation → Prop
  | [] => ∃ o, s.mirror.at? p = some o ∧ o.metadata.uid = uid
  | op :: ops => (∃ o, s.mirror.at? p = some o ∧ o.metadata.uid = uid) ∧ Bears p uid (op.run s) ops

theorem Bears.start {p : Place} {uid : String} {s : Store} {ops : List Operation}
    (h : Bears p uid s ops) : ∃ o, s.mirror.at? p = some o ∧ o.metadata.uid = uid := by
  cases ops with
  | nil => exact h
  | cons _ _ => exact h.1

theorem Bears.last {p : Place} {uid : String} {s : Store} {ops : List Operation}
    (h : Bears p uid s ops) :
    ∃ o, (s.after ops).mirror.at? p = some o ∧ o.metadata.uid = uid := by
  induction ops generalizing s with
  | nil => exact h
  | cons op ops ih => exact ih h.2

structure Begins (s : Store) (earlier : List Operation) (op : Operation) (since : List Operation)
    (p : Place) (uid : String) : Prop where
  created : ∃ c, op.created? (s.after earlier) = some c ∧ c.place = p ∧ c.metadata.uid = uid
  lasts : Bears p uid (op.run (s.after earlier)) since

theorem bears_or_begins {s : Store} (keyed : s.Keyed) {ops : List Operation} {p : Place}
    {o : Object} (found : (s.after ops).mirror.at? p = some o) :
    Bears p o.metadata.uid s ops ∨ ∃ earlier op since, ops = earlier ++ op :: since ∧
      Begins s earlier op since p o.metadata.uid := by
  induction ops generalizing s with
  | nil => exact .inl ⟨o, found, rfl⟩
  | cons op ops ih =>
    obtain bears | ⟨earlier, later, since, rfl, created, lasts⟩ :=
      ih (keyed.step (op.effect keyed)) found
    · obtain ⟨w, stands, uid⟩ := bears.start
      obtain ⟨created, place⟩ | ⟨was, stood, same⟩ := op.created_or_kept keyed stands
      · exact .inr ⟨[], op, ops, rfl, ⟨w, created, place, uid⟩, bears⟩
      · exact .inl ⟨⟨was, stood, same.symm.trans uid⟩, bears⟩
    · exact .inr ⟨op :: earlier, later, since, rfl, created, lasts⟩

theorem begins_of_at? {retention : Nat} {ops : List Operation} {p : Place} {o : Object}
    (found : ((empty retention).after ops).mirror.at? p = some o) :
    ∃ earlier op since, ops = earlier ++ op :: since ∧
      Begins (empty retention) earlier op since p o.metadata.uid := by
  refine (bears_or_begins (.empty retention) found).resolve_left fun bears => ?_
  obtain ⟨w, stands, _⟩ := bears.start
  obtain ⟨isMonitor, key⟩ := p
  cases isMonitor <;> contradiction

theorem generated_twice {s : Store} {earlier more later : List Operation} {op op' : Operation}
    {uid : String} (distinct : (generated s (earlier ++ op :: (more ++ op' :: later))).Nodup)
    (made : op.generated? (s.after earlier) = some uid) :
    op'.generated? (s.after (earlier ++ op :: more)) ≠ some uid := by
  intro made'
  rw [after_append, after_cons] at made'
  rw [generated_append, generated, made, generated_append, generated, made'] at distinct
  simp [List.nodup_append] at distinct

theorem generated_once {s : Store} {earlier later earlier' later' : List Operation}
    {op op' : Operation} {uid : String} (split : earlier ++ op :: later = earlier' ++ op' :: later')
    (distinct : (generated s (earlier ++ op :: later)).Nodup)
    (made : op.generated? (s.after earlier) = some uid)
    (made' : op'.generated? (s.after earlier') = some uid) :
    earlier = earlier' ∧ op = op' ∧ later = later' := by
  obtain ⟨more, rfl, rest⟩ | ⟨more, rfl, rest⟩ := List.append_eq_append_iff.mp split
  · cases more with
    | nil =>
      cases rest
      exact ⟨(List.append_nil _).symm, rfl, rfl⟩
    | cons first more =>
      cases rest
      exact (generated_twice distinct made made').elim
  · cases more with
    | nil =>
      cases rest
      exact ⟨List.append_nil _, rfl, rfl⟩
    | cons first more =>
      cases rest
      rw [split] at distinct
      exact (generated_twice distinct made' made).elim

theorem mem_supplied {s : Store} {earlier since : List Operation} {op : Operation} {uid : String}
    (supplied : op.supplied? (s.after earlier) = some uid) :
    uid ∈ Store.supplied s (earlier ++ op :: since) := by
  rw [supplied_append, Store.supplied, supplied]
  simp

/-- Whatever stands anywhere at any time with a uid that was made up was created with it and stood
there since, unless a client has supplied the uid before. -/
theorem made_or_supplied {retention : Nat} {earlier later before rest : List Operation}
    {op : Operation} {uid : String} {p : Place} {o : Object}
    (distinct : (generated (empty retention) (earlier ++ op :: later)).Nodup)
    (made : op.generated? ((empty retention).after earlier) = some uid)
    (split : earlier ++ op :: later = before ++ rest)
    (found : ((empty retention).after before).mirror.at? p = some o)
    (same : o.metadata.uid = uid) :
    uid ∈ supplied (empty retention) before ∨ ∃ since, before = earlier ++ op :: since ∧
      Begins (empty retention) earlier op since p uid := by
  subst same
  obtain ⟨earlier', op', since, rfl, begins⟩ := begins_of_at? found
  obtain ⟨c, created, place, uid⟩ := begins.created
  obtain made' | supplied := op'.uid_of_created created
  · rw [List.append_assoc, List.cons_append] at split
    obtain ⟨rfl, rfl, _⟩ := generated_once split distinct made (uid ▸ made')
    exact .inr ⟨since, rfl, begins⟩
  · exact .inl (mem_supplied (uid ▸ supplied))

theorem controls_eq_false {m : Monitor} {pod : Metadata} {owner : Owner}
    (named : pod.controller? = some owner) (given : owner.uid ≠ "")
    (differ : owner.uid ≠ m.metadata.uid) : m.controls pod = false := by
  simp [Monitor.controls, named, given, differ]

/-- As long as a store makes up fewer than `UInt64.size` uids, they count up from one, and all are
different. Whatever stands anywhere at any point of the run with one of them was created with it and
stood there since, unless a client has supplied the uid. So a monitor that is created anew without a
uid does not control, as long as it is there, a pod whose manager has the uid of an earlier monitor
of the key, unless a client has supplied that uid. -/
theorem generated_uids_identify (retention : Nat) (ops : List Operation)
    (few : (generated (empty retention) ops).length < UInt64.size) :
    generated (empty retention) ops = numbered 1 (generated (empty retention) ops).length ∧
    (generated (empty retention) ops).Nodup ∧
    (∀ earlier op later uid, ops = earlier ++ op :: later →
      op.generated? ((empty retention).after earlier) = some uid →
      ∀ before rest p o, ops = before ++ rest →
        ((empty retention).after before).mirror.at? p = some o → o.metadata.uid = uid →
        uid ∈ supplied (empty retention) before ∨ ∃ since, before = earlier ++ op :: since ∧
          Begins (empty retention) earlier op since p uid) ∧
    ∀ earlier m since later uid w, ops = earlier ++ .apply m :: (since ++ later) →
      m.metadata.uid = "" → Begins (empty retention) earlier (.apply m) since ⟨true, m.key⟩ uid →
      ((empty retention).after (earlier ++ .apply m :: since)).monitors.get? m.key = some w →
      ∀ before rest old, earlier = before ++ rest →
        ((empty retention).after before).monitors.get? m.key = some old →
        old.metadata.uid ∉ supplied (empty retention) before →
        ∀ pod owner, pod.controller? = some owner → owner.uid = old.metadata.uid →
          w.controls pod = false := by
  have counted := generated_eq (.empty retention) ops
  have distinct : (generated (empty retention) ops).Nodup := counted ▸ nodup_numbered few
  refine ⟨counted, distinct, ?_, ?_⟩
  · rintro earlier op later uid rfl made before rest p o split found same
    exact made_or_supplied distinct made split found same
  · rintro earlier m since later uid w rfl bare begins found before rest old rfl there apart pod
      owner named same
    obtain ⟨c, created, place, own⟩ := begins.created
    have made : (Operation.apply m).generated? ((empty retention).after (before ++ rest)) =
        some uid := by
      rw [← own, Operation.generated?, created]
      exact if_pos bare
    have kept : w.metadata.uid = uid := by
      obtain ⟨o, stands, same⟩ := begins.lasts.last
      rw [after_append, after_cons] at found
      have monitor := (congrArg (Option.map Object.monitor) found).symm.trans stands
      exact congrArg (·.metadata.uid) (Option.some.inj monitor) |>.trans same
    have stood : ((empty retention).after before).mirror.at? ⟨true, m.key⟩ =
        some (.monitor old) := congrArg (Option.map Object.monitor) there
    have given : old.metadata.uid ≠ "" := by
      obtain ⟨_, op, _, _, first⟩ := begins_of_at? stood
      obtain ⟨_, created, _, same⟩ := first.created
      exact same ▸ op.uid_ne_empty ((Keyed.empty retention).after _) created
    refine controls_eq_false named (same ▸ given) fun equal => ?_
    have again : old.metadata.uid = uid := same.symm.trans (equal.trans kept)
    have split : before ++ rest ++ Operation.apply m :: (since ++ later) =
        before ++ (rest ++ Operation.apply m :: (since ++ later)) := List.append_assoc ..
    obtain supplied | ⟨_, longer, _⟩ := made_or_supplied distinct made split stood again
    · exact apart (again ▸ supplied)
    · have length := congrArg List.length longer
      simp at length

theorem generated_uids_identify_anew :
    let job : Monitor := { metadata := { ns := "a", name := "x" } }
    let manager : Owner := { job.ownerRef with uid := "00000001" }
    let left : Pod := { metadata := { ns := "a", name := "pm-x", uid := "p", owners := [manager] } }
    let anew : Monitor :=
      { job with metadata := { job.metadata with uid := "00000002", version := 3 } }
    let earlier : List Operation := [.apply job, .deleteMonitor job.key, .putPod left]
    let ops := earlier ++ [.apply job]
    (generated (empty 10) ops).length < UInt64.size ∧
      generated (empty 10) ops = ["00000001", "00000002"] ∧
      ((empty 10).after ops).monitors.get? job.key = some anew ∧
      anew.controls left.metadata = false := by
  intro job manager left anew earlier ops
  have few : (generated (empty 10) ops).length < UInt64.size := by decide
  have found : ((empty 10).after ops).monitors.get? job.key = some anew := by decide
  have old : ((empty 10).after [.apply job]).monitors.get? job.key =
      some { job with metadata := { job.metadata with uid := "00000001", version := 1 } } := by
    decide
  have created : (Operation.apply job).created? ((empty 10).after earlier) =
      some (.monitor anew) := by
    decide
  have stands : ((Operation.apply job).run ((empty 10).after earlier)).mirror.at? ⟨true, job.key⟩ =
      some (.monitor anew) := by
    decide
  have begins : Begins (empty 10) earlier (.apply job) [] ⟨true, job.key⟩ "00000002" :=
    ⟨⟨_, created, rfl, rfl⟩, _, stands, rfl⟩
  obtain ⟨_, _, _, apart⟩ := generated_uids_identify 10 ops few
  refine ⟨few, by decide, found, ?_⟩
  exact apart earlier job [] [] "00000002" anew rfl rfl begins found [.apply job]
    [.deleteMonitor job.key, .putPod left] _ rfl old (by decide) left.metadata manager rfl rfl

def churn (p : Pod) : Nat → List Operation
  | 0 => []
  | n + 1 => .putPod p :: .deletePod p.key :: churn p n

theorem generated_churn {s : Store} {p : Pod} (bare : p.metadata.uid = "")
    (absent : s.pods.get? p.key = none) (n : Nat) :
    (generated s (churn p n)).length = n ∧ supplied s (churn p n) = [] := by
  induction n generalizing s with
  | zero => exact ⟨rfl, rfl⟩
  | succ n ih =>
    have gone : ((s.putPod p).1.deletePod p.key).1.pods.get? p.key = none := by
      unfold deletePod
      split
      · assumption
      · rw [Table.get?_erase, if_pos rfl]
    obtain ⟨length, nothing⟩ := ih gone
    have place : s.mirror.at? (Object.pod (s.putPod p).2).place = none := by
      rw [Operation.at?_putPod, absent]
      rfl
    have created : (Operation.putPod p).created? s = some (.pod (s.putPod p).2) := by
      simp [Operation.created?, Operation.written?, Option.filter, place]
    have made : (Operation.putPod p).generated? s = some (s.putPod p).2.metadata.uid := by
      rw [Operation.generated?, created]
      exact if_pos bare
    have given : (Operation.putPod p).supplied? s = none := if_pos bare
    constructor
    · rw [churn, generated, made, generated]
      exact congrArg (· + 1) length
    · rw [churn, supplied, given, supplied]
      exact nothing

/-- A uid that a client has supplied is made up nevertheless: a monitor that is created anew
controls a pod whose manager was the monitor before. And the counter starts over after
`UInt64.size` uids. -/
theorem uid_comes_twice :
    (let first : Monitor := { metadata := { ns := "a", name := "x", uid := "00000001" } }
    let manager : Owner := first.ownerRef
    let left : Pod := { metadata := { ns := "a", name := "pm-x", uid := "p", owners := [manager] } }
    let anew : Monitor := { metadata := { ns := "a", name := "x" } }
    let s := (empty 10).after [.apply first, .deleteMonitor first.key, .putPod left]
    (((empty 10).after [.apply first]).monitors.get? anew.key).map (·.metadata.uid) =
        some "00000001" ∧
      s.monitors.get? anew.key = none ∧ (Operation.apply anew).generated? s = some "00000001" ∧
      (s.apply anew).2.controls left.metadata = true) ∧
    ∃ ops, supplied (empty 10) ops = [] ∧ ¬ (generated (empty 10) ops).Nodup := by
  refine ⟨by decide, ?_⟩
  let p : Pod := { metadata := { ns := "a", name := "x" } }
  obtain ⟨length, nothing⟩ :=
    generated_churn (s := empty 10) (p := p) rfl rfl (UInt64.size + 1)
  refine ⟨churn p (UInt64.size + 1), nothing, fun distinct => ?_⟩
  rw [generated_eq (.empty 10), length, numbered] at distinct
  have again : UInt64.ofNat 0 = UInt64.ofNat UInt64.size := rfl
  have equal := List.inj_on_of_nodup_map distinct (List.mem_range.mpr (Nat.succ_pos _))
    (List.mem_range.mpr (Nat.lt_succ_self _)) (congrArg (fun n => uidText (1 + n)) again)
  exact absurd equal (by decide)

end MonitorOperator.Store
