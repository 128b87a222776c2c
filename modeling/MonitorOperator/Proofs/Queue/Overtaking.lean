import MonitorOperator.Proofs.Queue.Coalescing

/-! The order of the line. Keys join it at its end, from wherever they come, and leave it at its
front. Main statement: a key in line is delivered after those that stood ahead of it and before all
others, and keys are delivered in the order in which they became eligible. -/

namespace MonitorOperator

/-- A key could be handed out: it needs work and nobody holds it. -/
def WorkQueue.isEligible (q : WorkQueue) (key : String) : Bool :=
  q.dirty.contains key && !q.processing.contains key

theorem WorkQueue.InLine.mem_ready_iff {q : WorkQueue} (h : q.InLine) (key : String) :
    key ∈ q.ready ↔ q.isEligible key = true := by
  rw [h.standing, isEligible, Bool.and_eq_true, Bool.not_eq_true']

namespace Traffic

def Call.isTake : Call → Bool
  | .take _ => true
  | _ => false

theorem deliveries_append (later earlier : List Entry) :
    deliveries (later ++ earlier) = deliveries earlier ++ deliveries later := by
  induction later with
  | nil => exact (List.append_nil _).symm
  | cons entry later ih =>
    cases entry with
    | added key => exact ih
    | delivered key => rw [List.cons_append, deliveries, deliveries, ih, List.append_assoc]

theorem deliveries_take {s t : Traffic} {worker : Nat} (step : s.step? (.take worker) = some t) :
    ∃ key, deliveries t.history = deliveries s.history ++ [key] := by
  simp only [step?] at step
  split at step
  · contradiction
  · rename_i key queue taken
    cases Option.some.inj step
    exact ⟨key, rfl⟩

theorem length_deliveries_step {s t : Traffic} {c : Call} (step : s.step? c = some t) :
    (deliveries t.history).length = (deliveries s.history).length + if c.isTake then 1 else 0 := by
  cases taken : c.isTake with
  | true =>
    cases c with
    | take worker =>
      obtain ⟨key, delivered⟩ := deliveries_take step
      rw [delivered, List.length_append]
      rfl
    | _ => contradiction
  | false =>
    have other : ∀ worker, c ≠ .take worker := by
      rintro worker rfl
      contradiction
    rw [deliveries_call other step]
    rfl

theorem length_deliveries {s t : Traffic} {calls : List Call} (run : after? step? s calls = some t) :
    (deliveries t.history).length = (deliveries s.history).length + calls.countP Call.isTake := by
  induction calls generalizing s with
  | nil =>
    cases Option.some.inj run
    rfl
  | cons c calls ih =>
    rw [after?_cons, Option.bind_eq_some_iff] at run
    obtain ⟨u, first, rest⟩ := run
    rw [ih rest, length_deliveries_step first, List.countP_cons]
    omega

def risen (s t : Traffic) : List String :=
  t.queue.dirty.keys.filter fun key => t.queue.isEligible key && !s.queue.isEligible key

def arrivals (s : Traffic) : List Call → List String
  | [] => []
  | c :: calls =>
    match s.step? c with
    | none => []
    | some t => s.risen t ++ t.arrivals calls

theorem mem_risen {s t : Traffic} {key : String} :
    key ∈ s.risen t ↔ t.queue.isEligible key = true ∧ s.queue.isEligible key = false := by
  simp only [risen, List.mem_filter, Table.mem_keys_iff, Bool.and_eq_true, Bool.not_eq_true']
  constructor
  · exact And.right
  · intro rises
    have needed := rises.1
    rw [WorkQueue.isEligible, Bool.and_eq_true] at needed
    exact ⟨needed.1, rises⟩

section Line

variable {s t : Traffic} (before : s.queue.InLine) (after : t.queue.InLine)
include before after

theorem risen_of_subset (left : t.queue.ready ⊆ s.queue.ready) : s.risen t = [] := by
  refine List.eq_nil_iff_forall_not_mem.mpr fun key member => ?_
  obtain ⟨now, earlier⟩ := mem_risen.mp member
  have stood := (before.mem_ready_iff key).mp (left ((after.mem_ready_iff key).mpr now))
  rw [earlier] at stood
  contradiction

theorem risen_of_joined {key : String} (joined : t.queue.ready = s.queue.ready ++ [key]) :
    s.risen t = [key] := by
  have fresh : key ∉ s.queue.ready := by
    have once := joined ▸ after.once
    intro member
    exact (List.nodup_append.mp once).2.2 key member key (List.mem_singleton_self key) rfl
  have only : ∀ other, other ∈ s.risen t ↔ other ∈ [key] := by
    intro other
    rw [mem_risen, ← after.mem_ready_iff, ← Bool.not_eq_true, ← before.mem_ready_iff, joined,
      List.mem_append, List.mem_singleton]
    constructor
    · rintro ⟨stood | same, absent⟩
      · contradiction
      · exact same
    · rintro rfl
      exact ⟨.inr rfl, fresh⟩
  have once : (s.risen t).Nodup := t.queue.dirty.nodup_keys.filter _
  exact List.perm_singleton.mp ((List.perm_ext_iff_of_nodup once (List.nodup_singleton key)).mpr only)

theorem line_of_joined (key : String)
    (line : t.queue.ready = s.queue.ready ∨ t.queue.ready = s.queue.ready ++ [key]) :
    t.queue.ready = s.queue.ready ++ s.risen t := by
  rcases line with same | joined
  · rw [risen_of_subset before after (same ▸ List.Subset.refl _), List.append_nil]
    exact same
  · rw [risen_of_joined before after joined]
    exact joined

end Line

theorem served_step {s t : Traffic} {c : Call} (h : s.Exclusive) (step : s.orderly? c = some t)
    (taking : t.queue.shuttingDown = false) :
    deliveries t.history ++ t.queue.ready =
      deliveries s.history ++ s.queue.ready ++ s.risen t := by
  have made := (orderly?_eq_some.mp step).2
  have after := (h.step (taking_of_step made taking) step).line
  cases step_effect made with
  | add key queue _ history =>
    have line := line_of_joined h.line after key (queue ▸ s.queue.ready_add key)
    rw [history, line, deliveries, List.append_assoc]
  | take worker key queue _ history =>
    obtain ⟨_, rest, front, eq⟩ := WorkQueue.take?_eq_some.mp queue
    have line : s.queue.ready = key :: t.queue.ready := by rw [front, eq]
    have none := risen_of_subset h.line after (line ▸ List.subset_cons_self _ _)
    rw [none, history, line, deliveries, List.append_nil, List.append_assoc]
    rfl
  | done worker key _ queue _ history =>
    have line := line_of_joined h.line after key (queue ▸ s.queue.ready_done key)
    rw [history, line, List.append_assoc]
  | aside ready _ _ _ _ history =>
    have line := line_of_joined h.line after "" (.inl ready)
    rw [history, line, List.append_assoc]

theorem taking_of_run {s t : Traffic} {calls : List Call} (run : after? step? s calls = some t)
    (taking : t.queue.shuttingDown = false) : s.queue.shuttingDown = false := by
  induction calls generalizing s with
  | nil => exact Option.some.inj run ▸ taking
  | cons c calls ih =>
    rw [after?_cons, Option.bind_eq_some_iff] at run
    obtain ⟨u, first, rest⟩ := run
    exact taking_of_step first (ih rest)

theorem served_run {s t : Traffic} {calls : List Call} (h : s.Exclusive)
    (run : after? orderly? s calls = some t) (taking : t.queue.shuttingDown = false) :
    deliveries t.history ++ t.queue.ready =
      deliveries s.history ++ s.queue.ready ++ s.arrivals calls := by
  induction calls generalizing s with
  | nil =>
    cases Option.some.inj run
    exact (List.append_nil _).symm
  | cons c calls ih =>
    rw [after?_cons, Option.bind_eq_some_iff] at run
    obtain ⟨u, first, rest⟩ := run
    have made := (orderly?_eq_some.mp first).2
    have still := taking_of_run (free_of_orderly rest) taking
    have kept := h.step (taking_of_step made still) first
    have joined : s.arrivals (c :: calls) = s.risen u ++ u.arrivals calls := by
      simp only [arrivals, made]
    rw [ih kept rest, served_step h first still, joined, List.append_assoc]

theorem place_of_served {ahead joined gone left : List String} {key : String} {i : Nat}
    (served : ahead ++ joined = gone ++ left) (stands : ahead[i]? = some key) :
    (i < gone.length → gone.take (i + 1) = ahead.take i ++ [key]) ∧
      (gone.length ≤ i → left[i - gone.length]? = some key) := by
  obtain ⟨inside, _⟩ := List.getElem?_eq_some_iff.mp stands
  constructor
  · intro passed
    have front := congrArg (List.take (i + 1)) served
    rw [List.take_append_of_le_length inside, List.take_append_of_le_length passed, List.take_add_one,
      stands] at front
    exact front.symm
  · intro waits
    have place := congrArg (·[i]?) served
    rw [List.getElem?_append_left inside, List.getElem?_append_right waits, stands] at place
    exact place.symm

/-- Until the shutdown, whatever is called: after as many deliveries as there were keys ahead of it,
a key in line is the next to be delivered. The first deliveries are those of the keys that stood
ahead of it, in their order; until they are made it stands in line, one place further ahead for each
of them, and who asks for a key gets one. Where keys are released once and by their holders, those
ahead are other keys, each of them once, and keys are delivered in the order in which they became
eligible. -/
theorem line_is_not_overtaken (name : String) (bounds : Backoff.Bounds) (calls later : List Call)
    (s t : Traffic) (since : List Entry) (run : after? step? (new name bounds) calls = some s)
    (more : after? step? s later = some t) (split : t.history = since ++ s.history)
    (taking : t.queue.shuttingDown = false) (key : String) (i : Nat)
    (stands : s.queue.ready[i]? = some key) :
    (deliveries since).length = later.countP Call.isTake ∧
    (i < later.countP Call.isTake →
      (deliveries since).take (i + 1) = s.queue.ready.take i ++ [key]) ∧
    (later.countP Call.isTake ≤ i →
      t.queue.ready[i - later.countP Call.isTake]? = some key ∧
        ∀ worker, ∃ u, t.step? (.take worker) = some u) ∧
    (after? orderly? (new name bounds) (calls ++ later) = some t →
      (s.queue.ready.take i).length = i ∧ (s.queue.ready.take i).Nodup ∧
      key ∉ s.queue.ready.take i ∧
      (new name bounds).arrivals (calls ++ later) = deliveries t.history ++ t.queue.ready) := by
  have counted : (deliveries since).length = later.countP Call.isTake := by
    have total := length_deliveries more
    rw [split, deliveries_append, List.length_append] at total
    omega
  obtain ⟨since', joined, split', served⟩ := line_served more
  obtain rfl : since' = since := List.append_cancel_right (split'.symm.trans split)
  obtain ⟨met, moved⟩ := place_of_served served stands
  rw [counted] at met moved
  refine ⟨counted, met, ?_, ?_⟩
  · intro waits
    refine ⟨moved waits, fun worker => ?_⟩
    cases taken : t.queue.take? with
    | some answer => exact ⟨_, by simp only [step?, taken]; rfl⟩
    | none =>
      rcases WorkQueue.take?_eq_none.mp taken with down | empty
      · rw [taking] at down
        contradiction
      · have place := moved waits
        rw [empty] at place
        contradiction
  · intro orderly
    have start := Exclusive.new name bounds
    have order := served_run start orderly taking
    rw [after?_append, Option.bind_eq_some_iff] at orderly
    obtain ⟨s', first, rest⟩ := orderly
    obtain rfl : s' = s := Option.some.inj ((free_of_orderly first).symm.trans run)
    have once := (exclusive_of_run start first (taking_of_run more taking)).line.once
    obtain ⟨inside, found⟩ := List.getElem?_eq_some_iff.mp stands
    have ahead : (s'.queue.ready.take (i + 1)).Nodup := once.sublist (List.take_sublist _ _)
    rw [List.take_add_one, stands] at ahead
    refine ⟨List.length_take_of_le (Nat.le_of_lt inside), ?_, ?_, order.symm⟩
    · exact (List.nodup_append.mp ahead).1
    · intro member
      exact (List.nodup_append.mp ahead).2.2 key member key (List.mem_singleton_self key) rfl

theorem line_is_not_overtaken_by_readded :
    ∃ s t, after? step? (new "keys" {})
        [.add "a/x", .take 0, .add "a/x", .add "a/y", .addAfter "a/z" .zero, .done 0 "a/x"] = some s ∧
      after? step? s [.take 1, .add "a/y", .take 2, .done 1 "a/y", .add "a/y", .take 3] = some t ∧
      t.history = [.delivered "a/x", .added "a/y", .delivered "a/z", .added "a/y",
        .delivered "a/y"] ++ s.history ∧
      t.queue.shuttingDown = false ∧ s.queue.ready[2]? = some "a/x" ∧
      (deliveries [.delivered "a/x", .added "a/y", .delivered "a/z", .added "a/y",
        .delivered "a/y"]).take 3 = s.queue.ready.take 2 ++ ["a/x"] ∧
      s.queue.ready.take 2 = ["a/y", "a/z"] ∧ t.queue.ready = ["a/y"] ∧
      (new "keys" {}).arrivals
        [.add "a/x", .take 0, .add "a/x", .add "a/y", .addAfter "a/z" .zero, .done 0 "a/x", .take 1,
          .add "a/y", .take 2, .done 1 "a/y", .add "a/y", .take 3] =
        deliveries t.history ++ t.queue.ready := by
  have h := line_is_not_overtaken "keys" {}
    [.add "a/x", .take 0, .add "a/x", .add "a/y", .addAfter "a/z" .zero, .done 0 "a/x"]
    [.take 1, .add "a/y", .take 2, .done 1 "a/y", .add "a/y", .take 3] _ _
    [.delivered "a/x", .added "a/y", .delivered "a/z", .added "a/y", .delivered "a/y"]
    rfl rfl rfl (by decide) "a/x" 2 (by decide)
  exact ⟨_, _, rfl, rfl, rfl, by decide, by decide, h.2.1 (by decide), by decide, by decide,
    (h.2.2.2 rfl).2.2.2⟩

end Traffic

end MonitorOperator
