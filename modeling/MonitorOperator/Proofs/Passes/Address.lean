import Mathlib.Data.List.TakeWhile
import MonitorOperator.Proofs.Cluster.Key
import MonitorOperator.Proofs.Intake.Wakes
import MonitorOperator.Proofs.Passes.Footprint

/-! The text of a key as the address of a monitor. A key goes into the queue as its text, and a pass
reads the key back. Main statement: reading accepts exactly the texts of well-formed keys, no two
keys share such a text, and a pass over what was added for a monitor is about this monitor or about
none. -/

namespace MonitorOperator

namespace Key

theorem parse_of_solid {text : String} (solid : '/' ∉ text.toList) :
    parse text = .error .noSlash := by
  have all : ∀ c ∈ text.toList, decide (c ≠ '/') = true := fun c member =>
    decide_eq_true fun slash => solid (slash ▸ member)
  have drop : text.toList.dropWhile (· ≠ '/') = [] := List.dropWhile_eq_nil_iff.mpr all
  simp only [parse, drop]

theorem parse_of_split {text : String} {before behind : List Char}
    (split : text.toList = before ++ '/' :: behind) (first : '/' ∉ before) :
    parse text =
      if '/' ∈ behind then .error .extraSlash
      else if before = [] ∨ behind = [] then .error .emptyPart
      else .ok ⟨String.ofList before, String.ofList behind⟩ := by
  have solid : ∀ c ∈ before, decide (c ≠ '/') = true := fun c member =>
    decide_eq_true fun slash => first (slash ▸ member)
  have drop : text.toList.dropWhile (· ≠ '/') = '/' :: behind := by
    rw [split, List.dropWhile_append_of_pos solid]
    rfl
  have take : text.toList.takeWhile (· ≠ '/') = before := by
    rw [split, List.takeWhile_append_of_pos solid]
    simp
  simp only [parse, drop, take]

theorem parse_eq_ok_of_split {text : String} {before behind : List Char} {k : Key}
    (split : text.toList = before ++ '/' :: behind) (first : '/' ∉ before) :
    parse text = .ok k ↔
      '/' ∉ behind ∧ before ≠ [] ∧ behind ≠ [] ∧
        k = ⟨String.ofList before, String.ofList behind⟩ := by
  rw [parse_of_split split first]
  grind

theorem exists_parse_iff (text : String) : (∃ k, parse text = .ok k) ↔
    text.toList.count '/' = 1 ∧ text.toList.head? ≠ some '/' ∧ text.toList.getLast? ≠ some '/' := by
  by_cases slash : '/' ∈ text.toList
  · obtain ⟨before, behind, split, first⟩ := List.eq_append_cons_of_mem slash
    simp only [parse_eq_ok_of_split split first, exists_and_left, exists_eq, and_true]
    have count : text.toList.count '/' = 1 ↔ '/' ∉ behind := by
      rw [split, List.count_append, List.count_cons_self, List.count_eq_zero.mpr first,
        ← List.count_eq_zero]
      omega
    rw [count]
    refine and_congr_right fun last => and_congr ?_ ?_
    · rw [split]
      cases before with
      | nil => simp
      | cons c before =>
        have apart : c ≠ '/' := fun same => first (same ▸ List.mem_cons_self ..)
        simp [apart]
    · rw [split, List.getLast?_append_cons, List.getLast?_cons]
      cases found : behind.getLast? with
      | none => simp [List.getLast?_eq_none_iff.mp found]
      | some c =>
        have apart : c ≠ '/' := fun same => last (same ▸ List.mem_of_getLast? found)
        have filled : behind ≠ [] := fun empty => by simp [empty] at found
        simp [apart, filled]
  · have none : text.toList.count '/' = 0 := List.count_eq_zero.mpr slash
    rw [parse_of_solid slash, none]
    simp

/-- What the text of a key is read as is this key and no other, whatever its halves are. -/
theorem parse_text_eq_ok_iff {k l : Key} : parse k.text = .ok l ↔ k.WellFormed ∧ l = k := by
  constructor
  · intro read
    obtain ⟨one, -, -⟩ := (exists_parse_iff k.text).mp ⟨l, read⟩
    rw [toList_text, List.count_append, List.count_cons_self] at one
    have solid : '/' ∉ k.ns.toList := List.count_eq_zero.mp (by omega)
    obtain ⟨last, ns, name, rfl⟩ := (parse_eq_ok_of_split k.toList_text solid).mp read
    refine ⟨⟨?_, ?_, solid, last⟩, ?_⟩
    · simpa using ns
    · simpa using name
    · simp
  · rintro ⟨formed, rfl⟩
    exact parse_text formed

end Key

namespace Pass

/-- A pass is about the monitor of a key: it reads this monitor first, and its other calls are about
the monitor that it was given, and that monitor's pods. If the key is not well-formed, the pass is
refused and makes no call. -/
def About (key : Key) (log : Log) (result : Except Error Action) : Prop :=
  if key.WellFormed then
    ∃ reply rest, log = ⟨.getMonitor key, reply⟩ :: rest ∧
      ∀ x ∈ rest, ∃ m, reply = .ok m ∧ x.1.Within m.key
  else log = [] ∧ ∃ fault : Key.Fault, result = .error (.malformedKey key.text fault.message)

theorem about_of_synced {d : Delays} {t : Child.Template} {key : Key} {log : Log}
    {result : Except Error Action} (synced : Synced d t key.text log result) :
    About key log result := by
  unfold About
  split
  · rename_i formed
    exact synced.opens (Key.parse_text formed)
  · rename_i bad
    have refused {l : Key} : Key.parse key.text ≠ .ok l := fun read =>
      bad (Key.parse_text_eq_ok_iff.mp read).1
    cases synced with
    | malformed fault parsed => exact ⟨rfl, fault, rfl⟩
    | gone l parsed => exact (refused parsed).elim
    | unread l parsed => exact (refused parsed).elim
    | moved l parsed => exact (refused parsed).elim
    | taken l parsed => exact (refused parsed).elim
    | failed l parsed => exact (refused parsed).elim

end Pass

theorem WorkQueue.woken_of_dirty (q : WorkQueue) (wakes : List Wake) {text : String}
    (dirty : (wakes.foldl Wake.run q).dirty.contains text = true) :
    q.dirty.contains text = true ∨ ∃ key, .monitor key ∈ wakes ∧ key.text = text := by
  induction wakes generalizing q with
  | nil => exact .inl dirty
  | cons wake wakes ih =>
    rcases ih (wake.run q) dirty with before | ⟨key, member, same⟩
    · cases wake with
      | monitor key =>
        cases down : q.shuttingDown with
        | false =>
          have added : (q.add key.text).dirty.contains text = true := before
          rw [dirty_add down, Bool.or_eq_true, decide_eq_true_eq] at added
          rcases added with rfl | before
          · exact .inr ⟨key, List.mem_cons_self .., rfl⟩
          · exact .inl before
        | true =>
          have refused : q.add key.text = q := by simp [add, down]
          exact .inl (refused ▸ before)
      | forget key => exact .inl before
      | orphan pod owner => exact .inl before
      | nobody => exact .inl before
    · exact .inr ⟨key, List.mem_cons_of_mem _ member, same⟩

namespace Passes

theorem Over.within {pass : Nat} {key : Key} {w : Passes} (h : Over pass key.text w) {f : Flight}
    (flies : w.flights pass = some f) {c : Pass.Call}
    {next : Pass.Reply c → Pass.Steps (Except Error Pass.Action)} (busy : f.rest = .call c next) :
    key.WellFormed ∧ c.Within key := by
  obtain ⟨⟨d, t, leaves⟩, named⟩ := h.flight f flies
  rw [busy] at leaves
  obtain ⟨l, parsed⟩ := Pass.parsed_of_leaves leaves
  obtain ⟨formed, rfl⟩ := Key.parse_text_eq_ok_iff.mp parsed
  refine ⟨formed, Pass.within_of_opening leaves parsed fun m rest opens => ?_⟩
  exact named l m (by rw [opens]; exact List.mem_cons_self ..)

/-- A text is read as a key exactly if it has one slash with something on either side of it, and it
is the text of what it is read as. The text of a key is read as this key if the key is well-formed,
and else it is refused; so is a text that two monitors share. What changes add to a queue is the
text of a key that they wake, and whatever a pass over it is told, it is about the monitor of this
key; over one store, whatever else goes on there, it makes no call about another one. -/
theorem queued_texts_are_addresses :
    (∀ text, (∃ k, Key.parse text = .ok k) ↔
      text.toList.count '/' = 1 ∧ text.toList.head? ≠ some '/' ∧
        text.toList.getLast? ≠ some '/') ∧
    (∀ text k, Key.parse text = .ok k → k.text = text) ∧
    (∀ k : Key, k.WellFormed → Key.parse k.text = .ok k) ∧
    (∀ k : Key, ¬ k.WellFormed → ∃ fault, Key.parse k.text = .error fault) ∧
    (∀ m n : Monitor, m.key ≠ n.key → m.key.text = n.key.text →
      ∀ {σ : Type} (answer : (c : Pass.Call) → σ → σ × Pass.Reply c) (s : σ) (d : Pass.Delays)
        (t : Child.Template),
        (Pass.sync d t m.key.text).transcript answer s = [] ∧
          ∃ fault : Key.Fault, ((Pass.sync d t m.key.text).run answer s).2 =
            .error (.malformedKey m.key.text fault.message)) ∧
    (∀ (i : Intake) (changes : List Change) (text : String),
      (changes.foldl Intake.handle i).queue.dirty.contains text = true →
      i.queue.dirty.contains text = false →
      ∃ key, .monitor key ∈ i.cache.wakes changes ∧ text = key.text ∧
        ∀ {σ : Type} (answer : (c : Pass.Call) → σ → σ × Pass.Reply c) (s : σ) (d : Pass.Delays)
          (t : Child.Template),
          Pass.About key ((Pass.sync d t text).transcript answer s)
            ((Pass.sync d t text).run answer s).2) ∧
    ∀ {σ τ : Type} (retention : Nat) (stamp : Recorder.Stamp) (parts : Operator.Parts σ τ)
      (before between : List Move) (pass : Nat) (key : Key) (w : Passes),
      (∀ text', .start pass text' ∉ between) →
      after? step? (start (Store.empty retention) stamp parts)
        (before ++ .start pass key.text :: between) = some w →
      ∀ f c next, w.flights pass = some f → f.rest = .call c next →
        key.WellFormed ∧ c.Within key := by
  have about {σ : Type} (answer : (c : Pass.Call) → σ → σ × Pass.Reply c) (s : σ) (d : Pass.Delays)
      (t : Child.Template) (key : Key) :
      Pass.About key ((Pass.sync d t key.text).transcript answer s)
        ((Pass.sync d t key.text).run answer s).2 :=
    Pass.about_of_synced (Pass.synced_of_tells (Program.tells_transcript answer _ s))
  refine ⟨Key.exists_parse_iff, fun _ _ => Key.text_of_parse, fun _ => Key.parse_text,
    ?_, ?_, ?_, ?_⟩
  · intro k bad
    cases parsed : Key.parse k.text with
    | ok l => exact (bad (Key.parse_text_eq_ok_iff.mp parsed).1).elim
    | error fault => exact ⟨fault, rfl⟩
  · intro m n apart same σ answer s d t
    have bad : ¬ m.key.WellFormed := fun formed => by
      have read : Key.parse n.key.text = .ok m.key := same ▸ Key.parse_text formed
      exact apart (Key.parse_text_eq_ok_iff.mp read).2
    have refused := about answer s d t m.key
    rwa [Pass.About, if_neg bad] at refused
  · intro i changes text dirty absent
    rw [Intake.queue_foldl_handle] at dirty
    rcases WorkQueue.woken_of_dirty _ _ dirty with before | ⟨key, member, rfl⟩
    · rw [absent] at before
      contradiction
    · exact ⟨key, member, rfl, fun answer s d t => about answer s d t key⟩
  · intro σ τ retention stamp parts before between pass key w single run f c next flies busy
    exact (over_of_run single run).within flies busy

/-- Two monitors share a text. The first of them is added under it, and the pass over it is refused,
as it is not known whom it is about. The one that a pod wakes is found again. -/
theorem queued_texts_are_addresses_unless_shared :
    let early : Monitor := { metadata := { ns := "a", name := "b/c" } }
    let late : Monitor := { metadata := { ns := "a/b", name := "c" } }
    let plain : Monitor := { metadata := { ns := "a", name := "x" } }
    let target : Pod := { metadata := { ns := "a", name := "x" } }
    let i : Intake := {
      cache := { monitors := Table.ofList [(plain.key, plain)] }, queue := .new "q" {} }
    let changes : List Change := [.added (.monitor early), .modified (.pod target)]
    let site : Deployment := {
      drill := { store := .empty 10 }
      operator := .ofParts ({} : Operator.Parts Unit Unit)
      stamp := ⟨"0", ""⟩ }
    let pass (text : String) := Pass.sync {} {} text
    let said (text : String) := (pass text).transcript Deployment.replyToPass site
    early.key ≠ late.key ∧ early.key.text = late.key.text ∧
      (changes.foldl Intake.handle i).queue.ready = ["a/b/c", "a/x"] ∧
      said "a/b/c" = [] ∧
      (∃ key, .monitor key ∈ i.cache.wakes changes ∧ "a/x" = key.text ∧
        Pass.About key (said "a/x") ((pass "a/x").run Deployment.replyToPass site).2) := by
  intro early late plain target i changes site pass said
  obtain ⟨-, -, -, -, shared, queued, -⟩ := queued_texts_are_addresses
  have apart : early.key ≠ late.key := by decide
  have same : early.key.text = late.key.text := by decide
  obtain ⟨key, woken, text, about⟩ := queued i changes "a/x" (by decide) (by decide)
  exact ⟨apart, same, by decide, (shared early late apart same Deployment.replyToPass site {} {}).1,
    key, woken, text, about Deployment.replyToPass site {} {}⟩

end Passes

end MonitorOperator
