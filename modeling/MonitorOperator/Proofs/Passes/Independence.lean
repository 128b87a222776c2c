import Mathlib.Data.List.Induction
import MonitorOperator.Proofs.Cluster.Key
import MonitorOperator.Proofs.Deployment.Scene
import MonitorOperator.Proofs.Passes.Moves

/-! Passes over different keys that are on their way at the same time. Each one stays within the
scene of its key, which no other one touches, so it goes as if it were alone. Main statement: in
whatever order the passes make their calls, each ends as it does alone, and the store ends up with
the same objects. -/

namespace MonitorOperator

namespace Passes

open Pass (Scene)

def together (d : Deployment) (texts : List String) : Passes :=
  { site := d
    flights := fun pass => texts[pass]?.map fun text =>
      { rest := Pass.sync d.operator.delays d.operator.template text } }

def turn (w : Passes) (pass : Nat) : Passes :=
  match w.flights pass with
  | none => w
  | some f =>
    match f.rest with
    | .finish _ => w
    | .call c next => w.answer pass f c next

theorem turn_cases (w : Passes) (pass : Nat) :
    (w.turn pass = w ∧ ∀ f, w.flights pass = some f → ∃ r, f.rest = .finish r) ∨
    ∃ f c next, w.flights pass = some f ∧ f.rest = .call c next ∧
      w.turn pass = w.answer pass f c next := by
  unfold turn
  cases flies : w.flights pass with
  | none => exact .inl ⟨rfl, nofun⟩
  | some f =>
    cases busy : f.rest with
    | finish r => exact .inl ⟨by simp only [busy], fun g same => ⟨r, Option.some.inj same ▸ busy⟩⟩
    | call c next => exact .inr ⟨f, c, next, rfl, busy, by simp only [busy]⟩

def result? (w : Passes) (pass : Nat) : Option (Except Error Pass.Action) :=
  match w.flights pass with
  | none => none
  | some f =>
    match f.rest with
    | .finish result => some result
    | .call _ _ => none

def keys (texts : List String) : List Key := texts.filterMap fun text => (Key.parse text).toOption

theorem mem_keys {texts : List String} {key : Key} :
    key ∈ keys texts ↔ ∃ text ∈ texts, Key.parse text = .ok key := by
  simp only [keys, List.mem_filterMap]
  refine exists_congr fun text => and_congr_right fun _ => ?_
  cases Key.parse text <;> simp [Except.toOption]

theorem apart_of_nodup {texts : List String} (distinct : texts.Nodup) {pass other : Nat}
    (apart : other ≠ pass) {text text' : String} (found : texts[pass]? = some text)
    (found' : texts[other]? = some text') {key key' : Key} (parsed : Key.parse text = .ok key)
    (parsed' : Key.parse text' = .ok key') : key' ≠ key := by
  rintro rfl
  obtain rfl : text' = text := (Key.text_of_parse parsed').symm.trans (Key.text_of_parse parsed)
  have inside := (List.getElem?_eq_some_iff.mp found').1
  exact apart ((List.getElem?_inj inside distinct).mp (found'.trans found.symm))

/-- A pass that has gone so far as it would have gone alone. -/
structure Flight.Alone (d : Deployment) (text : String) (s : Store) (f : Flight) : Prop where
  leaves : (Pass.sync d.operator.delays d.operator.template text).Leaves f.said f.rest
  through : ∀ key, Key.parse text = .ok key →
    Scene.Through d.drill.store.Down (d.operator.cache.pods.get? key) f.said
      (d.drill.store.scene key) (s.scene key)

/-- Passes over some texts that have not come in each other's way. -/
structure Woven (d : Deployment) (texts : List String) (w : Passes) : Prop where
  plain : w.site.Plain
  keyed : w.store.Keyed
  cache : w.site.operator.cache = d.operator.cache
  unavailable : w.store.unavailable = d.drill.store.unavailable
  there : ∀ pass text, texts[pass]? = some text →
    ∃ f, w.flights pass = some f ∧ f.Alone d text w.store
  free : ∀ pass, texts[pass]? = none → w.flights pass = none
  monitors : ∀ key ∉ keys texts, w.store.monitors.get? key = d.drill.store.monitors.get? key
  pods : ∀ key ∉ (keys texts).map Key.child, w.store.pods.get? key = d.drill.store.pods.get? key

variable {d : Deployment} {texts : List String} {w : Passes}

theorem Woven.start (plain : d.Plain) (keyed : d.drill.store.Keyed) (texts : List String) :
    (together d texts).Woven d texts where
  plain := plain
  keyed := keyed
  cache := rfl
  unavailable := rfl
  there pass text found := by
    refine ⟨_, congrArg (Option.map _) found, .start, fun key parsed => rfl⟩
  free pass absent := congrArg (Option.map _) absent
  monitors _ _ := rfl
  pods _ _ := rfl

theorem Flight.Alone.beside {text : String} {s t : Store} {f : Flight} (h : f.Alone d text s)
    {key : Key} (beside : s.Beside key t) (apart : ∀ own, Key.parse text = .ok own → own ≠ key) :
    f.Alone d text t := by
  refine ⟨h.leaves, fun own parsed => ?_⟩
  rw [beside.scene (apart own parsed)]
  exact h.through own parsed

theorem Woven.answer (h : w.Woven d texts) (keyed : d.drill.store.Keyed) (distinct : texts.Nodup)
    {pass : Nat} {f : Flight} (flies : w.flights pass = some f) {c : Pass.Call}
    {next : Pass.Reply c → Pass.Steps (Except Error Pass.Action)} (busy : f.rest = .call c next) :
    (w.answer pass f c next).Woven d texts := by
  obtain ⟨text, found⟩ : ∃ text, texts[pass]? = some text := by
    cases found : texts[pass]? with
    | some text => exact ⟨text, rfl⟩
    | none => cases (h.free pass found).symm.trans flies
  obtain ⟨_, same, alone⟩ := h.there pass text found
  obtain rfl := Option.some.inj (flies.symm.trans same)
  obtain ⟨key, parsed⟩ := Pass.parsed_of_leaves (busy ▸ alone.leaves)
  have within : c.Within key := Pass.within_of_leaves (busy ▸ alone.leaves) parsed
    (alone.through key parsed) fun m stored => keyed.monitors key m stored
  -- the call stays within the key of the pass, so that the scenes of the other keys are untouched
  have answers := (Deployment.replyToPass_answers h.plain h.keyed within).1
  have served := Deployment.replyToPass_served h.plain h.keyed within
  have mine : key ∈ keys texts := mem_keys.mpr ⟨text, List.mem_of_getElem? found, parsed⟩
  refine ⟨served.plain, served.keyed, served.cache.trans h.cache,
    served.beside.unavailable.trans h.unavailable, ?_, ?_, ?_, ?_⟩
  · intro other text' found'
    by_cases same : other = pass
    · subst same
      obtain rfl := Option.some.inj (found.symm.trans found')
      refine ⟨_, set_eq_some.mpr (.inl ⟨rfl, rfl⟩), (busy ▸ alone.leaves).step _,
        fun key' parsed' => ?_⟩
      cases parsed.symm.trans parsed'
      refine Scene.through_snoc.mpr ⟨_, alone.through key parsed, ?_⟩
      rw [← h.cache]
      exact answers.mono fun e down => ⟨h.unavailable ▸ down.1, down.2⟩
    · obtain ⟨g, flies', alone'⟩ := h.there other text' found'
      exact ⟨g, set_eq_some.mpr (.inr ⟨same, flies'⟩), alone'.beside served.beside fun _ parsed' =>
        apart_of_nodup distinct same found found' parsed parsed'⟩
  · intro other absent
    refine Option.eq_none_iff_forall_ne_some.mpr fun g flies' => ?_
    rcases set_eq_some.mp flies' with ⟨rfl, _⟩ | ⟨_, was⟩
    · cases absent.symm.trans found
    · cases (h.free other absent).symm.trans was
  · intro other apart
    exact (served.beside.monitors other fun same => apart (same ▸ mine)).trans
      (h.monitors other apart)
  · intro other apart
    refine (served.beside.pods other fun same => apart ?_).trans (h.pods other apart)
    exact List.mem_map.mpr ⟨key, mine, same.symm⟩

theorem Woven.turn (h : w.Woven d texts) (keyed : d.drill.store.Keyed) (distinct : texts.Nodup)
    (pass : Nat) : (w.turn pass).Woven d texts := by
  rcases w.turn_cases pass with ⟨same, _⟩ | ⟨f, c, next, flies, busy, called⟩
  · rw [same]
    exact h
  · rw [called]
    exact h.answer keyed distinct flies busy

theorem Woven.turns (h : w.Woven d texts) (keyed : d.drill.store.Keyed) (distinct : texts.Nodup)
    (schedule : List Nat) : (schedule.foldl Passes.turn w).Woven d texts := by
  induction schedule generalizing w with
  | nil => exact h
  | cons pass schedule ih => exact ih (h.turn keyed distinct pass)

theorem Woven.ended (h : w.Woven d texts) (plain : d.Plain) (keyed : d.drill.store.Keyed)
    {pass : Nat} {text : String} {r : Except Error Pass.Action} (found : texts[pass]? = some text)
    (ends : w.result? pass = some r) :
    r = (d.sync text).2 ∧ ∀ key, Key.parse text = .ok key →
      (w.store.scene key).bare = (d.foresee key (d.drill.store.scene key)).1.bare ∧
      ∀ p, d.drill.store.pods.get? key.child = some p → w.store.pods.get? key.child = some p := by
  obtain ⟨f, flies, alone⟩ := h.there pass text found
  have rest : f.rest = .finish r := by
    simp only [result?, flies] at ends
    split at ends
    · rename_i result closed
      rw [closed, Option.some.inj ends]
    · contradiction
  have leaves := alone.leaves
  rw [rest] at leaves
  cases parsed : Key.parse text with
  | error cause =>
    refine ⟨?_, fun key no => nomatch no⟩
    unfold Deployment.sync
    simp only [Pass.sync, parsed] at leaves ⊢
    cases (Program.leaves_finish leaves).2
    rfl
  | ok key =>
    have tells := leaves.tells ⟨rfl, rfl⟩
    rw [List.append_nil] at tells
    obtain ⟨result, scene, kept⟩ := ((Pass.synced_of_tells tells).outcome
      d.drill.store.faulty_down parsed (alone.through key parsed)).undisturbed fun _ down => down
    have own := (Deployment.sync_undisturbed parsed plain keyed).1
    refine ⟨result.trans own.symm, fun key' same => ?_⟩
    cases same
    exact ⟨scene, kept⟩

def Ended (w : Passes) (texts : List String) : Prop :=
  ∀ pass < texts.length, (w.result? pass).isSome

theorem Woven.reached (h : w.Woven d texts) (plain : d.Plain) (keyed : d.drill.store.Keyed)
    (ended : w.Ended texts) :
    d.drill.store.Reached (keys texts) (fun key => (d.foresee key (d.drill.store.scene key)).1.bare)
      w.store := by
  have scenes (key : Key) (mine : key ∈ keys texts) :
      (w.store.scene key).bare = (d.foresee key (d.drill.store.scene key)).1.bare ∧
      ∀ p, d.drill.store.pods.get? key.child = some p → w.store.pods.get? key.child = some p := by
    obtain ⟨text, member, parsed⟩ := mem_keys.mp mine
    obtain ⟨pass, inside, found⟩ := List.mem_iff_getElem.mp member
    obtain ⟨r, ends⟩ := Option.isSome_iff_exists.mp (ended pass inside)
    exact (h.ended plain keyed (List.getElem?_eq_some_iff.mpr ⟨inside, found⟩) ends).2 key parsed
  exact ⟨h.monitors, h.pods, fun key mine => (scenes key mine).1,
    fun key mine => (scenes key mine).2⟩

def inOrder (d : Deployment) (order : List String) : Deployment :=
  order.foldl (fun e text => (e.sync text).1) d

structure Queued (d : Deployment) (order : List String) (e : Deployment) : Prop where
  plain : e.Plain
  keyed : e.drill.store.Keyed
  unavailable : e.drill.store.unavailable = d.drill.store.unavailable
  foresee : e.foresee = d.foresee
  reached : d.drill.store.Reached (keys order)
    (fun key => (d.foresee key (d.drill.store.scene key)).1.bare) e.drill.store

theorem Queued.skip {order : List String} {e : Deployment} (h : Queued d order e) {text : String}
    {cause : Key.Fault} (malformed : Key.parse text = .error cause) :
    Queued d (order ++ [text]) (e.sync text).1 := by
  have still : (e.sync text).1 = e := by
    simp only [Deployment.sync, Pass.sync, malformed]
    rfl
  have names : keys (order ++ [text]) = keys order := by simp [keys, malformed, Except.toOption]
  rw [still]
  exact ⟨h.plain, h.keyed, h.unavailable, h.foresee, names ▸ h.reached⟩

theorem Queued.next {order : List String} {e : Deployment} (h : Queued d order e) {text : String}
    {key : Key} (parsed : Key.parse text = .ok key) (fresh : key ∉ keys order) :
    Queued d (order ++ [text]) (e.sync text).1 := by
  have names : keys (order ++ [text]) = keys order ++ [key] := by
    simp [keys, parsed, Except.toOption]
  have vacant : key.child ∉ (keys order).map Key.child := fun old => by
    obtain ⟨other, member, same⟩ := List.mem_map.mp old
    exact fresh (Key.child_injective same ▸ member)
  have unseen : e.drill.store.scene key = d.drill.store.scene key :=
    Scene.ext h.unavailable (h.reached.monitors key fresh) (h.reached.pods key.child vacant)
  obtain ⟨_, scene, kept, served⟩ := Deployment.sync_undisturbed parsed h.plain h.keyed
  rw [unseen, h.foresee] at scene
  refine ⟨served.plain, served.keyed, served.beside.unavailable.trans h.unavailable,
    served.foresee.trans h.foresee, ?_⟩
  rw [names]
  exact h.reached.next fresh served.beside scene kept

theorem inOrder_queued (plain : d.Plain) (keyed : d.drill.store.Keyed) (order : List String)
    (distinct : order.Nodup) : Queued d order (inOrder d order) := by
  induction order using List.reverseRecOn with
  | nil => exact ⟨plain, keyed, rfl, rfl, fun _ _ => rfl, fun _ _ => rfl, nofun, nofun⟩
  | append_singleton before text ih =>
    obtain ⟨first, _, apart⟩ := List.nodup_append.mp distinct
    have last : inOrder d (before ++ [text]) = ((inOrder d before).sync text).1 :=
      List.foldl_append ..
    rw [last]
    cases parsed : Key.parse text with
    | error cause => exact (ih first).skip parsed
    | ok key =>
      refine (ih first).next parsed fun old => ?_
      obtain ⟨other, member, parsed'⟩ := mem_keys.mp old
      exact apart other member text (List.mem_singleton_self text)
        ((Key.text_of_parse parsed').symm.trans (Key.text_of_parse parsed))

theorem said_of_busy (schedule : List Nat) {pass : Nat} {f : Flight}
    (flies : (schedule.foldl Passes.turn (together d texts)).flights pass = some f) :
    (∃ r, f.rest = .finish r) ∨ f.said.length = schedule.count pass := by
  -- By the last turn: the pass that moves in it has not ended before.
  induction schedule using List.reverseRecOn generalizing f with
  | nil =>
    obtain ⟨text, _, rfl⟩ := Option.map_eq_some_iff.mp flies
    exact .inr rfl
  | append_singleton before last ih =>
    rw [List.foldl_append] at flies
    change (Passes.turn _ last).flights pass = some f at flies
    rw [List.count_append]
    rcases turn_cases _ last with ⟨same, closed⟩ | ⟨g, c, next, flown, busy, called⟩
    · rw [same] at flies
      by_cases own : pass = last
      · exact .inl (closed f (own ▸ flies))
      · exact (ih flies).imp_right fun far => by simp [far, Ne.symm own]
    · rw [called] at flies
      rcases set_eq_some.mp flies with ⟨rfl, told⟩ | ⟨own, was⟩
      · cases told
        rcases ih flown with ⟨r, closed⟩ | far
        · cases closed.symm.trans busy
        · exact .inr (by simp [Flight.told, far])
      · exact (ih was).imp_right fun far => by simp [far, Ne.symm own]

/-- Eight turns bring every pass to its end. -/
theorem ended_of_turns (plain : d.Plain) (keyed : d.drill.store.Keyed) (distinct : texts.Nodup)
    (schedule : List Nat) {pass : Nat} (inside : pass < texts.length)
    (turns : 8 ≤ schedule.count pass) :
    ((schedule.foldl Passes.turn (together d texts)).result? pass).isSome := by
  have h := (Woven.start plain keyed texts).turns keyed distinct schedule
  obtain ⟨f, flies, alone⟩ := h.there pass texts[pass] (List.getElem?_eq_getElem inside)
  cases closed : f.rest with
  | finish r => simp [result?, flies, closed]
  | call c next =>
    have leaves := alone.leaves
    rw [closed] at leaves
    obtain ⟨reply, after, r, tells⟩ := leaves.exists_tells
    have few := (Pass.synced_of_tells tells).length_le
    rw [List.length_append, List.length_cons] at few
    rcases said_of_busy schedule flies with ⟨r, no⟩ | far
    · cases closed.symm.trans no
    · omega

/-- Passes over different keys do not come in each other's way. Whatever state the store is in,
available or not, whatever the cache holds and in whatever order the passes make their calls, each
one ends, after eight turns at most, with the result that it has alone. Once all of them have ended,
the store has the same objects, up to versions and the uids of new pods, as after any other order of
the calls and as after the passes one after the other, in any order. -/
theorem passes_independent (d : Deployment) (retention : Nat) (ops : List Store.Operation)
    (reached : d.drill = { store := (Store.empty retention).after ops }) (texts : List String)
    (distinct : texts.Nodup) (schedule : List Nat) :
    (∀ pass < texts.length, 8 ≤ schedule.count pass →
      ((schedule.foldl turn (together d texts)).result? pass).isSome) ∧
    (∀ pass text r, texts[pass]? = some text →
      (schedule.foldl turn (together d texts)).result? pass = some r → r = (d.sync text).2) ∧
    ((schedule.foldl turn (together d texts)).Ended texts →
      (∀ other : List Nat, (other.foldl turn (together d texts)).Ended texts →
        d.drill.store.Agree (schedule.foldl turn (together d texts)).store
          (other.foldl turn (together d texts)).store) ∧
      ∀ order : List String, order.Perm texts →
        d.drill.store.Agree (schedule.foldl turn (together d texts)).store
          (inOrder d order).drill.store) := by
  have plain : d.Plain := by rw [Deployment.Plain, reached]
  have keyed : d.drill.store.Keyed := by
    rw [reached]
    exact (Store.Keyed.empty retention).after ops
  have woven := (Woven.start plain keyed texts).turns keyed distinct
  refine ⟨fun pass inside turns => ended_of_turns plain keyed distinct schedule inside turns,
    fun pass text r found ends => ((woven schedule).ended plain keyed found ends).1,
    fun ended => ⟨fun other closed => ?_, fun order perm => ?_⟩⟩
  · exact ((woven schedule).reached plain keyed ended).agree
      ((woven other).reached plain keyed closed)
  · have queued := inOrder_queued plain keyed order (perm.nodup_iff.mpr distinct)
    refine ((woven schedule).reached plain keyed ended).agree (queued.reached.congr fun key => ?_)
    simp only [mem_keys, perm.mem_iff]

/-- Two passes make their calls by turns. Both create a child, the second one with the later uid,
which is the other way round if the passes go one after the other. -/
theorem passes_independent_by_turns :
    let named (name : String) : Metadata := { ns := "a", name := name }
    let job (name : String) : Monitor := { metadata := named name, status := .plain .pending }
    let targets := Table.ofList [((⟨"a", "x"⟩ : Key), (⟨named "x", {}, {}⟩ : Pod)),
      (⟨"a", "y"⟩, ⟨named "y", {}, {}⟩)]
    let d : Deployment :=
      { drill := { store := (Store.empty 10).after [.apply (job "x"), .apply (job "y")] }
        operator := .ofParts ({ cache := { pods := targets } } : Operator.Parts Unit Unit)
        stamp := ⟨"0", ""⟩ }
    let w := ((List.range 16).map (· % 2)).foldl turn (together d ["a/x", "a/y"])
    let e := inOrder d ["a/y", "a/x"]
    w.result? 0 = some (d.sync "a/x").2 ∧ w.result? 1 = some (d.sync "a/y").2 ∧
    (w.store.pods.get? ⟨"a", "pm-x"⟩).map (·.metadata.uid) = some "00000003" ∧
    (e.drill.store.pods.get? ⟨"a", "pm-x"⟩).map (·.metadata.uid) = some "00000004" ∧
    d.drill.store.Agree w.store e.drill.store := by
  refine ⟨rfl, rfl, rfl, rfl, ((passes_independent _ 10 [.apply _, .apply _] rfl ["a/x", "a/y"]
    (by decide) _).2.2 fun pass inside => ?_).2 ["a/y", "a/x"] (.swap ..)⟩
  rcases pass with _ | _ | pass
  · rfl
  · rfl
  · have few : pass + 2 < 2 := inside
    omega

end Passes

end MonitorOperator
