import MonitorOperator.Proofs.Queue.Closing
import MonitorOperator.Proofs.Worker.Service

/-! Workers before one queue. A worker visits it as any consumer does, serves the key that it gets,
and comes again; a visit without a key is its last, and so is one on whose key it falls. Replies to
what it says while it serves a key may be anything, but for those of the queue. -/

namespace MonitorOperator

/-- A worker between two keys, on a visit as the consumer of a number, at work on the key of a visit
with what was said so far and what is left to say, fallen at a request for its key, or at its end. -/
inductive Loop where
  | idle
  | visiting (i : Nat)
  | serving (i : Nat) (key : String) (log : List (Program.Exchange Worker.Reply))
    (rest : Worker.Steps Unit)
  | fallen (key : String)
  | ended

structure Crew where
  lobby : Lobby
  loops : List Loop
  delays : Pass.Delays
  template : Child.Template

inductive Crew.Move where
  /-- a move of anyone at the queue, and those of a worker on its visit -/
  | lobby (m : Lobby.Move)
  /-- a worker begins a visit -/
  | enter (w : Nat)
  /-- a worker that serves a key makes its next call -/
  | work (w : Nat) (answer : (c : Worker.Call) → Worker.Reply c)

namespace Loop

def hear (d : Pass.Delays) (t : Child.Template) (consumers : List Consumer) : Loop → Loop
  | .visiting i =>
    match consumers[i]? with
    | some (.served key) => .serving i key [] (Worker.serve d t key)
    | some .dismissed => .ended
    | _ => .visiting i
  | loop => loop

def resume (i : Nat) (key : String) (log : List (Program.Exchange Worker.Reply)) :
    Worker.Steps Unit → Loop
  | .finish _ => .idle
  | rest => .serving i key log rest

def abandons : Lobby.Move → Loop → Bool
  | .giveUp i, .visiting j => i == j
  | _, _ => false

end Loop

namespace Crew

def new (name : String) (bounds : Backoff.Bounds) (d : Pass.Delays) (t : Child.Template)
    (workers : Nat) : Crew :=
  { lobby := .new name bounds, loops := List.replicate workers .idle, delays := d, template := t }

abbrev queue (s : Crew) : WorkQueue := s.lobby.traffic.queue

def hear (s : Crew) (lobby : Lobby) : Crew :=
  { s with lobby := lobby, loops := s.loops.map (.hear s.delays s.template lobby.consumers) }

def onQueue? (i : Nat) : Worker.Call → Option Traffic.Call
  | .forget key => some (.forget key)
  | .addAfter key delay => some (.addAfter key delay)
  | .addRateLimited key => some (.addRateLimited key)
  | .done key => some (.done i key)
  | _ => none

def reply (lobby : Lobby) (answer : (c : Worker.Call) → Worker.Reply c) :
    (c : Worker.Call) → Worker.Reply c
  | .clock => lobby.traffic.now
  | .addRateLimited key => (lobby.traffic.queue.addRateLimited lobby.traffic.now key).2.2
  | .attempts key => lobby.traffic.queue.attempts key
  | c => answer c

/-- Whether a worker falls at a call: it asks for a key beyond the end of the clock. -/
def fails (lobby : Lobby) : Worker.Call → Bool
  | .addAfter _ delay => WorkQueue.isBeyond lobby.traffic.now delay
  | .addRateLimited key =>
    WorkQueue.isBeyond lobby.traffic.now (lobby.traffic.queue.backoff.fail key).2
  | _ => false

def called? (lobby : Lobby) (i : Nat) (c : Worker.Call) : Option Lobby :=
  match onQueue? i c with
  | none => some lobby
  | some call => lobby.step? (.call call)

def step? (s : Crew) : Move → Option Crew
  | .lobby m => if s.loops.any (Loop.abandons m) then none else (s.lobby.step? m).map s.hear
  | .enter w =>
    match s.loops[w]? with
    | some .idle =>
      (s.lobby.step? .come).map fun lobby =>
        { s with lobby := lobby, loops := s.loops.set w (.visiting s.lobby.consumers.length) }
    | _ => none
  | .work w answer =>
    match s.loops[w]? with
    | some (.serving i key log (.call c next)) =>
      let r := reply s.lobby answer c
      let loop : Loop :=
        if fails s.lobby c then .fallen key else .resume i key (log ++ [⟨c, r⟩]) (next r)
      (called? s.lobby i c).map fun lobby =>
        { s with lobby := lobby, loops := s.loops.set w loop }
    | _ => none

def Move.own : Move → Bool
  | .lobby m => m.own
  | _ => true

def Quiet (s : Crew) : Prop := ∀ m : Move, m.own = true → s.step? m = none

def released? (s : Crew) : Move → Option String
  | .lobby m => m.released?
  | .enter _ => none
  | .work w _ =>
    match s.loops[w]? with
    | some (.serving i _ _ (.call c _)) => (onQueue? i c).bind Traffic.Call.released?
    | _ => none

inductive Called (s : Lobby) (t : Lobby) : Option String → Prop where
  | aside (same : t = s) : Called s t none
  | queue (call : Traffic.Call) (step : s.step? (.call call) = some t) : Called s t call.released?

theorem called_of_called? {s t : Lobby} {i : Nat} {c : Worker.Call} (step : called? s i c = some t) :
    Called s t ((onQueue? i c).bind Traffic.Call.released?) := by
  unfold called? at step
  split at step
  · rename_i aside
    rw [aside]
    exact .aside (Option.some.inj step).symm
  · rename_i call made
    rw [made]
    exact .queue call step

theorem called?_isSome (s : Lobby) (i : Nat) (c : Worker.Call) : ∃ t, called? s i c = some t := by
  cases c <;> exact ⟨_, rfl⟩

inductive Stepped (s : Crew) : Move → Crew → Prop where
  | lobby (m : Lobby.Move) (patient : ∀ i, m = .giveUp i → .visiting i ∉ s.loops) (lobby : Lobby)
      (turn : Lobby.Turn s.lobby m lobby) : Stepped s (.lobby m) (s.hear lobby)
  | entered (w : Nat) (idle : s.loops[w]? = some .idle) :
      Stepped s (.enter w) { s with
        lobby := { s.lobby with consumers := s.lobby.consumers ++ [.arriving] }
        loops := s.loops.set w (.visiting s.lobby.consumers.length) }
  | worked (w : Nat) (answer : (c : Worker.Call) → Worker.Reply c) (i : Nat) (key : String)
      (log : List (Program.Exchange Worker.Reply)) (c : Worker.Call)
      (next : Worker.Reply c → Worker.Steps Unit) (r : Worker.Reply c) (lobby : Lobby)
      (busy : s.loops[w]? = some (.serving i key log (.call c next)))
      (called : Called s.lobby lobby (s.released? (.work w answer))) :
      Stepped s (.work w answer) { s with
        lobby := lobby
        loops := s.loops.set w (.resume i key (log ++ [⟨c, r⟩]) (next r)) }
  | fell (w : Nat) (answer : (c : Worker.Call) → Worker.Reply c) (i : Nat) (key : String)
      (log : List (Program.Exchange Worker.Reply)) (c : Worker.Call)
      (next : Worker.Reply c → Worker.Steps Unit) (lobby : Lobby)
      (busy : s.loops[w]? = some (.serving i key log (.call c next)))
      (failed : fails s.lobby c = true)
      (called : Called s.lobby lobby (s.released? (.work w answer))) :
      Stepped s (.work w answer) { s with lobby := lobby, loops := s.loops.set w (.fallen key) }

theorem stepped {s t : Crew} {m : Move} (step : s.step? m = some t) : Stepped s m t := by
  cases m with
  | lobby m =>
    simp only [step?] at step
    split at step
    · contradiction
    · rename_i stays
      obtain ⟨lobby, made, rfl⟩ := Option.map_eq_some_iff.mp step
      refine .lobby m ?_ lobby (Lobby.step_turn made)
      rintro i rfl visiting
      exact stays (List.any_eq_true.mpr ⟨_, visiting, by simp [Loop.abandons]⟩)
  | enter w =>
    simp only [step?] at step
    split at step
    · rename_i idle
      cases Option.some.inj step
      exact .entered w idle
    · contradiction
  | work w answer =>
    simp only [step?] at step
    split at step
    · rename_i i key log c next busy
      obtain ⟨lobby, made, rfl⟩ := Option.map_eq_some_iff.mp step
      have called : Called s.lobby lobby (s.released? (.work w answer)) := by
        simp only [released?, busy]
        exact called_of_called? made
      cases failed : fails s.lobby c with
      | true => exact .fell w answer i key log c next lobby busy failed called
      | false => exact .worked w answer i key log c next _ lobby busy called
    · contradiction

/-- A worker on a visit waits for its key. One at work has said what it said and has more to say. -/
def Fits (s : Crew) : Loop → Prop
  | .visiting i => s.lobby.is Consumer.visits i = true
  | .serving _ key log rest =>
    (Worker.serve s.delays s.template key).Leaves log rest ∧ ∃ c next, rest = .call c next
  | _ => True

structure Sound (s : Crew) : Prop where
  lobby : s.lobby.Sound
  loops : ∀ loop ∈ s.loops, s.Fits loop

theorem Called.consumers {s t : Lobby} {released : Option String} (called : Called s t released) :
    t.consumers = s.consumers := by
  cases called with
  | aside same => rw [same]
  | queue call step =>
    cases Lobby.step_turn step
    rfl

theorem Called.sound {s t : Lobby} {released : Option String} (called : Called s t released)
    (sound : s.Sound) : t.Sound := by
  cases called with
  | aside same => exact same ▸ sound
  | queue call step => exact sound.step (Lobby.step_turn step)

theorem fits_congr {s t : Crew} {loop : Loop} (fits : s.Fits loop)
    (same : s.delays = t.delays ∧ s.template = t.template)
    (visits : ∀ i, s.lobby.is Consumer.visits i = true → t.lobby.is Consumer.visits i = true) :
    t.Fits loop := by
  cases loop with
  | visiting i => exact visits i fits
  | serving i key log rest =>
    obtain ⟨leaves, more⟩ := fits
    rw [same.1, same.2] at leaves
    exact ⟨leaves, more⟩
  | _ => trivial

theorem fits_hear {s : Crew} {lobby : Lobby} {loop : Loop} (fits : s.Fits loop)
    (stays : ∀ i, loop = .visiting i → lobby.is Consumer.stays i = true) :
    (s.hear lobby).Fits (loop.hear s.delays s.template lobby.consumers) := by
  cases loop with
  | visiting i =>
    obtain ⟨c, there, stays⟩ := Lobby.is_iff.mp (stays i rfl)
    simp only [Loop.hear, there]
    cases c with
    | served key => exact ⟨.start, _, _, rfl⟩
    | dismissed => trivial
    | gone => contradiction
    | _ => exact Lobby.is_iff.mpr ⟨_, there, rfl⟩
  | serving i key log rest => exact fits
  | _ => trivial

theorem fits_resume {s : Crew} {i : Nat} {key : String} {c : Worker.Call}
    {log : List (Program.Exchange Worker.Reply)} {next : Worker.Reply c → Worker.Steps Unit}
    (fits : s.Fits (.serving i key log (.call c next))) (r : Worker.Reply c) :
    s.Fits (.resume i key (log ++ [⟨c, r⟩]) (next r)) := by
  have leaves := fits.1.step r
  cases more : next r with
  | finish a => trivial
  | call c next => exact ⟨more ▸ leaves, _, _, rfl⟩

theorem Sound.step {s t : Crew} {m : Move} (h : s.Sound) (stepped : Stepped s m t) : t.Sound := by
  cases stepped with
  | lobby m patient lobby turn =>
    refine ⟨h.lobby.step turn, fun loop member => ?_⟩
    obtain ⟨before, there, rfl⟩ := List.mem_map.mp member
    have fits := h.loops before there
    refine fits_hear fits fun i visiting => ?_
    subst visiting
    exact turn.stays (Lobby.is_stays fits) fun left => patient i left there
  | entered w idle =>
    refine ⟨h.lobby.step .came, fun loop member => ?_⟩
    have visits : ∀ i, s.lobby.is Consumer.visits i = true → Lobby.is
        { s.lobby with consumers := s.lobby.consumers ++ [.arriving] } Consumer.visits i = true := by
      intro i visits
      obtain ⟨c, was, visits⟩ := Lobby.is_iff.mp visits
      refine Lobby.is_iff.mpr ⟨c, ?_, visits⟩
      exact (List.getElem?_append_left (List.getElem?_eq_some_iff.mp was).1).trans was
    rcases List.mem_or_eq_of_mem_set member with there | rfl
    · exact fits_congr (h.loops loop there) ⟨rfl, rfl⟩ visits
    · exact Lobby.is_iff.mpr ⟨.arriving, by simp, rfl⟩
  | worked w answer i key log c next r lobby busy called =>
    refine ⟨called.sound h.lobby, fun loop member => ?_⟩
    have visits : ∀ i, s.lobby.is Consumer.visits i = true → lobby.is Consumer.visits i = true := by
      intro i visits
      rw [Lobby.is, called.consumers]
      exact visits
    rcases List.mem_or_eq_of_mem_set member with there | rfl
    · exact fits_congr (h.loops loop there) ⟨rfl, rfl⟩ visits
    · have fits := fits_resume (h.loops _ (List.mem_of_getElem? busy)) r
      exact fits_congr fits ⟨rfl, rfl⟩ visits
  | fell w answer i key log c next lobby busy failed called =>
    refine ⟨called.sound h.lobby, fun loop member => ?_⟩
    rcases List.mem_or_eq_of_mem_set member with there | rfl
    · refine fits_congr (h.loops loop there) ⟨rfl, rfl⟩ fun i visits => ?_
      rw [Lobby.is, called.consumers]
      exact visits
    · trivial

theorem sound_of_run {name : String} {bounds : Backoff.Bounds} {d : Pass.Delays}
    {t : Child.Template} {workers : Nat} {moves : List Move} {s : Crew}
    (run : after? step? (new name bounds d t workers) moves = some s) : s.Sound := by
  apply after?_invariant (P := Sound) ?_ moves ?_ run
  · intro s m t sound step
    exact sound.step (stepped step)
  · have nothing : after? Lobby.step? (.new name bounds) [] = some (.new name bounds) := rfl
    refine ⟨Lobby.sound_of_run nothing, fun loop member => ?_⟩
    rw [List.eq_of_mem_replicate member]
    trivial

end Crew

end MonitorOperator
