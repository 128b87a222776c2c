import MonitorOperator.Proofs.Pass.Account
import MonitorOperator.Worker

/-! What the work on one key says, whatever the replies: it comes to an end, and it releases the
key. -/

namespace MonitorOperator

namespace Program

variable {Call : Type} {Reply : Call → Type} {α : Type}

theorem tells_embed {Call' : Type} {Reply' : Call' → Type} {into : Call → Call'}
    {reply : (c : Call) → Reply' (into c) → Reply c} {p : Program Call Reply α}
    {log : List (Exchange Reply')} {a : α} (tells : (p.embed into reply).Tells log a) :
    ∃ inner, p.Tells inner a ∧ log.length = inner.length := by
  induction p generalizing log with
  | finish b =>
    obtain ⟨rfl, rfl⟩ := tells
    exact ⟨[], ⟨rfl, rfl⟩, rfl⟩
  | call c next ih =>
    obtain ⟨r, rest, rfl, tells⟩ := tells
    obtain ⟨inner, told, same⟩ := ih _ tells
    exact ⟨⟨c, reply c r⟩ :: inner, ⟨_, inner, rfl, told⟩, by simp [same]⟩

end Program

namespace Worker

instance : (c : Call) → Nonempty (Reply c)
  | .pass c => inferInstanceAs (Nonempty (Pass.Reply c))
  | .clock => ⟨0⟩
  | .addRateLimited _ => ⟨.zero⟩
  | .attempts _ => ⟨0⟩
  | .started => ⟨()⟩
  | .finished => ⟨()⟩
  | .forget _ => ⟨()⟩
  | .addAfter _ _ => ⟨()⟩
  | .countRetry => ⟨()⟩
  | .observe _ _ => ⟨()⟩
  | .storeWell => ⟨()⟩
  | .storeFailing _ => ⟨()⟩
  | .log _ => ⟨()⟩
  | .done _ => ⟨()⟩
  | .showDepth => ⟨()⟩

theorem length_le_of_follow {key : String} {result : Except Error Pass.Action} {outcome : Outcome}
    {log : List (Program.Exchange Reply)} (tells : (follow key result).Tells log outcome) :
    log.length ≤ 5 := by
  cases result with
  | ok action =>
    obtain ⟨_, _, rfl, _, _, rfl, tells⟩ := tells
    cases action with
    | requeue delay =>
      obtain ⟨_, _, rfl, rfl, _⟩ := tells
      simp
    | awaitChange =>
      obtain ⟨rfl, _⟩ := tells
      simp
  | error cause =>
    simp only [follow] at tells
    split at tells
    · obtain ⟨_, _, rfl, _, _, rfl, _, _, rfl, _, _, rfl, tells⟩ := tells
      cases cause with
      | store e =>
        obtain ⟨_, _, rfl, rfl, _⟩ := tells
        simp
      | _ =>
        obtain ⟨rfl, _⟩ := tells
        simp
    · obtain ⟨_, _, rfl, _, _, rfl, rfl, _⟩ := tells
      simp

/-- The work on a key ends within twenty calls, and one of them releases the key. -/
theorem served_of_tells {d : Pass.Delays} {t : Child.Template} {key : String}
    {log : List (Program.Exchange Reply)} (tells : (serve d t key).Tells log ()) :
    log.length ≤ 20 ∧ ⟨.done key, ()⟩ ∈ log := by
  obtain ⟨_, _, rfl, start, _, rfl, tells⟩ := tells
  change (ofPass (Pass.sync d t key) >>= fun result => follow key result >>= fun outcome => _).Tells
    _ () at tells
  obtain ⟨passed, result, _, rfl, pass, tells⟩ := Program.tells_bind tells
  obtain ⟨followed, outcome, _, rfl, follow, tells⟩ := Program.tells_bind tells
  obtain ⟨_, _, rfl, _, _, rfl, _, _, rfl, _, _, rfl, _, _, rfl, rfl, _⟩ := tells
  obtain ⟨inner, told, same⟩ := Program.tells_embed pass
  have few := (Pass.synced_of_tells told).length_le
  have short := length_le_of_follow follow
  constructor
  · simp only [List.length_cons, List.length_append, List.length_nil]
    omega
  · simp

theorem length_lt_of_leaves {d : Pass.Delays} {t : Child.Template} {key : String}
    {log : List (Program.Exchange Reply)} {c : Call} {next : Reply c → Steps Unit}
    (leaves : (serve d t key).Leaves log (.call c next)) : log.length < 20 := by
  obtain ⟨r, rest, a, tells⟩ := leaves.exists_tells
  have few := (served_of_tells tells).1
  rw [List.length_append, List.length_cons] at few
  omega

end Worker

end MonitorOperator
