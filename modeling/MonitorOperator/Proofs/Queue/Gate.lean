import Mathlib.Data.List.Nodup
import MonitorOperator.Queue.Gate

/-! Who stands at a gate, and how many signals for one visitor are on their way. No visitor is lost
and none stands there twice, and a signal that is passed on is still there unless nobody waits. -/

namespace MonitorOperator.Gate

def visitors (g : Gate) : List Nat := g.waiting ++ g.granted.map (·.1)

def ones (g : Gate) : Nat := g.granted.countP (·.2 = .one)

structure Orderly (g : Gate) : Prop where
  once : g.visitors.Nodup
  free : g.permit = true → g.waiting = []

theorem signal_cases (g : Gate) :
    g.waiting = [] ∧ g.signal = { g with permit := true } ∨
    ∃ visitor rest, g.waiting = visitor :: rest ∧
      g.signal = { g with waiting := rest, granted := g.granted ++ [(visitor, .one)] } := by
  unfold signal
  cases waiting : g.waiting with
  | nil => exact .inl ⟨rfl, rfl⟩
  | cons visitor rest => exact .inr ⟨visitor, rest, rfl, rfl⟩

theorem enroll_cases (g : Gate) (i : Nat) :
    g.permit = true ∧ g.enroll i = ({ g with permit := false }, true) ∨
    g.permit = false ∧ g.enroll i = ({ g with waiting := g.waiting ++ [i] }, false) := by
  cases permit : g.permit <;> simp [enroll, permit]

theorem visitors_signal (g : Gate) : g.signal.visitors.Perm g.visitors := by
  obtain ⟨_, eq⟩ | ⟨visitor, rest, waiting, eq⟩ := g.signal_cases
  · rw [eq]
    exact .refl _
  · rw [eq, visitors, visitors, waiting, List.map_append, ← List.append_assoc]
    exact List.perm_append_comm

theorem visitors_signalAll (g : Gate) : g.signalAll.visitors.Perm g.visitors := by
  simp only [visitors, signalAll, List.nil_append, List.map_append, List.map_map,
    Function.comp_def, List.map_id']
  exact List.perm_append_comm

theorem visitors_without (g : Gate) (i : Nat) :
    g.waiting.filter (· ≠ i) ++ (g.granted.filter (·.1 ≠ i)).map (·.1) =
      g.visitors.filter (· ≠ i) := by
  rw [visitors, List.filter_append, List.filter_map]
  rfl

theorem visitors_leave (g : Gate) (i : Nat) :
    (g.leave i).visitors.Perm (g.visitors.filter (· ≠ i)) := by
  rw [← visitors_without]
  unfold leave
  split
  · exact visitors_signal _
  · exact .refl _

theorem mem_visitors_leave {g : Gate} {i j : Nat} :
    j ∈ (g.leave i).visitors ↔ j ∈ g.visitors ∧ j ≠ i := by
  rw [(g.visitors_leave i).mem_iff, List.mem_filter, decide_eq_true_iff]

theorem visitors_notice {g : Gate} {i : Nat} (absent : i ∉ g.waiting) :
    (g.notice i).visitors = g.visitors.filter (· ≠ i) := by
  have kept : g.waiting.filter (· ≠ i) = g.waiting := by
    apply List.filter_eq_self.mpr
    intro j member
    simp only [ne_eq, decide_eq_true_iff]
    rintro rfl
    exact absent member
  rw [← visitors_without, kept]
  rfl

theorem waiting_of_signal {g : Gate} {i : Nat} (h : i ∈ g.signal.waiting) : i ∈ g.waiting := by
  obtain ⟨_, eq⟩ | ⟨visitor, rest, waiting, eq⟩ := g.signal_cases
  · rwa [eq] at h
  · rw [eq] at h
    rw [waiting]
    exact List.mem_cons_of_mem visitor h

theorem waiting_of_leave {g : Gate} {i j : Nat} (h : j ∈ (g.leave i).waiting) :
    j ∈ g.waiting := by
  unfold leave at h
  split at h
  · exact (List.mem_filter.mp (waiting_of_signal h)).1
  · exact (List.mem_filter.mp h).1

theorem isGranted_iff {g : Gate} {i : Nat} : g.isGranted i = true ↔ i ∈ g.granted.map (·.1) := by
  simp [isGranted]

theorem length_without_lt {granted : List (Nat × Signal)} {i : Nat}
    (member : i ∈ granted.map (·.1)) : (granted.filter (·.1 ≠ i)).length < granted.length := by
  obtain ⟨given, member, mine⟩ := List.mem_map.mp member
  apply List.length_filter_lt_length_iff_exists.mpr
  exact ⟨given, member, by simp [mine]⟩

theorem Orderly.new : Orderly {} := ⟨.nil, nofun⟩

theorem Orderly.signal {g : Gate} (h : g.Orderly) : g.signal.Orderly := by
  refine ⟨(g.visitors_signal).nodup_iff.mpr h.once, fun permit => ?_⟩
  obtain ⟨nobody, eq⟩ | ⟨visitor, rest, waiting, eq⟩ := g.signal_cases
  · rw [eq]
    exact nobody
  · rw [eq] at permit
    rw [h.free permit] at waiting
    contradiction

theorem Orderly.signalAll {g : Gate} (h : g.Orderly) : g.signalAll.Orderly :=
  ⟨(g.visitors_signalAll).nodup_iff.mpr h.once, fun _ => rfl⟩

theorem Orderly.pass {g : Gate} (h : g.Orderly) : ({ g with permit := false } : Gate).Orderly :=
  ⟨h.once, nofun⟩

theorem Orderly.wait {g : Gate} (h : g.Orderly) (shut : g.permit = false) {i : Nat}
    (new : i ∉ g.visitors) : ({ g with waiting := g.waiting ++ [i] } : Gate).Orderly := by
  constructor
  · have order : (i :: g.visitors).Nodup := List.nodup_cons.mpr ⟨new, h.once⟩
    refine List.Perm.nodup_iff ?_ |>.mpr order
    rw [visitors, visitors, List.append_assoc]
    exact List.perm_middle
  · intro permit
    rw [shut] at permit
    contradiction

theorem Orderly.notice {g : Gate} (h : g.Orderly) (i : Nat) : (g.notice i).Orderly := by
  refine ⟨h.once.sublist ?_, h.free⟩
  exact (List.Sublist.refl _).append (List.filter_sublist.map _)

theorem Orderly.leave {g : Gate} (h : g.Orderly) (i : Nat) : (g.leave i).Orderly := by
  have left : ({ g with
      waiting := g.waiting.filter (· ≠ i)
      granted := g.granted.filter (·.1 ≠ i) } : Gate).Orderly := by
    constructor
    · rw [visitors, visitors_without]
      exact h.once.filter _
    · intro permit
      rw [h.free permit]
      rfl
  unfold Gate.leave
  split
  · exact left.signal
  · exact left

theorem ones_signal {g : Gate} (waited : g.waiting ≠ []) : g.signal.ones = g.ones + 1 := by
  obtain ⟨nobody, _⟩ | ⟨visitor, rest, _, eq⟩ := g.signal_cases
  · contradiction
  · rw [eq]
    simp [ones]

theorem countP_without_of_absent {granted : List (Nat × Signal)} {i : Nat}
    (absent : (i, Signal.one) ∉ granted) :
    (granted.filter (·.1 ≠ i)).countP (·.2 = .one) = granted.countP (·.2 = .one) := by
  rw [List.countP_filter]
  apply List.countP_congr
  rintro ⟨j, signal⟩ member
  simp only [ne_eq, Bool.and_eq_true, decide_eq_true_iff, and_iff_left_iff_imp]
  rintro rfl rfl
  exact absent member

theorem countP_le_without {granted : List (Nat × Signal)} (once : (granted.map (·.1)).Nodup)
    (i : Nat) :
    granted.countP (·.2 = .one) ≤ (granted.filter (·.1 ≠ i)).countP (·.2 = .one) + 1 := by
  have mine : granted.countP (fun a => decide (a.1 = i)) ≤ 1 := by
    have single := List.nodup_iff_count_le_one.mp once i
    rwa [List.count, List.countP_map] at single
  have split := List.countP_eq_countP_filter_add granted (·.2 = .one) (·.1 ≠ i)
  have few : (granted.filter fun a => !decide (a.1 ≠ i)).countP (·.2 = .one) ≤ 1 := by
    apply Nat.le_trans List.countP_le_length
    rw [← List.countP_eq_length_filter]
    simpa using mine
  omega

theorem ones_le_notice {g : Gate} (h : g.Orderly) (i : Nat) : g.ones ≤ (g.notice i).ones + 1 :=
  countP_le_without (List.nodup_append.mp h.once).2.1 i

theorem ones_le_leave {g : Gate} (h : g.Orderly) {i : Nat} (wait : (g.leave i).waiting ≠ []) :
    g.ones ≤ (g.leave i).ones := by
  have once := (List.nodup_append.mp h.once).2.1
  unfold leave at wait ⊢
  split at wait
  · rename_i mine
    rw [if_pos mine]
    obtain ⟨nobody, eq⟩ | ⟨visitor, rest, _, eq⟩ := signal_cases { g with
      waiting := g.waiting.filter (· ≠ i)
      granted := g.granted.filter (·.1 ≠ i) }
    · rw [eq] at wait
      contradiction
    · rw [eq]
      have few := countP_le_without once i
      simpa [ones] using few
  · rename_i absent
    rw [if_neg absent]
    have same := countP_without_of_absent fun member => absent (List.contains_iff_mem.mpr member)
    exact Nat.le_of_eq same.symm

end MonitorOperator.Gate
