import MonitorOperator.Cluster.Key

/-! Keys with two halves, neither of them empty and both without a slash. The text of such a key is
the text of no other key. -/

namespace MonitorOperator.Key

/-- Both halves are there and neither has a slash. -/
def WellFormed (k : Key) : Prop :=
  k.ns ≠ "" ∧ k.name ≠ "" ∧ '/' ∉ k.ns.toList ∧ '/' ∉ k.name.toList

instance (k : Key) : Decidable k.WellFormed := inferInstanceAs (Decidable (_ ∧ _ ∧ _ ∧ _))

theorem toList_text (k : Key) : k.text.toList = k.ns.toList ++ '/' :: k.name.toList := by
  simp [text]

theorem parse_text {k : Key} (h : k.WellFormed) : parse k.text = .ok k := by
  obtain ⟨ns, name, solid, rest⟩ := h
  have before : ∀ c ∈ k.ns.toList, decide (c ≠ '/') = true := by
    intro c member
    exact decide_eq_true fun slash => solid (slash ▸ member)
  have drop : k.text.toList.dropWhile (· ≠ '/') = '/' :: k.name.toList := by
    rw [toList_text, List.dropWhile_append_of_pos before]; rfl
  have take : k.text.toList.takeWhile (· ≠ '/') = k.ns.toList := by
    rw [toList_text, List.takeWhile_append_of_pos before]; simp
  simp only [parse, drop, take]
  simp [rest, ns, name]

theorem text_of_parse {text : String} {k : Key} (h : parse text = .ok k) : k.text = text := by
  have whole := List.takeWhile_append_dropWhile (p := (· ≠ '/')) (l := text.toList)
  simp only [parse] at h
  split at h
  · contradiction
  · rename_i c name rest
    have slash := List.head?_dropWhile_not (fun c => decide (c ≠ '/')) text.toList
    rw [rest] at slash
    have slash : c = '/' := by simpa using slash
    split at h
    · contradiction
    · split at h
      · contradiction
      · cases h
        rw [← String.toList_inj, toList_text]
        rw [rest, slash] at whole
        simpa using whole

end MonitorOperator.Key
