-- SUMMARY: The ways to cut a text around a word.
/-!
# Cutting around a word

The ways to write a text as what stands before a word, the word, and what stands behind it.
-/

namespace FoldedStacks

/-- The parts before and behind each occurrence of a word. -/
def Text.around (word : List Char) : List Char → List (List Char × List Char)
  | [] => if word = [] then [([], [])] else []
  | c :: cs =>
    let later := (Text.around word cs).map fun (before, behind) => (c :: before, behind)
    if word.isPrefixOf (c :: cs) then ([], (c :: cs).drop word.length) :: later else later

theorem Text.mem_around {word cs before behind : List Char} :
    (before, behind) ∈ Text.around word cs ↔ cs = before ++ (word ++ behind) := by
  induction cs generalizing before with
  | nil =>
    simp only [Text.around]
    split <;> simp_all [eq_comm]
  | cons c cs ih =>
    have hlater : (before, behind) ∈ (Text.around word cs).map (fun p => (c :: p.1, p.2)) ↔
        ∃ b, before = c :: b ∧ cs = b ++ (word ++ behind) := by
      simp only [List.mem_map, Prod.exists, Prod.mk.injEq]
      constructor
      · rintro ⟨b, t, hmem, rfl, rfl⟩; exact ⟨b, rfl, ih.1 hmem⟩
      · rintro ⟨b, rfl, h⟩; exact ⟨b, behind, ih.2 h, rfl, rfl⟩
    have hsplit : (c :: cs = before ++ (word ++ behind)) ↔
        (before = [] ∧ c :: cs = word ++ behind) ∨
          ∃ b, before = c :: b ∧ cs = b ++ (word ++ behind) := by
      cases before with
      | nil => simp
      | cons d ds => simp; grind
    rw [Text.around, hsplit, ← hlater]
    have hhere : word.isPrefixOf (c :: cs) = true ↔ ∃ t, c :: cs = word ++ t := by
      rw [List.isPrefixOf_iff_prefix]
      exact ⟨fun ⟨t, h⟩ => ⟨t, h.symm⟩, fun ⟨t, h⟩ => ⟨t, h.symm⟩⟩
    split
    next h =>
      obtain ⟨t, ht⟩ := hhere.1 h
      have hdrop : (c :: cs).drop word.length = t := by rw [ht]; simp
      rw [List.mem_cons, hdrop, Prod.mk.injEq, ht]
      simp [eq_comm]
    next h =>
      have : ¬ (c :: cs = word ++ behind) := fun hcs => h (hhere.2 ⟨_, hcs⟩)
      simp [this]

end FoldedStacks
