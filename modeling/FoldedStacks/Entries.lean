-- SUMMARY: Sorted key-value lists: look-up, updating and erasing by key.
/-!
# Sorted entries

Key-value pairs in a list whose keys stand strictly ascending: look-up, updating and erasing by
key. The tables of `SortedMap` and the members of a JSON object are kept this way.
-/

namespace FoldedStacks

variable {κ α β : Type} [Ord κ]

/-! ## Operations -/

/-- The value under a key. -/
def Entries.get? (k : κ) : List (κ × α) → Option α
  | [] => none
  | (k', a) :: rest => if compare k k' = .eq then some a else Entries.get? k rest

/-- Puts `f` of the present value under a key, at the key's place in the order. -/
def Entries.upsert (k : κ) (f : Option α → α) : List (κ × α) → List (κ × α)
  | [] => [(k, f none)]
  | (k', a) :: rest =>
    match compare k k' with
    | .lt => (k, f none) :: (k', a) :: rest
    | .eq => (k', f (some a)) :: rest
    | .gt => (k', a) :: Entries.upsert k f rest

/-- Maps each entry to a new value or drops it, given its place, which is counted from `i`. -/
def Entries.filterMapFrom (f : Nat → κ × α → Option β) : Nat → List (κ × α) → List (κ × β)
  | _, [] => []
  | i, e :: rest =>
    match f i e with
    | some b => (e.1, b) :: Entries.filterMapFrom f (i + 1) rest
    | none => Entries.filterMapFrom f (i + 1) rest

/-- The entries without the one under a key. -/
def Entries.erase (k : κ) (l : List (κ × α)) : List (κ × α) :=
  l.filter fun e => compare k e.1 != .eq

/-- The keys stand strictly ascending, so none stands twice. -/
def Entries.Ascending (l : List (κ × α)) : Prop :=
  l.Pairwise fun e₁ e₂ => compare e₁.1 e₂.1 = .lt

/-! ## The order is kept -/

@[simp] theorem Entries.ascending_nil : Entries.Ascending ([] : List (κ × α)) :=
  List.Pairwise.nil

theorem Entries.ascending_cons {e : κ × α} {l : List (κ × α)} :
    Entries.Ascending (e :: l) ↔ (∀ e' ∈ l, compare e.1 e'.1 = .lt) ∧ Entries.Ascending l :=
  List.pairwise_cons

theorem Entries.Ascending.erase {l : List (κ × α)} (h : Entries.Ascending l) (k : κ) :
    Entries.Ascending (Entries.erase k l) :=
  h.filter _

/-- A map on the values that may drop entries leaves the keys in order. -/
theorem Entries.Ascending.filterMap {l : List (κ × α)} (h : Entries.Ascending l)
    (f : κ × α → Option β) :
    Entries.Ascending (l.filterMap fun e => (f e).map (e.1, ·)) := by
  refine List.Pairwise.filterMap _ ?_ h
  intro e₁ e₂ hlt b₁ h₁ b₂ h₂
  simp only [Option.map_eq_some_iff] at h₁ h₂
  obtain ⟨_, _, rfl⟩ := h₁
  obtain ⟨_, _, rfl⟩ := h₂
  exact hlt

omit [Ord κ] in
/-- Every entry that is left has the key of an entry that was there. -/
theorem Entries.mem_filterMapFrom {f : Nat → κ × α → Option β} {i : Nat} {l : List (κ × α)}
    {d : κ × β} (h : d ∈ Entries.filterMapFrom f i l) : ∃ e ∈ l, e.1 = d.1 := by
  induction l generalizing i with
  | nil => simp [Entries.filterMapFrom] at h
  | cons e rest ih =>
    rw [Entries.filterMapFrom] at h
    split at h
    · rcases List.mem_cons.1 h with rfl | h
      · exact ⟨e, by simp, rfl⟩
      · obtain ⟨e', he', hk⟩ := ih h
        exact ⟨e', by simp [he'], hk⟩
    · obtain ⟨e', he', hk⟩ := ih h
      exact ⟨e', by simp [he'], hk⟩

theorem Entries.Ascending.filterMapFrom {l : List (κ × α)} (h : Entries.Ascending l)
    (f : Nat → κ × α → Option β) (i : Nat) : Entries.Ascending (Entries.filterMapFrom f i l) := by
  induction l generalizing i with
  | nil => exact Entries.ascending_nil
  | cons e rest ih =>
    obtain ⟨he, hrest⟩ := Entries.ascending_cons.1 h
    rw [Entries.filterMapFrom]
    split
    · refine Entries.ascending_cons.2 ⟨fun d hd => ?_, ih hrest _⟩
      obtain ⟨e', he', hk⟩ := Entries.mem_filterMapFrom hd
      rw [← hk]; exact he e' he'
    · exact ih hrest _

theorem Entries.mem_upsert {k : κ} {f : Option α → α} {l : List (κ × α)} {e : κ × α}
    (h : e ∈ Entries.upsert k f l) : e.1 = k ∨ ∃ e' ∈ l, e'.1 = e.1 := by
  induction l with
  | nil =>
    simp only [Entries.upsert, List.mem_singleton] at h
    exact .inl (by rw [h])
  | cons d ds ih =>
    rw [Entries.upsert] at h
    split at h
    · rcases List.mem_cons.1 h with rfl | h
      · exact .inl rfl
      · exact .inr ⟨e, h, rfl⟩
    · rcases List.mem_cons.1 h with rfl | h
      · exact .inr ⟨d, by simp, rfl⟩
      · exact .inr ⟨e, by simp [h], rfl⟩
    · rcases List.mem_cons.1 h with rfl | h
      · exact .inr ⟨d, by simp, rfl⟩
      · rcases ih h with hk | ⟨e', he', hk⟩
        · exact .inl hk
        · exact .inr ⟨e', by simp [he'], hk⟩

theorem Entries.Ascending.upsert [Std.TransOrd κ] {l : List (κ × α)}
    (h : Entries.Ascending l) (k : κ) (f : Option α → α) :
    Entries.Ascending (Entries.upsert k f l) := by
  induction l with
  | nil => exact List.pairwise_singleton _ _
  | cons d ds ih =>
    obtain ⟨hd, hds⟩ := Entries.ascending_cons.1 h
    rw [Entries.upsert]
    split
    next hlt =>
      refine Entries.ascending_cons.2 ⟨fun e he => ?_, h⟩
      rcases List.mem_cons.1 he with rfl | he
      · exact hlt
      · exact Std.TransCmp.lt_trans hlt (hd e he)
    next => exact Entries.ascending_cons.2 ⟨hd, hds⟩
    next hgt =>
      refine Entries.ascending_cons.2 ⟨fun e he => ?_, ih hds⟩
      rcases Entries.mem_upsert he with hk | ⟨e', he', hk⟩
      · rw [hk]; exact Std.OrientedCmp.lt_of_gt hgt
      · rw [← hk]; exact hd e' he'

/-! ## Reading after an update -/

theorem Entries.get?_eq_none_of_lt {k : κ} {l : List (κ × α)}
    (h : ∀ e ∈ l, compare k e.1 = .lt) : Entries.get? k l = none := by
  induction l with
  | nil => rfl
  | cons d ds ih =>
    have hd := h d (by simp)
    rw [Entries.get?, if_neg (by simp [hd])]
    exact ih fun e he => h e (by simp [he])

theorem Entries.get?_upsert [Std.TransOrd κ] {l : List (κ × α)} (h : Entries.Ascending l)
    (k k' : κ) (f : Option α → α) :
    Entries.get? k' (Entries.upsert k f l) =
      if compare k' k = .eq then some (f (Entries.get? k l)) else Entries.get? k' l := by
  induction l with
  | nil => simp [Entries.upsert, Entries.get?]
  | cons d ds ih =>
    obtain ⟨hd, hds⟩ := Entries.ascending_cons.1 h
    rw [Entries.upsert]
    split
    next hlt =>
      have hnone : Entries.get? k (d :: ds) = none :=
        Entries.get?_eq_none_of_lt fun e he => by
          rcases List.mem_cons.1 he with rfl | he
          · exact hlt
          · exact Std.TransCmp.lt_trans hlt (hd e he)
      rw [Entries.get?, hnone]
    next heq =>
      have hk : Entries.get? k (d :: ds) = some d.2 := by simp [Entries.get?, heq]
      rw [hk]
      simp only [Entries.get?]
      by_cases hk' : compare k' k = .eq
      · simp [hk', Std.TransCmp.eq_trans hk' heq]
      · have : compare k' d.1 ≠ .eq := fun hd' =>
          hk' (Std.TransCmp.eq_trans hd' (Std.OrientedCmp.eq_symm heq))
        simp [hk', this]
    next hgt =>
      have hk : Entries.get? k (d :: ds) = Entries.get? k ds := by simp [Entries.get?, hgt]
      rw [hk]
      simp only [Entries.get?, ih hds]
      by_cases hk' : compare k' k = .eq
      · have : compare k' d.1 = .gt := by rw [Std.TransCmp.congr_left hk']; exact hgt
        simp [hk', this]
      · simp [hk']

end FoldedStacks
