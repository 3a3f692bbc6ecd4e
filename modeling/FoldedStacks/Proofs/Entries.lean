-- SUMMARY: Sorted entries are known by their look-ups: membership, order of the keys, and equality of maps.
import Mathlib
import FoldedStacks.Pid
import FoldedStacks.SortedMap

/-!
# Entries and look-ups

A list of entries with ascending keys is known by what its look-ups return. An entry found by its
key is an entry of the list, and two lists with the same entries are one list.
-/

namespace FoldedStacks

variable {κ α : Type} [Ord κ]

/-! ## Order of the keys -/

theorem Entries.Ascending.lt_of_append {l l' : List (κ × α)} {e e' : κ × α}
    (h : Entries.Ascending (l ++ e :: l')) (he' : e' ∈ l) : compare e'.1 e.1 = .lt := by
  have hpairs := List.pairwise_append.1 h
  exact hpairs.2.2 e' he' e (by simp)

theorem Entries.Ascending.key_ne_of_append [Std.LawfulEqOrd κ] {l l' : List (κ × α)}
    {e e' : κ × α} (h : Entries.Ascending (l ++ e :: l')) (he' : e' ∈ l) : e'.1 ≠ e.1 := by
  intro heq
  have hlt := h.lt_of_append he'
  rw [heq, Std.ReflOrd.compare_self] at hlt
  exact absurd hlt (by decide)

/-- Lists of ascending keys with the same entries are equal. -/
theorem Entries.Ascending.ext [Std.TransOrd κ] {l l' : List (κ × α)}
    (h : Entries.Ascending l) (h' : Entries.Ascending l') (hmem : ∀ e, e ∈ l ↔ e ∈ l') :
    l = l' := by
  induction l generalizing l' with
  | nil =>
    cases l' with
    | nil => rfl
    | cons d ds => exact absurd ((hmem d).2 (by simp)) (by simp)
  | cons e es ih =>
    cases l' with
    | nil => exact absurd ((hmem e).1 (by simp)) (by simp)
    | cons d ds =>
      obtain ⟨he, hes⟩ := Entries.ascending_cons.1 h
      obtain ⟨hd, hds⟩ := Entries.ascending_cons.1 h'
      have irrefl : ∀ k : κ, compare k k ≠ .lt := fun k => by
        rw [Std.ReflOrd.compare_self]; decide
      -- each head would stand below the other one if they differed
      have hhead : e = d := by
        rcases List.mem_cons.1 ((hmem e).1 (by simp)) with heq | hin
        · exact heq
        rcases List.mem_cons.1 ((hmem d).2 (by simp)) with heq | hin'
        · exact heq.symm
        · exact absurd (Std.TransCmp.lt_trans (hd e hin) (he d hin')) (irrefl _)
      subst hhead
      congr 1
      apply ih hes hds
      intro x
      constructor
      · intro hx
        rcases List.mem_cons.1 ((hmem x).1 (by simp [hx])) with rfl | hin
        · exact absurd (he x hx) (irrefl _)
        · exact hin
      · intro hx
        rcases List.mem_cons.1 ((hmem x).2 (by simp [hx])) with rfl | hin
        · exact absurd (hd x hx) (irrefl _)
        · exact hin

theorem Entries.Ascending.map {β : Type} {l : List (κ × α)} (h : Entries.Ascending l)
    (f : α → β) : Entries.Ascending (l.map fun e => (e.1, f e.2)) :=
  List.pairwise_map.2 h

theorem Entries.Ascending.nodup_keys [Std.TransOrd κ] {l : List (κ × α)}
    (h : Entries.Ascending l) : (l.map Prod.fst).Nodup := by
  refine List.pairwise_map.2 (h.imp ?_)
  intro e e' hlt heq
  rw [heq, Std.ReflOrd.compare_self] at hlt
  cases hlt

/-! ## Look-ups -/

theorem Entries.get?_map {β : Type} (f : α → β) (k : κ) (l : List (κ × α)) :
    Entries.get? k (l.map fun e => (e.1, f e.2)) = (Entries.get? k l).map f := by
  induction l with
  | nil => rfl
  | cons e l ih =>
    rw [List.map_cons, Entries.get?, Entries.get?, ih]
    split <;> rfl

theorem Entries.get?_eq_some_iff [Std.TransOrd κ] [Std.LawfulEqOrd κ] {l : List (κ × α)}
    (h : Entries.Ascending l) {k : κ} {a : α} : Entries.get? k l = some a ↔ (k, a) ∈ l := by
  induction l with
  | nil => simp [Entries.get?]
  | cons e es ih =>
    obtain ⟨he, hes⟩ := Entries.ascending_cons.1 h
    rw [Entries.get?, List.mem_cons]
    by_cases hk : k = e.1
    · subst hk
      have hnot : (e.1, a) ∉ es := fun hin => by
        have := he _ hin
        rw [Std.ReflOrd.compare_self] at this
        exact absurd this (by decide)
      simp [Std.ReflOrd.compare_self, hnot, Prod.ext_iff, eq_comm]
    · have hcmp : compare k e.1 ≠ .eq := fun hc => hk (Std.LawfulEqCmp.compare_eq_iff_eq.1 hc)
      rw [if_neg hcmp, ih hes]
      constructor
      · exact .inr
      · rintro (rfl | hin)
        · exact absurd rfl hk
        · exact hin

/-- Lists of ascending keys with the same look-ups are equal. -/
theorem Entries.Ascending.ext_get? [Std.TransOrd κ] [Std.LawfulEqOrd κ] {l l' : List (κ × α)}
    (h : Entries.Ascending l) (h' : Entries.Ascending l')
    (hget : ∀ k, Entries.get? k l = Entries.get? k l') : l = l' := by
  apply h.ext h'
  rintro ⟨k, a⟩
  rw [← Entries.get?_eq_some_iff h, ← Entries.get?_eq_some_iff h', hget k]

theorem SortedMap.get?_eq_some_iff [Std.TransOrd κ] [Std.LawfulEqOrd κ] {m : SortedMap κ α}
    {k : κ} {a : α} : m.get? k = some a ↔ (k, a) ∈ m.entries :=
  Entries.get?_eq_some_iff m.ascending

theorem SortedMap.mem_keys_iff [Std.TransOrd κ] [Std.LawfulEqOrd κ] {m : SortedMap κ α} {k : κ} :
    k ∈ m.keys ↔ ∃ a, m.get? k = some a := by
  simp only [SortedMap.keys, List.mem_map, Prod.exists, SortedMap.get?_eq_some_iff,
    exists_and_right, exists_eq_right]

theorem SortedMap.nodup_keys [Std.TransOrd κ] (m : SortedMap κ α) : m.keys.Nodup :=
  m.ascending.nodup_keys

theorem SortedMap.mem_keys_insert [Std.TransOrd κ] [Std.LawfulEqOrd κ] [DecidableEq κ]
    {m : SortedMap κ α} {k k' : κ} {a : α} :
    k' ∈ (m.insert k a).keys ↔ k' = k ∨ k' ∈ m.keys := by
  rw [SortedMap.mem_keys_iff, SortedMap.mem_keys_iff, SortedMap.get?_insert]
  by_cases h : k' = k
  · simp [h]
  · simp [h]

/-- Two maps that agree on the keys of a class have the same entries with such keys. -/
theorem SortedMap.filter_entries_congr [Std.TransOrd κ] [Std.LawfulEqOrd κ]
    (m m' : SortedMap κ α) (p : κ → Bool) (h : ∀ k, p k = true → m.get? k = m'.get? k) :
    (m.entries.filter fun e => p e.1) = m'.entries.filter fun e => p e.1 := by
  apply Entries.Ascending.ext (m.ascending.filter _) (m'.ascending.filter _)
  intro e
  simp only [List.mem_filter]
  apply and_congr_left
  intro hp
  have hget := h e.1 hp
  rw [← SortedMap.get?_eq_some_iff (m := m), ← SortedMap.get?_eq_some_iff (m := m'), hget]

/-- The entries below an entry are those before it. -/
theorem SortedMap.filter_lt {m : SortedMap Pid α} {before after : List (Pid × α)} {e : Pid × α}
    (h : m.entries = before ++ e :: after) :
    (m.entries.filter fun e' => decide (e'.1 < e.1)) = before := by
  have hasc := m.ascending
  rw [h] at hasc ⊢
  have hbefore : before.filter (fun e' => decide (e'.1 < e.1)) = before := by
    apply List.filter_eq_self.2
    intro e' he'
    exact decide_eq_true (Std.compare_eq_lt.1 (hasc.lt_of_append he'))
  have hafter : (e :: after).filter (fun e' => decide (e'.1 < e.1)) = [] := by
    apply List.filter_eq_nil_iff.2
    intro e' he'
    have htail := (List.pairwise_append.1 hasc).2.1
    rw [decide_eq_true_eq, UInt32.not_lt]
    rcases List.mem_cons.1 he' with rfl | hin
    · exact UInt32.le_refl _
    · exact UInt32.le_of_lt (Std.compare_eq_lt.1 ((Entries.ascending_cons.1 htail).1 e' hin))
  rw [List.filter_append, hbefore, hafter, List.append_nil]

/-! ## Places -/

/-- A key above all others is entered at the end. -/
theorem Entries.upsert_of_above [Std.TransOrd κ] {k : κ} {l : List (κ × α)}
    (h : ∀ e ∈ l, compare e.1 k = .lt) (f : Option α → α) :
    Entries.upsert k f l = l ++ [(k, f none)] := by
  induction l with
  | nil => rfl
  | cons e es ih =>
    have hgt : compare k e.1 = .gt := Std.OrientedCmp.gt_of_lt (h e (by simp))
    rw [Entries.upsert, hgt, ih fun e' he' => h e' (by simp [he']), List.cons_append]

omit [Ord κ] in
/-- What becomes of the first entry, and of the rest one place later. -/
theorem Entries.filterMapFrom_cons {β : Type} (f : Nat → κ × α → Option β) (i : Nat) (e : κ × α)
    (l : List (κ × α)) :
    Entries.filterMapFrom f i [e] ++ Entries.filterMapFrom f (i + 1) l =
      Entries.filterMapFrom f i (e :: l) := by
  rw [Entries.filterMapFrom, Entries.filterMapFrom, Entries.filterMapFrom]
  cases f i e <;> rfl

/-- The entry at a place is looked up as what becomes of it there. -/
theorem Entries.get?_filterMapFrom [Std.TransOrd κ] {β : Type}
    {f : Nat → κ × α → Option β} {l : List (κ × α)} (h : Entries.Ascending l) (i : Nat) {j : Nat}
    {e : κ × α} (he : l[j]? = some e) :
    Entries.get? e.1 (Entries.filterMapFrom f i l) = f (i + j) e := by
  induction l generalizing i j with
  | nil => cases he
  | cons d ds ih =>
    obtain ⟨hd, hds⟩ := Entries.ascending_cons.1 h
    -- whatever becomes of the rest, its keys stand above the first one
    have habove : ∀ d' ∈ Entries.filterMapFrom f (i + 1) ds, compare d.1 d'.1 = .lt := by
      intro d' hd'
      obtain ⟨e', he', hkey⟩ := Entries.mem_filterMapFrom hd'
      rw [← hkey]
      exact hd e' he'
    rw [Entries.filterMapFrom]
    cases j with
    | zero =>
      obtain rfl : d = e := Option.some.inj he
      rw [Nat.add_zero]
      cases f i d with
      | none => exact Entries.get?_eq_none_of_lt habove
      | some b => exact if_pos Std.ReflOrd.compare_self
    | succ j =>
      have hmem : e ∈ ds := List.mem_of_getElem? he
      have hne : compare e.1 d.1 ≠ .eq := by
        rw [Std.OrientedCmp.gt_of_lt (hd e hmem)]
        decide
      have hrest := ih hds (i + 1) he
      rw [Nat.add_right_comm, Nat.add_assoc] at hrest
      cases f i d with
      | none => exact hrest
      | some b => rw [Entries.get?, if_neg hne]; exact hrest

theorem SortedMap.exists_place [Std.TransOrd κ] [Std.LawfulEqOrd κ] {m : SortedMap κ α} {k : κ}
    {a : α} (h : m.get? k = some a) : ∃ j : Nat, m.entries[j]? = some (k, a) :=
  List.mem_iff_getElem?.1 (SortedMap.get?_eq_some_iff.1 h)

theorem SortedMap.get?_of_place [Std.TransOrd κ] [Std.LawfulEqOrd κ] {m : SortedMap κ α} {j : Nat}
    {k : κ} {a : α} (h : m.entries[j]? = some (k, a)) : m.get? k = some a :=
  SortedMap.get?_eq_some_iff.2 (List.mem_of_getElem? h)

theorem SortedMap.get?_filterMapIdx [Std.TransOrd κ] {β : Type} {m : SortedMap κ α}
    (f : Nat → κ × α → Option β) {j : Nat} {k : κ} {a : α} (h : m.entries[j]? = some (k, a)) :
    (m.filterMapIdx f).get? k = f j (k, a) :=
  (Entries.get?_filterMapFrom m.ascending 0 h).trans (by rw [Nat.zero_add])

theorem SortedMap.mem_keys_of_filterMapIdx {β : Type} {m : SortedMap κ α}
    {f : Nat → κ × α → Option β} {k : κ} (h : k ∈ (m.filterMapIdx f).keys) : k ∈ m.keys := by
  obtain ⟨d, hd, rfl⟩ := List.mem_map.1 h
  obtain ⟨e, he, hkey⟩ := Entries.mem_filterMapFrom hd
  exact List.mem_map.2 ⟨e, he, hkey⟩

/-! ## The last entry of a key -/

section Last

variable {ι β γ : Type} [DecidableEq ι]

/-- What stands last under a key. -/
def Entries.last? (l : List (ι × β)) (i : ι) : Option β :=
  ((l.filter fun e => decide (e.1 = i)).getLast?).map (·.2)

theorem Entries.last?_concat (l : List (ι × β)) (e : ι × β) (i : ι) :
    Entries.last? (l ++ [e]) i = if i = e.1 then some e.2 else Entries.last? l i := by
  unfold Entries.last?
  by_cases hi : i = e.1
  · simp [hi]
  · simp [hi, Ne.symm hi]

theorem Entries.last?_cons (e : ι × β) (l : List (ι × β)) (i : ι) :
    Entries.last? (e :: l) i = (Entries.last? l i).or (if i = e.1 then some e.2 else none) := by
  unfold Entries.last?
  by_cases hi : i = e.1
  · rw [List.filter_cons_of_pos (by simp [hi]), List.getLast?_cons]
    cases (l.filter fun e => decide (e.1 = i)).getLast? <;> simp [hi]
  · simp [hi, Ne.symm hi]

theorem Entries.mem_of_last? {l : List (ι × β)} {i : ι} {b : β} (h : Entries.last? l i = some b) :
    (i, b) ∈ l := by
  obtain ⟨e, he, rfl⟩ := Option.map_eq_some_iff.1 h
  obtain ⟨hmem, hi⟩ := List.mem_filter.1 (List.mem_of_getLast? he)
  rw [← of_decide_eq_true hi]
  exact hmem

theorem Entries.last?_eq_none_iff {l : List (ι × β)} {i : ι} :
    Entries.last? l i = none ↔ i ∉ l.map Prod.fst := by
  simp only [Entries.last?, Option.map_eq_none_iff, List.getLast?_eq_none_iff,
    List.filter_eq_nil_iff, decide_eq_true_eq, List.mem_map, not_exists, not_and]

/-- An entry whose key no other one has is the last one of it. -/
theorem Entries.last?_eq_some_of_mem {l : List (ι × β)} (h : (l.map Prod.fst).Nodup) {i : ι}
    {b : β} (hmem : (i, b) ∈ l) : Entries.last? l i = some b := by
  cases hlast : Entries.last? l i with
  | none => exact absurd (List.mem_map.2 ⟨_, hmem, rfl⟩) (Entries.last?_eq_none_iff.1 hlast)
  | some b' =>
    have heq := List.inj_on_of_nodup_map h (Entries.mem_of_last? hlast) hmem rfl
    rw [(Prod.mk.inj heq).2]

theorem Entries.Ascending.last?_eq [Ord ι] [Std.TransOrd ι] [Std.LawfulEqOrd ι]
    {l : List (ι × β)} (h : Entries.Ascending l) (i : ι) :
    Entries.last? l i = Entries.get? i l := by
  induction l with
  | nil => rfl
  | cons e l ih =>
    obtain ⟨he, hl⟩ := Entries.ascending_cons.1 h
    rw [Entries.last?_cons, ih hl, Entries.get?]
    simp only [Std.LawfulEqCmp.compare_eq_iff_eq]
    by_cases hi : i = e.1
    · subst hi
      rw [Entries.get?_eq_none_of_lt he, if_pos rfl, Option.none_or]
    · rw [if_neg hi, if_neg hi, Option.or_none]

theorem Entries.last?_map {f : ι × β → ι × γ} (hf : ∀ e, (f e).1 = e.1) (l : List (ι × β))
    (i : ι) : Entries.last? (l.map f) i = (Entries.last? l i).map fun b => (f (i, b)).2 := by
  induction l using List.reverseRecOn with
  | nil => rfl
  | append_singleton l e ih =>
    rw [List.map_append, List.map_singleton, Entries.last?_concat, Entries.last?_concat, hf, ih]
    by_cases hi : i = e.1
    · simp [hi]
    · simp [hi]

end Last

/-- Of the pairs of one key, a map keeps the last. -/
theorem SortedMap.get?_ofList [Std.TransOrd κ] [Std.LawfulEqOrd κ] [DecidableEq κ]
    (l : List (κ × α)) (k : κ) : (SortedMap.ofList l).get? k = Entries.last? l k := by
  induction l using List.reverseRecOn with
  | nil => rfl
  | append_singleton l e ih =>
    have hinsert : SortedMap.ofList (l ++ [e]) = (SortedMap.ofList l).insert e.1 e.2 := by
      simp only [SortedMap.ofList, List.foldl_append, List.foldl_cons, List.foldl_nil]
    rw [hinsert, SortedMap.get?_insert, Entries.last?_concat, ih]

end FoldedStacks
