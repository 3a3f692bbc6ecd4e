-- SUMMARY: The numbers of documents: a table lists every document once, in the order of the processes that have it first, and a number that was given stays with its document.
import Mathlib
import FoldedStacks.Proofs.DocumentIdentity
import FoldedStacks.Proofs.Enrichments

/-!
# Numbering documents

A table grows at its end only, so a number that was written into a line still stands for the same
document in the header, which lists the table behind all processes. That a number found by its key
belongs to the document asked for is the soundness of the key.
-/

namespace FoldedStacks

/-- The document that is asked for, but for null. -/
def Document.present? (d? : Option Document) : Option Document :=
  d?.filter fun d => !d.isNull

theorem Document.present?_eq_some_iff {d? : Option Document} {d : Document} :
    Document.present? d? = some d ↔ d? = some d ∧ d.isNull = false := by
  rw [Document.present?, Option.filter_eq_some_iff, Bool.not_eq_true']

/-- The document of a process, but for null. -/
def Profile.document? (p : Profile) : Option Document :=
  p.appMetadata.filter fun d => !d.isNull

/-! ## Tables -/

/-- The table lists the documents behind the entry for none, and finds each of them by its key. -/
structure MetadataTable.Holds (t : MetadataTable) (docs : List Document) : Prop where
  entries : t.entries = none :: docs.map some
  index : ∀ k i, t.index.get? k = some i ↔
    ∃ d, t.entries[i]? = some (some d) ∧ MetadataTable.key d = k

theorem MetadataTable.holds_empty : MetadataTable.empty.Holds [] where
  entries := rfl
  index k i := by
    constructor
    · intro h
      cases h
    · rintro ⟨d, hd, -⟩
      cases i with
      | zero => cases hd
      | succ i => cases hd

/-- The table with a document entered at the end. -/
def MetadataTable.enter (t : MetadataTable) (d : Document) : MetadataTable :=
  ⟨t.entries ++ [some d], t.index.insert (MetadataTable.key d) t.entries.length⟩

private theorem getElem?_concat_eq_some_iff {α : Type} {l : List α} {a b : α} {i : Nat} :
    (l ++ [a])[i]? = some b ↔ l[i]? = some b ∨ i = l.length ∧ a = b := by
  grind

namespace MetadataTable.Holds

variable {t : MetadataTable} {docs : List Document}

/-- A listed document is found by its key. -/
theorem get?_key (h : t.Holds docs) {d : Document} (hd : d ∈ docs) :
    ∃ i, t.index.get? (MetadataTable.key d) = some i := by
  have hmem : some d ∈ t.entries := by
    rw [h.entries]
    exact List.mem_cons_of_mem _ (List.mem_map_of_mem hd)
  obtain ⟨i, hi⟩ := List.mem_iff_getElem?.1 hmem
  exact ⟨i, (h.index _ i).2 ⟨d, hi, rfl⟩⟩

/-- A number found in the index is the place of a listed document. -/
theorem mem_of_getElem? (h : t.Holds docs) {d : Document} {i : Nat}
    (hi : t.entries[i]? = some (some d)) : d ∈ docs := by
  have hmem := List.mem_of_getElem? hi
  rw [h.entries] at hmem
  cases hmem with
  | tail _ htail =>
    obtain ⟨d', hd', heq⟩ := List.mem_map.1 htail
    cases heq
    exact hd'

theorem enter (h : t.Holds docs) {d : Document}
    (hnew : t.index.get? (MetadataTable.key d) = none) : (t.enter d).Holds (docs ++ [d]) where
  entries := by
    simp only [MetadataTable.enter, h.entries, List.map_append, List.map_cons, List.map_nil,
      List.cons_append]
  index k i := by
    simp only [MetadataTable.enter, SortedMap.get?_insert, getElem?_concat_eq_some_iff]
    by_cases hk : k = MetadataTable.key d
    · subst hk
      rw [if_pos rfl]
      constructor
      · intro hi
        exact ⟨d, .inr ⟨(Option.some.inj hi).symm, rfl⟩, rfl⟩
      · rintro ⟨d', hd' | ⟨rfl, -⟩, hkey⟩
        · -- the key would have been found before
          have hfound := (h.index _ i).2 ⟨d', hd', hkey⟩
          rw [hnew] at hfound
          cases hfound
        · rfl
    · rw [if_neg hk, h.index]
      constructor
      · rintro ⟨d', hd', hkey⟩
        exact ⟨d', .inl hd', hkey⟩
      · rintro ⟨d', hd' | ⟨-, hd'⟩, hkey⟩
        · exact ⟨d', hd', hkey⟩
        · cases hd'
          exact absurd hkey.symm hk

end MetadataTable.Holds

/-! ## One number -/

section Step

variable {d? : Option Document} {d : Document} {t : MetadataTable}

theorem MetadataTable.number_of_none (h : Document.present? d? = none) :
    t.number d? = (0, t) := by
  cases d? with
  | none => rfl
  | some d =>
    rw [Document.present?, Option.filter_some] at h
    cases hnull : d.isNull with
    | true => simp only [MetadataTable.number, hnull, if_true]
    | false => simp [hnull] at h

theorem MetadataTable.number_of_listed {i : Nat} (h : Document.present? d? = some d)
    (hi : t.index.get? (MetadataTable.key d) = some i) : t.number d? = (i, t) := by
  obtain ⟨rfl, hnull⟩ := Document.present?_eq_some_iff.1 h
  simp only [MetadataTable.number, hnull, hi, Bool.false_eq_true, if_false]

theorem MetadataTable.number_of_new (h : Document.present? d? = some d)
    (hnew : t.index.get? (MetadataTable.key d) = none) :
    t.number d? = (t.entries.length, t.enter d) := by
  obtain ⟨rfl, hnull⟩ := Document.present?_eq_some_iff.1 h
  simp only [MetadataTable.number, MetadataTable.enter, hnull, hnew, Bool.false_eq_true, if_false]

/-- A number that is not the next one was found in the table. -/
theorem MetadataTable.snd_number_of_lt (h : (t.number d?).1 < t.entries.length) :
    (t.number d?).2 = t := by
  cases hd : Document.present? d? with
  | none => rw [MetadataTable.number_of_none hd]
  | some d =>
    cases hget : t.index.get? (MetadataTable.key d) with
    | some i => rw [MetadataTable.number_of_listed hd hget]
    | none =>
      rw [MetadataTable.number_of_new hd hget] at h
      exact absurd h (Nat.lt_irrefl _)

/-- No document gets 0, one that is listed the number of the same document, and a new one the
    next number. -/
theorem MetadataTable.Holds.number_cases {docs : List Document} (h : t.Holds docs)
    (d? : Option Document) :
    (Document.present? d? = none ∧ t.number d? = (0, t)) ∨
    (∃ d d' i, Document.present? d? = some d ∧ t.number d? = (i, t) ∧
      t.entries[i]? = some (some d') ∧ d'.Same d) ∨
    ∃ d, Document.present? d? = some d ∧ t.number d? = (t.entries.length, t.enter d) ∧
      (t.enter d).Holds (docs ++ [d]) ∧ ∀ d' ∈ docs, ¬ d'.Same d := by
  cases hd : Document.present? d? with
  | none => exact .inl ⟨rfl, MetadataTable.number_of_none hd⟩
  | some d =>
    cases hget : t.index.get? (MetadataTable.key d) with
    | some i =>
      obtain ⟨d', hd', hkey⟩ := (h.index _ i).1 hget
      exact .inr (.inl ⟨d, d', i, rfl, MetadataTable.number_of_listed hd hget, hd',
        MetadataTable.key_eq_iff.1 hkey⟩)
    | none =>
      refine .inr (.inr ⟨d, rfl, MetadataTable.number_of_new hd hget, h.enter hget, ?_⟩)
      intro d' hd' hsame
      obtain ⟨i, hi⟩ := h.get?_key hd'
      rw [MetadataTable.key_eq_iff.2 hsame, hget] at hi
      cases hi

/-- The number of a document is its place. -/
theorem MetadataTable.Holds.entry_number {docs : List Document} (h : t.Holds docs)
    (d? : Option Document) :
    ∃ entry, (t.number d?).2.entries[(t.number d?).1]? = some entry ∧
      Option.Rel Document.Same entry (Document.present? d?) := by
  rcases h.number_cases d? with ⟨hd, hnum⟩ | ⟨d, d', i, hd, hnum, hentry, hsame⟩ |
    ⟨d, hd, hnum, -, -⟩
  · rw [hnum, hd, h.entries]
    exact ⟨none, rfl, .none⟩
  · rw [hnum, hd]
    exact ⟨some d', hentry, .some hsame⟩
  · rw [hnum, hd]
    exact ⟨some d, List.getElem?_concat_length, .some (.refl d)⟩

/-- Numbering enters documents at the end only. -/
theorem MetadataTable.prefix_number (t : MetadataTable) (d : Option Document) :
    t.entries <+: (t.number d).2.entries := by
  cases d with
  | none => exact List.prefix_rfl
  | some d =>
    simp only [MetadataTable.number]
    split
    · exact List.prefix_rfl
    · split
      · exact List.prefix_rfl
      · exact List.prefix_append _ _

end Step

theorem MetadataTable.after_cons (t : MetadataTable) (d : Option Document)
    (ds : List (Option Document)) : t.after (d :: ds) = (t.number d).2.after ds := rfl

theorem MetadataTable.after_append (t : MetadataTable) (ds ds' : List (Option Document)) :
    t.after (ds ++ ds') = (t.after ds).after ds' :=
  List.foldl_append

theorem MetadataTable.prefix_after (t : MetadataTable) (ds : List (Option Document)) :
    t.entries <+: (t.after ds).entries := by
  induction ds generalizing t with
  | nil => exact List.prefix_rfl
  | cons d ds ih => exact (t.prefix_number d).trans (ih (t.number d).2)

/-- An entry stays where it is when others are entered at the end. -/
theorem MetadataTable.getElem?_of_prefix {t t' : MetadataTable} {i : Nat} {entry : Option Document}
    (h : t.entries <+: t'.entries) (hi : t.entries[i]? = some entry) :
    t'.entries[i]? = some entry := by
  obtain ⟨hlt, rfl⟩ := List.getElem?_eq_some_iff.1 hi
  exact List.prefix_iff_getElem?.1 h i hlt

/-! ## All processes -/

/-- One more document that is none of those before. -/
theorem Document.distinct_concat {docs : List Document} {d : Document}
    (h : docs.Pairwise fun d d' => ¬ d.Same d') (hnew : ∀ d' ∈ docs, ¬ d'.Same d) :
    (docs ++ [d]).Pairwise fun d d' => ¬ d.Same d' := by
  refine List.pairwise_append.2 ⟨h, List.pairwise_singleton _ d, ?_⟩
  intro d' hd' d'' hd''
  cases List.mem_singleton.1 hd''
  exact hnew d' hd'

/-- The process is the first one with the document: it has it, and no smaller one has the same. -/
structure Profiles.FirstWith (es : List (Pid × Profile)) (d : Document) (e : Pid × Profile) :
    Prop where
  mem : e ∈ es
  has : e.2.document? = some d
  first : ∀ e' ∈ es, e'.1 < e.1 → ∀ d', e'.2.document? = some d' → ¬ d'.Same d

/-- The documents are those of the processes, each of them once, in the order of the processes
    that have them first. -/
structure Profiles.ListsDocuments (es : List (Pid × Profile)) (docs : List Document) : Prop where
  distinct : docs.Pairwise fun d d' => ¬ d.Same d'
  firsts : ∃ firsts, firsts.Sublist es ∧ List.Forall₂ (Profiles.FirstWith es) docs firsts
  complete : ∀ e ∈ es, ∀ d, e.2.document? = some d → ∃ d' ∈ docs, d'.Same d

section Run

variable {es : List (Pid × Profile)} {docs : List Document} {e : Pid × Profile}

/-- Every listed document is one of a process. -/
theorem Profiles.ListsDocuments.exists_process (h : Profiles.ListsDocuments es docs)
    {d : Document} (hd : d ∈ docs) : ∃ e ∈ es, e.2.document? = some d := by
  obtain ⟨firsts, -, hfirsts⟩ := h.firsts
  have hprocess := (List.forall₂_and_left _ _).1 (hfirsts.imp fun d e hfirst =>
    ⟨(⟨e, hfirst.mem, hfirst.has⟩ : ∃ e ∈ es, e.2.document? = some d), hfirst⟩)
  exact hprocess.1 d hd

/-- Greater processes change nothing about which one is the first. -/
theorem Profiles.FirstWith.concat {d : Document} {f : Pid × Profile}
    (h : Profiles.FirstWith es d f) (hes : ∀ e' ∈ es, e'.1 < e.1) :
    Profiles.FirstWith (es ++ [e]) d f where
  mem := List.mem_append_left _ h.mem
  has := h.has
  first := by
    intro e' he' hlt
    rcases List.mem_append.1 he' with he' | he'
    · exact h.first e' he' hlt
    · cases List.mem_singleton.1 he'
      exact absurd (hes f h.mem) (UInt32.lt_asymm hlt)

/-- A process whose document is listed already, or that has none. -/
theorem Profiles.ListsDocuments.concat_listed (h : Profiles.ListsDocuments es docs)
    (hes : ∀ e' ∈ es, e'.1 < e.1)
    (he : ∀ d, e.2.document? = some d → ∃ d' ∈ docs, d'.Same d) :
    Profiles.ListsDocuments (es ++ [e]) docs where
  distinct := h.distinct
  firsts := by
    obtain ⟨firsts, hsub, hfirsts⟩ := h.firsts
    exact ⟨firsts, hsub.trans (List.sublist_append_left es [e]),
      hfirsts.imp fun d f hf => hf.concat hes⟩
  complete := by
    intro e' he'
    rcases List.mem_append.1 he' with he' | he'
    · exact h.complete e' he'
    · cases List.mem_singleton.1 he'
      exact he

/-- A process whose document is new. -/
theorem Profiles.ListsDocuments.concat_new (h : Profiles.ListsDocuments es docs)
    (hes : ∀ e' ∈ es, e'.1 < e.1) {d : Document} (he : e.2.document? = some d)
    (hnew : ∀ d' ∈ docs, ¬ d'.Same d) :
    Profiles.ListsDocuments (es ++ [e]) (docs ++ [d]) where
  distinct := Document.distinct_concat h.distinct hnew
  firsts := by
    obtain ⟨firsts, hsub, hfirsts⟩ := h.firsts
    have hfirst : Profiles.FirstWith (es ++ [e]) d e := by
      refine ⟨List.mem_append_right es List.mem_cons_self, he, ?_⟩
      intro e' he' hlt d' hd' hsame
      rcases List.mem_append.1 he' with he' | he'
      · -- the table would hold a document that is the same
        obtain ⟨d'', hmem, hsame'⟩ := h.complete e' he' d' hd'
        exact hnew d'' hmem (hsame'.trans hsame)
      · cases List.mem_singleton.1 he'
        exact UInt32.lt_irrefl _ hlt
    exact ⟨firsts ++ [e], hsub.append (List.Sublist.refl [e]),
      List.rel_append (hfirsts.imp fun d f hf => hf.concat hes) (.cons hfirst .nil)⟩
  complete := by
    intro e' he' d' hd'
    rcases List.mem_append.1 he' with he' | he'
    · obtain ⟨d'', hmem, hsame⟩ := h.complete e' he' d' hd'
      exact ⟨d'', List.mem_append_left _ hmem, hsame⟩
    · cases List.mem_singleton.1 he'
      rw [he] at hd'
      cases hd'
      exact ⟨d, List.mem_append_right docs List.mem_cons_self, .refl d⟩

/-- Numbering the document of one more process. -/
theorem MetadataTable.Holds.step {t : MetadataTable} (h : t.Holds docs)
    (hlists : Profiles.ListsDocuments es docs) (hes : ∀ e' ∈ es, e'.1 < e.1) :
    ∃ docs', (t.number e.2.appMetadata).2.Holds docs' ∧
      Profiles.ListsDocuments (es ++ [e]) docs' := by
  rcases h.number_cases e.2.appMetadata with ⟨hp, hnum⟩ | ⟨d, d', i, hp, hnum, hentry, hsame⟩ |
    ⟨d, hp, hnum, hholds, hnew⟩
  · rw [hnum]
    refine ⟨docs, h, hlists.concat_listed hes ?_⟩
    intro d hd
    cases hp.symm.trans hd
  · rw [hnum]
    refine ⟨docs, h, hlists.concat_listed hes ?_⟩
    intro d₁ hd₁
    cases hp.symm.trans hd₁
    exact ⟨d', h.mem_of_getElem? hentry, hsame⟩
  · rw [hnum]
    exact ⟨docs ++ [d], hholds, hlists.concat_new hes hp hnew⟩

/-- Numbering the documents of further processes, in ascending order. -/
theorem MetadataTable.Holds.run {t : MetadataTable} {before : List (Pid × Profile)}
    (h : t.Holds docs) (hlists : Profiles.ListsDocuments before docs)
    (hasc : Entries.Ascending (before ++ es)) :
    ∃ docs', (t.after (es.map (·.2.appMetadata))).Holds docs' ∧
      Profiles.ListsDocuments (before ++ es) docs' := by
  -- each step moves one process to those before, which stay in ascending order
  induction es generalizing t before docs with
  | nil =>
    rw [List.append_nil]
    exact ⟨docs, h, hlists⟩
  | cons e es ih =>
    have hbefore : ∀ e' ∈ before, e'.1 < e.1 := by
      intro e' he'
      exact Std.compare_eq_lt.1 (hasc.lt_of_append he')
    have hnext : before ++ e :: es = (before ++ [e]) ++ es := by
      rw [List.append_assoc, List.singleton_append]
    rw [hnext] at hasc ⊢
    obtain ⟨docs', hholds, hlists'⟩ := h.step hlists hbefore
    exact ih hholds hlists' hasc

end Run

theorem Profiles.listsDocuments_nil : Profiles.ListsDocuments [] [] where
  distinct := List.Pairwise.nil
  firsts := ⟨[], List.Sublist.refl [], .nil⟩
  complete := by
    intro e he
    cases he

/-- The table behind some processes in ascending order. -/
theorem MetadataTable.holds_after {es : List (Pid × Profile)} (hasc : Entries.Ascending es) :
    ∃ docs, (MetadataTable.empty.after (es.map (·.2.appMetadata))).Holds docs ∧
      Profiles.ListsDocuments es docs :=
  MetadataTable.holds_empty.run Profiles.listsDocuments_nil hasc

/-- The number that a pass gives to a process is the place of its document in the final table. -/
theorem Profiles.entry_documentNumber (ps : Profiles) {e : Pid × Profile} (he : e ∈ ps.entries) :
    ∃ entry, (MetadataTable.empty.after
        (ps.entries.map (·.2.appMetadata))).entries[ps.documentNumber e.1 e.2]? = some entry ∧
      Option.Rel Document.Same entry e.2.document? := by
  obtain ⟨before, behind, hsplit⟩ := List.append_of_mem he
  have hasc := ps.ascending
  rw [hsplit] at hasc
  obtain ⟨docs, hholds, -⟩ := MetadataTable.holds_after (List.pairwise_append.1 hasc).1
  obtain ⟨entry, hentry, hsame⟩ := hholds.entry_number e.2.appMetadata
  have hbefore : ps.before e.1 = before := SortedMap.filter_lt hsplit
  refine ⟨entry, ?_, hsame⟩
  -- the table in which the process was numbered is the beginning of the final one
  rw [Profiles.documentNumber, hbefore, hsplit, List.map_append, MetadataTable.after_append,
    List.map_cons, MetadataTable.after_cons]
  exact MetadataTable.getElem?_of_prefix (MetadataTable.prefix_after _ _) hentry

end FoldedStacks
