-- SUMMARY: The numbers of documents over any run: a number that was given goes on to stand for its document, and two documents get one number exactly if they are equal.
import Mathlib
import FoldedStacks.Proofs.DocumentEquality
import FoldedStacks.Proofs.ExactNumbers
import FoldedStacks.Proofs.MetadataNumbering

/-!
# A table over a whole run

Whatever a table is asked for, it lists no document twice, so a document has one place in it. Since
entries never move, that place is the number of the document from the first time it is asked for.
-/

namespace FoldedStacks

/-! ## Contents -/

/-- The value that is asked for, or that an entry holds: no document counts as null. -/
def Document.orNull (d? : Option Document) : Json :=
  (d?.map Document.value).getD .null

theorem Json.content_eq_null_iff {v : Json} : v.content = .null ↔ v = .null := by
  cases v <;> simp [Json.content, Json.canonical, Json.normal]

theorem Json.content_canonical (v : Json) : v.canonical.content = v.content := by
  rw [Json.content, Json.content, Json.Canonical.canonical_eq _ v.canonical_canonical]

theorem Document.same_iff {d d' : Document} :
    d.Same d' ↔ d.value.content = d'.value.content := by
  rw [Json.content, Json.content, Json.Canonical.canonical_eq _ d.canonical,
    Json.Canonical.canonical_eq _ d'.canonical, Document.Same]

theorem Document.content_orNull_ofJson (v? : Option Json) :
    (Document.orNull (v?.map Document.ofJson)).content = (v?.getD .null).content := by
  cases v? with
  | none => rfl
  | some v => exact v.content_canonical

theorem Document.value_ne_null {d : Document} (h : d.isNull = false) : d.value ≠ .null := by
  intro hnull
  rw [Document.isNull, hnull] at h
  cases h

theorem Document.orNull_eq_null_iff {d? : Option Document} :
    Document.orNull d? = .null ↔ Document.present? d? = none := by
  cases d? with
  | none => exact iff_of_true rfl rfl
  | some d =>
    cases hnull : d.isNull with
    | true =>
      refine iff_of_true (Document.value_of_isNull hnull) ?_
      simp [Document.present?, hnull]
    | false =>
      refine iff_of_false (Document.value_ne_null hnull) ?_
      simp [Document.present?, hnull]

/-- An entry that stands for what is asked for has its content. -/
theorem Document.content_eq_of_rel {entry d? : Option Document}
    (h : Option.Rel Document.Same entry (Document.present? d?)) :
    (Document.orNull entry).content = (Document.orNull d?).content := by
  cases hd : Document.present? d? with
  | none =>
    rw [hd] at h
    cases h
    rw [Document.orNull_eq_null_iff.2 hd]
    rfl
  | some d =>
    rw [hd] at h
    cases h with
    | some hsame =>
      rw [(Document.present?_eq_some_iff.1 hd).1]
      exact Document.same_iff.1 hsame

/-! ## Tables -/

/-- The table lists the documents, none of which is null or equal to another one. -/
structure MetadataTable.Lists (t : MetadataTable) (docs : List Document) : Prop
    extends t.Holds docs where
  present : ∀ d ∈ docs, d.isNull = false
  distinct : docs.Pairwise fun d d' => ¬ d.Same d'

theorem MetadataTable.lists_empty : MetadataTable.empty.Lists [] where
  toHolds := MetadataTable.holds_empty
  present := by
    intro d hd
    cases hd
  distinct := .nil

namespace MetadataTable.Lists

variable {t : MetadataTable} {docs : List Document}

/-- One question. -/
theorem number (h : t.Lists docs) (d? : Option Document) :
    ∃ docs', (t.number d?).2.Lists docs' := by
  rcases h.number_cases d? with ⟨-, hnum⟩ | ⟨d, d', i, -, hnum, -, -⟩ | ⟨d, hd, hnum, hholds, hnew⟩
  · rw [hnum]
    exact ⟨docs, h⟩
  · rw [hnum]
    exact ⟨docs, h⟩
  · rw [hnum]
    refine ⟨docs ++ [d], hholds, ?_, ?_⟩
    · exact List.forall_mem_append.2
        ⟨h.present, List.forall_mem_singleton.2 (Document.present?_eq_some_iff.1 hd).2⟩
    · exact Document.distinct_concat h.distinct hnew

/-- Any number of questions. -/
theorem after (h : t.Lists docs) (ds : List (Option Document)) :
    ∃ docs', (t.after ds).Lists docs' := by
  induction ds generalizing t docs with
  | nil => exact ⟨docs, h⟩
  | cons d? ds ih =>
    obtain ⟨docs', h'⟩ := h.number d?
    exact ih h'

/-- No two entries have one content. -/
theorem nodup_contents (h : t.Lists docs) :
    (t.entries.map fun entry => (Document.orNull entry).content).Nodup := by
  rw [h.entries, List.map_cons, List.map_map, List.nodup_cons]
  constructor
  · rw [List.mem_map]
    rintro ⟨d, hd, hnull⟩
    exact Document.value_ne_null (h.present d hd) (Json.content_eq_null_iff.1 hnull)
  · refine List.pairwise_map.2 (h.distinct.imp ?_)
    intro d d' hne heq
    exact hne (Document.same_iff.2 heq)

/-- A content has one place in the table. -/
theorem place_unique (h : t.Lists docs) {i j : Nat} {entry entry' : Option Document}
    (hi : t.entries[i]? = some entry) (hj : t.entries[j]? = some entry')
    (hsame : (Document.orNull entry).content = (Document.orNull entry').content) : i = j := by
  obtain ⟨hlt, -⟩ := List.getElem?_eq_some_iff.1 hi
  refine (List.getElem?_inj (by rwa [List.length_map]) h.nodup_contents).1 ?_
  rw [List.getElem?_map, List.getElem?_map, hi, hj, Option.map_some, Option.map_some, hsame]

/-- At the number of what is asked for stands its content. -/
theorem entry_number (h : t.Lists docs) (d? : Option Document) :
    ∃ entry, (t.number d?).2.entries[(t.number d?).1]? = some entry ∧
      (Document.orNull entry).content = (Document.orNull d?).content := by
  obtain ⟨entry, hentry, hrel⟩ := h.toHolds.entry_number d?
  exact ⟨entry, hentry, Document.content_eq_of_rel hrel⟩

/-- What is listed already has its place as its number, and nothing is entered for it. -/
theorem number_of_place (h : t.Lists docs) {d? entry : Option Document} {i : Nat}
    (hi : t.entries[i]? = some entry)
    (hsame : (Document.orNull entry).content = (Document.orNull d?).content) :
    t.number d? = (i, t) := by
  obtain ⟨docs', h'⟩ := h.number d?
  obtain ⟨entry', hentry', hsame'⟩ := h.entry_number d?
  obtain ⟨hlt, -⟩ := List.getElem?_eq_some_iff.1 hi
  -- behind the question both places hold the content
  have hnum : (t.number d?).1 = i :=
    h'.place_unique hentry' (MetadataTable.getElem?_of_prefix (t.prefix_number d?) hi)
      (hsame'.trans hsame.symm)
  exact Prod.ext hnum (MetadataTable.snd_number_of_lt (hnum.trans_lt hlt))

end MetadataTable.Lists

/-! ## Runs -/

/-- The numbers that are given when documents are asked for one after the other. -/
def MetadataTable.numbers (t : MetadataTable) : List (Option Document) → List Nat
  | [] => []
  | d? :: ds => (t.number d?).1 :: (t.number d?).2.numbers ds

theorem MetadataTable.length_numbers (t : MetadataTable) (ds : List (Option Document)) :
    (t.numbers ds).length = ds.length := by
  induction ds generalizing t with
  | nil => rfl
  | cons d? ds ih => rw [MetadataTable.numbers, List.length_cons, List.length_cons, ih]

/-- Behind any run, what was asked for still stands at the number that it was given. -/
theorem MetadataTable.Lists.entry_numbers {t : MetadataTable} {docs : List Document}
    (h : t.Lists docs) {ds : List (Option Document)} {k i : Nat} {d? : Option Document}
    (hd : ds[k]? = some d?) (hi : (t.numbers ds)[k]? = some i) :
    ∃ entry, (t.after ds).entries[i]? = some entry ∧
      (Document.orNull entry).content = (Document.orNull d?).content := by
  induction ds generalizing t docs k with
  | nil => cases hd
  | cons d ds ih =>
    obtain ⟨docs', h'⟩ := h.number d
    cases k with
    | zero =>
      cases hd
      cases hi
      obtain ⟨entry, hentry, hsame⟩ := h.entry_number d?
      exact ⟨entry, MetadataTable.getElem?_of_prefix (MetadataTable.prefix_after _ ds) hentry, hsame⟩
    | succ k => exact ih h' hd hi

/-- The documents of values that are asked for one after the other. -/
def Document.ofAsked (asked : List (Option Json)) : List (Option Document) :=
  asked.map (Option.map Document.ofJson)

/-- A new table behind some questions. -/
def MetadataTable.behind (asked : List (Option Json)) : MetadataTable :=
  MetadataTable.empty.after (Document.ofAsked asked)

/-- What a new table answered to some questions. -/
def MetadataTable.answers (asked : List (Option Json)) : List Nat :=
  MetadataTable.empty.numbers (Document.ofAsked asked)

/-- Behind all questions, the content of each stands at the number that was its answer. -/
theorem MetadataTable.entry_answers {asked : List (Option Json)} {k i : Nat} {v? : Option Json}
    (hv : asked[k]? = some v?) (hi : (MetadataTable.answers asked)[k]? = some i) :
    ∃ entry, (MetadataTable.behind asked).entries[i]? = some entry ∧
      (Document.orNull entry).content = (v?.getD .null).content := by
  have hd : (Document.ofAsked asked)[k]? = some (v?.map Document.ofJson) := by
    rw [Document.ofAsked, List.getElem?_map, hv, Option.map_some]
  obtain ⟨entry, hentry, hsame⟩ := MetadataTable.lists_empty.entry_numbers hd hi
  exact ⟨entry, hentry, hsame.trans (Document.content_orNull_ofJson v?)⟩

/-- Further questions leave the entries as and where they are. -/
theorem MetadataTable.prefix_behind (asked further : List (Option Json)) :
    (MetadataTable.behind asked).entries <+: (MetadataTable.behind (asked ++ further)).entries := by
  rw [MetadataTable.behind, MetadataTable.behind, Document.ofAsked, Document.ofAsked,
    List.map_append, MetadataTable.after_append]
  exact MetadataTable.prefix_after _ _

/-- A table that has kept to its contract over all questions. It is asked for values; two of them
    are equal when they are alike, with the same number at each place, and asking for no value is
    asking for null. -/
structure MetadataTable.Faithful (asked : List (Option Json)) : Prop where
  first : (MetadataTable.behind asked).entries[0]? = some none
  present : ∀ entry ∈ (MetadataTable.behind asked).entries.tail,
    ∃ d, entry = some d ∧ d.isNull = false
  /-- No two entries are equal. -/
  distinct : (MetadataTable.behind asked).entries.Pairwise fun entry entry' =>
    ¬ Json.Alike Json.Number.Same (Document.orNull entry) (Document.orNull entry')
  /-- What was entered after any of the questions stayed as and where it was. -/
  kept : ∀ n, (MetadataTable.behind (asked.take n)).entries <+:
    (MetadataTable.behind asked).entries
  answered : (MetadataTable.answers asked).length = asked.length
  /-- At a number that was given stands what it was given for. -/
  points : ∀ (k : Nat) v? i, asked[k]? = some v? → (MetadataTable.answers asked)[k]? = some i →
    ∃ entry, (MetadataTable.behind asked).entries[i]? = some entry ∧
      Json.Alike Json.Number.Same (Document.orNull entry) (v?.getD .null)
  /-- Two questions got one number exactly if they were for equal values. -/
  told : ∀ (k k' : Nat) v? v'? i i', asked[k]? = some v? → asked[k']? = some v'? →
    (MetadataTable.answers asked)[k]? = some i → (MetadataTable.answers asked)[k']? = some i' →
      (i = i' ↔ Json.Alike Json.Number.Same (v?.getD .null) (v'?.getD .null))

/-- A new table keeps to its contract, whatever it is asked for. -/
theorem MetadataTable.faithful (asked : List (Option Json)) : MetadataTable.Faithful asked := by
  obtain ⟨docs, h⟩ := MetadataTable.lists_empty.after (Document.ofAsked asked)
  have hentries : (MetadataTable.behind asked).entries = none :: docs.map some := h.entries
  constructor
  case first => rw [hentries, List.getElem?_cons_zero]
  case present =>
    intro entry hentry
    rw [hentries, List.tail_cons] at hentry
    obtain ⟨d, hd, rfl⟩ := List.mem_map.1 hentry
    exact ⟨d, rfl, h.present d hd⟩
  case distinct =>
    refine (List.pairwise_map.1 h.nodup_contents).imp ?_
    intro entry entry' hne halike
    exact hne (Json.content_eq_iff.2 halike)
  case kept =>
    intro n
    have hprefix := MetadataTable.prefix_behind (asked.take n) (asked.drop n)
    rwa [List.take_append_drop] at hprefix
  case answered =>
    rw [MetadataTable.answers, MetadataTable.length_numbers, Document.ofAsked, List.length_map]
  case points =>
    intro k v? i hv hi
    obtain ⟨entry, hentry, hsame⟩ := MetadataTable.entry_answers hv hi
    exact ⟨entry, hentry, Json.content_eq_iff.1 hsame⟩
  case told =>
    intro k k' v? v'? i i' hv hv' hi hi'
    obtain ⟨entry, hentry, hsame⟩ := MetadataTable.entry_answers hv hi
    obtain ⟨entry', hentry', hsame'⟩ := MetadataTable.entry_answers hv' hi'
    rw [← Json.content_eq_iff, ← hsame, ← hsame']
    constructor
    · rintro rfl
      rw [hentry] at hentry'
      rw [Option.some.inj hentry']
    · exact h.place_unique hentry hentry'

example : MetadataTable.answers [none, some (.arr [.num (.int 1 (by decide)), .null]),
    some (.arr [.num (.float ⟨false, 2 ^ 52, -52, by decide⟩), .null]), some .null] =
      [0, 1, 1, 0] := by decide +kernel

end FoldedStacks
