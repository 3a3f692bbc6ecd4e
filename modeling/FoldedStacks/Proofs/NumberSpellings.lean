-- SUMMARY: Integers written as doubles: below the limit the table takes the two spellings for one document, wherever they stand in it, and from the limit on for two.
import Mathlib
import FoldedStacks.Proofs.DocumentNumbers

/-!
# Spellings of integers

An integer and a double of exactly its value are one number, but the identity text writes doubles
as integers below a limit only. So two documents that differ in such spellings have one number in
the table just in case all the integers that are spelt in two ways are below the limit.
-/

namespace FoldedStacks

/-! ## Spellings -/

/-- The numbers are equal, or one is a double of exactly the value of the other, which is an
    integer within some bounds. -/
inductive Json.Number.Respelled (bounds : Int → Prop) : Json.Number → Json.Number → Prop
  | refl (n : Json.Number) : Respelled bounds n n
  | asDouble {i : Int} {h : -2 ^ 63 ≤ i ∧ i < 2 ^ 64} {x : Binary64.Finite} :
    x.toRat = i → bounds i → Respelled bounds (.int i h) (.float x)
  | asInteger {i : Int} {h : -2 ^ 63 ≤ i ∧ i < 2 ^ 64} {x : Binary64.Finite} :
    x.toRat = i → bounds i → Respelled bounds (.float x) (.int i h)

/-- The values differ in nothing but the spelling of integers within some bounds. -/
def Json.Respelled (bounds : Int → Prop) : Json → Json → Prop :=
  Json.Alike (Json.Number.Respelled bounds)

theorem Json.Number.Respelled.mono {bounds bounds' : Int → Prop} {m n : Json.Number}
    (h : Json.Number.Respelled bounds m n) (hbounds : ∀ i, bounds i → bounds' i) :
    Json.Number.Respelled bounds' m n := by
  cases h with
  | refl => exact .refl _
  | asDouble hx hi => exact .asDouble hx (hbounds _ hi)
  | asInteger hx hi => exact .asInteger hx (hbounds _ hi)

theorem Json.Number.Respelled.same {m n : Json.Number}
    (h : Json.Number.Respelled Json.Number.Limited m n) : m.Same n := by
  cases h with
  | refl => exact .inl rfl
  | asDouble hx hi => exact .inr ⟨_, rfl, hx, hi⟩
  | asInteger hx hi => exact .inr ⟨_, ⟨hx, hi⟩, rfl⟩

/-- Of two spellings that are the same number, the integer is below the limit. -/
theorem Json.Number.Respelled.limited {bounds : Int → Prop} {m n : Json.Number}
    (h : Json.Number.Respelled bounds m n) (hsame : m.Same n) :
    Json.Number.Respelled Json.Number.Limited m n := by
  cases h with
  | refl => exact .refl _
  | asDouble hx _ =>
    rcases hsame with heq | ⟨_, rfl, -, hi⟩
    · cases heq
    · exact .asDouble hx hi
  | asInteger hx _ =>
    rcases hsame with heq | ⟨_, ⟨-, hi⟩, rfl⟩
    · cases heq
    · exact .asInteger hx hi

/-- Documents that differ in spellings are equal exactly if the integers are below the limit. -/
theorem Json.Respelled.content_eq_iff {bounds : Int → Prop} {v w : Json}
    (h : Json.Respelled bounds v w) :
    v.content = w.content ↔ Json.Respelled Json.Number.Limited v w := by
  rw [Json.content_eq_iff]
  constructor
  · intro hsame
    exact (Json.Alike.and h hsame).imp fun m n hboth => hboth.1.limited hboth.2
  · exact fun hlimited => hlimited.imp fun m n hspelt => hspelt.same

/-! ## Weights -/

/-- An object with the numbers as its weights. -/
def Json.weights (ns : List Json.Number) : Json :=
  .obj [("weights", .arr (ns.map Json.num))]

theorem Json.respelled_weights_iff {bounds : Int → Prop} {ms ns : List Json.Number} :
    Json.Respelled bounds (Json.weights ms) (Json.weights ns) ↔
      List.Forall₂ (Json.Number.Respelled bounds) ms ns := by
  have hlast : ∀ (ns : List Json.Number) (k : String),
      Entries.last? [("weights", Json.arr (ns.map Json.num))] k =
        if k = "weights" then some (Json.arr (ns.map Json.num)) else none :=
    fun ns k => Entries.last?_cons _ [] k
  constructor
  · intro h
    cases h with
    | obj h =>
      have hweights := h "weights"
      rw [hlast, hlast, if_pos rfl, if_pos rfl] at hweights
      cases hweights with
      | some halike =>
        cases halike with
        | arr harr =>
          rw [List.forall₂_map_left_iff, List.forall₂_map_right_iff] at harr
          refine harr.imp ?_
          rintro m n (_ | _ | hspelt)
          exact hspelt
  · intro h
    refine .obj fun k => ?_
    rw [hlast, hlast]
    by_cases hk : k = "weights"
    · rw [if_pos hk, if_pos hk]
      refine .some (.arr ?_)
      rw [List.forall₂_map_left_iff, List.forall₂_map_right_iff]
      exact h.imp fun _ _ hspelt => .num hspelt
    · rw [if_neg hk, if_neg hk]
      exact .none

/-- The double of the first integer that is too large for 63 bits. -/
def Binary64.Finite.twoPow63 : Binary64.Finite :=
  ⟨false, 2 ^ 52, 11, by decide⟩

/-! ## Numbers in the table -/

/-- Anything may be asked for before a document and between it and another one: the other one gets
    the same number exactly if the two have one content, and is not entered then. -/
theorem MetadataTable.number_later (ds between : List (Option Document)) (v w : Json)
    {first : Nat} {t : MetadataTable}
    (hfirst : (MetadataTable.empty.after ds).number (some (.ofJson v)) = (first, t)) :
    (v.content = w.content →
      (t.after between).number (some (.ofJson w)) = (first, t.after between)) ∧
    (v.content ≠ w.content → ((t.after between).number (some (.ofJson w))).1 ≠ first) := by
  have hcontent : ∀ v : Json, (Document.orNull (some (.ofJson v))).content = v.content :=
    fun v => Document.content_orNull_ofJson (some v)
  obtain ⟨docs, hlists⟩ := MetadataTable.lists_empty.after ds
  obtain ⟨docs', hlists'⟩ := hlists.number (some (.ofJson v))
  obtain ⟨entry, hentry, hsame⟩ := hlists.entry_number (some (.ofJson v))
  rw [hfirst] at hlists' hentry
  rw [hcontent] at hsame
  have hlater : (t.after between).entries[first]? = some entry :=
    MetadataTable.getElem?_of_prefix (MetadataTable.prefix_after t between) hentry
  obtain ⟨docs'', hlists''⟩ := hlists'.after between
  constructor
  · intro heq
    exact hlists''.number_of_place hlater (by rw [hsame, heq, hcontent])
  · intro hne hnum
    -- the entry at that number would have both contents
    obtain ⟨entry', hentry', hsame'⟩ := hlists''.entry_number (some (.ofJson w))
    rw [hnum, MetadataTable.getElem?_of_prefix (MetadataTable.prefix_number _ _) hlater] at hentry'
    rw [← Option.some.inj hentry', hsame, hcontent] at hsame'
    exact hne hsame'

/-- Two documents that differ in nothing but the spelling of integers: the second one gets the
    number of the first one, and nothing is entered for it, when all integers that are spelt in two
    ways are below the limit. Otherwise it gets another number. -/
theorem MetadataTable.number_of_respelled {v w : Json} (h : Json.Respelled (fun _ => True) v w)
    (ds between : List (Option Document)) :
    let answer := (MetadataTable.empty.after ds).number (some (.ofJson v))
    let later := answer.2.after between
    (Json.Respelled Json.Number.Limited v w →
      later.number (some (.ofJson w)) = (answer.1, later)) ∧
    (¬ Json.Respelled Json.Number.Limited v w →
      (later.number (some (.ofJson w))).1 ≠ answer.1) := by
  intro answer later
  rw [← h.content_eq_iff]
  exact MetadataTable.number_later ds between v w rfl

/-- One and minus zero are below the limit, and the first integer that is too large for 63 bits is
    not. -/
theorem MetadataTable.number_of_respelled_weights :
    let v := Json.weights [.int 1 (by decide), .float (.zero true)]
    let w := Json.weights [.float ⟨false, 2 ^ 52, -52, by decide⟩, .int 0 (by decide)]
    let v' := Json.weights [.int (2 ^ 63) (by decide)]
    let w' := Json.weights [.float .twoPow63]
    (Json.Respelled (fun _ => True) v w ∧ Json.Respelled Json.Number.Limited v w ∧
      (((MetadataTable.empty.number (some (.ofJson v))).2.after [none]).number
        (some (.ofJson w))).1 = 1) ∧
    Json.Respelled (fun _ => True) v' w' ∧ ¬ Json.Respelled Json.Number.Limited v' w' ∧
      (((MetadataTable.empty.number (some (.ofJson v'))).2.after []).number
        (some (.ofJson w'))).1 ≠ 1 := by
  intro v w v' w'
  have hlimited : Json.Respelled Json.Number.Limited v w :=
    Json.respelled_weights_iff.2 (.cons (.asDouble (by decide +kernel) (by decide))
      (.cons (.asInteger (by decide +kernel) (by decide)) .nil))
  have hspelt : Json.Respelled (fun _ => True) v w :=
    hlimited.imp fun m n h => h.mono fun _ _ => trivial
  have hspelt' : Json.Respelled (fun _ => True) v' w' :=
    Json.respelled_weights_iff.2 (.cons (.asDouble (by decide +kernel) trivial) .nil)
  have hnot : ¬ Json.Respelled Json.Number.Limited v' w' := by
    rw [Json.respelled_weights_iff]
    rintro (_ | ⟨_ | ⟨-, hlimit⟩, -⟩)
    exact absurd hlimit (by decide)
  have hfirst : (MetadataTable.empty.number (some (.ofJson v))).1 = 1 := by decide +kernel
  have hsecond := (MetadataTable.number_of_respelled hspelt [] [none]).1 hlimited
  have hfirst' : (MetadataTable.empty.number (some (.ofJson v'))).1 = 1 := by decide +kernel
  have hsecond' := (MetadataTable.number_of_respelled hspelt' [] []).2 hnot
  exact ⟨⟨hspelt, hlimited, (congrArg Prod.fst hsecond).trans hfirst⟩, hspelt', hnot,
    hsecond'.trans_eq hfirst'⟩

/-- The first integer too large for 63 bits and the double of its value are two documents. -/
theorem MetadataTable.respelled_entered_twice :
    let v := Json.num (.int (2 ^ 63) (by decide))
    let w := Json.num (.float .twoPow63)
    let answer := MetadataTable.empty.number (some (.ofJson v))
    Json.Respelled (fun _ => True) v w ∧ answer.1 = 1 ∧
      (answer.2.number (some (.ofJson w))).1 = 2 ∧
      (answer.2.number (some (.ofJson w))).2.entries.length = 3 :=
  ⟨.num (.asDouble (by decide +kernel) trivial), by decide +kernel, by decide +kernel,
    by decide +kernel⟩

end FoldedStacks
