-- SUMMARY: What it takes for two values to be one document: the same shape, texts and keys, and at each place one number, in whichever way it is spelt.
import Mathlib
import FoldedStacks.Proofs.DocumentIdentity
import FoldedStacks.Proofs.Overriding

/-!
# Equality of values

Documents are told by the normal form of their canonical form. Here that equality is taken apart:
two values are one document exactly if they can be walked through side by side, with the same
items, the same keys and, where numbers meet, the same number.
-/

namespace FoldedStacks

/-! ## Numbers -/

theorem Binary64.Finite.integer?_eq_some_iff {x : Binary64.Finite} {i : Int} :
    x.integer? = some i ↔ x.toRat = i := by
  rw [Binary64.Finite.integer?]
  split
  next hden =>
    rw [Option.some.injEq, ← (Rat.den_eq_one_iff _).1 hden, Rat.num_intCast, Int.cast_inj]
  next hden =>
    refine iff_of_false (by simp) ?_
    intro hx
    exact hden (by rw [hx]; rfl)

/-- The integers that doubles are written as. -/
def Json.Number.Limited (i : Int) : Prop :=
  (i.natAbs : Int) < Json.Number.integerLimit

instance : DecidablePred Json.Number.Limited := fun i =>
  inferInstanceAs (Decidable ((i.natAbs : Int) < Json.Number.integerLimit))

/-- The number stands for an integer: it is that integer, or a double of its value below the
    limit. -/
def Json.Number.Spells (i : Int) : Json.Number → Prop
  | .int j _ => j = i
  | .float x => x.toRat = i ∧ Json.Number.Limited i

/-- The numbers are equal or stand for one integer. -/
def Json.Number.Same (m n : Json.Number) : Prop :=
  m = n ∨ ∃ i, m.Spells i ∧ n.Spells i

theorem Json.Number.normal_eq_int_iff {n : Json.Number} {i : Int} :
    (∃ h, n.normal = .int i h) ↔ n.Spells i := by
  cases n with
  | int j hj =>
    simp only [Json.Number.normal, Json.Number.Spells, Json.Number.int.injEq]
    constructor
    · rintro ⟨-, hji⟩
      exact hji
    · rintro rfl
      exact ⟨hj, rfl⟩
  | float x =>
    rw [Json.Number.Spells, ← Binary64.Finite.integer?_eq_some_iff, Json.Number.normal]
    split
    next j hj =>
      rw [hj, Option.some.injEq]
      split
      next hlimit =>
        constructor
        · rintro ⟨_, hint⟩
          cases hint
          exact ⟨rfl, hlimit⟩
        · rintro ⟨rfl, -⟩
          exact ⟨Json.Number.inRange_of_natAbs_lt hlimit, rfl⟩
      next hlimit =>
        constructor
        · rintro ⟨_, hint⟩
          cases hint
        · rintro ⟨rfl, hbelow⟩
          exact absurd hbelow hlimit
    next hnone => simp [hnone]

/-- A number that stands for no integer is its own normal form. -/
theorem Json.Number.normal_cases (n : Json.Number) : (∃ i, n.Spells i) ∨ n.normal = n := by
  cases n with
  | int i h => exact .inr rfl
  | float x =>
    by_cases hspells : ∃ i, (Json.Number.float x).Spells i
    · exact .inl hspells
    · refine .inr ?_
      rw [Json.Number.normal]
      split
      next i hi =>
        refine dif_neg fun hlimit => hspells ⟨i, ?_⟩
        exact ⟨Binary64.Finite.integer?_eq_some_iff.1 hi, hlimit⟩
      next => rfl

/-- Two numbers have one normal form exactly if they are the same. -/
theorem Json.Number.normal_eq_iff {m n : Json.Number} : m.normal = n.normal ↔ m.Same n := by
  constructor
  · intro h
    -- one normal form stands for one integer, if for any
    have hspells : ∀ i, m.Spells i ↔ n.Spells i := by
      intro i
      rw [← Json.Number.normal_eq_int_iff, ← Json.Number.normal_eq_int_iff, h]
    rcases m.normal_cases with ⟨i, hm⟩ | hm
    · exact .inr ⟨i, hm, (hspells i).1 hm⟩
    · rcases n.normal_cases with ⟨i, hn⟩ | hn
      · exact .inr ⟨i, (hspells i).2 hn, hn⟩
      · exact .inl (hm.symm.trans (h.trans hn))
  · rintro (rfl | ⟨i, hm, hn⟩)
    · rfl
    · obtain ⟨_, hm⟩ := Json.Number.normal_eq_int_iff.2 hm
      obtain ⟨_, hn⟩ := Json.Number.normal_eq_int_iff.2 hn
      rw [hm, hn]

/-! ## Arrays and objects -/

theorem Json.normalItems_eq_map (items : List Json) :
    Json.normalItems items = items.map Json.normal := by
  induction items with
  | nil => rfl
  | cons v rest ih => rw [Json.normalItems, ih, List.map_cons]

theorem Json.normalMembers_eq_map (members : List (String × Json)) :
    Json.normalMembers members = members.map fun e => (e.1, e.2.normal) := by
  induction members with
  | nil => rfl
  | cons e rest ih => rw [Json.normalMembers, ih, List.map_cons]

theorem Json.canonicalItems_eq_map (items : List Json) :
    Json.canonicalItems items = items.map Json.canonical := by
  induction items with
  | nil => rfl
  | cons v rest ih => rw [Json.canonicalItems, ih, List.map_cons]

/-- What a document of the value is told from. -/
def Json.content (v : Json) : Json :=
  v.canonical.normal

theorem Json.content_arr_eq_iff {vs ws : List Json} :
    (Json.arr vs).content = (Json.arr ws).content ↔
      List.Forall₂ (fun v w => v.content = w.content) vs ws := by
  have hitems : ∀ items : List Json,
      Json.normalItems (Json.canonicalItems items) = items.map Json.content := by
    intro items
    rw [Json.normalItems_eq_map, Json.canonicalItems_eq_map, List.map_map]
    rfl
  simp only [Json.content, Json.canonical, Json.normal, Json.arr.injEq, hitems]
  rw [← List.forall₂_eq_eq_eq, List.forall₂_map_left_iff, List.forall₂_map_right_iff]
  rfl

private theorem map_eq_map_iff_rel {α β γ : Type} {f : α → γ} {g : β → γ} {a? : Option α}
    {b? : Option β} :
    a?.map f = b?.map g ↔ Option.Rel (fun a b => f a = g b) a? b? := by
  cases a? <;> cases b? <;> simp

/-- Of an object counts what stands last under each key. -/
theorem Json.content_obj_eq_iff {ms ns : List (String × Json)} :
    (Json.obj ms).content = (Json.obj ns).content ↔
      ∀ k, Option.Rel (fun v w => v.content = w.content) (Entries.last? ms k)
        (Entries.last? ns k) := by
  have hget : ∀ (members : List (String × Json)) (k : String),
      Entries.get? k (Json.normalMembers (Json.canonicalMembers members)) =
        (Entries.last? members k).map Json.content := by
    intro members k
    rw [Json.normalMembers_eq_map, Entries.get?_map, Json.get?_canonicalMembers, Option.map_map]
    rfl
  have hasc : ∀ members : List (String × Json),
      Entries.Ascending (Json.normalMembers (Json.canonicalMembers members)) := by
    intro members
    rw [Json.normalMembers_eq_map]
    exact (Json.canonicalMembers_canonical members).1.map _
  simp only [Json.content, Json.canonical, Json.normal, Json.obj.injEq, ← map_eq_map_iff_rel]
  show _ ↔ ∀ k, (Entries.last? ms k).map Json.content = (Entries.last? ns k).map Json.content
  simp only [← hget]
  constructor
  · intro h k
    rw [h]
  · exact (hasc ms).ext_get? (hasc ns)

/-! ## Values side by side -/

/-- The values have one shape, with the same texts, and their numbers are related place by place.
    The order of the members of an object does not matter. -/
inductive Json.Alike (numbers : Json.Number → Json.Number → Prop) : Json → Json → Prop
  | null : Json.Alike numbers .null .null
  | bool (b : Bool) : Json.Alike numbers (.bool b) (.bool b)
  | num {m n : Json.Number} : numbers m n → Json.Alike numbers (.num m) (.num n)
  | str (s : String) : Json.Alike numbers (.str s) (.str s)
  | arr {vs ws : List Json} :
    List.Forall₂ (Json.Alike numbers) vs ws → Json.Alike numbers (.arr vs) (.arr ws)
  | obj {ms ns : List (String × Json)} :
    (∀ k, Option.Rel (Json.Alike numbers) (Entries.last? ms k) (Entries.last? ns k)) →
      Json.Alike numbers (.obj ms) (.obj ns)

private theorem rel_imp {α β : Type} {r s : α → β → Prop} {a? : Option α} {b? : Option β}
    (himp : ∀ a, a? = some a → ∀ b, r a b → s a b) (h : Option.Rel r a? b?) :
    Option.Rel s a? b? := by
  cases h with
  | none => exact .none
  | some hab => exact .some (himp _ rfl _ hab)

private theorem rel_mp {α β : Type} {r s : α → β → Prop} {a? : Option α} {b? : Option β}
    (h : Option.Rel (fun a b => r a b → s a b) a? b?) (h' : Option.Rel r a? b?) :
    Option.Rel s a? b? := by
  cases h with
  | none => exact .none
  | some himp =>
    cases h' with
    | some hab => exact .some (himp hab)

namespace Json.Alike

variable {numbers numbers' : Json.Number → Json.Number → Prop} {v w : Json}

/-- Induction over two values side by side: over all items of an array, and under every key of an
    object. -/
theorem induct {motive : Json → Json → Prop} (h : Json.Alike numbers v w)
    (null : motive .null .null)
    (bool : ∀ b, motive (.bool b) (.bool b))
    (num : ∀ m n, numbers m n → motive (.num m) (.num n))
    (str : ∀ s, motive (.str s) (.str s))
    (arr : ∀ vs ws, List.Forall₂ motive vs ws → motive (.arr vs) (.arr ws))
    (obj : ∀ ms ns, (∀ k, Option.Rel motive (Entries.last? ms k) (Entries.last? ns k)) →
      motive (.obj ms) (.obj ns)) : motive v w :=
  @Json.Alike.rec numbers (fun v w _ => motive v w) (fun vs ws _ => List.Forall₂ motive vs ws)
    (fun v? w? _ => Option.Rel motive v? w?)
    null bool (fun h => num _ _ h) str (fun _ ih => arr _ _ ih) (fun _ ih => obj _ _ ih) .nil
    (fun _ _ ih ihs => .cons ih ihs) (fun _ ih => .some ih) .none v w h

theorem imp (himp : ∀ m n, numbers m n → numbers' m n) (h : Json.Alike numbers v w) :
    Json.Alike numbers' v w :=
  h.induct .null .bool (fun m n h => .num (himp m n h)) .str (fun _ _ ih => .arr ih)
    fun _ _ ih => .obj ih

/-- Two relations between the numbers hold at once. -/
theorem and (h : Json.Alike numbers v w) :
    Json.Alike numbers' v w → Json.Alike (fun m n => numbers m n ∧ numbers' m n) v w := by
  refine h.induct (motive := fun v w => Json.Alike numbers' v w →
    Json.Alike (fun m n => numbers m n ∧ numbers' m n) v w) ?null ?bool ?num ?str ?arr ?obj
  case null =>
    intro _
    exact .null
  case bool =>
    intro b _
    exact .bool b
  case num =>
    rintro m n h (_ | _ | h')
    exact .num ⟨h, h'⟩
  case str =>
    intro s _
    exact .str s
  case arr =>
    rintro vs ws ih (_ | _ | _ | _ | h')
    exact .arr (ih.mp (fun _ _ hand h' => hand h') h')
  case obj =>
    rintro ms ns ih (_ | _ | _ | _ | _ | h')
    exact .obj fun k => rel_mp (ih k) (h' k)

end Json.Alike

/-- Values that are alike have the same content. -/
theorem Json.Alike.content_eq {v w : Json} (h : Json.Alike Json.Number.Same v w) :
    v.content = w.content := by
  refine h.induct (motive := fun v w => v.content = w.content) rfl (fun _ => rfl) ?num
    (fun _ => rfl) ?arr ?obj
  case num =>
    intro m n h
    exact congrArg Json.num (Json.Number.normal_eq_iff.2 h)
  case arr =>
    intro vs ws ih
    exact Json.content_arr_eq_iff.2 ih
  case obj =>
    intro ms ns ih
    exact Json.content_obj_eq_iff.2 ih

mutual

/-- Values with the same content are alike. -/
theorem Json.alike_of_content_eq : ∀ v w : Json, v.content = w.content →
    Json.Alike Json.Number.Same v w
  | .null, w, h => by
    cases w with
    | null => exact .null
    | _ => cases h
  | .bool b, w, h => by
    cases w with
    | bool =>
      cases h
      exact .bool b
    | _ => cases h
  | .num m, w, h => by
    cases w with
    | num n => exact .num (Json.Number.normal_eq_iff.1 (Json.num.inj h))
    | _ => cases h
  | .str s, w, h => by
    cases w with
    | str =>
      cases h
      exact .str s
    | _ => cases h
  | .arr vs, w, h => by
    cases w with
    | arr ws => exact .arr (Json.alike_items_of_content_eq vs ws (Json.content_arr_eq_iff.1 h))
    | _ => cases h
  | .obj ms, w, h => by
    cases w with
    | obj ns =>
      -- what stands last under a key is one of the members, which are smaller
      refine .obj fun k => rel_imp (fun v hv w => ?_) (Json.content_obj_eq_iff.1 h k)
      exact Json.alike_members_of_content_eq ms (k, v) (Entries.mem_of_last? hv) w
    | _ => cases h

theorem Json.alike_items_of_content_eq : ∀ vs ws : List Json,
    List.Forall₂ (fun v w => v.content = w.content) vs ws →
      List.Forall₂ (Json.Alike Json.Number.Same) vs ws
  | [], _, h => by
    cases h
    exact .nil
  | v :: vs, _, h => by
    cases h with
    | cons hv hvs =>
      exact .cons (Json.alike_of_content_eq v _ hv) (Json.alike_items_of_content_eq vs _ hvs)

theorem Json.alike_members_of_content_eq : ∀ ms : List (String × Json), ∀ e ∈ ms, ∀ w,
    e.2.content = w.content → Json.Alike Json.Number.Same e.2 w
  | (_, v) :: ms, e, he, w, h => by
    rcases List.mem_cons.1 he with rfl | he
    · exact Json.alike_of_content_eq v w h
    · exact Json.alike_members_of_content_eq ms e he w h

end

/-- Values are one document exactly if they are alike, with the same number at each place. -/
theorem Json.content_eq_iff {v w : Json} :
    v.content = w.content ↔ Json.Alike Json.Number.Same v w :=
  ⟨Json.alike_of_content_eq v w, Json.Alike.content_eq⟩

end FoldedStacks
