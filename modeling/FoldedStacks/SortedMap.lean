-- SUMMARY: Finite maps with ordered keys as sorted entries, with the look-up laws of their operations.
import FoldedStacks.Entries

/-!
# Sorted maps

Finite maps with ordered keys. The entries are kept in the order of their keys, so two maps are
equal as soon as they hold the same entries, and every listing of a map is in key order.
-/

namespace FoldedStacks

/-- A finite map, as its entries in key order. -/
@[ext] structure SortedMap (κ α : Type) [Ord κ] where
  entries : List (κ × α)
  ascending : Entries.Ascending entries

variable {κ α β : Type} [Ord κ]

instance [DecidableEq κ] [DecidableEq α] : DecidableEq (SortedMap κ α) := fun m₁ m₂ =>
  decidable_of_iff (m₁.entries = m₂.entries) SortedMap.ext_iff.symm

/-- The map without entries. -/
def SortedMap.empty : SortedMap κ α :=
  ⟨[], Entries.ascending_nil⟩

instance : Inhabited (SortedMap κ α) := ⟨SortedMap.empty⟩

def SortedMap.get? (m : SortedMap κ α) (k : κ) : Option α :=
  Entries.get? k m.entries

def SortedMap.keys (m : SortedMap κ α) : List κ :=
  m.entries.map (·.1)

def SortedMap.values (m : SortedMap κ α) : List α :=
  m.entries.map (·.2)

def SortedMap.size (m : SortedMap κ α) : Nat :=
  m.entries.length

def SortedMap.isEmpty (m : SortedMap κ α) : Bool :=
  m.entries.isEmpty

/-- The map that holds `f` of the present value under `k`. -/
def SortedMap.upsert [Std.TransOrd κ] (m : SortedMap κ α) (k : κ) (f : Option α → α) :
    SortedMap κ α :=
  ⟨Entries.upsert k f m.entries, m.ascending.upsert k f⟩

/-- The map that holds `a` under `k`, whatever it held there before. -/
def SortedMap.insert [Std.TransOrd κ] (m : SortedMap κ α) (k : κ) (a : α) : SortedMap κ α :=
  m.upsert k fun _ => a

/-- Later pairs overwrite earlier ones of the same key. -/
def SortedMap.ofList [Std.TransOrd κ] (l : List (κ × α)) : SortedMap κ α :=
  l.foldl (fun m e => m.insert e.1 e.2) SortedMap.empty

/-- Maps each entry to a new value, or drops it. -/
def SortedMap.filterMap (m : SortedMap κ α) (f : κ × α → Option β) : SortedMap κ β :=
  ⟨m.entries.filterMap fun e => (f e).map (e.1, ·), m.ascending.filterMap f⟩

/-- Maps each entry, given its place in key order, to a new value, or drops it. -/
def SortedMap.filterMapIdx (m : SortedMap κ α) (f : Nat → κ × α → Option β) : SortedMap κ β :=
  ⟨Entries.filterMapFrom f 0 m.entries, m.ascending.filterMapFrom f 0⟩

theorem SortedMap.get?_upsert [Std.TransOrd κ] [Std.LawfulEqOrd κ] [DecidableEq κ]
    (m : SortedMap κ α) (k k' : κ) (f : Option α → α) :
    (m.upsert k f).get? k' = if k' = k then some (f (m.get? k)) else m.get? k' := by
  simp only [SortedMap.get?, SortedMap.upsert, Entries.get?_upsert m.ascending,
    Std.LawfulEqCmp.compare_eq_iff_eq]

theorem SortedMap.get?_insert [Std.TransOrd κ] [Std.LawfulEqOrd κ] [DecidableEq κ]
    (m : SortedMap κ α) (k k' : κ) (a : α) :
    (m.insert k a).get? k' = if k' = k then some a else m.get? k' :=
  m.get?_upsert k k' _

end FoldedStacks
