-- SUMMARY: The table that numbers the metadata documents of applications.
import FoldedStacks.Json.Identity
import FoldedStacks.Json.Record
import FoldedStacks.SortedMap

/-!
# The table of application metadata

Documents are numbered in the order in which they are first seen. The number 0 stands for no
document and for null.
-/

namespace FoldedStacks

/-- The entries in the order of their numbers, and the number of each identity text seen. -/
structure MetadataTable where
  entries : List (Option Document)
  index : SortedMap String Nat

/-- Only the entry for no document. -/
def MetadataTable.empty : MetadataTable :=
  ⟨[none], SortedMap.empty⟩

instance : Inhabited MetadataTable := ⟨MetadataTable.empty⟩

/-- The text of a list of entries. -/
def MetadataTable.renderEntries (entries : List (Option Document)) : List Char :=
  Json.bracketed (entries.map (Json.renderOption Document.render))

/-- What a document is looked up by. -/
def MetadataTable.key (d : Document) : String :=
  String.ofList d.identity

/-- The number of a document. One that is new is entered at the end. -/
def MetadataTable.number (t : MetadataTable) : Option Document → Nat × MetadataTable
  | none => (0, t)
  | some d =>
    if d.isNull then (0, t)
    else
      match t.index.get? (MetadataTable.key d) with
      | some i => (i, t)
      | none =>
        let i := t.entries.length
        (i, ⟨t.entries ++ [some d], t.index.insert (MetadataTable.key d) i⟩)

end FoldedStacks
