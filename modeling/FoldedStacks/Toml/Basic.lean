-- SUMMARY: Values of TOML documents, and how a table grows while its document is read.
/-!
# TOML values

The tables of a TOML document grow while it is read: by headers, by dotted keys, and by the values
of keys. What may still be added to a table depends on how it came about.
-/

namespace FoldedStacks

/-- How a table came about. -/
inductive Toml.Origin where
  /-- It has a header of its own. -/
  | header
  /-- The header of a table inside it was read. -/
  | implied
  /-- A dotted key leads through it. -/
  | dotted
  /-- It is written in braces, and complete. -/
  | inline
  deriving DecidableEq

inductive Toml where
  | string (s : String)
  | integer (i : Int)
  | boolean (b : Bool)
  /-- A number with a point or an exponent, or one that is not finite. -/
  | float
  /-- A date, a time or both. -/
  | date
  | array (items : List Toml)
  | table (origin : Toml.Origin) (entries : List (String × Toml))
  /-- An array of tables with headers, of which the last one is growing. -/
  | tables (earlier : List Toml) (last : List (String × Toml))

instance : Inhabited Toml := ⟨.boolean false⟩

/-- The entries of a table, in the order in which they were read. -/
abbrev Toml.Entries := List (String × Toml)

def Toml.Entries.get? (es : Toml.Entries) (k : String) : Option Toml :=
  (es.find? fun e => e.1 == k).map (·.2)

/-- Puts a value under a key. A new key comes last. -/
def Toml.Entries.put (es : Toml.Entries) (k : String) (v : Toml) : Toml.Entries :=
  if (es.get? k).isSome then es.map fun e => if e.1 == k then (k, v) else e else es ++ [(k, v)]

/-- Edits the table to which a path leads, from a table with a given origin. Missing tables on the
    way are made. A dotted key may lead neither through a table with a header nor through values;
    a header may lead through every table that is not inline, and through the last one of an
    array of tables. -/
def Toml.Entries.editAt (dotted : Bool)
    (edit : Toml.Origin → Toml.Entries → Option Toml.Entries) :
    List String → Toml.Origin → Toml.Entries → Option Toml.Entries
  | [], origin, es => edit origin es
  | k :: path, _, es => do
    let child ← match es.get? k with
      | none =>
        let origin : Toml.Origin := if dotted then .dotted else .implied
        Toml.table origin <$> Toml.Entries.editAt dotted edit path origin []
      | some (.table origin inner) =>
        if origin = .inline ∨ (dotted ∧ origin = .header) then none
        else Toml.table origin <$> Toml.Entries.editAt dotted edit path origin inner
      | some (.tables earlier last) =>
        Toml.tables earlier <$> Toml.Entries.editAt dotted edit path .header last
      | some _ => none
    return es.put k child

/-- Adds a key with its value to a table. Only a dotted key adds to tables that dotted keys have
    made, and it adds to no others. -/
def Toml.Entries.add (path : List String) (k : String) (v : Toml) (origin : Toml.Origin)
    (es : Toml.Entries) : Option Toml.Entries :=
  es.editAt true (fun origin es =>
    if (origin == .dotted) == path.isEmpty || (es.get? k).isSome then none
    else some (es.put k v)) path origin

/-- Opens the table of a header below `path`. A table that is there already must have been made by
    the headers of tables inside it. -/
def Toml.Entries.openTable (path : List String) (k : String) (es : Toml.Entries) :
    Option Toml.Entries :=
  es.editAt false (fun _ es =>
    match es.get? k with
    | none => some (es.put k (.table .header []))
    | some (.table .implied inner) => some (es.put k (.table .header inner))
    | some _ => none) path .header

/-- Opens a further table of an array of tables below `path`. -/
def Toml.Entries.openNext (path : List String) (k : String) (es : Toml.Entries) :
    Option Toml.Entries :=
  es.editAt false (fun _ es =>
    match es.get? k with
    | none => some (es.put k (.tables [] []))
    | some (.tables earlier last) =>
      some (es.put k (.tables (earlier ++ [.table .header last]) []))
    | some _ => none) path .header

end FoldedStacks
