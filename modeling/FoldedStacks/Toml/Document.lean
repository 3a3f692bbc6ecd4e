-- SUMMARY: The reader of TOML documents: lines, headers of tables, and keys with their values.
import FoldedStacks.Toml.Scalar

/-!
# TOML documents

A document is a sequence of lines: blank lines, comments, headers of tables, and keys with their
values. Keys belong to the table of the last header.
-/

namespace FoldedStacks

/-- How deep arrays and inline tables may be nested, and how many parts a key may have. -/
def Toml.maxDepth : Nat := 79

/-! ## Keys -/

/-- The characters of a key without quotes. -/
def Toml.isBare (c : Char) : Bool :=
  c.isAlphanum || c == '_' || c == '-'

/-- A part of a key, with the space around it. -/
def Toml.keyPart : Text.Reader String := do
  Toml.spaces
  let k ← Toml.shortString '\"' <|> Toml.shortString '\x27' <|>
    (String.ofList <$> Text.someOf Toml.isBare)
  Toml.spaces
  return k

/-- The parts of a key behind the first one. -/
def Toml.moreKeyParts : Nat → Text.Reader (List String)
  | 0 => pure []
  | fuel + 1 => do
    if ← Text.takes '.' then
      let k ← Toml.keyPart
      return k :: (← Toml.moreKeyParts fuel)
    else return []

/-- A key: the parts that lead to its table, and its last part. -/
def Toml.key : Text.Reader (List String × String) := do
  let first ← Toml.keyPart
  let more ← Toml.moreKeyParts Toml.maxDepth
  let parts := first :: more
  if Toml.maxDepth < parts.length then failure
  return (parts.dropLast, parts.getLast (by simp [parts]))

/-! ## Values -/

/-- Space, line ends and comments, which may stand between the elements of an array. -/
def Toml.filler : Text.Reader Unit := do
  Toml.skipMany (Toml.blank <|> Toml.comment) (← get).length

/-- The elements of an array, up to and with the closing bracket. -/
def Toml.elements (value : Text.Reader Toml) : Nat → Text.Reader (List Toml)
  | 0 => failure
  | fuel + 1 => do
    Toml.filler
    if ← Text.takes ']' then return []
    let v ← value
    Toml.filler
    if ← Text.takes ',' then return v :: (← Toml.elements value fuel)
    Text.expect ']'
    return [v]

/-- A key with its value. -/
def Toml.keyValue (value : Text.Reader Toml) : Text.Reader ((List String × String) × Toml) := do
  let k ← Toml.key
  Text.expect '='
  Toml.spaces
  return (k, ← value)

/-- The entries of an inline table behind one of its keys, up to and with the closing brace. -/
def Toml.moreEntries (value : Text.Reader Toml) : Nat → Toml.Entries → Text.Reader Toml.Entries
  | 0, _ => failure
  | fuel + 1, es => do
    let ((path, k), v) ← Toml.keyValue value
    match es.add path k v .inline with
    | none => failure
    | some es =>
      Toml.spaces
      if ← Text.takes ',' then Toml.moreEntries value fuel es
      else
        Text.expect '\x7d'
        return es

/-- A value in which at most `levels` arrays and inline tables are nested. -/
def Toml.readValue : Nat → Text.Reader Toml
  | 0 => Toml.readScalar
  | levels + 1 => do
    if ← Text.takes '[' then
      return .array (← Toml.elements (Toml.readValue levels) ((← get).length + 1))
    else if ← Text.takes '\x7b' then
      Toml.spaces
      if ← Text.takes '\x7d' then return .table .inline []
      return .table .inline (← Toml.moreEntries (Toml.readValue levels) ((← get).length + 1) [])
    else Toml.readScalar

/-! ## Lines -/

/-- What a line of a document says. -/
inductive Toml.Line where
  | nothing
  | table (path : List String) (key : String)
  | nextTable (path : List String) (key : String)
  | entry (path : List String) (key : String) (value : Toml)

/-- The end of a line, with space and a comment before it. The last line may end with the text. -/
def Toml.lineEnd : Text.Reader Unit := do
  Toml.spaces
  let _ ← Text.optional Toml.comment
  if (← Text.next).isSome then Toml.newline

/-- The header of a table, or of a further table of an array of tables. -/
def Toml.header : Text.Reader Toml.Line := do
  Text.expect '['
  if ← Text.takes '[' then
    let (path, k) ← Toml.key
    Text.expectWord [']', ']']
    return .nextTable path k
  else
    let (path, k) ← Toml.key
    Text.expect ']'
    return .table path k

def Toml.line : Text.Reader Toml.Line := do
  Toml.spaces
  let line ← match ← Text.next with
    | none | some '#' | some '\n' | some '\r' => pure .nothing
    | some '[' => Toml.header
    | some _ => do
      let ((path, k), v) ← Toml.keyValue (Toml.readValue Toml.maxDepth)
      pure (.entry path k v)
  Toml.lineEnd
  return line

def Toml.lines : Nat → Text.Reader (List Toml.Line)
  | 0 => pure []
  | fuel + 1 => do
    if (← Text.next).isNone then return []
    let line ← Toml.line
    return line :: (← Toml.lines fuel)

/-! ## Documents -/

/-- A document that is being read: the table of the last header, and all entries. -/
structure Toml.Draft where
  current : List String
  entries : Toml.Entries

/-- Adds what a line says. -/
def Toml.Draft.add (d : Toml.Draft) : Toml.Line → Option Toml.Draft
  | .nothing => some d
  | .table path k => do return ⟨path ++ [k], ← d.entries.openTable path k⟩
  | .nextTable path k => do return ⟨path ++ [k], ← d.entries.openNext path k⟩
  | .entry path k v => do
    let add (_ : Toml.Origin) (es : Toml.Entries) := es.add path k v .header
    return { d with entries := ← d.entries.editAt false add d.current .header }

/-- The entries of a document. A byte order mark before it is left out. -/
def Toml.parse (text : List Char) : Option Toml.Entries := do
  let text := if text.head? = some '\ufeff' then text.drop 1 else text
  let lines ← (Toml.lines text.length).readAll text
  let d ← lines.foldlM Toml.Draft.add ⟨[], []⟩
  return d.entries

end FoldedStacks
