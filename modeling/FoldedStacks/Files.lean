-- SUMMARY: Files as text, directories as tables, and the paths that lead to them.
import FoldedStacks.SortedMap

/-!
# Files

The contents of a file as text, and directories as tables of the files in them.
-/

namespace FoldedStacks

/-- Why a file has no text. -/
inductive FileError where
  | notFound
  /-- The contents are no UTF-8. -/
  | notText
  deriving DecidableEq

/-- The text of a file with given contents, which are missing when there is no such file. -/
def File.text (contents : Option ByteArray) : Except FileError String :=
  match contents with
  | none => .error .notFound
  | some bytes =>
    match String.fromUTF8? bytes with
    | some s => .ok s
    | none => .error .notText

/-- Why a path leads to no file of a directory. -/
inductive PathError where
  /-- It leads out of the directory. -/
  | outside
  /-- It is too long, ends in a directory, or goes on behind a file or a missing directory. -/
  | blocked

/-- The files below a directory, by the names on the path to each. -/
structure Directory where
  files : SortedMap (List String) ByteArray

/-- The directory without files. -/
def Directory.empty : Directory :=
  ⟨.empty⟩

/-- Whether names lead to a directory. Besides the outermost one there are those with a file below
    them. -/
def Directory.hasDirectory (d : Directory) (names : List String) : Bool :=
  names.isEmpty || d.files.keys.any fun file => names.isPrefixOf file && names != file

/-- A file that is looked for: the names on the path to it, and the directories that the path goes
    through. -/
structure Path.Target where
  names : List String
  through : List (List String)

/-- The number of bytes that a path may have. -/
def Path.maxSize : Nat := 4095

/-- The number of bytes that a name may have. -/
def Path.maxNameSize : Nat := 255

/-- Whether a part of a path may be a name. -/
def Path.isName (part : String) : Bool :=
  part ≠ "" && part ≠ "." && part ≠ ".." && part.utf8ByteSize ≤ Path.maxNameSize

/-- The way on from a directory by one part of a path, if the next directory may be entered. -/
def Path.step (mayEnter : List String → Bool) (way : List (List String)) (part : String) :
    Except PathError (List (List String)) :=
  let here := way.headD []
  if part = "" ∨ part = "." then .ok way
  else if part = ".." then
    if here.isEmpty then .error .outside else .ok (here.dropLast :: way)
  else if Path.isName part && mayEnter (here ++ [part]) then .ok ((here ++ [part]) :: way)
  else .error .blocked

/-- The file to which a path leads. All parts before the last one are directories on the way. -/
def Path.target (mayEnter : List String → Bool) (path : String) :
    Except PathError Path.Target := do
  let parts := path.splitOn "/"
  let name := parts.getLastD ""
  if Path.maxSize < path.utf8ByteSize ∨ !Path.isName name then throw .blocked
  if parts.length > 1 ∧ parts.head? = some "" then throw .outside
  let way ← parts.dropLast.foldlM (Path.step mayEnter) [[]]
  return ⟨way.headD [] ++ [name], way⟩

/-- The contents of a file. Files outside are not known. -/
def Directory.read? (d : Directory) (path : String) : Option ByteArray :=
  match Path.target d.hasDirectory path with
  | .ok target => d.files.get? target.names
  | .error _ => none

/-- The directory with a file written. Directories that are missing on the way are made, and those
    are no files. A file outside changes nothing. -/
def Directory.write? (d : Directory) (path : String) (contents : ByteArray) : Option Directory :=
  match Path.target (fun names => (d.files.get? names).isNone) path with
  | .ok target =>
    if d.hasDirectory target.names ∨ target.through.contains target.names then none
    else some ⟨d.files.insert target.names contents⟩
  | .error .outside => some d
  | .error .blocked => none

/-- The directory with files at given paths. -/
def Directory.ofList (files : List (String × ByteArray)) : Directory :=
  files.foldl (fun d f => (d.write? f.1 f.2).getD d) .empty

end FoldedStacks
