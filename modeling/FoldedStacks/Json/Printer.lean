-- SUMMARY: The texts of JSON values.
import FoldedStacks.Binary64.Decimal
import FoldedStacks.Json.Basic

/-!
# Writing JSON

Values are written without spaces. Strings escape the quote, the backslash and the control
characters, and nothing else; numbers that are doubles always show a point or an exponent.
-/

namespace FoldedStacks

/-- The last character of a two-character escape, for the characters that have one. -/
def Json.shortEscape? (c : Char) : Option Char :=
  if c = '\"' then some '\"'
  else if c = '\\' then some '\\'
  else if c = '\x08' then some 'b'
  else if c = '\x0c' then some 'f'
  else if c = '\n' then some 'n'
  else if c = '\r' then some 'r'
  else if c = '\t' then some 't'
  else none

/-- A character inside a string. -/
def Json.renderChar (c : Char) : List Char :=
  match Json.shortEscape? c with
  | some e => ['\\', e]
  | none =>
    if c.toNat < 0x20 then
      ['\\', 'u', '0', '0', Nat.digitChar (c.toNat / 16), Nat.digitChar (c.toNat % 16)]
    else [c]

/-- A string in quotes. -/
def Json.renderString (s : String) : List Char :=
  '\"' :: s.toList.flatMap Json.renderChar ++ ['\"']

def Json.renderInt (i : Int) : List Char :=
  if i < 0 then '-' :: Text.numeral i.natAbs else Text.numeral i.natAbs

def Json.Number.render : Json.Number → List Char
  | .int i _ => Json.renderInt i
  | .float x => x.render

/-- Texts with commas between them. -/
def Json.commaSeparated : List (List Char) → List Char
  | [] => []
  | [t] => t
  | t :: u :: rest => t ++ ',' :: Json.commaSeparated (u :: rest)

/-- A member of an object whose value is written as `value`. -/
def Json.renderMember (k : String) (value : List Char) : List Char :=
  Json.renderString k ++ ':' :: value

/-- The text of an array whose elements are written as `items`. -/
def Json.bracketed (items : List (List Char)) : List Char :=
  '[' :: Json.commaSeparated items ++ [']']

/-- The text of an object whose members are written as `members`. -/
def Json.braced (members : List (List Char)) : List Char :=
  '\x7b' :: Json.commaSeparated members ++ ['\x7d']

mutual

/-- The text of a value. -/
def Json.render : Json → List Char
  | .null => ['n', 'u', 'l', 'l']
  | .bool true => ['t', 'r', 'u', 'e']
  | .bool false => ['f', 'a', 'l', 's', 'e']
  | .num n => n.render
  | .str s => Json.renderString s
  | .arr items => Json.bracketed (Json.renderItems items)
  | .obj members => Json.braced (Json.renderMembers members)

def Json.renderItems : List Json → List (List Char)
  | [] => []
  | v :: rest => v.render :: Json.renderItems rest

def Json.renderMembers : List (String × Json) → List (List Char)
  | [] => []
  | (k, v) :: rest => Json.renderMember k v.render :: Json.renderMembers rest

end

/-- The text of a document. -/
def Document.render (d : Document) : List Char :=
  d.value.render

/-- The text of metadata. -/
def Metadata.render (m : Metadata) : List Char :=
  m.toDocument.render

end FoldedStacks
