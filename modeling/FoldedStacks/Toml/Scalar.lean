-- SUMMARY: Readers for TOML strings, numbers, truth values and dates.
import FoldedStacks.Binary64.Decimal
import FoldedStacks.Text.Reader
import FoldedStacks.Time.Calendar
import FoldedStacks.Toml.Basic

/-!
# TOML strings, numbers and dates

Readers for the parts of a TOML document that hold no other parts.
-/

namespace FoldedStacks

/-! ## Characters -/

/-- The characters of space within a line. -/
def Toml.isSpace (c : Char) : Bool :=
  c == ' ' || c == '\t'

/-- The characters that may stand anywhere on a line: all but the control characters other than
    the tab. -/
def Toml.isInLine (c : Char) : Bool :=
  c == '\t' || (0x20 ≤ c.toNat && c.toNat ≠ 0x7F)

def Toml.spaces : Text.Reader Unit := do
  let _ ← Text.manyOf Toml.isSpace

/-- The end of a line: a line feed, or a carriage return and a line feed. -/
def Toml.newline : Text.Reader Unit := do
  let _ ← Text.takes '\r'
  Text.expect '\n'

def Toml.comment : Text.Reader Unit := do
  Text.expect '#'
  let _ ← Text.manyOf Toml.isInLine

/-! ## Strings -/

def Toml.isHexDigit (c : Char) : Bool :=
  c.isDigit || ('a' ≤ c && c ≤ 'f') || ('A' ≤ c && c ≤ 'F')

/-- The value of a hexadecimal digit. -/
def Toml.digitValue (c : Char) : Nat :=
  if c.isDigit then c.toNat - '0'.toNat else c.toNat % 32 + 9

/-- The number with given digits. -/
def Toml.numberOf (base : Nat) (digits : List Char) : Nat :=
  digits.foldl (fun n c => base * n + Toml.digitValue c) 0

/-- The character with a number of `n` hexadecimal digits. -/
def Toml.charByNumber (n : Nat) : Text.Reader Char := fun cs =>
  let digits := cs.take n
  let value := Toml.numberOf 16 digits
  if digits.length = n ∧ digits.all Toml.isHexDigit ∧ Nat.isValidChar value then
    some (Char.ofNat value, cs.drop n)
  else none

/-- An escape, behind its backslash. -/
def Toml.escape : Text.Reader Char := do
  let c ← Text.oneOf fun _ => true
  if c = '\"' ∨ c = '\\' then return c
  else if c = 'b' then return '\x08'
  else if c = 't' then return '\t'
  else if c = 'n' then return '\n'
  else if c = 'f' then return '\x0c'
  else if c = 'r' then return '\r'
  else if c = 'u' then Toml.charByNumber 4
  else if c = 'U' then Toml.charByNumber 8
  else failure

/-- The rest of a string on one line, up to and with its closing `quote`. -/
def Toml.restOfString (quote : Char) : Nat → Text.Reader (List Char)
  | 0 => failure
  | fuel + 1 => do
    let c ← Text.oneOf Toml.isInLine
    if c = quote then return []
    else if c = '\\' ∧ quote = '\"' then
      let c ← Toml.escape
      return c :: (← Toml.restOfString quote fuel)
    else return c :: (← Toml.restOfString quote fuel)

/-- A space character or the end of a line. -/
def Toml.blank : Text.Reader Unit :=
  Toml.newline <|> do
    let _ ← Text.oneOf Toml.isSpace

/-- Takes a part as often as it is there, at most `fuel` times. -/
def Toml.skipMany (r : Text.Reader Unit) : Nat → Text.Reader Unit
  | 0 => pure ()
  | fuel + 1 => do
    match ← Text.optional r with
    | some _ => Toml.skipMany r fuel
    | none => pure ()

/-- The end of a line that a backslash takes out of a string, with all space behind it. -/
def Toml.escapedNewline : Text.Reader Unit := do
  Toml.spaces
  Toml.newline
  Toml.skipMany Toml.blank (← get).length

/-- The rest of a string of several lines. It ends with three quotes, before which two more may
    stand that belong to it. -/
def Toml.restOfLongString (quote : Char) : Nat → Text.Reader (List Char)
  | 0 => failure
  | fuel + 1 => do
    match ← Text.next with
    | none => failure
    | some c =>
      if c = quote then
        let quotes ← Text.manyOf (· == quote)
        if quotes.length < 3 then
          return quotes ++ (← Toml.restOfLongString quote fuel)
        else if quotes.length ≤ 5 then return quotes.drop 3
        else failure
      else if c = '\\' ∧ quote = '\"' then
        Text.expect '\\'
        match ← Text.optional Toml.escapedNewline with
        | some _ => Toml.restOfLongString quote fuel
        | none =>
          let c ← Toml.escape
          return c :: (← Toml.restOfLongString quote fuel)
      else
        match ← Text.optional Toml.newline with
        | some _ => return '\n' :: (← Toml.restOfLongString quote fuel)
        | none =>
          let c ← Text.oneOf Toml.isInLine
          return c :: (← Toml.restOfLongString quote fuel)

/-- A string on one line, in quotes of the given kind. -/
def Toml.shortString (quote : Char) : Text.Reader String := do
  Text.expect quote
  return String.ofList (← Toml.restOfString quote ((← get).length + 1))

/-- A string of several lines. A line end right behind its opening quotes is not part of it. -/
def Toml.longString (quote : Char) : Text.Reader String := do
  Text.expectWord [quote, quote, quote]
  let _ ← Text.optional Toml.newline
  return String.ofList (← Toml.restOfLongString quote ((← get).length + 1))

def Toml.readString : Text.Reader String :=
  Toml.longString '\"' <|> Toml.shortString '\"' <|>
    Toml.longString '\x27' <|> Toml.shortString '\x27'

/-! ## Numbers -/

/-- The digits at the front of a text that follows a digit. Between two digits one underscore may
    stand. -/
def Toml.moreDigits (p : Char → Bool) : List Char → List Char × List Char
  | [] => ([], [])
  | '_' :: d :: rest =>
    if p d then
      let (ds, rest) := Toml.moreDigits p rest
      (d :: ds, rest)
    else ([], '_' :: d :: rest)
  | d :: rest =>
    if p d then
      let (ds, rest) := Toml.moreDigits p rest
      (d :: ds, rest)
    else ([], d :: rest)

/-- One or more digits, without the underscores between them. -/
def Toml.digits (p : Char → Bool) : Text.Reader (List Char) := do
  let d ← Text.oneOf p
  let (ds, rest) := Toml.moreDigits p (← get)
  set rest
  return d :: ds

/-- Whether a minus sign is taken; a plus sign may be taken too. -/
def Toml.sign : Text.Reader Bool := do
  if ← Text.takes '-' then return true
  let _ ← Text.takes '+'
  return false

/-- The digits of a decimal integer. It begins with zero only if it is zero. -/
def Toml.decimalDigits : Text.Reader (List Char) := do
  if ← Text.takes '0' then return ['0'] else Toml.digits Char.isDigit

/-- An integer in 64 bits. -/
def Toml.integerOf (i : Int) : Text.Reader Toml :=
  if -2 ^ 63 ≤ i ∧ i < 2 ^ 63 then pure (.integer i) else failure

/-- An integer whose base is given by a letter behind a zero. -/
def Toml.basedInteger (letter : Char) (base : Nat) (p : Char → Bool) : Text.Reader Toml := do
  Text.expectWord ['0', letter]
  let ds ← Toml.digits p
  Toml.integerOf (Toml.numberOf base ds)

def Toml.readInteger : Text.Reader Toml :=
  Toml.basedInteger 'x' 16 Toml.isHexDigit <|>
    Toml.basedInteger 'o' 8 (fun c => '0' ≤ c && c ≤ '7') <|>
    Toml.basedInteger 'b' 2 (fun c => c == '0' || c == '1') <|> do
      let negative ← Toml.sign
      let n := Toml.numberOf 10 (← Toml.decimalDigits)
      Toml.integerOf (if negative then -(n : Int) else n)

/-- The exponent of a decimal. -/
def Toml.exponent : Text.Reader Int := do
  let _ ← Text.oneOf fun c => c == 'e' || c == 'E'
  let negative ← Toml.sign
  let n := Toml.numberOf 10 (← Toml.digits Char.isDigit)
  return if negative then -(n : Int) else n

/-- A decimal with a point or an exponent or both. It may not be larger than all doubles. -/
def Toml.decimal : Text.Reader Toml := do
  let negative ← Toml.sign
  let whole ← Toml.decimalDigits
  let fraction ← Text.optional do
    Text.expect '.'
    Toml.digits Char.isDigit
  let exponent ← Text.optional Toml.exponent
  if fraction.isNone ∧ exponent.isNone then failure
  let fraction := fraction.getD []
  let value := Binary64.ofDecimal negative (Toml.numberOf 10 (whole ++ fraction))
    (exponent.getD 0 - fraction.length)
  if value = .infinite false then failure else return .float

/-- A number that is not finite, or none at all. -/
def Toml.notFinite : Text.Reader Toml := do
  let _ ← Toml.sign
  Text.expectWord ['i', 'n', 'f'] <|> Text.expectWord ['n', 'a', 'n']
  return .float

/-! ## Dates and times -/

/-- A number of two digits from `low` to `high`. -/
def Toml.twoDigits (low high : Nat) : Text.Reader Nat := do
  let n ← Text.fixedDigits 2
  if low ≤ n ∧ n ≤ high then return n else failure

def Toml.calendarDate : Text.Reader Unit := do
  let year ← Text.fixedDigits 4
  Text.expect '-'
  let month ← Toml.twoDigits 1 12
  Text.expect '-'
  let day ← Toml.twoDigits 1 31
  if (Calendar.ofMonthDay? year month day).isNone then failure

def Toml.clockTime : Text.Reader Unit := do
  let _ ← Toml.twoDigits 0 23
  Text.expect ':'
  let _ ← Toml.twoDigits 0 59
  Text.expect ':'
  let _ ← Toml.twoDigits 0 60
  let _ ← Text.optional do
    Text.expect '.'
    Text.someOf Char.isDigit

def Toml.offset : Text.Reader Unit := do
  match ← Text.oneOf fun c => c == 'Z' || c == 'z' || c == '+' || c == '-' with
  | '+' | '-' =>
    let _ ← Toml.twoDigits 0 23
    Text.expect ':'
    let _ ← Toml.twoDigits 0 59
  | _ => pure ()

def Toml.readDate : Text.Reader Toml := do
  (do
    Toml.calendarDate
    let _ ← Text.optional do
      let _ ← Text.oneOf fun c => c == 'T' || c == 't' || c == ' '
      Toml.clockTime
      Text.optional Toml.offset) <|> Toml.clockTime
  return .date

/-- A value that holds no others. -/
def Toml.readScalar : Text.Reader Toml :=
  Toml.string <$> Toml.readString <|>
    (do Text.expectWord ['t', 'r', 'u', 'e']; return .boolean true) <|>
    (do Text.expectWord ['f', 'a', 'l', 's', 'e']; return .boolean false) <|>
    Toml.readDate <|> Toml.decimal <|> Toml.notFinite <|> Toml.readInteger

end FoldedStacks
