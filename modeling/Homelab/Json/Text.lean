import Homelab.Json.Basic

namespace Json

/-! # The text of a document

`dumps` writes a document with sorted keys in ASCII, `loads` reads any document
whose numbers are integers and whose texts have no unpaired surrogate.
-/

/-! ## Writing -/

def hexDigits (unit : Nat) : List Char :=
  [unit / 4096 % 16, unit / 256 % 16, unit / 16 % 16, unit % 16].map Nat.digitChar

def escapeUnit (unit : Nat) : List Char := '\\' :: 'u' :: hexDigits unit

/-- The letters after a backslash, with the characters they stand for. -/
def shortEscapes : List (Char × Char) :=
  [('"', '"'), ('\\', '\\'), ('n', '\n'), ('r', '\r'), ('t', '\t'), ('b', '\x08'), ('f', '\x0c')]

/-- Characters beyond the first 65536 are written as two units. -/
def escapeChar (char : Char) : List Char :=
  match shortEscapes.find? fun escape => escape.2 == char with
  | some (letter, _) => ['\\', letter]
  | none =>
      if ' ' ≤ char ∧ char ≤ '~' then [char]
      else if char.toNat < 65536 then escapeUnit char.toNat
      else escapeUnit (55296 + (char.toNat - 65536) / 1024) ++ escapeUnit (56320 + (char.toNat - 65536) % 1024)

def quote (text : String) : List Char := '"' :: (text.toList.flatMap escapeChar ++ ['"'])

def writeInt : Int → List Char
  | .ofNat value => Nat.toDigits 10 value
  | .negSucc value => '-' :: Nat.toDigits 10 (value + 1)

mutual
def write : Json → List Char
  | .null => ['n', 'u', 'l', 'l']
  | .bool true => ['t', 'r', 'u', 'e']
  | .bool false => ['f', 'a', 'l', 's', 'e']
  | .int value => writeInt value
  | .str value => quote value
  | .arr [] => ['[', ']']
  | .arr (item :: rest) => '[' :: (write item ++ writeItems rest)
  | .obj [] => ['{', '}']
  | .obj ((key, value) :: rest) => '{' :: (quote key ++ ':' :: ' ' :: (write value ++ writeFields rest))
termination_by structural value => value

/-- What stands between an element of an array and its end. -/
def writeItems : List Json → List Char
  | [] => [']']
  | item :: rest => ',' :: ' ' :: (write item ++ writeItems rest)
termination_by structural items => items

def writeFields : Object → List Char
  | [] => ['}']
  | (key, value) :: rest => ',' :: ' ' :: (quote key ++ ':' :: ' ' :: (write value ++ writeFields rest))
termination_by structural fields => fields
end

/-- `json.dumps(document, sort_keys=True)` -/
def dumps (document : Json) : String := String.ofList (write document.canonical)

/-! ## Reading -/

def isSpace (char : Char) : Bool := char == ' ' || char == '\t' || char == '\n' || char == '\r'

def skipSpace (text : List Char) : List Char := text.dropWhile isSpace

def hexValue (char : Char) : Option Nat :=
  if char.isDigit then some (char.toNat - 48)
  else if 'a' ≤ char ∧ char ≤ 'f' then some (char.toNat - 87)
  else if 'A' ≤ char ∧ char ≤ 'F' then some (char.toNat - 55)
  else none

def readUnit : List Char → Option (Nat × List Char)
  | first :: second :: third :: fourth :: rest => do
      let high ← hexValue first
      let upper ← hexValue second
      let lower ← hexValue third
      let low ← hexValue fourth
      return (((high * 16 + upper) * 16 + lower) * 16 + low, rest)
  | _ => none

/-- A high surrogate stands for a character only together with the low one after it. -/
def readEscaped (text : List Char) : Option (Char × List Char) := do
  let (unit, rest) ← readUnit text
  if 55296 ≤ unit ∧ unit < 56320 then
    match rest with
    | '\\' :: 'u' :: more => do
        let (second, rest) ← readUnit more
        guard (56320 ≤ second ∧ second < 57344)
        return (Char.ofNat (65536 + (unit - 55296) * 1024 + (second - 56320)), rest)
    | _ => none
  else
    guard (unit < 55296 ∨ 57344 ≤ unit)
    return (Char.ofNat unit, rest)

def readChar : List Char → Option (Char × List Char)
  | '\\' :: letter :: rest =>
      if letter = 'u' then readEscaped rest
      else if letter = '/' then some ('/', rest)
      else (shortEscapes.find? fun escape => escape.1 == letter).map fun escape => (escape.2, rest)
  | char :: rest => if char = '\\' ∨ char < ' ' then none else some (char, rest)
  | [] => none

/-- The characters up to the closing quote. -/
def readChars : Nat → List Char → Option (List Char × List Char)
  | 0, _ => none
  | _ + 1, '"' :: rest => some ([], rest)
  | fuel + 1, text => do
      let (char, rest) ← readChar text
      let (chars, rest) ← readChars fuel rest
      return (char :: chars, rest)

def readNat : List Char → Option (Nat × List Char)
  | '0' :: rest => some (0, rest)
  | text =>
      if text.takeWhile Char.isDigit = [] then none
      else some (Nat.ofDigitChars 10 (text.takeWhile Char.isDigit) 0, text.dropWhile Char.isDigit)

/-- A number: what a fraction or an exponent adds is left over, and nothing can follow it. -/
def readInt : List Char → Option (Json × List Char)
  | '-' :: rest => do
      let (value, rest) ← readNat rest
      return (.int (-value), rest)
  | text => do
      let (value, rest) ← readNat text
      return (.int value, rest)

mutual
def readValue : Nat → List Char → Option (Json × List Char)
  | 0, _ => none
  | fuel + 1, text =>
      match text with
      | '"' :: rest => do
          let (chars, rest) ← readChars fuel rest
          return (.str (String.ofList chars), rest)
      | '[' :: rest =>
          match skipSpace rest with
          | ']' :: rest => some (.arr [], rest)
          | rest => do
              let (items, rest) ← readItems fuel rest
              return (.arr items, rest)
      | '{' :: rest =>
          match skipSpace rest with
          | '}' :: rest => some (.obj [], rest)
          | rest => do
              let (fields, rest) ← readFields fuel [] rest
              return (.obj fields, rest)
      | 'n' :: 'u' :: 'l' :: 'l' :: rest => some (.null, rest)
      | 't' :: 'r' :: 'u' :: 'e' :: rest => some (.bool true, rest)
      | 'f' :: 'a' :: 'l' :: 's' :: 'e' :: rest => some (.bool false, rest)
      | text => readInt text
termination_by structural fuel => fuel

def readItems : Nat → List Char → Option (List Json × List Char)
  | 0, _ => none
  | fuel + 1, text => do
      let (item, rest) ← readValue fuel text
      match skipSpace rest with
      | ',' :: rest => do
          let (items, rest) ← readItems fuel (skipSpace rest)
          return (item :: items, rest)
      | ']' :: rest => return ([item], rest)
      | _ => none
termination_by structural fuel => fuel

/-- A key that comes again keeps its place and takes the later value. -/
def readFields : Nat → Object → List Char → Option (Object × List Char)
  | 0, _, _ => none
  | fuel + 1, fields, '"' :: text => do
      let (key, rest) ← readChars fuel text
      match skipSpace rest with
      | ':' :: rest => do
          let (value, rest) ← readValue fuel (skipSpace rest)
          match skipSpace rest with
          | ',' :: rest => readFields fuel (fields.set (String.ofList key) value) (skipSpace rest)
          | '}' :: rest => return (fields.set (String.ofList key) value, rest)
          | _ => none
      | _ => none
  | _ + 1, _, _ => none
termination_by structural fuel => fuel
end

/-- `json.loads(text)`. Two readers run on each character at most. -/
def loads (text : String) : Option Json := do
  let (document, rest) ← readValue (2 * text.toList.length + 2) (skipSpace text.toList)
  guard (skipSpace rest = [])
  return document

end Json
