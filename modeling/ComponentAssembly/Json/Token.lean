import ComponentAssembly.Json.Number
import ComponentAssembly.Text.Hex

/-!
JSON tokens: how a text falls into punctuation, words, numbers and strings.

A text that is no JSON has tokens up to the first place where none can be read; there stands
`bad`, and nothing follows it.  So whoever reads tokens in order meets the first problem first.
-/

namespace ComponentAssembly.Json

open Text (hexValue)

/-- A piece of a JSON text. -/
inductive Token where
  | openBrace | closeBrace | openBracket | closeBracket | colon | comma
  | null
  | bool (value : Bool)
  | integer (value : Int)
  | float (value : Text.Double)
  /-- A number beyond all doubles. -/
  | outOfRange
  /-- A string; one that names half of a surrogate pair has no text. -/
  | string (text : Option String)
  | bad
deriving DecidableEq, Inhabited

/-- The value of four hexadecimal digits, and what follows. -/
def readHex4 : List Char → Option (Nat × List Char)
  | a :: b :: c :: d :: rest => do
    let a ← hexValue a
    let b ← hexValue b
    let c ← hexValue c
    let d ← hexValue d
    return (((a * 16 + b) * 16 + c) * 16 + d, rest)
  | _ => none

/-- The character of an escape other than a number. -/
def escaped : Char → Option Char
  | '"' => some '"'
  | '\\' => some '\\'
  | '/' => some '/'
  | 'b' => some '\x08'
  | 'f' => some '\x0c'
  | 'n' => some '\n'
  | 'r' => some '\r'
  | 't' => some '\t'
  | _ => none

/-- One unit of a string: a character, or a number of sixteen bits that was escaped. -/
inductive StringUnit where
  | plain (c : Char)
  | code (n : Nat)

/-- The units of a string after its opening quote, and what follows its closing quote. -/
def readUnits : Nat → List Char → Option (List StringUnit × List Char)
  | 0, _ => none
  | _, [] => none
  | _, '"' :: rest => some ([], rest)
  | fuel + 1, '\\' :: 'u' :: rest => do
    let (n, rest) ← readHex4 rest
    let (units, rest) ← readUnits fuel rest
    return (.code n :: units, rest)
  | fuel + 1, '\\' :: c :: rest => do
    let c ← escaped c
    let (units, rest) ← readUnits fuel rest
    return (.plain c :: units, rest)
  | fuel + 1, c :: rest => do
    if c == '\\' || c.toNat < 32 then none
    let (units, rest) ← readUnits fuel rest
    return (.plain c :: units, rest)

/-- The text of units, unless half of a surrogate pair stands alone. -/
def textOf : List StringUnit → Option (List Char)
  | [] => some []
  | .plain c :: rest => (textOf rest).map (c :: ·)
  | .code high :: .code low :: rest =>
    if 0xd800 ≤ high && high < 0xdc00 then
      if 0xdc00 ≤ low && low < 0xe000 then
        (textOf rest).map (Char.ofNat (0x10000 + (high - 0xd800) * 0x400 + (low - 0xdc00)) :: ·)
      else none
    else if 0xdc00 ≤ high && high < 0xe000 then none
    else (textOf (.code low :: rest)).map (Char.ofNat high :: ·)
  | .code n :: rest =>
    if 0xd800 ≤ n && n < 0xe000 then none else (textOf rest).map (Char.ofNat n :: ·)

def numberToken : Number → Token
  | .integer n => .integer n
  | .float (.infinite _) => .outOfRange
  | .float d => .float d

/-- The token at the front of a text, and what follows. -/
def readToken (cs : List Char) : Option (Token × List Char) :=
  match cs with
  | '\x7b' :: rest => some (.openBrace, rest)
  | '\x7d' :: rest => some (.closeBrace, rest)
  | '[' :: rest => some (.openBracket, rest)
  | ']' :: rest => some (.closeBracket, rest)
  | ':' :: rest => some (.colon, rest)
  | ',' :: rest => some (.comma, rest)
  | '"' :: rest => (readUnits (rest.length + 1) rest).map fun (units, rest) =>
      (.string ((textOf units).map String.ofList), rest)
  | 'n' :: 'u' :: 'l' :: 'l' :: rest => some (.null, rest)
  | 't' :: 'r' :: 'u' :: 'e' :: rest => some (.bool true, rest)
  | 'f' :: 'a' :: 'l' :: 's' :: 'e' :: rest => some (.bool false, rest)
  | '-' :: rest => number (readNumber true rest)
  | c :: rest => if c.isDigit then number (readNumber false (c :: rest)) else none
  | [] => none
where
  /-- A number that was read as a token, and what follows. -/
  number (read : Option (Number × List Char)) : Option (Token × List Char) :=
    read.map fun (n, rest) => (numberToken n, rest)

/-- Whether a character may stand between tokens. -/
def isBlank (c : Char) : Bool :=
  c == ' ' || c == '\n' || c == '\t' || c == '\r'

/-- The tokens of a text.  Each takes at least one character, so the length bounds their number. -/
def tokensWithin : Nat → List Char → List Token
  | 0, _ => [.bad]
  | fuel + 1, cs =>
    match cs.dropWhile isBlank with
    | [] => []
    | rest =>
      match readToken rest with
      | some (t, rest) => t :: tokensWithin fuel rest
      | none => [.bad]

/-- The tokens of a text. -/
def tokens (text : String) : List Token :=
  let cs := text.toList
  tokensWithin (cs.length + 1) cs

/-! ## Writing -/

def hexDigit (n : Nat) : Char := (Nat.toDigits 16 n).headD '0'

/-- A character inside a JSON string. -/
def escapeChar (c : Char) : List Char :=
  match c with
  | '"' => ['\\', '"']
  | '\\' => ['\\', '\\']
  | '\x08' => ['\\', 'b']
  | '\x0c' => ['\\', 'f']
  | '\n' => ['\\', 'n']
  | '\r' => ['\\', 'r']
  | '\t' => ['\\', 't']
  | _ =>
    if c.toNat < 32 then ['\\', 'u', '0', '0', hexDigit (c.toNat / 16), hexDigit (c.toNat % 16)]
    else [c]

/-- A text as a JSON string. -/
def quote (text : String) : String :=
  String.ofList ('"' :: text.toList.flatMap escapeChar ++ ['"'])

end ComponentAssembly.Json
