import ComponentAssembly.Text.Decimal
import ComponentAssembly.Text.Hex

/-!
Lexemes of TOML: blanks and comments, strings, keys, numbers and dates.

Every reader takes a list of characters and gives what it read and what is left.
-/

namespace ComponentAssembly.Toml

open Text (hexValue charOf?)

/-- A reader of the characters at the front of a text. -/
abbrev Read (α : Type) := List Char → Option (α × List Char)

/-! ## Blanks -/

/-- Blanks within a line. -/
def isBlank (c : Char) : Bool := c == ' ' || c == '\t'

def skipBlanks (cs : List Char) : List Char := cs.dropWhile isBlank

/-- Whether a character may stand in a comment or a string: all but control characters. -/
def isPlain (c : Char) : Bool :=
  c == '\t' || (0x20 ≤ c.toNat && c.toNat != 0x7f)

/-- What is left after the end of a line. -/
def newline : List Char → Option (List Char)
  | '\n' :: rest => some rest
  | '\r' :: '\n' :: rest => some rest
  | _ => none

/-- What is left after a comment, if there is one. -/
def skipComment : List Char → List Char
  | '#' :: rest => rest.dropWhile isPlain
  | cs => cs

/-- What is left after the rest of a line: blanks, a comment, and the end of the line or text. -/
def endLine (cs : List Char) : Option (List Char) :=
  match skipComment (skipBlanks cs) with
  | [] => some []
  | rest => newline rest

/-- What is left after blanks, comments and line ends; `fuel` bounds their number. -/
def skipLines : Nat → List Char → Option (List Char)
  | 0, cs => some cs
  | fuel + 1, cs =>
    match skipBlanks cs with
    | '#' :: rest =>
      match rest.dropWhile isPlain with
      | [] => some []
      | rest =>
        match newline rest with
        | some rest => skipLines fuel rest
        | none => none
    | rest =>
      match newline rest with
      | some rest => skipLines fuel rest
      | none => some rest

/-! ## Strings -/

/-- Reads a character from so many hexadecimal digits. -/
def readCodePoint (count : Nat) (cs : List Char) : Option (Char × List Char) := do
  let digits ← (cs.take count).mapM hexValue
  if digits.length ≠ count then none
  let c ← charOf? (digits.foldl (fun n d => n * 16 + d) 0)
  return (c, cs.drop count)

def readEscape : Read Char
  | 'b' :: rest => some ('\x08', rest)
  | 't' :: rest => some ('\t', rest)
  | 'n' :: rest => some ('\n', rest)
  | 'f' :: rest => some ('\x0c', rest)
  | 'r' :: rest => some ('\r', rest)
  | '"' :: rest => some ('"', rest)
  | '\\' :: rest => some ('\\', rest)
  | 'u' :: rest => readCodePoint 4 rest
  | 'U' :: rest => readCodePoint 8 rest
  | _ => none

/-- The rest of a string between double quotes. -/
def readBasic : Nat → Read (List Char)
  | 0, _ => none
  | _, [] => none
  | _ + 1, '"' :: rest => some ([], rest)
  | fuel + 1, '\\' :: rest => do
    let (c, rest) ← readEscape rest
    let (more, rest) ← readBasic fuel rest
    return (c :: more, rest)
  | fuel + 1, c :: rest =>
    if isPlain c then do
      let (more, rest) ← readBasic fuel rest
      return (c :: more, rest)
    else none

/-- The rest of a string between single quotes. -/
def readLiteral (cs : List Char) : Option (List Char × List Char) :=
  match cs.span fun c => isPlain c && c != '\'' with
  | (value, '\'' :: rest) => some (value, rest)
  | _ => none

/-- What is left after blanks and line ends. -/
def skipEmptyLines : List Char → List Char
  | '\r' :: '\n' :: rest => skipEmptyLines rest
  | c :: rest => if isBlank c || c == '\n' then skipEmptyLines rest else c :: rest
  | [] => []

/-- What is left after a line end that is escaped, and after the blanks and line ends that follow
it. -/
def skipEscapedLines (cs : List Char) : Option (List Char) :=
  (newline (skipBlanks cs)).map skipEmptyLines

/-- The rest of a string of several lines; escapes are read if its quotes are double.  Three quotes
close it, after at most two more that belong to it. -/
def readLong (quote : Char) : Nat → Read (List Char)
  | 0, _ => none
  | _, [] => none
  | fuel + 1, c :: rest =>
    let (run, after) := (c :: rest).span (· == quote)
    if 3 ≤ run.length then
      if run.length ≤ 5 then some (run.drop 3, after) else none
    else if c == '\\' && quote == '"' then
      match skipEscapedLines rest with
      | some rest => readLong quote fuel rest
      | none => do
        let (c, rest) ← readEscape rest
        let (more, rest) ← readLong quote fuel rest
        return (c :: more, rest)
    else
      match newline (c :: rest) with
      | some rest => do
        let (more, rest) ← readLong quote fuel rest
        return ('\n' :: more, rest)
      | none =>
        if isPlain c then do
          let (more, rest) ← readLong quote fuel rest
          return (c :: more, rest)
        else none

/-- Reads a string of several lines after its opening quotes; a line end right there is dropped. -/
def readLines (quote : Char) (cs : List Char) : Option (List Char × List Char) :=
  let body := (newline cs).getD cs
  readLong quote (body.length + 1) body

def readString : Read String := fun cs => do
  let (value, rest) ← match cs with
    | '"' :: '"' :: '"' :: rest => readLines '"' rest
    | '\'' :: '\'' :: '\'' :: rest => readLines '\'' rest
    | '"' :: rest => readBasic (rest.length + 1) rest
    | '\'' :: rest => readLiteral rest
    | _ => none
  return (String.ofList value, rest)

/-! ## Keys -/

/-- The characters of a bare key. -/
def isBare (c : Char) : Bool := c.isAlphanum || c == '-' || c == '_'

/-- Reads one name of a key: a bare one, or a string of one line. -/
def readName : Read String := fun cs => do
  let (name, rest) ← match cs with
    | '"' :: rest => readBasic (rest.length + 1) rest
    | '\'' :: rest => readLiteral rest
    | cs =>
      match cs.span isBare with
      | ([], _) => none
      | found => some found
  return (String.ofList name, rest)

/-- Reads the names of a key, between dots. -/
def readKeyWithin : Nat → Read (List String)
  | 0, _ => none
  | fuel + 1, cs => do
    let (name, rest) ← readName (skipBlanks cs)
    match skipBlanks rest with
    | '.' :: rest => do
      let (more, rest) ← readKeyWithin fuel rest
      return (name :: more, rest)
    | rest => return ([name], rest)

/-- The number at which keys and values are nested too deeply. -/
def nestingLimit : Nat := 80

/-- Reads a key and the blanks around it. -/
def readKey : Read (List String) := fun cs => do
  let (names, rest) ← readKeyWithin (cs.length + 1) cs
  if nestingLimit ≤ names.length then none
  return (names, rest)

/-! ## Numbers -/

/-- Reads digits with single underscores between them, and gives the digits. -/
def readDigits (isDigit : Char → Bool) : Read (List Char)
  | [] => none
  | c :: rest =>
    if isDigit c then
      match rest with
      | '_' :: d :: after =>
        if isDigit d then (readDigits isDigit (d :: after)).map fun (ds, left) => (c :: ds, left)
        else some ([c], rest)
      | d :: after =>
        if isDigit d then (readDigits isDigit (d :: after)).map fun (ds, left) => (c :: ds, left)
        else some ([c], rest)
      | [] => some ([c], [])
    else none

/-- A sign or none: whether it is a minus, and what is left. -/
def readSign : List Char → Bool × List Char
  | '-' :: rest => (true, rest)
  | '+' :: rest => (false, rest)
  | cs => (false, cs)

/-- Reads the digits of a decimal integer, without leading zeros. -/
def readWhole : Read (List Char)
  | '0' :: rest => some (['0'], rest)
  | cs => readDigits Char.isDigit cs

/-- An integer, unless it leaves 64 bits. -/
def int64 (n : Int) : Option Int :=
  if -(Nat.pow 2 63 : Int) ≤ n && n < Nat.pow 2 63 then some n else none

/-- Reads an integer of a base after its mark. -/
def readBased (base : Nat) : Read Int := fun cs => do
  let inBase (c : Char) : Bool := match hexValue c with
    | some d => d < base
    | none => false
  let (digits, rest) ← readDigits inBase cs
  let n ← int64 (digits.foldl (fun n c => n * base + (hexValue c).getD 0) 0 : Nat)
  return (n, rest)

def readInt : Read Int
  | '0' :: 'x' :: rest => readBased 16 rest
  | '0' :: 'o' :: rest => readBased 8 rest
  | '0' :: 'b' :: rest => readBased 2 rest
  | cs => do
    let (negative, cs) := readSign cs
    let (digits, rest) ← readWhole cs
    let value : Nat := Text.digitsValue digits
    let n ← int64 (if negative then -(value : Int) else value)
    return (n, rest)

/-- Reads the exponent of a float. -/
def readExponent : Read Int
  | c :: rest =>
    if c == 'e' || c == 'E' then do
      let (negative, rest) := readSign rest
      let (digits, rest) ← readDigits Char.isDigit rest
      let value : Nat := Text.digitsValue digits
      return (if negative then -(value : Int) else value, rest)
    else none
  | [] => none

/-- Reads a float: digits with a fraction, an exponent or both, or a word.  A float must not be
greater than all doubles. -/
def readFloat : Read Text.Double := fun cs => do
  let (negative, cs) := readSign cs
  match cs with
  | 'i' :: 'n' :: 'f' :: rest => return (.infinite negative, rest)
  | 'n' :: 'a' :: 'n' :: rest => return (.undefined, rest)
  | _ =>
    let (whole, rest) ← readWhole cs
    let (part, rest) ← match rest with
      | '.' :: rest => readDigits Char.isDigit rest
      | rest => if (readExponent rest).isSome then some ([], rest) else none
    let (exponent, rest) := (readExponent rest).getD (0, rest)
    let digits := Text.digitsValue (whole ++ part)
    let value := Text.Double.nearest negative digits (exponent - part.length)
    if value = .infinite false then none
    return (value, rest)

/-! ## Dates and times -/

/-- Reads exactly so many digits as a number between two bounds. -/
def readNumber (count least greatest : Nat) : Read Nat := fun cs => do
  let digits := cs.take count
  if digits.length ≠ count || !digits.all Char.isDigit then none
  let n := Text.digitsValue digits
  if n < least || greatest < n then none
  return (n, cs.drop count)

def readChar (expected : Char) : Read Unit
  | c :: rest => if c = expected then some ((), rest) else none
  | [] => none

/-- A number with leading zeros. -/
def padded (width n : Nat) : String :=
  let digits := Nat.toDigits 10 n
  String.ofList (List.replicate (width - digits.length) '0' ++ digits)

/-- The number of days of a month. -/
def daysOf (year month : Nat) : Nat :=
  if month = 2 then
    if year % 4 = 0 && (year % 100 ≠ 0 || year % 400 = 0) then 29 else 28
  else if [4, 6, 9, 11].contains month then 30 else 31

def readDate : Read String := fun cs => do
  let (year, rest) ← readNumber 4 0 9999 cs
  let (_, rest) ← readChar '-' rest
  let (month, rest) ← readNumber 2 1 12 rest
  let (_, rest) ← readChar '-' rest
  let (day, rest) ← readNumber 2 1 (daysOf year month) rest
  return (padded 4 year ++ "-" ++ padded 2 month ++ "-" ++ padded 2 day, rest)

/-- The text of a fraction of a second: nine digits at most, without trailing zeros. -/
def fractionText (digits : List Char) : String :=
  match ((digits.take 9).reverse.dropWhile (· == '0')).reverse with
  | [] => ""
  | shown => "." ++ String.ofList shown

/-- Reads a fraction of a second, if there is one, as its text. -/
def readFraction : List Char → Option (String × List Char)
  | '.' :: rest =>
    match rest.span Char.isDigit with
    | ([], _) => none
    | (digits, rest) => some (fractionText digits, rest)
  | cs => some ("", cs)

def readTime : Read String := fun cs => do
  let (hour, rest) ← readNumber 2 0 23 cs
  let (_, rest) ← readChar ':' rest
  let (minute, rest) ← readNumber 2 0 59 rest
  let (_, rest) ← readChar ':' rest
  let (second, rest) ← readNumber 2 0 60 rest
  let (fraction, rest) ← readFraction rest
  return (padded 2 hour ++ ":" ++ padded 2 minute ++ ":" ++ padded 2 second ++ fraction, rest)

/-- Reads the distance from universal time, if there is one, as its text.  No distance is negative
zero. -/
def readOffset : List Char → Option (String × List Char)
  | c :: rest =>
    if c == 'Z' || c == 'z' then some ("Z", rest)
    else if c == '+' || c == '-' then do
      let (hour, rest) ← readNumber 2 0 23 rest
      let (_, rest) ← readChar ':' rest
      let (minute, rest) ← readNumber 2 0 59 rest
      let sign := if c == '-' && hour * 60 + minute ≠ 0 then "-" else "+"
      return (sign ++ padded 2 hour ++ ":" ++ padded 2 minute, rest)
    else some ("", c :: rest)
  | [] => some ("", [])

def readMoment : Read String := fun cs =>
  match readDate cs with
  | none => readTime cs
  | some (date, rest) =>
    match rest with
    | c :: after =>
      if c == 'T' || c == 't' || c == ' ' then
        match readTime after with
        | none => some (date, rest)
        | some (time, rest) => do
          let (offset, rest) ← readOffset rest
          return (date ++ "T" ++ time ++ offset, rest)
      else some (date, rest)
    | [] => some (date, [])

end ComponentAssembly.Toml
