import ComponentAssembly.Text.CharClass
import ComponentAssembly.Text.Hex

/-!
Atoms of patterns: what stands for one character, or for a place between two.

A pattern matches characters, or single bytes where a flag asks for that; no part of it may match a
part of a character.  There are no tables of characters behind it, so that matching in either case,
and digits, blanks and words as classes, are for bytes only.
-/

namespace ComponentAssembly.Pattern

/-! ## Modes -/

/-- How a place of a pattern is read and matched. -/
structure Mode where
  /-- Letters match in either case. -/
  caseless : Bool := false
  /-- Bytes are matched instead of characters. -/
  bytes : Bool := false
  /-- Blanks and comments are skipped. -/
  verbose : Bool := false
deriving DecidableEq, Inhabited

namespace Mode

/-- Turns a flag on or off; other flags change what is matched, but not what is a pattern. -/
def set (m : Mode) (flag : Char) (on : Bool) : Mode :=
  match flag with
  | 'i' => { m with caseless := on }
  | 'u' => { m with bytes := !on }
  | 'x' => { m with verbose := on }
  | _ => m

/-- What is left after blanks and comments.  A comment reaches to the end of its line. -/
def skipFrom (inComment : Bool) : List Char → List Char
  | [] => []
  | c :: rest =>
    if inComment then skipFrom (c != '\n') rest
    else if Text.isSpace c then skipFrom false rest
    else if c == '#' then skipFrom true rest
    else c :: rest

/-- What is left after blanks and comments, if they are skipped. -/
def skip (m : Mode) (cs : List Char) : List Char :=
  if m.verbose then skipFrom false cs else cs

end Mode

/-! ## Atoms -/

/-- What stands for one character, or for a place between two. -/
inductive Atom where
  /-- A character, which may be written as a number of two hexadecimal digits. -/
  | char (c : Char) (inTwoDigits : Bool)
  /-- Any character. -/
  | any
  /-- Digits, blanks or word characters, or else all others. -/
  | shorthand (negated : Bool)
  /-- The start or the end of a text or a line. -/
  | edge
  /-- The start or the end of a word, or else any other place. -/
  | wordEdge
deriving DecidableEq, Inhabited

/-- Whether an atom may stand outside brackets.  A number of two digits is a byte among bytes, and
one beyond ASCII is a part of a character. -/
def Atom.isAllowed (m : Mode) : Atom → Bool
  | char c inTwoDigits => if m.bytes then !(inTwoDigits && 128 ≤ c.toNat) else !m.caseless
  | any => !m.bytes
  | shorthand negated => m.bytes && !negated
  | edge => true
  | wordEdge => m.bytes

/-- Reads so many hexadecimal digits, each after what is skipped, behind those of a number. -/
def readHex (m : Mode) : Nat → Nat → List Char → Option (Nat × List Char)
  | 0, n, cs => some (n, cs)
  | count + 1, n, cs =>
    match m.skip cs with
    | [] => none
    | c :: rest => do readHex m count (n * 16 + (← Text.hexValue c)) rest

/-- Reads a character by its number of so many hexadecimal digits. -/
def readNumbered (m : Mode) (count : Nat) (cs : List Char) : Option (Atom × List Char) := do
  let (n, rest) ← readHex m count 0 cs
  return (.char (← Text.charOf? n) (count == 2), rest)

/-- What a letter or a sign stands for after a backslash.  A sign of ASCII stands for itself. -/
def escaped (c : Char) : Option Atom :=
  match c with
  | 'd' | 's' | 'w' => some (.shorthand false)
  | 'D' | 'S' | 'W' => some (.shorthand true)
  | 'A' | 'z' => some .edge
  | 'b' | 'B' | '<' | '>' => some .wordEdge
  | 'a' => some (.char '\x07' false)
  | 't' => some (.char '\t' false)
  | 'n' => some (.char '\n' false)
  | 'v' => some (.char '\x0b' false)
  | 'f' => some (.char '\x0c' false)
  | 'r' => some (.char '\r' false)
  | c => if c.toNat < 128 && !c.isAlphanum then some (.char c false) else none

/-- Reads an escape after its backslash. -/
def readEscape (m : Mode) : List Char → Option (Atom × List Char)
  | [] => none
  | 'x' :: rest => readNumbered m 2 rest
  | 'u' :: rest => readNumbered m 4 rest
  | 'U' :: rest => readNumbered m 8 rest
  | c :: rest => (escaped c).map (·, rest)

end ComponentAssembly.Pattern
