import ComponentAssembly.Pattern
import ComponentAssembly.Text.Decimal

/-!
Filter expressions: which log records are to be shown.

An expression is a list of directives between commas, of which empty ones are skipped.  A directive
is a level, or a target, a span with a field in braces, and a level, each of which may be missing.
The value of a field is a number or a pattern.

Blanks around a directive are skipped.  But positions are counted, in bytes, from the first
character that is no blank, while fields and levels are cut from the directive as it is.  So blanks
before a directive shift what is cut.
-/

namespace ComponentAssembly

/-- What is left after a number of bytes, unless they end within a character. -/
def dropBytes : Nat → List Char → Option (List Char)
  | 0, cs => some cs
  | _ + 1, [] => none
  | n + 1, c :: rest => if c.utf8Size ≤ n + 1 then dropBytes (n + 1 - c.utf8Size) rest else none

/-- The characters in a number of bytes, unless they end within a character. -/
def takeBytes : Nat → List Char → Option (List Char)
  | 0, _ => some []
  | _ + 1, [] => none
  | n + 1, c :: rest =>
    if c.utf8Size ≤ n + 1 then (takeBytes (n + 1 - c.utf8Size) rest).map (c :: ·) else none

/-- Whether a text is a field: a name, and a value after a sign of equality.  What follows another
such sign is ignored. -/
def isField (cs : List Char) : Bool :=
  match (String.ofList cs).splitOn "=" with
  | _ :: value :: _ => (Text.readDouble value).isSome || isPattern value.toList
  | _ => !cs.isEmpty

/-- The names of the levels. -/
def levelNames : List String := ["error", "warn", "info", "debug", "trace", "off"]

/-- Whether a text names a level, by its name in any case or by its number. -/
def isLevel (text : String) : Bool :=
  text.isEmpty || levelNames.contains (text.map Char.toLower) || isLevelNumber text.toList
where
  /-- Whether a text is a number of at most five. -/
  isLevelNumber (cs : List Char) : Bool :=
    let digits := match cs with
      | '+' :: rest => rest
      | cs => cs
    match digits.reverse with
    | [] => false
    | last :: zeros => '0' ≤ last && last ≤ '5' && zeros.all (· == '0')

/-- Where the reading of a directive stands; fields and levels with the position where they
start. -/
inductive DirectiveState where
  | start
  | levelOrTarget
  | span
  | field (since : Nat)
  | fields
  | target
  | level (since : Nat)
deriving DecidableEq, Inhabited

namespace DirectiveState

/-- Whether a directive may start with a character. -/
def opens (c : Char) : Bool :=
  c == '-' || c == ':' || c == '_' || Text.isAlphanumeric c

/-- Reads the character at a position; what is cut is cut from a text. -/
def next (state : DirectiveState) (text : List Char) (position : Nat) (c : Char) :
    Option DirectiveState :=
  match state with
  | start => if c == '[' then some span else if opens c then some levelOrTarget else none
  | levelOrTarget =>
    some (if c == '=' then level (position + 1) else if c == '[' then span else levelOrTarget)
  | span =>
    some (if c == ']' then target else if c == '\x7b' then field (position + 1) else span)
  | field since =>
    if c == '\x7d' then do
      let cs ← takeBytes (position - since) (← dropBytes since text)
      if isField cs then some fields else none
    else some (field since)
  | fields => if c == ']' then some target else none
  | target => if c == '=' then some (level (position + 1)) else none
  | level since => some (level since)

/-- Reads characters from a position on. -/
def readFrom (state : DirectiveState) (text : List Char) (position : Nat) :
    List Char → Option DirectiveState
  | [] => some state
  | c :: rest => do
    let state ← state.next text position c
    state.readFrom text (position + c.utf8Size) rest

end DirectiveState

/-- Whether a text is a directive. -/
def isDirective (text : String) : Bool :=
  let cs := text.toList
  let trimmed := ((cs.dropWhile Text.isSpace).reverse.dropWhile Text.isSpace).reverse
  match DirectiveState.start.readFrom cs 0 trimmed with
  | some .levelOrTarget => true
  | some .target => true
  | some (.level since) => (dropBytes since cs).any fun cs => isLevel (String.ofList cs)
  | _ => false

/-- Whether a text is a filter expression. -/
def isFilterExpression (text : String) : Bool :=
  (text.splitOn ",").all fun directive => directive.isEmpty || isDirective directive

end ComponentAssembly
