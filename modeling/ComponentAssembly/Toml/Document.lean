import ComponentAssembly.Settings.Tree
import ComponentAssembly.Toml.Lexeme

/-!
TOML documents: from text to a setting tree.

A document is a list of statements, headers and assignments, that build up one table.  A table is
opened by a header, implied by the header of a table in it, or made by a dotted key, and this
decides what may still be added to it: nothing is defined twice.
-/

namespace ComponentAssembly.Toml

/-- How a table came to be. -/
inductive Opening where
  | header
  | implied
  | dotted
deriving DecidableEq, Inhabited

/-- What a document has under a key. -/
inductive Item where
  | value (v : Tree)
  | table (opening : Opening) (entries : List (String × Item))
  | tables (all : List (List (String × Item)))
deriving Inhabited

/-- The keys of a table and what is under them. -/
abbrev Entries := List (String × Item)

namespace Entries

def get? (es : Entries) (key : String) : Option Item :=
  (es.find? fun (k, _) => k == key).map (·.2)

/-- Puts an item under a key. -/
def set (es : Entries) (key : String) (item : Item) : Entries :=
  match es with
  | [] => [(key, item)]
  | (k, i) :: rest => if k == key then (key, item) :: rest else (k, i) :: set rest key item

/-- Changes the table at the end of a path.  Tables that are not there are made; of an array of
tables the last one is meant.  A dotted path does not lead through a table that has a header. -/
def within (dotted : Bool) (change : Opening → Entries → Option Entries) :
    List String → Opening → Entries → Option Entries
  | [], opening, es => change opening es
  | key :: path, _, es =>
    match get? es key with
    | none => do
      let opening := if dotted then .dotted else .implied
      let inner ← within dotted change path opening []
      return es ++ [(key, .table opening inner)]
    | some (.value _) => none
    | some (.table opening inner) =>
      if dotted && opening == .header then none
      else do
        let inner ← within dotted change path opening inner
        return set es key (.table opening inner)
    | some (.tables all) => do
      let last ← all.getLast?
      let last ← within dotted change path .header last
      return set es key (.tables (all.dropLast ++ [last]))

/-- Adds a value under a new key. -/
def add (key : String) (v : Tree) (es : Entries) : Option Entries :=
  if (get? es key).isSome then none else some (es ++ [(key, .value v)])

/-- Assigns a value to a key, dotted or not, of a table.  A dotted key ends in a table that is made
of dotted keys only. -/
def assign (path : List String) (v : Tree) (opening : Opening) (es : Entries) : Option Entries :=
  match path.getLast? with
  | none => none
  | some key =>
    let change (reached : Opening) (inner : Entries) : Option Entries :=
      if path.length = 1 || reached == .dotted then add key v inner else none
    within true change path.dropLast opening es

/-- Opens a table under a key. -/
def openTable (key : String) (es : Entries) : Option Entries :=
  match get? es key with
  | none => some (es ++ [(key, .table .header [])])
  | some (.table .implied inner) => some (set es key (.table .header inner))
  | some _ => none

/-- Opens one more table of the array under a key. -/
def openNext (key : String) (es : Entries) : Option Entries :=
  match get? es key with
  | none => some (es ++ [(key, .tables [[]])])
  | some (.tables all) => some (set es key (.tables (all ++ [[]])))
  | some _ => none

end Entries

mutual

/-- An item as a setting. -/
def Item.tree : Item → Tree
  | .value v => v
  | .table _ entries => .table (treesOf entries)
  | .tables all => .list (tablesOf all)

def treesOf : List (String × Item) → List (String × Tree)
  | [] => []
  | (key, item) :: rest => (key, item.tree) :: treesOf rest

def tablesOf : List (List (String × Item)) → List Tree
  | [] => []
  | entries :: rest => .table (treesOf entries) :: tablesOf rest

end

/-! ## Values -/

/-- Reads a value that is neither an array nor a table. -/
def readPlain (cs : List Char) : Option (Tree × List Char) :=
  match cs with
  | 't' :: 'r' :: 'u' :: 'e' :: rest => some (.bool true, rest)
  | 'f' :: 'a' :: 'l' :: 's' :: 'e' :: rest => some (.bool false, rest)
  | '"' :: _ | '\'' :: _ => (readString cs).map fun (s, rest) => (.text s, rest)
  | _ =>
    match readMoment cs, readFloat cs with
    | some (s, rest), _ => some (.text s, rest)
    | none, some (d, rest) => some (.float d, rest)
    | none, none => (readInt cs).map fun (n, rest) => (.int n, rest)

/-- The items of an array after its opening bracket, each read by `read`. -/
def readItems (read : Read Tree) : Nat → Read (List Tree)
  | 0, _ => none
  | fuel + 1, cs => do
    let rest ← skipLines (cs.length + 1) cs
    match rest with
    | ']' :: rest => return ([], rest)
    | _ =>
      let (item, rest) ← read rest
      let rest ← skipLines (rest.length + 1) rest
      match rest with
      | ']' :: rest => return ([item], rest)
      | ',' :: rest => do
        let (more, rest) ← readItems read fuel rest
        return (item :: more, rest)
      | _ => none

/-- Reads an assignment up to the end of its value. -/
def readAssignment (read : Read Tree) : Read (List String × Tree) := fun cs => do
  let (key, rest) ← readKey cs
  let (_, rest) ← readChar '=' rest
  let (v, rest) ← read (skipBlanks rest)
  return ((key, v), rest)

/-- The assignments of a table on one line after its opening brace. -/
def readFields (read : Read Tree) : Nat → Read (List (List String × Tree))
  | 0, _ => none
  | fuel + 1, cs => do
    let (field, rest) ← readAssignment read cs
    match skipBlanks rest with
    | '}' :: rest => return ([field], rest)
    | ',' :: rest => do
      let (more, rest) ← readFields read fuel rest
      return (field :: more, rest)
    | _ => none

/-- A table from its assignments. -/
def tableOf (fields : List (List String × Tree)) : Option Tree := do
  let entries ← fields.foldlM (fun es (path, v) => Entries.assign path v .header es) []
  return .table (treesOf entries)

/-- Reads a value that is nested so many times at most. -/
def readValue : Nat → Read Tree
  | 0, _ => none
  | depth + 1, '[' :: rest =>
    if depth = 0 then none
    else (readItems (readValue depth) (rest.length + 1) rest).map fun (items, rest) =>
      (.list items, rest)
  | depth + 1, '\x7b' :: rest =>
    if depth = 0 then none
    else
      match skipBlanks rest with
      | '\x7d' :: rest => some (.table [], rest)
      | rest => do
        let (fields, rest) ← readFields (readValue depth) (rest.length + 1) rest
        return (← tableOf fields, rest)
  | _ + 1, cs => readPlain cs

/-! ## Statements -/

/-- A line of a document that is not empty. -/
inductive Statement where
  | openTable (path : List String)
  | openNext (path : List String)
  | assign (path : List String) (v : Tree)

/-- Reads a statement up to the end of its last token. -/
def readStatement : Read Statement
  | '[' :: '[' :: rest => do
    let (path, rest) ← readKey rest
    let (_, rest) ← readChar ']' rest
    let (_, rest) ← readChar ']' rest
    return (.openNext path, rest)
  | '[' :: rest => do
    let (path, rest) ← readKey rest
    let (_, rest) ← readChar ']' rest
    return (.openTable path, rest)
  | cs => do
    let ((path, v), rest) ← readAssignment (readValue nestingLimit) cs
    return (.assign path v, rest)

/-- Reads the statements of a text, each with a line of its own. -/
def readStatements : Nat → List Char → Option (List Statement)
  | 0, _ => none
  | fuel + 1, cs => do
    match ← skipLines (cs.length + 1) cs with
    | [] => return []
    | rest =>
      let (statement, rest) ← readStatement rest
      let rest ← endLine rest
      return statement :: (← readStatements fuel rest)

/-- A document in the course of reading: the table of the last header, and everything so far. -/
structure Progress where
  path : List String := []
  entries : Entries := []

/-- Carries out a statement. -/
def Statement.run (p : Progress) : Statement → Option Progress
  | .assign path v => do
    let change (opening : Opening) (inner : Entries) : Option Entries :=
      Entries.assign path v opening inner
    return { p with entries := ← Entries.within false change p.path .header p.entries }
  | .openTable path => openAt path Entries.openTable
  | .openNext path => openAt path Entries.openNext
where
  /-- Goes on at a table that is opened under the last name of a path. -/
  openAt (path : List String) (change : String → Entries → Option Entries) : Option Progress := do
    let key ← path.getLast?
    let entries ← Entries.within false (fun _ => change key) path.dropLast .header p.entries
    return { path, entries }

/-- Reads a document. -/
def read? (text : String) : Option Tree := do
  let cs := match text.toList with
    | '\uFEFF' :: rest => rest
    | cs => cs
  let statements ← readStatements (cs.length + 1) cs
  let p ← statements.foldlM Statement.run {}
  return .table (treesOf p.entries)

end ComponentAssembly.Toml
