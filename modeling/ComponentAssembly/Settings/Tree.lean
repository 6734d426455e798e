import ComponentAssembly.Settings.Path
import ComponentAssembly.Text.Case
import ComponentAssembly.Text.Decimal

/-!
Setting trees: values by name, merged from several sources and read leniently.

A later value takes the place of an earlier one, except that tables are merged name by name.
Names are kept in their lower form.  A value may also be put at a position of a list, which grows as
far as it must.  A truth value may be written as a number or a word, and a text as a number or a
truth value; a list must be a list.
-/

namespace ComponentAssembly

/-- A value of settings. -/
inductive Tree where
  /-- What stands at a position of a list that nothing was put at. -/
  | nothing
  | bool (value : Bool)
  | int (value : Int)
  | float (value : Text.Double)
  | text (value : String)
  | list (items : List Tree)
  | table (entries : List (String × Tree))
deriving Inhabited

namespace Tree

/-- The entries of a table; any other value has none. -/
def entries : Tree → List (String × Tree)
  | table entries => entries
  | _ => []

def get? (t : Tree) (name : String) : Option Tree :=
  (t.entries.find? fun (n, _) => n == name).map (·.2)

/-- The items of a list; any other value has none. -/
def items : Tree → List Tree
  | list items => items
  | _ => []

/-- Sets a name among entries. -/
def assignName (name : String) (value : Tree) : List (String × Tree) → List (String × Tree)
  | [] => [(name, value)]
  | (n, v) :: rest =>
    if n == name then (name, value) :: rest else (n, v) :: assignName name value rest

/-! ## Merging -/

mutual

/-- Puts a value under a name of a tree, which becomes a table if it is none.  A table is merged
into what is there, any other value takes its place. -/
def put : Tree → String → Tree → Tree
  | table incoming, name, root =>
    let name := Text.lower name
    let target := (root.get? name).getD (table [])
    table (assignName name (putAll incoming target) root.entries)
  | value, name, root => table (assignName (Text.lower name) value root.entries)

/-- Puts all entries of a table into a tree. -/
def putAll : List (String × Tree) → Tree → Tree
  | [], root => root
  | (name, value) :: rest, root => putAll rest (put value name root)

end

/-- The index that a position stands for in a list of a length. -/
def indexOf (position : Int) (length : Nat) : Nat :=
  if 0 ≤ position then position.toNat else length - position.natAbs

/-- Items, with nothing after them up to an index. -/
def padTo (index : Nat) (items : List Tree) : List Tree :=
  items ++ List.replicate (index + 1 - items.length) nothing

/-- Puts a value at the end of a path.  What is no table before a name becomes one, and what is no
list before a position becomes one; an item of a list is replaced and never merged. -/
def putAt (root : Tree) (path : List PathStep) (value : Tree) : Tree :=
  match path with
  | [] => value
  | [.name name] => put value name root
  | .name name :: rest =>
    let name := Text.lower name
    table (assignName name (((root.get? name).getD nothing).putAt rest value) root.entries)
  | .position position :: rest =>
    let index := indexOf position root.items.length
    list ((padTo index root.items).modify index fun item => item.putAt rest value)

/-! ## Reading -/

/-- Reads a word as a truth value. -/
def boolOfWord (word : String) : Option Bool :=
  if ["1", "true", "on", "yes"].contains word then some true
  else if ["0", "false", "off", "no"].contains word then some false
  else none

def bool? : Tree → Option Bool
  | bool value => some value
  | int value => some (value != 0)
  | float value => some value.isNonzero
  | text value => boolOfWord (Text.lower value)
  | _ => none

def text? : Tree → Option String
  | bool value => some (if value then "true" else "false")
  | int value => some (toString value)
  | float value => some value.text
  | text value => some value
  | _ => none

def texts? : Tree → Option (List String)
  | list items => items.mapM text?
  | _ => none

end Tree

end ComponentAssembly
