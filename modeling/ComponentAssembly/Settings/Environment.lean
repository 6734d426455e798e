import ComponentAssembly.Properties
import ComponentAssembly.Settings.Tree

/-!
Settings in the environment: which variables count, under which names, and what their values are
read as.

A variable counts if its name begins with a given word and an underscore, whatever the case.  Two
underscores lead into a table.
-/

namespace ComponentAssembly

/-- The key that a variable stands for, if its name begins with a word in lower form. -/
def variableKey? (start name : String) : Option String :=
  let name := (Text.lower name).toList
  let start := start.toList
  if start.isPrefixOf name then
    some (".".intercalate ((String.ofList (name.drop start.length)).splitOn "__"))
  else none

/-- The value of a variable: a truth value, an integer, a float or a text, the first that it can be
read as.  A text for the descriptor sources is a list with a blank between its items. -/
def variableValue (key value : String) : Tree :=
  match Text.lower value, IntType.i64.read value.toList, Text.readDouble value with
  | "true", _, _ => .bool true
  | "false", _, _ => .bool false
  | _, .ok n, _ => .int n
  | _, .error _, some d => .float d
  | _, .error _, none =>
    if key = "descriptor_sources" then .list ((value.splitOn " ").map .text) else .text value

/-- Puts the variables that count into a tree. -/
def Tree.putVariables (word : String) (environment : Texts) (root : Tree) : Tree :=
  let start := Text.lower (word ++ "_")
  environment.foldl (fun root (name, value) =>
    match variableKey? start name with
    | some key => root.putAt (pathOf key) (variableValue key value)
    | none => root) root

end ComponentAssembly
