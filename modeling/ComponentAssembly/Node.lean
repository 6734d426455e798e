import ComponentAssembly.Plugin

/-!
Configuration nodes: named elements with attributes, text and children.

A node may have a plugin type, and after configuration an object.  Attributes keep the order in
which they were first set; they are found by name whatever the case of its ASCII letters, but set
by exact name.
-/

namespace ComponentAssembly

/-- Attribute names and values, in order. -/
abbrev Attributes := List (String × String)

namespace Attributes

/-- Sets an attribute: in its place if the name is there, else at the end. -/
def set (name value : String) : Attributes → Attributes
  | [] => [(name, value)]
  | (n, v) :: rest => if n == name then (name, value) :: rest else (n, v) :: set name value rest

/-- The attributes of a list of names and values, each set in turn. -/
def ofList (entries : List (String × String)) : Attributes :=
  entries.foldl (fun attributes (name, value) => attributes.set name value) []

/-- The value of the attribute of exactly this name. -/
def valueOf (attributes : Attributes) (name : String) : Option String :=
  (attributes.find? fun (n, _) => n == name).map (·.2)

/-- The value of the first attribute of a name, ignoring ASCII case. -/
def find (attributes : Attributes) (name : String) : Option String :=
  (attributes.find? fun (n, _) => Text.sameIgnoringCase n name).map (·.2)

/-- The first attribute of a name, ignoring ASCII case. -/
def taken (attributes : Attributes) (name : String) : Option (String × String) :=
  attributes.find? fun (n, _) => Text.sameIgnoringCase n name

/-- The attributes without the first of a name, ignoring ASCII case. -/
def without (attributes : Attributes) (name : String) : Attributes :=
  attributes.eraseP fun (n, _) => Text.sameIgnoringCase n name

end Attributes

/-- An element of a configuration tree whose objects are of type `α`. -/
structure Node (α : Type) where
  name : String
  plugin : Option PluginType := none
  attributes : Attributes := []
  text : Option String := none
  children : List (Node α) := []
  object : Option α := none

namespace Node

variable {α : Type}

instance : Inhabited (Node α) := ⟨{ name := "" }⟩

/-- The node without name or content. -/
def empty : Node α := { name := "" }

/-- Whether the children of a node stay unconfigured. -/
def defersChildren (n : Node α) : Bool :=
  match n.plugin with
  | some plugin => plugin.entry.defer
  | none => false

/-- A node as text: its name and the name of its plugin. -/
def label (n : Node α) : String :=
  match n.plugin with
  | some plugin => n.name ++ "(" ++ plugin.name ++ ")"
  | none => n.name

open Text (Form)

mutual

/-- What a node shows of itself. -/
def inspect : Node α → Form
  | ⟨name, plugin, attributes, text, children, object⟩ =>
    .record "Node"
      [("name", .quoted name),
       ("plugin_type", .option .quoted (plugin.map (·.elementName))),
       ("attributes", .table (attributes.map fun (n, v) => (n, .quoted v))),
       ("value", .option .quoted text),
       ("children", .list (inspectAll children)),
       ("resolved", .bool object.isSome)]
      false

def inspectAll : List (Node α) → List Form
  | [] => []
  | n :: rest => n.inspect :: inspectAll rest

end

end Node

end ComponentAssembly
