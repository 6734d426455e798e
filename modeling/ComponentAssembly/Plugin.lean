import ComponentAssembly.Text.Case
import ComponentAssembly.Text.Inspect
import ComponentAssembly.TypePath

/-!
Plugins: descriptor entries, classes that can be configured, and the plugin types made of both.
-/

namespace ComponentAssembly

/-- What a descriptor says about one plugin. -/
structure PluginEntry where
  key : String
  className : String
  name : String
  printable : Bool := false
  /-- Whether the children of an element stay unconfigured. -/
  defer : Bool := false
  category : String
deriving DecidableEq, Inhabited

namespace PluginEntry

/-- An entry whose key is the lower form of its name. -/
def of (name className category : String) : PluginEntry :=
  { key := Text.lower name, className, name, category }

def boolText (b : Bool) : String := if b then "true" else "false"

def text (e : PluginEntry) : String :=
  "PluginEntry [key=" ++ e.key ++ ", className=" ++ e.className ++ ", name=" ++ e.name
    ++ ", printable=" ++ boolText e.printable ++ ", defer=" ++ boolText e.defer
    ++ ", category=" ++ e.category ++ "]"

end PluginEntry

/-- A view of the components of one type as another type. -/
structure Cast where
  target : TypePath
  source : TypePath
deriving DecidableEq, Inhabited

/-- A class whose components can be configured. -/
structure PluginClass where
  type : TypePath
  className : String
  elementType : Option String := none
  casts : List Cast := []
deriving DecidableEq, Inhabited

namespace PluginClass

/-- The class of a type, under the full path of the type. -/
def of (type : TypePath) : PluginClass := { type, className := type.path }

/-- Whether components of a class can stand for a type. -/
def isAssignableTo (c : PluginClass) (target : TypePath) : Bool :=
  c.type == target || c.casts.any (·.target == target)

end PluginClass

/-- A descriptor entry together with its class. -/
structure PluginType where
  entry : PluginEntry
  pluginClass : PluginClass
deriving DecidableEq, Inhabited

namespace PluginType

/-- The plugin type of a class, under a name of its own. -/
def ofClass (name category : String) (c : PluginClass) : PluginType :=
  { entry := PluginEntry.of name c.className category, pluginClass := c }

/-- The name of the elements of a plugin: that of the class if it has one, else that of the entry.
-/
def elementName (t : PluginType) : String :=
  match t.pluginClass.elementType with
  | some name => if name.isEmpty then t.entry.name else name
  | none => t.entry.name

def name (t : PluginType) : String := t.entry.name

def text (t : PluginType) : String :=
  "PluginType [class=" ++ t.pluginClass.className ++ ", key=" ++ t.entry.key
    ++ ", elementName=" ++ t.elementName ++ ", category=" ++ t.entry.category ++ "]"

end PluginType

end ComponentAssembly
