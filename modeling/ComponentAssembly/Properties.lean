/-!
Properties: named texts that class constraints ask for.

They come from the environment or from a map of their own.  A map holds at most one value per name.
-/

namespace ComponentAssembly

/-- Named texts. -/
abbrev Texts := List (String × String)

namespace Texts

def get? (texts : Texts) (name : String) : Option String :=
  (texts.find? fun (n, _) => n == name).map (·.2)

def set (texts : Texts) (name value : String) : Texts :=
  match texts with
  | [] => [(name, value)]
  | (n, v) :: rest => if n == name then (n, value) :: rest else (n, v) :: set rest name value

def remove (texts : Texts) (name : String) : Texts :=
  texts.filter fun (n, _) => n != name

/-- The texts of a list of names and values, where the last value of a name counts. -/
def ofList (entries : List (String × String)) : Texts :=
  entries.foldl (fun texts (name, value) => texts.set name value) []

end Texts

/-- Where properties come from: a map of texts, unless the environment is asked in its place. -/
structure PropertySource where
  texts : Texts := []
  /-- Whether the environment is asked in place of the map. -/
  ambient : Bool := false
deriving DecidableEq, Inhabited

namespace PropertySource

/-- The source that asks the environment. -/
def environment : PropertySource := { ambient := true }

/-- The value of a property, given the variables of the environment. -/
def get? (source : PropertySource) (environment : Texts) (name : String) : Option String :=
  (if source.ambient then environment else source.texts).get? name

def set (source : PropertySource) (name value : String) : PropertySource :=
  { source with texts := source.texts.set name value }

def remove (source : PropertySource) (name : String) : PropertySource :=
  { source with texts := source.texts.remove name }

end PropertySource

end ComponentAssembly
