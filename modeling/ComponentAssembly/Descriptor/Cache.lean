import ComponentAssembly.Descriptor.Ordered
import ComponentAssembly.Journal
import ComponentAssembly.Json.Token
import ComponentAssembly.Plugin

/-!
Descriptor caches: plugin entries by category and key.

Categories are stored in their lower form.  Of two entries for one category and key the lesser
stays: by class name, then name, then whether it is printable, then whether it defers.
-/

namespace ComponentAssembly

/-- The entries of one category. -/
abbrev CategoryEntries := Ordered PluginEntry

/-- Plugin entries by category and key. -/
structure Cache where
  categories : Ordered CategoryEntries := []
deriving DecidableEq, Inhabited

/-- Whether an entry stays when another comes for its key: it does if it is not greater. -/
def PluginEntry.staysBefore (old new : PluginEntry) : Bool :=
  if old.className ≠ new.className then old.className < new.className
  else if old.name ≠ new.name then old.name < new.name
  else if old.printable ≠ new.printable then new.printable
  else !old.defer || new.defer

namespace Cache

/-- The entries of a category, if the category is there. -/
def category? (c : Cache) (name : String) : Option CategoryEntries :=
  c.categories.get? (Text.lower name)

/-- The entries of a category; none if the category is not there. -/
def entries (c : Cache) (name : String) : CategoryEntries :=
  (c.category? name).getD []

/-- Puts a category in its place. -/
def setCategory (c : Cache) (name : String) (entries : CategoryEntries) : Cache :=
  { categories := c.categories.set (Text.lower name) entries }

/-- Looks at a category, which is there from then on. -/
def touch (c : Cache) (name : String) : Cache :=
  c.setCategory name (c.entries name)

def size (c : Cache) : Nat :=
  (c.categories.flatMap fun (_, entries) => entries).length

/-- Whether there is no entry, in whatever categories. -/
def isEmpty (c : Cache) : Bool := c.size == 0

/-- Puts an entry under a key of a category, whatever is there, and gives what was there. -/
def put (c : Cache) (category key : String) (entry : PluginEntry) : Option PluginEntry × Cache :=
  let entries := c.entries category
  (entries.get? key, c.setCategory category (entries.set key entry))

/-- Adds an entry.  Its category is lowered; a conflict with another entry is logged. -/
def insert (c : Cache) (entry : PluginEntry) : StateM Journal Cache := do
  let entry := { entry with category := Text.lower entry.category }
  let entries := c.entries entry.category
  match entries.get? entry.key with
  | none => return c.setCategory entry.category (entries.set entry.key entry)
  | some old =>
    if old = entry then return c
    let stays := old.staysBefore entry
    Journal.warn ("插件描述冲突, 保留 " ++ (if stays then old.className else entry.className))
      [("category", entry.category), ("key", entry.key), ("existing", old.className),
        ("incoming", entry.className)]
    if stays then return c
    else return c.setCategory entry.category (entries.set entry.key entry)

/-- Adds the entries of a category, each under its key in the category. -/
def insertCategory (c : Cache) (category : String) (entries : CategoryEntries) :
    StateM Journal Cache :=
  entries.foldlM (fun c (key, entry) => c.insert { entry with category, key }) c

/-- Adds all entries of another cache. -/
def merge (c other : Cache) : StateM Journal Cache :=
  -- a category of `other` without entries adds nothing, not even itself
  other.categories.foldlM (fun c (category, entries) => c.insertCategory category entries) c

/-- The cache of categories as they were read, in the order of their names. -/
def ofCategories (categories : Ordered CategoryEntries) : StateM Journal Cache :=
  categories.foldlM (fun c (category, entries) => c.insertCategory (Text.lower category) entries) {}

def text (c : Cache) : String :=
  let category := fun (name, entries) =>
    let shown := List.map (fun (key, entry) => key ++ "=" ++ PluginEntry.text entry) entries
    name ++ "=\x7b" ++ ", ".intercalate shown ++ "\x7d"
  "\x7b" ++ ", ".intercalate (c.categories.map category) ++ "\x7d"

/-! ## Written form -/

/-- Members of a JSON object, one a line, at a depth of so many blanks. -/
def writeObject (indent : Nat) (members : List (String × String)) : String :=
  let blanks := String.ofList (List.replicate (indent + 2) ' ')
  match members with
  | [] => "\x7b\x7d"
  | _ =>
    "\x7b\n" ++ ",\n".intercalate (members.map fun (name, value) =>
        blanks ++ Json.quote name ++ ": " ++ value)
      ++ "\n" ++ String.ofList (List.replicate indent ' ') ++ "\x7d"

/-- An entry as a JSON object.  Its category is not written. -/
def writeEntry (e : PluginEntry) : String :=
  writeObject 4
    [("key", Json.quote e.key), ("className", Json.quote e.className), ("name", Json.quote e.name),
      ("printable", PluginEntry.boolText e.printable), ("defer", PluginEntry.boolText e.defer)]

def toJson (c : Cache) : String :=
  writeObject 0 (c.categories.map fun (name, entries) =>
    (name, writeObject 2 (entries.map fun (key, entry) => (key, writeEntry entry))))

end Cache

end ComponentAssembly
