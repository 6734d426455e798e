import ComponentAssembly.Descriptor.Cache
import ComponentAssembly.Error
import ComponentAssembly.Text.Inspect

/-!
Reading descriptor caches from JSON.

A cache is an object of categories, a category an object of entries.  An entry is an object of
its fields, or an array of their values in order.  The tokens are read once, in order, and the
first problem ends the reading, whether it is one of JSON or one of shape.
-/

namespace ComponentAssembly.Descriptor

open Json (Token)

/-- Reads something at the front of the tokens, and gives what follows. -/
abbrev Read (α : Type) := List Token → Except DecodeError (α × List Token)

/-- What a token begins, as complaints name it. -/
def describe : Token → Option String
  | .null => some "null"
  | .bool b => some ("boolean `" ++ PluginEntry.boolText b ++ "`")
  | .integer n => some ("integer `" ++ toString n ++ "`")
  | .float d => some ("floating point `" ++ Json.floatText d ++ "`")
  | .string (some text) => some ("string " ++ Text.quote text)
  | .openBracket => some "sequence"
  | .openBrace => some "map"
  | _ => none

/-- The complaint that something else is expected than what the tokens begin with. -/
def unexpected (expected : String) : List Token → DecodeError
  | [] => .malformed
  | t :: _ =>
    match describe t with
    | some found => .mismatch ("invalid type: " ++ found ++ ", expected " ++ expected)
    | none => .malformed

def readString : Read String
  | .string (some text) :: rest => .ok (text, rest)
  | ts => .error (unexpected "a string" ts)

def readBool : Read Bool
  | .bool b :: rest => .ok (b, rest)
  | ts => .error (unexpected "a boolean" ts)

def readColon : Read Unit
  | .colon :: rest => .ok ((), rest)
  | _ => .error .malformed

/-- What a place inside brackets calls for. -/
inductive Expect where
  /-- A value or the closing bracket. -/
  | first
  /-- A comma or the closing bracket. -/
  | separator
  /-- A value. -/
  | item
deriving DecidableEq

mutual

/-- Skips a value of any shape, where `fuel` bounds the number of tokens. -/
def skipValue : Nat → List Token → Except DecodeError (List Token)
  | 0, _ => .error .malformed
  | _, [] => .error .malformed
  | fuel + 1, t :: rest =>
    match t with
    | .openBrace => skipMembers fuel .first rest
    | .openBracket => skipItems fuel .first rest
    | .null => .ok rest
    | .bool _ => .ok rest
    | .integer _ => .ok rest
    | .float _ => .ok rest
    | .outOfRange => .ok rest
    | .string _ => .ok rest
    | _ => .error .malformed

/-- Skips the members of an object up to its end. -/
def skipMembers : Nat → Expect → List Token → Except DecodeError (List Token)
  | 0, _, _ => .error .malformed
  | fuel + 1, expect, ts =>
    match expect, ts with
    | .first, .closeBrace :: rest => .ok rest
    | .separator, .closeBrace :: rest => .ok rest
    | .separator, .comma :: rest => skipMembers fuel .item rest
    | .separator, _ => .error .malformed
    | _, .string _ :: .colon :: rest => do
      let rest ← skipValue fuel rest
      skipMembers fuel .separator rest
    | _, _ => .error .malformed

/-- Skips the items of an array up to its end. -/
def skipItems : Nat → Expect → List Token → Except DecodeError (List Token)
  | 0, _, _ => .error .malformed
  | fuel + 1, expect, ts =>
    match expect, ts with
    | .first, .closeBracket :: rest => .ok rest
    | .separator, .closeBracket :: rest => .ok rest
    | .separator, .comma :: rest => skipItems fuel .item rest
    | .separator, _ => .error .malformed
    | _, ts => do
      let rest ← skipValue fuel ts
      skipItems fuel .separator rest

end

/-! ## Entries -/

/-- The fields of an entry that were read so far. -/
structure PartialEntry where
  key : Option String := none
  className : Option String := none
  name : Option String := none
  printable : Option Bool := none
  defer : Option Bool := none

def missing (field : String) : DecodeError :=
  .mismatch ("missing field `" ++ field ++ "`")

def duplicated (field : String) : DecodeError :=
  .mismatch ("duplicate field `" ++ field ++ "`")

/-- The entry of the fields that were read; truth values that are not there are false. -/
def PartialEntry.complete (p : PartialEntry) : Except DecodeError PluginEntry :=
  match p.key, p.className, p.name with
  | none, _, _ => .error (missing "key")
  | _, none, _ => .error (missing "className")
  | _, _, none => .error (missing "name")
  | some key, some className, some name =>
    .ok { key, className, name, printable := p.printable.getD false, defer := p.defer.getD false,
          category := "" }

/-- Reads the value of a field that may be there only once. -/
def readField {α : Type} (field : String) (old : Option α) (read : Read α) : Read α :=
  fun ts =>
    if old.isSome then .error (duplicated field)
    else do
      let ((), rest) ← readColon ts
      read rest

/-- Reads the value of a named field; a name that no field has is passed over. -/
def readNamed (p : PartialEntry) (field : String) : Read PartialEntry := fun ts =>
  match field with
  | "key" => do
    let (v, rest) ← readField field p.key readString ts
    return ({ p with key := some v }, rest)
  | "className" => do
    let (v, rest) ← readField field p.className readString ts
    return ({ p with className := some v }, rest)
  | "name" => do
    let (v, rest) ← readField field p.name readString ts
    return ({ p with name := some v }, rest)
  | "printable" => do
    let (v, rest) ← readField field p.printable readBool ts
    return ({ p with printable := some v }, rest)
  | "defer" => do
    let (v, rest) ← readField field p.defer readBool ts
    return ({ p with defer := some v }, rest)
  | _ => do
    let ((), rest) ← readColon ts
    let rest ← skipValue (rest.length + 1) rest
    return (p, rest)

/-- Reads the fields of an entry that is an object. -/
def readFields : Nat → Expect → PartialEntry → Read PluginEntry
  | 0, _, _, _ => .error .malformed
  | fuel + 1, expect, p, ts =>
    match expect, ts with
    | .first, .closeBrace :: rest => do return (← p.complete, rest)
    | .separator, .closeBrace :: rest => do return (← p.complete, rest)
    | .separator, .comma :: rest => readFields fuel .item p rest
    | .separator, _ => .error .malformed
    | _, .string (some field) :: rest => do
      let (p, rest) ← readNamed p field rest
      readFields fuel .separator p rest
    | _, _ => .error .malformed

/-- Comes to the next item of an array, or to its end. -/
def nextItem (expect : Expect) (ts : List Token) : Except DecodeError (Option (List Token)) :=
  match expect, ts with
  | .first, .closeBracket :: _ => .ok none
  | .separator, .closeBracket :: _ => .ok none
  | .separator, .comma :: .closeBracket :: _ => .error .malformed
  | .separator, .comma :: rest => .ok (some rest)
  | .separator, _ => .error .malformed
  | _, [] => .error .malformed
  | _, ts => .ok (some ts)

/-- The complaint that an array ends too soon for an entry. -/
def tooShort (length : Nat) : DecodeError :=
  .mismatch ("invalid length " ++ toString length
    ++ ", expected struct PluginEntry with 5 elements")

/-- Reads an item that must be there, at a position of an array. -/
def readItem {α : Type} (position : Nat) (read : Read α) : Read α := fun ts => do
  match ← nextItem (if position = 0 then .first else .separator) ts with
  | none => throw (tooShort position)
  | some rest => read rest

/-- Reads a truth value that may be missing at the end of an array. -/
def readLastBool : Read Bool := fun ts => do
  match ← nextItem .separator ts with
  | none => return (false, ts)
  | some rest => readBool rest

/-- Reads the values of an entry that is an array, after its bracket. -/
def readItems : Read PluginEntry := fun ts => do
  let (key, ts) ← readItem 0 readString ts
  let (className, ts) ← readItem 1 readString ts
  let (name, ts) ← readItem 2 readString ts
  let (printable, ts) ← readLastBool ts
  let (defer, ts) ← readLastBool ts
  match ts with
  | .closeBracket :: rest =>
    return ({ key, className, name, printable, defer, category := "" }, rest)
  | _ => throw .malformed

/-- Reads an entry. -/
def readEntry : Read PluginEntry
  | .openBrace :: rest => readFields (rest.length + 1) .first {} rest
  | .openBracket :: rest => readItems rest
  | ts => .error (unexpected "struct PluginEntry" ts)

/-! ## Maps -/

/-- Reads the members of an object, where of equal names the last one counts. -/
def readMembers {α : Type} (read : Read α) : Nat → Expect → Ordered α → Read (Ordered α)
  | 0, _, _, _ => .error .malformed
  | fuel + 1, expect, m, ts =>
    match expect, ts with
    | .first, .closeBrace :: rest => .ok (m, rest)
    | .separator, .closeBrace :: rest => .ok (m, rest)
    | .separator, .comma :: rest => readMembers read fuel .item m rest
    | .separator, _ => .error .malformed
    | _, .string (some name) :: rest => do
      let ((), rest) ← readColon rest
      let (value, rest) ← read rest
      readMembers read fuel .separator (m.set name value) rest
    | _, _ => .error .malformed

def readMap {α : Type} (read : Read α) : Read (Ordered α)
  | .openBrace :: rest => readMembers read (rest.length + 1) .first [] rest
  | ts => .error (unexpected "a map" ts)

/-- Reads the categories of a cache from a whole text. -/
def readCategories (text : String) : Except DecodeError (Ordered CategoryEntries) := do
  let (categories, rest) ← readMap (readMap readEntry) (Json.tokens text)
  if rest.isEmpty then return categories else throw .malformed

end ComponentAssembly.Descriptor

namespace ComponentAssembly.Cache

/-- Reads a cache from a text, each entry under the keys of the maps that it stands in. -/
def ofJson (text : String) : StateM Journal (Except CacheError Cache) := do
  match Descriptor.readCategories text with
  | .error cause => return .error (.parse cause)
  | .ok categories => return .ok (← Cache.ofCategories categories)

/-- Reads a cache from a file at a path; the file may be missing. -/
def load (path : String) (content : Option String) : StateM Journal (Except CacheError Cache) := do
  Journal.debug ("加载插件描述文件: " ++ path) []
  match content with
  | none => return .error .read
  | some text => ofJson text

/-- Merges the caches of files into one; the first that fails ends it. -/
def loadInto (c : Cache) :
    List (String × Option String) → StateM Journal (Except CacheError Cache)
  | [] => return .ok c
  | (path, content) :: rest => do
    match ← load path content with
    | .error cause => return .error cause
    | .ok other => loadInto (← c.merge other) rest

def loadAll (files : List (String × Option String)) : StateM Journal (Except CacheError Cache) := do
  match ← loadInto {} files with
  | .error cause => return .error cause
  | .ok c =>
    Journal.info "插件描述文件合并完成"
      [("files", toString files.length), ("entries", toString c.size)]
    return .ok c

end ComponentAssembly.Cache
