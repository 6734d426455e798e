import ComponentAssembly.TypePath

/-!
Keys: what a component is asked for by.

A key is a type and at most one qualifier, a name or a marker type.  Keys are compared by structure;
names are compared letter by letter.
-/

namespace ComponentAssembly

/-- What tells two keys of one type apart. -/
inductive Qualifier where
  | named (name : String)
  | marker (kind : TypePath)
deriving DecidableEq, Inhabited

/-- The text of a qualifier.  A name stands between quotes as it is, nothing in it is escaped. -/
def Qualifier.text : Qualifier → String
  | .named name => "@Named(\"" ++ name ++ "\")"
  | .marker kind => "@" ++ kind.shortName

/-- A type and at most one qualifier. -/
structure Key where
  type : TypePath
  qualifier : Option Qualifier := none
deriving DecidableEq, Inhabited

namespace Key

/-- The unqualified key of a type. -/
def of (type : TypePath) : Key := { type }

/-- The key of the same type with the given name in place of its qualifier. -/
def withName (key : Key) (name : String) : Key :=
  { key with qualifier := some (.named name) }

def withQualifier (key : Key) (qualifier : Option Qualifier) : Key :=
  { key with qualifier }

/-- The key of the same type with a marker in place of its qualifier. -/
def withMarker (key : Key) (kind : TypePath) : Key :=
  key.withQualifier (some (.marker kind))

def name? (key : Key) : Option String :=
  match key.qualifier with
  | some (.named name) => some name
  | _ => none

/-- The text of a key: its qualifier, if any, and the short name of its type. -/
def text (key : Key) : String :=
  match key.qualifier with
  | some qualifier => qualifier.text ++ " " ++ key.type.shortName
  | none => key.type.shortName

/-- A key and its other names, in the order in which they are tried. -/
def candidates (key : Key) (aliases : List String) : List Key :=
  key :: aliases.map key.withName

end Key

end ComponentAssembly
