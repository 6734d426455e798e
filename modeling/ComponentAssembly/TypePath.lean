/-!
Type paths: a type is identified by its full path, and shown by its short name.

The short name drops the module path of every path-like word: from each maximal run of letters,
digits, underscores and colons only what follows the last double colon is kept; all other
characters stay.  So a generic type keeps its brackets and its arguments are shortened too.
-/

namespace ComponentAssembly

/-- A type, identified by its full path. -/
structure TypePath where
  path : String
deriving DecidableEq, Inhabited

namespace TypePath

/-- The characters of a path-like word.  Paths are made of ASCII letters only. -/
def isWordChar (c : Char) : Bool :=
  c.isAlphanum || c == '_' || c == ':'

/-- The last segment of a word that is given backwards, still backwards. -/
def lastSegment : List Char → List Char
  | ':' :: ':' :: _ => []
  | c :: rest => c :: lastSegment rest
  | [] => []

/-- Shortens a text, where `word` is the word read so far, backwards. -/
def shortenFrom (word : List Char) : List Char → List Char
  | [] => (lastSegment word).reverse
  | c :: rest =>
    if isWordChar c then
      shortenFrom (c :: word) rest
    else
      (lastSegment word).reverse ++ c :: shortenFrom [] rest

/-- The path without the module paths of its words. -/
def shortName (t : TypePath) : String :=
  String.ofList (shortenFrom [] t.path.toList)

def string : TypePath := ⟨"alloc::string::String"⟩

/-- The marker of the scope that keeps one instance per binding. -/
def singletonMarker : TypePath := ⟨"di_abstractions::scope::Singleton"⟩

def node : TypePath := ⟨"config_abstractions::node::Node"⟩

def substitutor : TypePath := ⟨"di_abstractions::substitution::StringSubstitutor"⟩

/-- Shared plugin registries. -/
def registry : TypePath := ⟨"alloc::sync::Arc<config_impl::registry::PluginRegistry>"⟩

/-- The path of a list of shared values of a type. -/
def listOf (t : TypePath) : TypePath :=
  ⟨"alloc::vec::Vec<alloc::sync::Arc<" ++ t.path ++ ">>"⟩

end TypePath

end ComponentAssembly
