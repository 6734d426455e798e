import ComponentAssembly.Key
import ComponentAssembly.Text.Case

/-!
String substitutors: what the raw texts of a configuration tree become before they are read.
-/

namespace ComponentAssembly

/-- Replaces every occurrence of a text, from the left, by another.  `skip` characters belong to an
occurrence that has been replaced already. -/
def replaceFrom (old new : List Char) : Nat → List Char → List Char
  | _, [] => []
  | skip + 1, _ :: rest => replaceFrom old new skip rest
  | 0, c :: rest =>
    if old.isPrefixOf (c :: rest) then new ++ replaceFrom old new (old.length - 1) rest
    else c :: replaceFrom old new 0 rest

/-- A rule that turns one text into another. -/
inductive Substitutor where
  | identity
  | upper
  | reverse
  | empty
  | bracket
  | replace (old new : String)
deriving DecidableEq, Inhabited

namespace Substitutor

/-- The substitutor that a word stands for; by default texts stay as they are. -/
def ofWord : String → Substitutor
  | "upper" => upper
  | "reverse" => reverse
  | "empty" => empty
  | "bracket" => bracket
  | _ => identity

/-- Applies a substitutor.  The empty text is found before every character and at the end. -/
def apply (s : Substitutor) (text : String) : String :=
  match s with
  | identity => text
  | upper => Text.upper text
  | reverse => String.ofList text.toList.reverse
  | empty => ""
  | bracket => "[" ++ text ++ "]"
  | replace old new =>
    if old.isEmpty then
      String.ofList (text.toList.flatMap (fun c => new.toList ++ [c]) ++ new.toList)
    else
      String.ofList (replaceFrom old.toList new.toList 0 text.toList)

/-- The name under which the substitutor of an injector is bound. -/
def name : String := "StringSubstitutor"

/-- The key under which the substitutor of an injector is bound. -/
def key : Key := (Key.of TypePath.substitutor).withName name

end Substitutor

end ComponentAssembly
