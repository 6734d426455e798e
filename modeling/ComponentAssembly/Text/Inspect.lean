import ComponentAssembly.Text.CharClass

/-!
Inspection forms: how a value shows its parts on one line.

A form is a word, a quoted text, a record, a tuple, a list or a table.  A record may be open: it
then ends in two dots, for the parts that it does not show.
-/

namespace ComponentAssembly.Text

/-- The number of a character in hexadecimal, between braces. -/
def escapeNumber (c : Char) : List Char :=
  "\\u\x7b".toList ++ Nat.toDigits 16 c.toNat ++ ['}']

/-- A character inside quotes: quotes, backslashes and whatever has no glyph of its own are escaped.
-/
def quoteChar (c : Char) : List Char :=
  match c with
  | '\x00' => ['\\', '0']
  | '\t' => ['\\', 't']
  | '\r' => ['\\', 'r']
  | '\n' => ['\\', 'n']
  | '\\' => ['\\', '\\']
  | '"' => ['\\', '"']
  | _ => if isPrintable c && !isExtending c then [c] else escapeNumber c

/-- A text between quotes. -/
def quote (text : String) : String :=
  String.ofList ('"' :: text.toList.flatMap quoteChar ++ ['"'])

/-- What a value shows of itself. -/
inductive Form where
  | word (text : String)
  | quoted (text : String)
  | record (name : String) (parts : List (String × Form)) (isOpen : Bool)
  | tuple (name : String) (parts : List Form)
  | list (parts : List Form)
  | table (parts : List (String × Form))

namespace Form

def bool (b : Bool) : Form := word (if b then "true" else "false")

def nat (n : Nat) : Form := word (toString n)

def quotedList (texts : List String) : Form := list (texts.map quoted)

def option {α : Type} (form : α → Form) : Option α → Form
  | none => word "None"
  | some a => tuple "Some" [form a]

def joined (parts : List String) : String := ", ".intercalate parts

mutual

def text : Form → String
  | word text => text
  | quoted text => quote text
  | record name parts isOpen =>
    match textFields parts ++ (if isOpen then [".."] else []) with
    | [] => name
    | shown => name ++ " \x7b " ++ joined shown ++ " \x7d"
  | tuple name parts => name ++ "(" ++ joined (textAll parts) ++ ")"
  | list parts => "[" ++ joined (textAll parts) ++ "]"
  | table parts => "\x7b" ++ joined (textEntries parts) ++ "\x7d"

def textAll : List Form → List String
  | [] => []
  | part :: rest => part.text :: textAll rest

def textFields : List (String × Form) → List String
  | [] => []
  | (name, part) :: rest => (name ++ ": " ++ part.text) :: textFields rest

def textEntries : List (String × Form) → List String
  | [] => []
  | (key, part) :: rest => (quote key ++ ": " ++ part.text) :: textEntries rest

end

end Form

end ComponentAssembly.Text
