import ComponentAssembly.TypePath

/-!
Scalars: the values that are written as text, and how text is read as one of them.

Integers take one sign and then decimal digits.  They are read from the left, and the first digit
that is none, or that leaves the range of the type, decides the complaint.
-/

namespace ComponentAssembly

/-- The integer types: their width in bits and whether they have a sign. -/
inductive IntType where
  | i8 | u8 | i16 | u16 | i32 | u32 | i64 | u64
deriving DecidableEq, Inhabited

namespace IntType

def name : IntType → String
  | i8 => "i8" | u8 => "u8" | i16 => "i16" | u16 => "u16"
  | i32 => "i32" | u32 => "u32" | i64 => "i64" | u64 => "u64"

def signed : IntType → Bool
  | i8 | i16 | i32 | i64 => true
  | u8 | u16 | u32 | u64 => false

def bits : IntType → Nat
  | i8 | u8 => 8
  | i16 | u16 => 16
  | i32 | u32 => 32
  | i64 | u64 => 64

def least (t : IntType) : Int :=
  if t.signed then -(Nat.pow 2 (t.bits - 1)) else 0

def greatest (t : IntType) : Int :=
  if t.signed then (Nat.pow 2 (t.bits - 1) : Int) - 1 else (Nat.pow 2 t.bits : Int) - 1

/-- Why a text is no integer of a type. -/
inductive Complaint where
  | empty
  | invalidDigit
  | tooLarge
  | tooSmall
deriving DecidableEq

def Complaint.message : Complaint → String
  | empty => "cannot parse integer from empty string"
  | invalidDigit => "invalid digit found in string"
  | tooLarge => "number too large to fit in target type"
  | tooSmall => "number too small to fit in target type"

def readUp (t : IntType) (value : Int) : List Char → Except Complaint Int
  | [] => .ok value
  | c :: rest =>
    if c.isDigit then
      let next := value * 10 + ((c.toNat : Int) - 48)
      if t.greatest < next then .error .tooLarge else readUp t next rest
    else .error .invalidDigit

/-- Appends digits to a value that is not positive. -/
def readDown (t : IntType) (value : Int) : List Char → Except Complaint Int
  | [] => .ok value
  | c :: rest =>
    if c.isDigit then
      let next := value * 10 - ((c.toNat : Int) - 48)
      if next < t.least then .error .tooSmall else readDown t next rest
    else .error .invalidDigit

/-- Reads a whole text.  Only a type with a sign takes a minus, and a lone sign is no integer. -/
def read (t : IntType) (text : List Char) : Except Complaint Int :=
  match text with
  | [] => .error .empty
  | ['+'] | ['-'] => .error .invalidDigit
  | '+' :: digits => t.readUp 0 digits
  | '-' :: digits => if t.signed then t.readDown 0 digits else .error .invalidDigit
  | digits => t.readUp 0 digits

end IntType

/-- The levels that a scalar can name. -/
inductive Severity where
  | error | warn | info
deriving DecidableEq, Inhabited

def Severity.name : Severity → String
  | error => "Error"
  | warn => "Warn"
  | info => "Info"

/-- The types of scalars. -/
inductive ScalarType where
  | string
  | bool
  | char
  | int (type : IntType)
  | severity
deriving DecidableEq, Inhabited

def ScalarType.typePath : ScalarType → TypePath
  | string => TypePath.string
  | bool => ⟨"bool"⟩
  | char => ⟨"char"⟩
  | int type => ⟨type.name⟩
  | severity => ⟨"driver::Level"⟩

/-- All scalar types. -/
def ScalarType.all : List ScalarType :=
  [string, bool, char, int .i8, int .u8, int .i16, int .u16, int .i32, int .u32, int .i64, int .u64,
    severity]

/-- The scalar type of a path. -/
def ScalarType.ofPath? (path : TypePath) : Option ScalarType :=
  ScalarType.all.find? (·.typePath == path)

/-- A value that is written as text. -/
inductive Scalar where
  | string (value : String)
  | bool (value : Bool)
  | char (value : Char)
  | int (type : IntType) (value : Int)
  | severity (value : Severity)
deriving DecidableEq, Inhabited

namespace Scalar

def type : Scalar → ScalarType
  | string _ => .string
  | bool _ => .bool
  | char _ => .char
  | int type _ => .int type
  | severity _ => .severity

def text : Scalar → String
  | string value => value
  | bool value => if value then "true" else "false"
  | char value => String.singleton value
  | int _ value => toString value
  | severity value => value.name

/-- Reads a level, whatever the case of its ASCII letters. -/
def readSeverity (text : String) : Except String Scalar :=
  let upper := text.map Char.toUpper
  match upper with
  | "ERROR" => .ok (severity .error)
  | "WARN" => .ok (severity .warn)
  | "INFO" => .ok (severity .info)
  | _ => .error ("未知的级别: " ++ upper)

/-- Reads a text as a scalar, or says why it is none. -/
def read (type : ScalarType) (text : String) : Except String Scalar :=
  match type with
  | .string => .ok (string text)
  | .bool =>
    match text with
    | "true" => .ok (bool true)
    | "false" => .ok (bool false)
    | _ => .error "provided string was not `true` or `false`"
  | .char =>
    match text.toList with
    | [] => .error "cannot parse char from empty string"
    | [c] => .ok (char c)
    | _ => .error "too many characters in string"
  | .int t =>
    match t.read text.toList with
    | .ok value => .ok (int t value)
    | .error complaint => .error complaint.message
  | .severity => readSeverity text

/-- A number as a scalar of a type, or as text if it is none of that type. -/
def ofNat (type : ScalarType) (n : Nat) : Scalar :=
  match read type (toString n) with
  | .ok scalar => scalar
  | .error _ => string (toString n)

/-- Reads a text, with a complaint that names the text and the type. -/
def convert (type : ScalarType) (text : String) : Except String Scalar :=
  match read type text with
  | .ok scalar => .ok scalar
  | .error reason =>
    .error ("无法将 \"" ++ text ++ "\" 转换为 " ++ type.typePath.path ++ ": " ++ reason)

end Scalar

end ComponentAssembly
