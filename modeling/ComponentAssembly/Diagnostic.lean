/-!
Diagnostics and log records: what is reported while components are assembled.

A diagnostic is a finding about one place of a configuration tree.  A log record is one line of the
running account, a level, a message and named fields.
-/

namespace ComponentAssembly

/-- What a diagnostic is about. -/
inductive DiagnosticKind where
  | validationFailure
  | unmatchedConfiguration
  | skippedElement
  | conversionFailure
deriving DecidableEq, Inhabited

def DiagnosticKind.label : DiagnosticKind → String
  | validationFailure => "验证失败"
  | unmatchedConfiguration => "未匹配配置"
  | skippedElement => "跳过元素"
  | conversionFailure => "转换失败"

/-- The kind that a word stands for; conversion failures have no word of their own. -/
def DiagnosticKind.ofWord : String → DiagnosticKind
  | "validation" => .validationFailure
  | "unmatched" => .unmatchedConfiguration
  | "skipped" => .skippedElement
  | _ => .conversionFailure

/-- A finding about one place of a configuration tree. -/
structure Diagnostic where
  kind : DiagnosticKind
  path : String
  message : String
deriving DecidableEq, Inhabited

def Diagnostic.text (d : Diagnostic) : String :=
  "[" ++ d.kind.label ++ "] " ++ d.path ++ ": " ++ d.message

/-- How much a log record matters. -/
inductive LogLevel where
  | debug
  | info
  | warn
  | error
deriving DecidableEq, Inhabited

def LogLevel.word : LogLevel → String
  | debug => "DEBUG"
  | info => "INFO"
  | warn => "WARN"
  | error => "ERROR"

/-- One line of the running account. -/
structure LogRecord where
  level : LogLevel
  message : String
  fields : List (String × String) := []
deriving DecidableEq, Inhabited

/-- A record as one line: level, message, then each field with its value. -/
def LogRecord.line (r : LogRecord) : String :=
  let fields := r.fields.map fun (name, value) => name ++ "=" ++ value
  " ".intercalate (r.level.word :: r.message :: fields)

/-- The record of a diagnostic.  A failed validation is an error, all else a warning of its kind. -/
def Diagnostic.record (d : Diagnostic) : LogRecord :=
  match d.kind with
  | .validationFailure => { level := .error, message := d.message, fields := [("path", d.path)] }
  | kind =>
    { level := .warn, message := d.message, fields := [("path", d.path), ("kind", kind.label)] }

end ComponentAssembly
