import ComponentAssembly.Diagnostic
import ComponentAssembly.Key

/-!
The journal: what assembly leaves behind besides its result.

It hands out object identities and component serial numbers, and it keeps events, diagnostics and
log records in the order in which they happened.
-/

namespace ComponentAssembly

/-- A component with its serial number, as events name it. -/
structure ComponentName where
  type : TypePath
  serial : Nat
deriving DecidableEq, Inhabited

def ComponentName.text (n : ComponentName) : String :=
  n.type.shortName ++ "#" ++ toString n.serial

/-- What components and factories do, as they do it. -/
inductive Event where
  | created (component : ComponentName)
  | assigned (component : ComponentName) (member : String)
  | built (component : ComponentName)
  | made (label : String)
  | configured (module : String)
  | wrapped (key : Key)
  | lookedUp (key : Key)
deriving DecidableEq, Inhabited

def Event.text : Event → String
  | created component => "new " ++ component.text
  | assigned component member => "set " ++ component.text ++ "." ++ member
  | built component => "built " ++ component.text
  | made label => "make " ++ label
  | configured module => "configure " ++ module
  | wrapped key => "scope " ++ key.text
  | lookedUp key => "lookup " ++ key.text

/-- Identities handed out so far, and the running account. -/
structure Journal where
  objects : Nat := 0
  serials : Nat := 0
  events : List Event := []
  diagnostics : List Diagnostic := []
  log : List LogRecord := []
  /-- Whether diagnostics are kept, or only written to the log. -/
  collecting : Bool := true
deriving Inhabited

namespace Journal

def freshObject : StateM Journal Nat :=
  modifyGet fun j => (j.objects, { j with objects := j.objects + 1 })

/-- The next serial number; the first is 1. -/
def freshSerial : StateM Journal Nat :=
  modifyGet fun j => (j.serials + 1, { j with serials := j.serials + 1 })

def note (event : Event) : StateM Journal Unit :=
  modify fun j => { j with events := j.events ++ [event] }

/-- Writes a log record. -/
def write (record : LogRecord) : StateM Journal Unit :=
  modify fun j => { j with log := j.log ++ [record] }

/-- Writes a record of the lowest level. -/
def debug (message : String) (fields : List (String × String)) : StateM Journal Unit :=
  write { level := .debug, message, fields }

def info (message : String) (fields : List (String × String)) : StateM Journal Unit :=
  write { level := .info, message, fields }

def warn (message : String) (fields : List (String × String)) : StateM Journal Unit :=
  write { level := .warn, message, fields }

/-- Reports a diagnostic: it is written to the log, and kept if diagnostics are collected. -/
def report (kind : DiagnosticKind) (path message : String) : StateM Journal Unit := do
  let diagnostic : Diagnostic := { kind, path, message }
  write diagnostic.record
  modify fun j =>
    if j.collecting then { j with diagnostics := j.diagnostics ++ [diagnostic] } else j

end Journal

end ComponentAssembly
