import ComponentAssembly.Journal
import ComponentAssembly.Settings.Environment
import ComponentAssembly.Settings.Filter
import ComponentAssembly.Text.Inspect
import ComponentAssembly.Toml.Document

/-!
Settings of a host: their defaults, and where other values come from.

The defaults are overridden by a file and then by the environment.  A record of settings may also
be written as a list of its values in order; what is missing has its default, what is unknown is
ignored.
-/

namespace ComponentAssembly

/-- What is logged, and how. -/
structure LoggingSettings where
  /-- A filter expression. -/
  level : String := "info"
  json : Bool := false
deriving DecidableEq, Inhabited

/-- The settings of a host. -/
structure Settings where
  /-- The paths of descriptor files. -/
  descriptorSources : List String := []
  reportUnmatched : Bool := true
  logging : LoggingSettings := {}
deriving DecidableEq, Inhabited

/-- A file by its path; without text if there is no such file. -/
structure SettingsFile where
  path : String
  content : Option String
deriving Inhabited

/-- Reads a record, whose values may be given by name or in order, from the values of its fields. -/
def Tree.record {α : Type} (t : Tree) (names : List String)
    (build : (String → Option Tree) → Option α) : Option α :=
  match t with
  | .table _ => build t.get?
  | .list items => build (Tree.table (names.zip items)).get?
  | _ => none

/-- Reads a value that may be missing; a default stands for a missing one. -/
def readField {α : Type} (default : α) (read : Tree → Option α) : Option Tree → Option α
  | none => some default
  | some t => read t

open Text (Form)

namespace LoggingSettings

/-- Reads logging settings. -/
def ofTree (t : Tree) : Option LoggingSettings :=
  t.record ["level", "json"] fun field => do
    return { level := ← readField "info" Tree.text? (field "level")
             json := ← readField false Tree.bool? (field "json") }

def tree (s : LoggingSettings) : Tree :=
  .table [("level", .text s.level), ("json", .bool s.json)]

def inspect (s : LoggingSettings) : Form :=
  .record "LoggingSettings" [("level", .quoted s.level), ("json", .bool s.json)] false

/-- Whether logging can be set up: the level must be a filter expression, unless the environment has
one, which counts instead. -/
def isUsable (s : LoggingSettings) (environment : Texts) : Bool :=
  ((environment.get? "RUST_LOG").map isFilterExpression).getD false || isFilterExpression s.level

/-- Sets up logging, and gives whether it could be.  The log is there already, so that it stays as
it is. -/
def start (s : LoggingSettings) (environment : Texts) : StateM Journal Bool := do
  if s.isUsable environment then
    Journal.debug "已存在全局日志订阅者, 跳过初始化"
      [("error", "a global default trace dispatcher has already been set")]
    return true
  else return false

end LoggingSettings

namespace Settings

/-- Reads settings. -/
def ofTree (t : Tree) : Option Settings :=
  t.record ["descriptor_sources", "report_unmatched", "logging"] fun field => do
    return { descriptorSources := ← readField [] Tree.texts? (field "descriptor_sources")
             reportUnmatched := ← readField true Tree.bool? (field "report_unmatched")
             logging := ← readField {} LoggingSettings.ofTree (field "logging") }

def tree (s : Settings) : Tree :=
  .table [("descriptor_sources", .list (s.descriptorSources.map .text)),
    ("report_unmatched", .bool s.reportUnmatched), ("logging", s.logging.tree)]

def inspect (s : Settings) : Form :=
  .record "RuntimeSettings"
    [("descriptor_sources", .quotedList s.descriptorSources),
      ("report_unmatched", .bool s.reportUnmatched), ("logging", s.logging.inspect)] false

/-- Puts the settings of a document into a tree, each under the path that its key spells. -/
def putDocument (document root : Tree) : Tree :=
  document.entries.foldl (fun root (key, value) => root.putAt (pathOf key) value) root

/-- The settings of the defaults, a document and the environment, the later before the earlier. -/
def combine (document : Tree) (word : String) (environment : Texts) : Option Settings :=
  ofTree ((putDocument document ({} : Settings).tree).putVariables word environment)

/-- Reads a settings file; a file that is given must be there. -/
def readFile : Option SettingsFile → StateM Journal (Option Tree)
  | none => return some (.table [])
  | some { content := none, .. } => return none
  | some { path, content := some text } => do
    Journal.info ("加载运行时配置文件: " ++ path) []
    return Toml.read? text

/-- Loads settings from a file, if one is given, and the environment. -/
def load (file : Option SettingsFile) (word : String) (environment : Texts) :
    StateM Journal (Option Settings) := do
  match ← readFile file with
  | none => return none
  | some document =>
    match combine document word environment with
    | none => return none
    | some s =>
      Journal.debug "运行时配置加载完成" [("settings", s.inspect.text)]
      return some s

end Settings

end ComponentAssembly
