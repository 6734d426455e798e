import ComponentAssembly.Configure
import ComponentAssembly.Descriptor.Decode
import ComponentAssembly.Descriptor.Registry
import ComponentAssembly.Settings

/-!
Hosts: an injector and a plugin registry, set up together from settings.

A plan says what a host is built from.  Descriptor files named by the settings are merged into the
registry before the injector is set up, and the registry itself is bound in the injector.
-/

namespace ComponentAssembly

/-- Where the settings of a host come from. -/
inductive SettingsSource where
  | given (settings : Settings)
  /-- A file, if there is one, and the environment variables that begin with a word. -/
  | loaded (file : Option SettingsFile) (word : String)
deriving Inhabited

/-- What a host is built from. -/
structure HostPlan where
  settings : SettingsSource
  /-- Whether logging is set up. -/
  logging : Bool := false
  scopes : List (TypePath × Assemble.ScopeName) := []
  modules : List Module := []
  classes : List PluginClass := []
  /-- Categories, names and classes of plugins. -/
  plugins : List (String × String × PluginClass) := []
  /-- The entries of each descriptor cache. -/
  descriptors : List (List PluginEntry) := []
deriving Inhabited

/-- An injector and a plugin registry. -/
structure Host where
  injector : State
  registry : Registry := {}
deriving Inhabited

namespace Host

def onInjector {α : Type} (step : StateM State α) : StateM Host α :=
  modifyGet fun h =>
    let (a, injector) := step h.injector
    (a, { h with injector })

def onJournal {α : Type} (step : StateM Journal α) : StateM Host α :=
  onInjector (State.onJournal step)

def onRegistry {α : Type} (step : Registering α) : StateM Host α := fun h =>
  let ((a, registry), injector) := State.onJournal (step h.registry) h.injector
  (a, { injector, registry })

/-! ## Building -/

/-- Merges a cache of entries into the registry. -/
def addDescriptors (entries : List PluginEntry) : StateM Host Unit := do
  let cache ← onJournal (entries.foldlM Cache.insert {})
  onRegistry (Registry.mergeCache cache)

/-- Registers what a plan brings along. -/
def register (p : HostPlan) : StateM Host Unit := do
  match p.settings with
  | .loaded (some file) _ => onJournal (Journal.info ("使用运行时配置文件: " ++ file.path) [])
  | _ => pure ()
  for m in p.modules do
    onJournal (Journal.debug "添加模块" [("module", m.name)])
  for c in p.classes do
    onRegistry (Registry.registerClass c)
  for (category, name, c) in p.plugins do
    onRegistry (Registry.registerPlugin category name c)
  for entries in p.descriptors do
    addDescriptors entries

/-- The settings of a plan. -/
def settle (source : SettingsSource) : StateM Host (Except HostError Settings) := do
  match source with
  | .given s => return .ok s
  | .loaded file word =>
    match ← onJournal (Settings.load file word (← get).injector.environment) with
    | some s => return .ok s
    | none => return .error .settings

/-- Merges the descriptor files of the settings into the registry. -/
def loadSources (s : Settings) (files : String → Option String) :
    StateM Host (Except HostError Unit) := do
  if s.descriptorSources.isEmpty then
    return .ok ()
  match ← onJournal (Cache.loadAll (s.descriptorSources.map fun path => (path, files path))) with
  | .error cause => return .error (.cache cause)
  | .ok cache =>
    onRegistry (Registry.mergeCache cache)
    return .ok ()

/-- Sets up the injector, and binds the registry in it. -/
def setUpInjector (p : HostPlan) (s : Settings) : StateM Host (Except HostError Unit) := do
  onInjector (modify fun st => { st with reportUnmatched := s.reportUnmatched })
  let steps : Assemble Unit := do
    let _ ← Assemble.setUp p.scopes p.modules
    let registry ← Assemble.allocate .registry
    Assemble.bindInstance (.of TypePath.registry) registry
  match ← onInjector steps.run with
  | .ok () => return .ok ()
  | .error (.error cause) => return .error (.assembly cause)
  | .error .exhausted => return .ok ()

/-- Whether logging is set up as a plan asks for it. -/
def startLogging (p : HostPlan) (s : Settings) : StateM Host Bool := do
  if p.logging then onJournal (s.logging.start (← get).injector.environment) else return true

/-- Sets up everything by given settings; `files` gives the text of the file at a path. -/
def assemble (p : HostPlan) (s : Settings) (files : String → Option String) :
    StateM Host (Except HostError Settings) := do
  if !(← startLogging p s) then
    return .error .settings
  onJournal (Journal.info "开始构建运行时" [])
  match ← loadSources s files with
  | .error cause => return .error cause
  | .ok () =>
    match ← setUpInjector p s with
    | .error cause => return .error cause
    | .ok () =>
      let h ← get
      onJournal (Journal.info "运行时构建完成"
        [("descriptor_sources", toString s.descriptorSources.length),
          ("plugins", toString h.registry.cache.size),
          ("bindings", toString h.injector.tables.bindings.length)])
      return .ok s

/-- Builds a host, and gives its settings. -/
def build (p : HostPlan) (files : String → Option String) :
    StateM Host (Except HostError Settings) := do
  register p
  match ← settle p.settings with
  | .error cause => return .error cause
  | .ok s => assemble p s files

/-! ## Use -/

/-- Annotates a tree in a category. -/
def annotate (category : String) (n : Node Instance) : StateM Host (Node Instance) := do
  let n ← onRegistry (Registry.annotate category n)
  onJournal (Journal.debug "解析配置树" [("category", category), ("node", n.label)])
  return n

/-- Configures a tree whose nodes get their plugin types from a category. -/
def configure (category : String) (n : Node Instance) :
    StateM Host (Except Stop (Option Instance) × Node Instance) := do
  let n ← annotate category n
  onInjector (Assemble.configure n)

/-- What a host with given settings shows of itself. -/
def inspect (h : Host) (s : Settings) : Text.Form :=
  .record "Runtime"
    [("injector", h.injector.inspect), ("plugins", .nat h.registry.cache.size),
      ("settings", s.inspect)] false

end Host

end ComponentAssembly
