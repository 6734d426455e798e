import ComponentAssembly.Injector.Access

/-!
Configuration: how a tree of nodes becomes a tree of objects.

Children are configured before their parent, in order, unless the parent defers them.  A child
without a plugin type is skipped.  A node whose construction fails by validation is reported and
has no object; any other failure ends the whole run.  What a configured node leaves over is
reported.
-/

namespace ComponentAssembly

namespace Assemble

/-- Reports a finding. -/
def reportAt (kind : DiagnosticKind) (path message : String) : StateM State Unit :=
  State.onJournal (Journal.report kind path message)

/-- Reports the attributes of a node and then its children with a plugin type. -/
def reportLeftovers (n : Node Instance) (path : String) : StateM State Unit := do
  for (name, value) in n.attributes do
    reportAt .unmatchedConfiguration path
      (n.name ++ " 包含无效的属性 \"" ++ name ++ "\"=\"" ++ value ++ "\"")
  for child in n.children do
    if child.plugin.isSome then
      reportAt .unmatchedConfiguration path (n.name ++ " 包含无效的子元素 " ++ child.label)

/-- Whether a construction keeps the node, so that nothing of it is left over. -/
def keepsNode (n : Node Instance) (c : Construction) : Bool :=
  n.defersChildren || c.points.any (·.source == .node)

variable (given : Provider)

/-- Builds the object of a node whose children are done. -/
def configureSelf (plugin : PluginType) (n : Node Instance) (path : String) :
    StateM State (Except Stop (Option Instance) × Node Instance) := do
  let c := (← get).declared plugin.pluginClass.type
  State.onJournal (Journal.debug "构建插件"
    [("plugin", plugin.name), ("class", plugin.pluginClass.className), ("path", path)])
  let (result, left) ← construct given c (some n) path
  let n := left.getD n
  match result with
  | .ok object =>
    if (← get).reportUnmatched && !keepsNode n c then
      reportLeftovers n path
    return (.ok (some object), { n with object := some object })
  | .error (.error cause) =>
    -- a failed validation costs the node its object, any other failure ends the configuration
    if cause.isValidation then
      reportAt .validationFailure path cause.message
      return (.ok none, { n with object := none })
    else return (.error (.error cause), n)
  | .error .exhausted => return (.error .exhausted, n)

mutual

/-- Configures a node at a path. -/
def configureNode (n : Node Instance) (path : String) :
    StateM State (Except Stop (Option Instance) × Node Instance) :=
  match n with
  | ⟨name, plugin, attributes, text, children, object⟩ =>
    match plugin with
    | none =>
      return (.error (.error (.missingPluginType path)),
        { name, plugin := none, attributes, text, children, object })
    | some p =>
      if p.entry.defer then
        configureSelf given p { name, plugin, attributes, text, children, object } path
      else do
        match ← configureChildren children path with
        | (.error stop, children) =>
          return (.error stop, { name, plugin, attributes, text, children, object })
        | (.ok (), children) =>
          configureSelf given p { name, plugin, attributes, text, children, object } path

/-- Configures the children of a node at a path, in order; the first failure ends it. -/
def configureChildren (children : List (Node Instance)) (path : String) :
    StateM State (Except Stop Unit × List (Node Instance)) :=
  match children with
  | [] => return (.ok (), [])
  | child :: rest => do
    let childPath := path ++ "." ++ child.name
    if child.plugin.isNone then
      reportAt .skippedElement childPath ("子元素 " ++ child.name ++ " 没有对应的插件类型, 已跳过")
      let (result, rest) ← configureChildren rest path
      return (result, child :: rest)
    else
      match ← configureNode child childPath with
      | (.error stop, child) => return (.error stop, child :: rest)
      | (.ok object, child) =>
        let (result, rest) ← configureChildren rest path
        return (result, { child with object } :: rest)

end

def configure (n : Node Instance) :
    StateM State (Except Stop (Option Instance) × Node Instance) := do
  let depth := (← get).knownKeys.length + 2
  configureNode (Provider.of (callWithin depth)) n n.name

/-- Configures a tree whose object must be of a type. -/
def configureAs (n : Node Instance) (type : TypePath) :
    StateM State (Except Stop (Option Instance) × Node Instance) := do
  let (result, configured) ← configure n
  match result with
  | .ok (some object) =>
    match object.downcast type n.name with
    | .ok object => return (.ok (some object), configured)
    | .error cause => return (.error (.error cause), configured)
  | other => return (other, configured)

end Assemble

end ComponentAssembly
