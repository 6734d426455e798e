import ComponentAssembly.Argument

/-!
Visits: how the points of a construction take what they ask for out of a configuration node.

An attribute point takes the first attribute of its name or of an alias.  A value point takes the
text, or else the attribute of its name.  An element point takes the first child that matches it,
or all of them.  A node point takes nothing and gets the node itself.

What is taken leaves the node, also when the visit then fails.
-/

namespace ComponentAssembly

/-- Where a visit takes place, the substitutor of its raw texts, and what was found so far. -/
structure VisitContext where
  path : String
  substitutor : Option Substitutor := none
  /-- The points visited so far and what each was given. -/
  account : String := ""
deriving Inhabited

namespace VisitContext

/-- What a raw text becomes. -/
def substitute (c : VisitContext) (raw : String) : String :=
  match c.substitutor with
  | some s => s.apply raw
  | none => raw

def log (c : VisitContext) (name value : String) : VisitContext :=
  let entry := name ++ "=\"" ++ value ++ "\""
  { c with account := if c.account.isEmpty then entry else c.account ++ ", " ++ entry }

/-- Reports a finding about the place of the visit. -/
def report (c : VisitContext) (kind : DiagnosticKind) (message : String) : StateM Journal Unit :=
  Journal.report kind c.path message

end VisitContext

/-- A node in the course of its visits. -/
structure Visit where
  node : Node Instance
  context : VisitContext
deriving Inhabited

namespace Visit

def log (v : Visit) (name value : String) : Visit :=
  { v with context := v.context.log name value }

/-! ## Attributes and text -/

/-- The first of some names that is the name of an attribute. -/
def attributeName (p : InjectionPoint) (attributes : Attributes) : Option String :=
  (p.name :: p.aliases).find? fun name => (attributes.taken name).isSome

/-- The attribute that a point takes, and the attributes that are left. -/
def takeAttribute (p : InjectionPoint) (attributes : Attributes) : Option String × Attributes :=
  match attributeName p attributes with
  | some name => (attributes.find name, attributes.without name)
  | none => (none, attributes)

/-- The text of a node, unless it is empty. -/
def elementText (n : Node Instance) : Option String :=
  match n.text with
  | some text => if text.isEmpty then none else some text
  | none => none

end Visit

/-! ## Scalars -/

/-- How the raw texts of a point become its argument. -/
structure Reader where
  /-- What a raw text becomes. -/
  substitute : String → StateM Journal String
  /-- What a text is read as, or the reason why it cannot be. -/
  convert : String → StateM Journal (Except String Instance)

namespace Reader

/-- The default of a point as its argument. -/
def defaultArgument (r : Reader) (p : InjectionPoint) (c : VisitContext) :
    StateM Journal (Argument × VisitContext) :=
  match p.default? with
  | none => return (.absent, c.log p.name "null")
  | some default => do
    let text ← r.substitute default
    match ← r.convert text with
    | .ok value => return (.scalar text value, c.log p.name text)
    | .error reason =>
      c.report .conversionFailure (p.name ++ " 的默认值无效: " ++ reason)
      return (.absent, c)

/-- A raw text as the argument of a point, or its default if there is none or it cannot be read. -/
def textArgument (r : Reader) (p : InjectionPoint) (raw : Option String) (c : VisitContext) :
    StateM Journal (Argument × VisitContext) :=
  match raw with
  | none => r.defaultArgument p c
  | some raw => do
    let text ← r.substitute raw
    match ← r.convert text with
    | .ok value => return (.scalar text value, c.log p.name text)
    | .error reason =>
      c.report .conversionFailure (p.name ++ ": " ++ reason)
      r.defaultArgument p c

/-- Visits an attribute point. -/
def visitAttribute (r : Reader) (p : InjectionPoint) (v : Visit) :
    StateM Journal (Argument × Visit) := do
  let (raw, attributes) := Visit.takeAttribute p v.node.attributes
  let (argument, context) ← r.textArgument p raw v.context
  return (argument, { node := { v.node with attributes }, context })

/-- Visits a value point.  The text of the node wins over the attribute, which is taken all the
same. -/
def visitValue (r : Reader) (p : InjectionPoint) (v : Visit) : StateM Journal (Argument × Visit) := do
  let text := Visit.elementText v.node
  let fromAttribute := v.node.attributes.find p.name
  if text.isSome && fromAttribute.isSome then
    v.context.report .unmatchedConfiguration ("同时设置了文本值和 " ++ p.name ++ " 属性, 使用文本值")
  let (argument, context) ← r.textArgument p (text.or fromAttribute) v.context
  return (argument,
    { node := { v.node with attributes := v.node.attributes.without p.name }, context })

end Reader

namespace Visit

/-- The reader of a point in a context: with the substitutor of the context and its own converter. -/
def reader (p : InjectionPoint) (c : VisitContext) : Reader where
  substitute raw := return c.substitute raw
  convert text :=
    match p.convert text with
    | .ok scalar => return .ok (← Journal.allocate (.scalar scalar))
    | .error reason => return .error reason

/-! ## Elements -/

/-- Whether a child is one that a point asks for: by the name of its elements, or by its class. -/
def isWanted (p : InjectionPoint) (child : Node Instance) : Bool :=
  match child.plugin with
  | some plugin => p.matchesName plugin.elementName || plugin.pluginClass.isAssignableTo p.key.type
  | none => false

/-- The object of a child, seen as the type of a point. -/
def adapted (p : InjectionPoint) (child : Node Instance) (object : Instance) :
    StateM Journal (Except AssemblyError Instance) := do
  let result ← match child.plugin with
    | some plugin => plugin.pluginClass.adapt object p.key.type
    | none => pure none
  match result with
  | some instanceOfType => return .ok instanceOfType
  | none => return .error (.typeMismatch (p.name ++ " <- " ++ child.label) p.key.type.shortName)

/-- What a point that asks for several elements has taken. -/
structure Selection where
  objects : List Instance := []
  labels : List String := []

/-- Adds an object and the label of its child at the end of a selection. -/
def Selection.push (s : Selection) (object : Instance) (label : String) : Selection :=
  { objects := s.objects ++ [object], labels := s.labels ++ [label] }

/-- Goes through the children from an index on.  Wanted children that have an object are taken out of
the list, and the next one moves up to the index; all others stay where they are.  The first one whose
object is of the wrong type stops the loop; what was taken before it stays taken. -/
def collect (p : InjectionPoint) (c : VisitContext) (index : Nat) (children : List (Node Instance))
    (s : Selection) : StateM Journal (Except AssemblyError Selection × List (Node Instance)) :=
  if h : index < children.length then
    let child := children[index]
    if !isWanted p child then
      collect p c (index + 1) children s
    else
      match child.object with
      | none => do
        c.report .skippedElement ("跳过没有解析结果的子元素 " ++ child.label)
        collect p c (index + 1) children s
      | some object => do
        match ← adapted p child object with
        | .error cause => return (.error cause, children)
        | .ok view => collect p c index (children.eraseIdx index) (s.push view child.label)
  else
    return (.ok s, children)
termination_by children.length - index
decreasing_by
  · omega
  · omega
  · rw [List.length_eraseIdx_of_lt h]
    omega

/-- Visits a point that asks for several elements. -/
def visitElements (p : InjectionPoint) (v : Visit) :
    StateM Journal (Except AssemblyError Argument × Visit) := do
  let (selection, children) ← collect p v.context 0 v.node.children {}
  let v := { v with node := { v.node with children } }
  match selection with
  | .error cause => return (.error cause, v)
  | .ok s =>
    return (.ok (.objects s.objects),
      v.log p.name ("\x7b" ++ ", ".intercalate s.labels ++ "\x7d"))

/-- Visits a point that asks for one element: the first wanted child, with or without an object. -/
def visitElement (p : InjectionPoint) (v : Visit) :
    StateM Journal (Except AssemblyError Argument × Visit) :=
  match v.node.children.find? (isWanted p) with
  | none => return (.ok .absent, v.log p.name "null")
  | some child => do
    -- the child is taken even if it turns out to have no object, or a wrong one
    let children := v.node.children.eraseP (isWanted p)
    let v := { v with node := { v.node with children } }.log p.name child.label
    match child.object with
    | none => return (.ok .absent, v)
    | some object =>
      match ← adapted p child object with
      | .error cause => return (.error cause, v)
      | .ok view => return (.ok (.object view), v)

/-! ## All sources -/

/-- Visits a point that asks for the node. -/
def visitNode (p : InjectionPoint) (v : Visit) : StateM Journal (Argument × Visit) := do
  Journal.debug "注入节点" [("node", v.node.label), ("point", p.name)]
  return (.object (← Journal.allocate (.node v.node)), v.log p.name v.node.label)

/-- A visit that cannot fail, as one that can. -/
def total (step : StateM Journal (Argument × Visit)) :
    StateM Journal (Except AssemblyError Argument × Visit) := do
  let (argument, v) ← step
  return (.ok argument, v)

/-- Visits a point, whose raw texts are read by a reader for the context.  A dependency is not looked
for in a node: there is no visit for it. -/
def visitWith? (read : VisitContext → Reader) (p : InjectionPoint) :
    Option (Visit → StateM Journal (Except AssemblyError Argument × Visit)) :=
  match p.source with
  | .dependency => none
  | .attribute => some fun v => total ((read v.context).visitAttribute p v)
  | .value => some fun v => total ((read v.context).visitValue p v)
  | .element => some (if p.multiple then visitElements p else visitElement p)
  | .node => some fun v => total (visitNode p v)

/-- Visits a point, which reads its raw texts itself. -/
def visit? (p : InjectionPoint) :
    Option (Visit → StateM Journal (Except AssemblyError Argument × Visit)) :=
  visitWith? (reader p) p

end Visit

end ComponentAssembly
