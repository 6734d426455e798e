import ComponentAssembly.Injector.State
import ComponentAssembly.Module

/-!
What the parts of an injector show of themselves.

The identity of a type is not shown; its path is.
-/

namespace ComponentAssembly

open Text (Form)

/-- What a type shows of itself. -/
def TypePath.inspect (t : TypePath) : Form :=
  .record "TypeInfo" [("id", .word "TypeId(_)"), ("module_path", .quoted t.path)] false

def Qualifier.inspect : Qualifier → Form
  | .named name => .tuple "Named" [.quoted name]
  | .marker kind => .tuple "Kind" [kind.inspect]

def Key.inspect (k : Key) : Form :=
  .record "Key"
    [("type_info", k.type.inspect), ("qualifier", .option Qualifier.inspect k.qualifier)] false

def PointSource.name : PointSource → String
  | .dependency => "Dependency"
  | .attribute => "Attribute"
  | .element => "Element"
  | .value => "Value"
  | .node => "Node"

def Constraint.inspect : Constraint → Form
  | .required message => .record "Required" [("message", .option .quoted message)] false
  | .requiredProperty name value =>
    .record "RequiredProperty" [("name", .quoted name), ("value", .option .quoted value)] false

def InjectionPoint.inspect (p : InjectionPoint) : Form :=
  .record "InjectionPoint"
    [("name", .quoted p.name), ("key", p.key.inspect), ("source", .word p.source.name),
      ("aliases", .quotedList p.aliases), ("deferred", .bool p.deferred),
      ("multiple", .bool p.multiple), ("constraints", .list (p.constraints.map Constraint.inspect)),
      ("default_value", .option .quoted p.default?)] true

def inspectPoints (points : List InjectionPoint) : Form :=
  .list (points.map InjectionPoint.inspect)

def Member.inspect (m : Member) : Form :=
  .record "MemberPoint"
    [("name", .quoted m.name), ("kind", .word m.kind.name), ("points", inspectPoints m.points)] true

def Construction.inspect (c : Construction) : Form :=
  .record "ConstructionPoint"
    [("type", c.type.inspect), ("kind", .word c.kind.name),
      ("scope", .option TypePath.inspect c.scope), ("parameters", inspectPoints c.parameters),
      ("members", .list (c.members.map Member.inspect)),
      ("constraints", .list (c.constraints.map Constraint.inspect))] true

def PluginEntry.inspect (e : PluginEntry) : Form :=
  .record "PluginEntry"
    [("key", .quoted e.key), ("class_name", .quoted e.className), ("name", .quoted e.name),
      ("printable", .bool e.printable), ("defer", .bool e.defer),
      ("category", .quoted e.category)] false

def PluginClass.inspect (c : PluginClass) : Form :=
  .record "PluginClass"
    [("type", c.type.inspect), ("class_name", .quoted c.className),
      ("element_type", .option .quoted c.elementType),
      ("implements", .quotedList (c.casts.map fun cast => cast.target.shortName))] false

def PluginType.inspect (t : PluginType) : Form :=
  .record "PluginType"
    [("entry", t.entry.inspect), ("class", t.pluginClass.inspect),
      ("element_name", .quoted t.elementName)] false

def FactoryMethod.inspect (m : FactoryMethod) : Form :=
  .record "FactoryMethod"
    [("method", .quoted m.method), ("key", m.key.inspect), ("aliases", .quotedList m.aliases),
      ("scope", .option TypePath.inspect m.scope)] true

def Module.inspect (m : Module) : Form :=
  .record "ModuleBinder"
    [("module", .quoted m.name), ("methods", .list (m.methods.map FactoryMethod.inspect))] false

def Argument.inspect : Argument → Form
  | .object _ => .word "Instance(..)"
  | .scalar raw _ => .record "Scalar" [("raw", .quoted raw)] false
  | .objects values => .word ("Instances(len=" ++ toString values.length ++ ")")
  | .deferred lookup => .tuple "Deferred" [lookup.key.inspect]
  | .absent => .word "Absent"

def Arguments.inspect (a : Arguments) : Form :=
  .record "Arguments"
    [("owner", .quoted a.owner),
      ("entries", .list (a.entries.map fun e =>
        .record "ArgumentEntry"
          [("point", .quoted e.point), ("key", e.key.inspect), ("argument", e.argument.inspect)]
          false))] false

def Lookup.inspect (l : Lookup) : Form :=
  .record "DeferredLookup" [("key", l.key.inspect)] false

def Origin.inspect : Origin → Form
  | .explicit source => .record "Explicit" [("source", .quoted source)] false
  | .implicit => .word "Implicit"

def Origin.inspectBinding (o : Origin) (key : Key) : Form :=
  .record "Binding" [("key", key.inspect), ("origin", o.inspect)] true

/-- What a supplier shows of itself: its key, and whether its factory was found. -/
def State.inspectSupplier (s : State) (supplier : Supplier) : Form :=
  let resolved := match s.suppliers[supplier.id]? with
    | some c => c.factory.isSome
    | none => false
  .record "Supplier" [("key", supplier.key.inspect), ("resolved", .bool resolved)] false

end ComponentAssembly
