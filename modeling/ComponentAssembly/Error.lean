import ComponentAssembly.Key

/-!
Errors: the causes for which resolution, configuration, descriptors and settings fail, and the text
of each.
-/

namespace ComponentAssembly

/-- Why a component cannot be had. -/
inductive AssemblyError where
  | duplicateBinding (key : Key) (existingSource newSource : String)
  | duplicateFactory (module : String) (key : Key) (first second : String)
  | noConstruction (key : Key)
  | circularDependency (chain : List Key)
  | validation (target : String) (failures : List String)
  | constructionFailed (typeName message : String)
  | typeMismatch (point expected : String)
  | missingValue (point : String)
  | missingPluginType (node : String)
  | injectorDropped (key : Key)
deriving DecidableEq, Inhabited

namespace AssemblyError

/-- The keys of a cycle, joined by arrows. -/
def chainText (chain : List Key) : String :=
  " -> ".intercalate (chain.map Key.text)

def message : AssemblyError → String
  | duplicateBinding key existing new =>
    "重复绑定: " ++ key.text ++ ", 已有来源: " ++ existing ++ ", 新来源: " ++ new
  | duplicateFactory module key first second =>
    "模块 " ++ module ++ " 中存在重复的工厂方法: " ++ key.text ++ ", 方法: " ++ first ++ " 与 " ++ second
  | noConstruction key => "没有可用的构造点: " ++ key.text
  | circularDependency chain => "循环依赖检测到: " ++ chainText chain
  | validation target failures =>
    "验证失败: " ++ target ++ ", 原因: " ++ "; ".intercalate failures
  | constructionFailed typeName message => "组件创建失败: " ++ typeName ++ ", 原因: " ++ message
  | typeMismatch point expected => "注入点类型不匹配: " ++ point ++ ", 期望类型: " ++ expected
  | missingValue point => "注入点没有可用的值: " ++ point
  | missingPluginType node => "节点没有对应的插件类型: " ++ node
  | injectorDropped key => "注入器已被释放, 无法解析延迟依赖: " ++ key.text

def name : AssemblyError → String
  | duplicateBinding .. => "DuplicateBinding"
  | duplicateFactory .. => "DuplicateFactory"
  | noConstruction .. => "NoConstructionPoint"
  | circularDependency .. => "CircularDependency"
  | validation .. => "Validation"
  | constructionFailed .. => "ConstructionFailed"
  | typeMismatch .. => "TypeMismatch"
  | missingValue .. => "MissingValue"
  | missingPluginType .. => "MissingPluginType"
  | injectorDropped .. => "InjectorDropped"

/-- Whether an error is a failed validation. -/
def isValidation : AssemblyError → Bool
  | validation .. => true
  | _ => false

end AssemblyError

/-- Why descriptor text cannot be decoded. -/
inductive DecodeError where
  /-- The text is no JSON. -/
  | malformed
  /-- The text is JSON of another shape; the detail says where it departs. -/
  | mismatch (detail : String)
deriving DecidableEq, Inhabited

/-- Why a descriptor file cannot be used. -/
inductive CacheError where
  | read
  | write
  | parse (cause : DecodeError)
deriving DecidableEq, Inhabited

/-- The text of a failed parse of the descriptors at a path. -/
def CacheError.parseText (path message : String) : String :=
  "插件描述解析失败: " ++ path ++ ", 原因: " ++ message

/-- Why a host cannot be built. -/
inductive HostError where
  | assembly (cause : AssemblyError)
  | cache (cause : CacheError)
  | settings
deriving DecidableEq, Inhabited

namespace HostError

def assemblyText (message : String) : String := "依赖注入错误: " ++ message

def cacheText (message : String) : String := "插件描述错误: " ++ message

def settingsText (message : String) : String := "运行时设置加载失败: " ++ message

def name : HostError → String
  | assembly cause => "Inject." ++ cause.name
  | cache .read => "PluginCache.Read"
  | cache .write => "PluginCache.Write"
  | cache (.parse _) => "PluginCache.Parse"
  | settings => "Settings"

end HostError

end ComponentAssembly
