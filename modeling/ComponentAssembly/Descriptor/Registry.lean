import ComponentAssembly.Descriptor.Cache
import ComponentAssembly.Node

/-!
The plugin registry: classes by name, a descriptor cache, and plugin types once they were found.

A plugin type is found when its entry and the class that the entry names are both there.  What
was found is kept until something is registered, so that equal lookups give the same shared
plugin type.
-/

namespace ComponentAssembly

/-- A plugin type with an identity. -/
structure SharedPlugin where
  id : Nat
  plugin : PluginType
deriving DecidableEq, Inhabited

/-- Classes, descriptors, and what was found so far. -/
structure Registry where
  classes : List (String × PluginClass) := []
  cache : Cache := {}
  found : List ((String × String) × SharedPlugin) := []
  shared : Nat := 0
deriving Inhabited

/-- Steps that read and change a registry. -/
abbrev Registering := StateT Registry (StateM Journal)

namespace Registry

def onJournal {α : Type} (step : StateM Journal α) : Registering α :=
  StateT.lift step

def class? (r : Registry) (name : String) : Option PluginClass :=
  (r.classes.find? fun (n, _) => n == name).map (·.2)

def registerClass (c : PluginClass) : Registering Unit := do
  onJournal (Journal.debug "登记插件类" [("class", c.className)])
  modify fun r =>
    { r with classes := (c.className, c) :: r.classes.filter (·.1 != c.className), found := [] }

/-- Registers a class and an entry for it. -/
def registerPlugin (category name : String) (c : PluginClass) : Registering Unit := do
  registerClass c
  let cache ← onJournal ((← get).cache.insert (PluginEntry.of name c.className category))
  modify fun r => { r with cache }

/-- Merges a cache into that of the registry. -/
def mergeCache (c : Cache) : Registering Unit := do
  let cache ← onJournal ((← get).cache.merge c)
  modify fun r => { r with cache, found := [] }
  onJournal (Journal.info "插件描述已合并到注册表" [("entries", toString c.size)])

/-- The plugin type of a category and a key, whatever their case. -/
def plugin? (category key : String) : Registering (Option SharedPlugin) := do
  let r ← get
  let lookup := (Text.lower category, Text.lower key)
  match r.found.find? fun (l, _) => l == lookup with
  | some (_, p) => return some p
  | none =>
    match (r.cache.entries lookup.1).get? lookup.2 with
    | none => return none
    | some entry =>
      match r.class? entry.className with
      | none =>
        onJournal (Journal.debug "插件类未登记" [("class", entry.className), ("key", entry.key)])
        return none
      | some pluginClass =>
        let p : SharedPlugin := { id := r.shared, plugin := { entry, pluginClass } }
        modify fun r => { r with found := r.found ++ [(lookup, p)], shared := r.shared + 1 }
        return some p

/-- The plugin types of a category, in the order of their keys. -/
def plugins (category : String) : Registering (List PluginType) := do
  let keys := Ordered.keys ((← get).cache.entries category)
  let found ← keys.mapM fun key => plugin? category key
  return found.filterMap fun p => p.map (·.plugin)

variable {α : Type}

mutual

/-- Gives every node without a plugin type the one of its name in a category, if there is one. -/
def annotate (category : String) (n : Node α) : Registering (Node α) :=
  match n with
  | ⟨name, plugin, attributes, text, children, object⟩ => do
    let plugin ← match plugin with
      | some p => pure (some p)
      | none => do
        let found ← plugin? category name
        pure (found.map (·.plugin))
    let children ← annotateAll category children
    return { name, plugin, attributes, text, children, object }

def annotateAll (category : String) (nodes : List (Node α)) : Registering (List (Node α)) :=
  match nodes with
  | [] => return []
  | n :: rest => do
    let n ← annotate category n
    let rest ← annotateAll category rest
    return n :: rest

end

end Registry

end ComponentAssembly
