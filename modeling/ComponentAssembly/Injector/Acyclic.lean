import ComponentAssembly.Injector.State

/-!
Cycle checks: the keys in progress, and the static check before a key is bound by resolution.

The static check follows the eager dependencies of declared constructions from key to key.  It
does not follow a dependency one of whose candidate keys is bound on request.
-/

namespace ComponentAssembly

/-- The chain from the first occurrence of a key on a path back to the key, if it occurs there. -/
def cycleChain (path : List Key) (key : Key) : Option (List Key) :=
  match path.dropWhile (· != key) with
  | [] => none
  | chain => some (chain ++ [key])

namespace State

/-- The type whose construction the static check goes on with at a dependency. -/
def checkedMaker (s : State) (p : InjectionPoint) : Option TypePath :=
  -- nobody knows what an explicit factory asks for; cycles through it show when it is called
  if p.candidates.any s.tables.isExplicit then none
  else p.construction.or (s.tables.construction? p.key.type)

/-- Follows the dependencies of a key depth first.  `path` leads to the key, and `verified` holds
the keys from which no cycle was found; the result adds the keys that were followed to the end.
`depth` bounds the length of the path. -/
def follow (s : State) :
    Nat → List Key → List Key → Key → Construction → Except Stop (List Key)
  | 0, _, _, _, _ => .error .exhausted
  | depth + 1, path, verified, key, c =>
    match cycleChain path key with
    | some chain => .error (.error (.circularDependency chain))
    | none =>
      if key ∈ verified then .ok verified
      else do
        let verified ← c.eagerPoints.foldlM (fun verified p =>
          match s.checkedMaker p with
          | none => pure verified
          | some maker => follow s depth (path ++ [key]) verified p.key (s.declared maker)) verified
        return key :: verified

/-- Whether no cycle can be reached from a key that is to be built by a construction.  A path is at
most as long as there are keys of its own points and of declared ones, and one more. -/
def checkAcyclic (s : State) (key : Key) (c : Construction) : Except Stop Unit := do
  let _ ← s.follow (s.declaredKeys.length + c.keys.length + 2) [] [] key c

end State

/-- Runs a step with a key in progress, unless it is in progress already.  Afterwards the keys in
progress are as before. -/
def Assemble.withGuard {α : Type} (key : Key) (step : Assemble α) : Assemble α :=
  ExceptT.mk fun s =>
    match cycleChain s.inProgress key with
    | some chain => (.error (.error (.circularDependency chain)), s)
    | none =>
      let (result, t) := step.run { s with inProgress := s.inProgress ++ [key] }
      (result, { t with inProgress := t.inProgress.take s.inProgress.length })

end ComponentAssembly
