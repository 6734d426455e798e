import ComponentAssembly.Argument

/-!
Validation: which constraints of a construction fail.
-/

namespace ComponentAssembly

/-- What a class constraint complains of, given the properties. -/
def Constraint.classFailure (property : String → Option String) (path : String) :
    Constraint → Option String
  | .required _ => none
  | .requiredProperty name expected =>
    match property name, expected with
    | none, _ => some (path ++ ": 缺少必需的属性 " ++ name)
    | some actual, some expected =>
      if actual = expected then none
      else some (path ++ ": 属性 " ++ name ++ " 的值为 \"" ++ actual ++ "\", 要求为 \"" ++ expected ++ "\"")
    | some _, none => none

/-- What a point constraint complains of, given the argument of the point. -/
def Constraint.pointFailure (argument : Argument) (path name : String) : Constraint → Option String
  | .required message =>
    if argument.isEmpty then some (path ++ "." ++ name ++ ": " ++ message.getD "缺少必需的值") else none
  | .requiredProperty .. => none

namespace Construction

/-- The complaints of the class constraints, in order. -/
def classFailures (c : Construction) (property : String → Option String) (path : String) :
    List String :=
  c.constraints.filterMap (Constraint.classFailure property path)

end Construction

/-- The complaints of the constraints of points, in order. -/
def pointFailures (points : List InjectionPoint) (arguments : List Argument) (path : String) :
    List String :=
  (points.zip arguments).flatMap fun (p, argument) =>
    p.constraints.filterMap (Constraint.pointFailure argument path p.name)

end ComponentAssembly
