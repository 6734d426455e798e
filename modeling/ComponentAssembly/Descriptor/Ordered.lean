/-!
Maps in the order of their keys.

A map is a list of keys and values whose keys ascend; the order of texts is that of their code
points.
-/

namespace ComponentAssembly

/-- Texts and their values, in ascending order of the texts. -/
abbrev Ordered (ν : Type) := List (String × ν)

namespace Ordered

variable {ν : Type}

def get? (m : Ordered ν) (key : String) : Option ν :=
  (m.find? fun (k, _) => k == key).map (·.2)

def set (key : String) (value : ν) : Ordered ν → Ordered ν
  | [] => [(key, value)]
  | (k, v) :: rest =>
    if key < k then (key, value) :: (k, v) :: rest
    else if k = key then (key, value) :: rest
    else (k, v) :: set key value rest

def keys (m : Ordered ν) : List String := m.map (·.1)

end Ordered

end ComponentAssembly
