import TypeRegistry.Debug.Node
import TypeRegistry.Ty

/-!
# The debug tree of a type

Every part of a type shows: kinds, names, absent or present, passing modes, paths and order. Of a
class its name and flavor show, but not which block it is.
-/

namespace TypeRegistry

open Debug

/-- The debug tree of a class type. -/
def ClassView.describe (c : ClassView) : Node :=
  .record "ClassType" [("class_name", .text c.name), ("flavor", .word c.flavor.name)] false

/-- The debug tree of a module. Its name and its path show, also where only one of them is present.
-/
def Module.describe (m : Module SourcePath) : Node :=
  .record "ModuleType"
    [("mod_name", .option (m.name.map .text)), ("file_uri", .option (m.path.map .path))] false

/-- The debug tree of a parameter, given that of its type. -/
def Parameter.describe (p : Parameter Node) : Node :=
  .record "Parameter"
    [("name", .text p.name), ("category", .word p.mode.name), ("param_type", p.type)] false

/-- The debug tree of a signature, given those of its types. -/
def Signature.describe (s : Signature Node) : Node :=
  .record "FunctionType"
    [("func_name", .option (s.name.map .text)),
      ("parameters", .list (s.parameters.map Parameter.describe)),
      ("return_type", .option s.returns)] false

namespace Shape

mutual

/-- The debug tree of a type. -/
def describe : TypeView → Node
  | unbound => .word "Unbound"
  | unknown => .word "Unknown"
  | never => .word "Never"
  | any => .word "Any"
  | typeVar => .word "TypeVar"
  | module m => .variant "Module" m.describe
  | function s => .variant "Function" (describeTypes s).describe
  | overloaded ss =>
    .variant "Overloaded" (.record "OverloadedType"
      [("overloads", .list (describeSignatures ss))] false)
  | union ts => .variant "Union" (.record "UnionType" [("types", .list (describeMembers ts))] false)
  | nominal c => .variant "Class" c.describe

/-- The signature with its types replaced by their debug trees. -/
def describeTypes : Signature TypeView → Signature Node
  | ⟨name, ps, none⟩ => ⟨name, describeParameters ps, none⟩
  | ⟨name, ps, some t⟩ => ⟨name, describeParameters ps, some (describe t)⟩

/-- The parameters with their types replaced by their debug trees. -/
def describeParameters : List (Parameter TypeView) → List (Parameter Node)
  | [] => []
  | ⟨name, mode, t⟩ :: ps => ⟨name, mode, describe t⟩ :: describeParameters ps

/-- The debug trees of the signatures of an overload set. -/
def describeSignatures : List (Signature TypeView) → List Node
  | [] => []
  | s :: ss => (describeTypes s).describe :: describeSignatures ss

/-- The debug trees of the members of a union. -/
def describeMembers : List TypeView → List Node
  | [] => []
  | t :: ts => describe t :: describeMembers ts

end

theorem describeParameters_eq_map (ps : List (Parameter TypeView)) :
    describeParameters ps = ps.map (Parameter.map describe) := by
  induction ps with
  | nil => rfl
  | cons p ps ih => simp [describeParameters, Parameter.map, ih]

theorem describeTypes_eq_map (s : Signature TypeView) : describeTypes s = s.map describe := by
  obtain ⟨name, ps, _ | t⟩ := s <;> simp [describeTypes, Signature.map, describeParameters_eq_map]

theorem describeSignatures_eq_map (ss : List (Signature TypeView)) :
    describeSignatures ss = ss.map fun s => (s.map describe).describe := by
  induction ss with
  | nil => rfl
  | cons s ss ih => simp [describeSignatures, describeTypes_eq_map, ih]

theorem describeMembers_eq_map (ts : List TypeView) : describeMembers ts = ts.map describe := by
  induction ts with
  | nil => rfl
  | cons t ts ih => simp [describeMembers, ih]

end Shape

end TypeRegistry
