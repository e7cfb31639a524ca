import KernelLaunch.Ir.Syntax
import KernelLaunch.Json.Value
/-!
# IR as data

The data form of modules: records are objects with their fields in
declaration order, variants are externally tagged (`"barrier"`, or an object
whose one key names the variant), optional fields are left out when absent,
and snake-case tags name types, operations, handles and launcher kinds.
-/

namespace KernelLaunch

namespace Ty

mutual
/-- The data form of a type. -/
def toJson : Ty → Json
  | .i8 => .str "i8"
  | .i16 => .str "i16"
  | .i32 => .str "i32"
  | .i64 => .str "i64"
  | .f16 => .str "f16"
  | .f32 => .str "f32"
  | .f64 => .str "f64"
  | .ptr s => .obj [("ptr", .nat s)]
  | .array e n => .obj [("array", .arr [toJson e, .nat n])]
  | .struct fs => .obj [("struct", .arr (toJsonList fs))]

/-- The data form of each type of a list. -/
def toJsonList : List Ty → List Json
  | [] => []
  | t :: ts => toJson t :: toJsonList ts
end

end Ty

/-- The data form of a handle reference. -/
def HandleRef.toJson (h : HandleRef) : Json := .obj [("kind", .str h.kind.tag), ("dim", .nat h.dim)]

/-- The data form of an operand. -/
def Operand.toJson : Operand → Json
  | .reg r => .obj [("reg", .nat r)]
  | .param i => .obj [("param", .nat i)]
  | .imm v => .obj [("imm", .nat v)]
  | .handle h => .obj [("handle", h.toJson)]

/-- The data form of a list of operands. -/
def operandsJson (ops : List Operand) : Json := .arr (ops.map Operand.toJson)

namespace Inst

mutual
/-- The data form of an instruction. -/
def toJson : Inst → Json
  | .bin d op l r =>
      .obj [("bin", .obj [("dst", .nat d), ("op", .str op.tag), ("lhs", l.toJson), ("rhs", r.toJson)])]
  | .load d t p o rng =>
      .obj [("load", .obj ([("dst", .nat d), ("ty", t.toJson), ("ptr", p.toJson), ("offset", .nat o)] ++
        match rng with
        | some r => [("range", .obj [("lo", .nat r.lo), ("hi", .nat r.hi)])]
        | none => []))]
  | .store t p o v =>
      .obj [("store", .obj [("ty", t.toJson), ("ptr", p.toJson), ("offset", .nat o), ("value", v.toJson)])]
  | .alloca d sp s a =>
      .obj [("alloca", .obj [("dst", .nat d), ("space", .nat sp), ("size", s.toJson), ("align", .nat a)])]
  | .memcpy d s o n =>
      .obj [("memcpy", .obj [("dst", d.toJson), ("src", s.toJson), ("src_offset", .nat o), ("len", .nat n)])]
  | .call d c args =>
      .obj [("call", .obj ((match d with | some r => [("dst", .nat r)] | none => []) ++
        [("callee", .str c), ("args", operandsJson args)]))]
  | .barrier => .str "barrier"
  | .printf fmt args buf =>
      .obj [("printf", .obj ([("format", .str fmt), ("args", operandsJson args)] ++
        match buf with
        | some (a, b, c) => [("buffer", operandsJson [a, b, c])]
        | none => []))]
  | .placeholder d n => .obj [("placeholder", .obj [("dst", .nat d), ("name", .str n)])]
  | .loop v b body =>
      .obj [("loop", .obj [("var", .nat v), ("bound", b.toJson), ("body", .arr (toJsonList body))])]
  | .ret => .str "return"

/-- The data form of each instruction of a body. -/
def toJsonList : List Inst → List Json
  | [] => []
  | i :: is => toJson i :: toJsonList is
end

end Inst

/-- The data form of a body. -/
def bodyJson (insts : List Inst) : Json := .arr (Inst.toJsonList insts)

/-- The data form of a parameter. -/
def Param.toJson (p : Param) : Json :=
  .obj [("name", .str p.name), ("ty", p.ty.toJson), ("by_value", .bool p.byValue)]

/-- The data form of three extents. -/
def Dims3.toJson (v : Dims3) : Json := .nats v.toList

/-- The data form of function attributes: the flags always, the rest when present. -/
def FnAttrs.toJson (a : FnAttrs) : Json :=
  let opt {α : Type} (k : String) (f : α → Json) : Option α → List (String × Json)
    | some x => [(k, f x)]
    | none => []
  .obj ([("kernel", .bool a.kernel), ("workgroup_body", .bool a.workgroupBody)] ++
    opt "reqd_subgroup_size" Json.nat a.reqdSubgroupSize ++
    opt "reqd_work_group_size" Dims3.toJson a.reqdWorkGroupSize ++
    opt "launcher" (fun k => .str k.tag) a.launcher ++
    opt "subgroup_size" Json.nat a.subgroupSize ++
    opt "derived_from" Json.str a.derivedFrom)

/-- The data form of a function. -/
def Function.toJson (f : Function) : Json :=
  .obj [("name", .str f.name), ("params", .arr (f.params.map Param.toJson)),
    ("body", match f.body with | some b => bodyJson b | none => .null),
    ("attrs", f.attrs.toJson)]

/-- The data form of a module. -/
def Module.toJson (m : Module) : Json :=
  .obj [("name", .str m.name), ("functions", .arr (m.functions.map Function.toJson)),
    ("handles", .arr (m.handles.map fun h => .str h.tag))]

/-- The module as pretty JSON text. -/
def Module.toJsonText (m : Module) : String := m.toJson.pretty

end KernelLaunch
