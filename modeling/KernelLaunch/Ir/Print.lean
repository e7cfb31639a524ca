import KernelLaunch.Ir.Syntax
import KernelLaunch.Text.Quoted
/-!
# Textual IR

The text form of modules: one instruction per line, two blanks of indentation
per nesting level, registers as `%rN`, parameters as `%argN`, handles as
`@symbol[dim]` (the dimension only for dimensional handles), strings as
quoted literals.
-/

namespace KernelLaunch

namespace Operand

/-- The text of an operand. -/
def render : Operand → String
  | .reg r => "%r" ++ toString r
  | .param i => "%arg" ++ toString i
  | .imm v => toString v
  | .handle h =>
      if h.kind.isDimensional then "@" ++ h.kind.symbol ++ "[" ++ toString h.dim ++ "]"
      else "@" ++ h.kind.symbol

end Operand

/-- Operands separated by commas. -/
def renderOperands (ops : List Operand) : String := ", ".intercalate (ops.map Operand.render)

namespace Inst

/-- The register text `%rN`. -/
def regText (r : Nat) : String := "%r" ++ toString r

mutual
/-- The lines of an instruction at the given depth, each ending in a newline. -/
def render (depth : Nat) : Inst → String
  | .bin d op l r => pad depth ++ regText d ++ " = " ++ op.mnemonic ++ " " ++ l.render ++ ", " ++ r.render ++ "\n"
  | .load d t p o rng =>
      pad depth ++ regText d ++ " = load " ++ t.render ++ ", " ++ p.render ++ " + " ++ toString o ++
        (match rng with
         | some r => " !range [" ++ toString r.lo ++ ", " ++ toString r.hi ++ ")"
         | none => "") ++ "\n"
  | .store t p o v => pad depth ++ "store " ++ t.render ++ " " ++ v.render ++ ", " ++ p.render ++ " + " ++ toString o ++ "\n"
  | .alloca d sp s a =>
      pad depth ++ regText d ++ " = alloca " ++ s.render ++ " bytes, align " ++ toString a ++
        ", addrspace(" ++ toString sp ++ ")\n"
  | .memcpy d s o n => pad depth ++ "memcpy " ++ d.render ++ ", " ++ s.render ++ " + " ++ toString o ++ ", " ++ toString n ++ "\n"
  | .call (some d) c args => pad depth ++ regText d ++ " = call @" ++ c ++ "(" ++ renderOperands args ++ ")\n"
  | .call none c args => pad depth ++ "call @" ++ c ++ "(" ++ renderOperands args ++ ")\n"
  | .barrier => pad depth ++ "barrier\n"
  | .printf fmt args buf =>
      pad depth ++ "printf " ++ Text.literal fmt ++
        (if args.isEmpty then "" else ", " ++ renderOperands args) ++
        (match buf with
         | some (a, b, c) => " -> [" ++ renderOperands [a, b, c] ++ "]"
         | none => "") ++ "\n"
  | .placeholder d n => pad depth ++ regText d ++ " = placeholder " ++ Text.literal n ++ "\n"
  | .loop v b body =>
      pad depth ++ "loop " ++ regText v ++ " < " ++ b.render ++ " \x7b\n" ++ renderList (depth + 1) body ++
        pad depth ++ "\x7d\n"
  | .ret => pad depth ++ "ret\n"

/-- The lines of a body at the given depth. -/
def renderList (depth : Nat) : List Inst → String
  | [] => ""
  | i :: is => render depth i ++ renderList depth is

/-- Indentation: two blanks per level. -/
def pad (depth : Nat) : String := String.join (List.replicate depth "  ")
end

end Inst

namespace Function

/-- The text of a parameter: `T %name`, or `byval T %name`. -/
def paramText (p : Param) : String :=
  (if p.byValue then "byval " else "") ++ p.ty.render ++ " %" ++ p.name

/-- The text of a function: its head (`kernel`, `launcher(kind)`, `declare`
or `fn`), name, parameters and subgroup size, then the body in braces, or
nothing more for a declaration. -/
def render (f : Function) : String :=
  let head :=
    if f.attrs.kernel then "kernel"
    else match f.attrs.launcher with
      | some k => "launcher(" ++ k.label ++ ")"
      | none => if f.isDeclaration then "declare" else "fn"
  let sg := match f.attrs.subgroupSize with
    | some s => " subgroup(" ++ toString s ++ ")"
    | none => ""
  let top := head ++ " @" ++ f.name ++ "(" ++ ", ".intercalate (f.params.map paramText) ++ ")" ++ sg
  match f.body with
  | none => top ++ "\n"
  | some body => top ++ " \x7b\n" ++ Inst.renderList 1 body ++ "\x7d\n"

end Function

namespace Module

/-- The text of a module: its name, its globals, then each function after a blank line. -/
def render (m : Module) : String :=
  "; module " ++ m.name ++ "\n" ++
    String.join (m.handles.map fun h => "global @" ++ h.symbol ++ "\n") ++
    String.join (m.functions.map fun f => "\n" ++ f.render)

end Module

end KernelLaunch
