import KernelLaunch.Ir.CallGraph
/-!
# Kernel traits

What the launcher pass needs to know of a function before it touches it:
whether it is a kernel still waiting for launchers, whether its work spans a
whole work-group (it, or a helper it reaches, synchronizes), and whether it
prints. Generated functions are never kernels to process, so a second pass
over a processed module finds nothing to do.
-/

namespace KernelLaunch

/-- Whether an instruction is a barrier. -/
def Inst.isBarrier : Inst → Bool
  | .barrier => true
  | _ => false

/-- Whether an instruction prints. -/
def Inst.isPrintf : Inst → Bool
  | .printf .. => true
  | _ => false

namespace Function

/-- A kernel with a body, not itself generated, whose default launcher the
module does not hold yet. -/
def isKernelToProcess (f : Function) (m : Module) : Bool :=
  f.attrs.kernel && !f.isDeclaration && f.attrs.launcher.isNone && f.attrs.derivedFrom.isNone &&
    !m.contains (LauncherKind.default.symbol f.name)

/-- Whether some function reachable from `f` (itself included) has an
instruction with the property; declarations hold none. -/
def reachesInst (f : Function) (m : Module) (g : CallGraph) (p : Inst → Bool) : Bool :=
  (g.reachableFrom f.name).any fun n => match m.get? n with
    | some h => h.contains p
    | none => false

/-- A body already shaped as a whole work-group, or one that reaches a barrier. -/
def hasWorkgroupBarriers (f : Function) (m : Module) (g : CallGraph) : Bool :=
  f.attrs.workgroupBody || f.reachesInst m g Inst.isBarrier

/-- Whether the function prints, itself or through a helper it reaches. -/
def performsOutput (f : Function) (m : Module) (g : CallGraph) : Bool :=
  f.reachesInst m g Inst.isPrintf

end Function

end KernelLaunch
