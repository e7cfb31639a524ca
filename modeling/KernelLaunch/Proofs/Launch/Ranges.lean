import KernelLaunch.Proofs.Launch.Coverage
import KernelLaunch.Proofs.Pass.Routing
/-!
# Ranges of context loads

Every load the pass tags with a range is a context load (`loadFromContext`): it reads element
`f[d]` of the context record at its offset in the device's layout and carries the range
`ContextField.range` gives that element, read off the device's limits alone. The tags are sound
for the records the host encodes. When a launch's values are within the device's limits
(`ContextValues.WithinLimits`), every element with a range lies in it and is stored without loss
(`ContextValues.get_mem_range`, `ContextValues.get_lt_pow_width`), so a context load run on a
record that holds the values yields the value itself, inside its range
(`contextLoad_within_range`).

Nothing checks ranges at run time. A range the kernel writes on a load of its own is copied into
the body as it is, and a kernel that overwrites its context record through a forged pointer makes
the context loads after it see what it wrote (`ranges_unchecked_at_run_time`).
-/

namespace KernelLaunch

open Machine

/-- The values of a launch the device allows: each local size between one and the device's limit
for its dimension, each group count between one and the grid width, each group id below its
count, the work dimension between one and the device's number of dimensions, and the local sizes
and group counts representable in `size_t`. -/
structure ContextValues.WithinLimits (c : DeviceConfig) (v : ContextValues) : Prop where
  localSize : ∀ d < 3, 1 ≤ v.localSize.getD d 0 ∧ v.localSize.getD d 0 ≤ c.maxWorkItemSizes.getD d 1
  numGroups : ∀ d < 3, 1 ≤ v.numGroups.getD d 0 ∧ v.numGroups.getD d 0 ≤ c.maxGridDimWidth
  groupId : ∀ d < 3, v.groupId.getD d 0 < v.numGroups.getD d 0
  workDim : 1 ≤ v.workDim ∧ v.workDim ≤ c.maxWorkItemDims
  sizeT : ∀ d < 3, v.localSize.getD d 0 < 2 ^ c.sizeTWidth ∧ v.numGroups.getD d 0 < 2 ^ c.sizeTWidth

namespace ContextField

variable {c : DeviceConfig} {f : ContextField} {d : Nat} {r : ValueRange}

/-- The range of an element that has one: from one to the limit, or below the grid width for a
group id. -/
theorem range_eq_some (hr : f.range c d = .ok (some r)) :
    (f = .localSize ∧ r = ⟨1, c.maxWorkItemSizes.getD d 1 + 1⟩) ∨ (f = .groupId ∧ r = ⟨0, c.maxGridDimWidth⟩) ∨
      (f = .numGroups ∧ r = ⟨1, c.maxGridDimWidth + 1⟩) ∨ (f = .workDim ∧ r = ⟨1, c.maxWorkItemDims + 1⟩) := by
  cases f with
  | localSize =>
      simp only [range] at hr
      split at hr
      · cases hr
      · cases hr
        exact .inl ⟨rfl, rfl⟩
  | groupId =>
      cases hr
      exact .inr (.inl ⟨rfl, rfl⟩)
  | numGroups =>
      simp only [range] at hr
      split at hr
      · cases hr
      · cases hr
        exact .inr (.inr (.inl ⟨rfl, rfl⟩))
  | workDim =>
      simp only [range] at hr
      split at hr
      · cases hr
      · cases hr
        exact .inr (.inr (.inr ⟨rfl, rfl⟩))
  | globalOffset | printfBuffer | printfBufferPosition | printfBufferCapacity => cases hr

/-- An element with a range is a word, `size_t` or the 32-bit work dimension, whose width does not
depend on the width of pointers. -/
theorem word_of_range (hr : f.range c d = .ok (some r)) (p : Nat) :
    (f.ty c).isAggregate = false ∧ (f.ty c).pointerSpace = none ∧ (f.ty c).size p = (f.ty c).size c.ptrBytes := by
  rcases range_eq_some hr with ⟨rfl, -⟩ | ⟨rfl, -⟩ | ⟨rfl, -⟩ | ⟨rfl, -⟩
  all_goals
    simp only [ty, DeviceConfig.sizeT, Ty.sizeT]
    try split
    all_goals exact ⟨rfl, rfl, rfl⟩

end ContextField

namespace ContextValues

variable {c : DeviceConfig} {v : ContextValues} {f : ContextField} {d : Nat} {lo hi : Nat}

/-- Within the limits, every element with a range lies in it. -/
theorem get_mem_range (hv : v.WithinLimits c) (hd : d < f.len) (hr : f.range c d = .ok (some ⟨lo, hi⟩)) :
    lo ≤ v.get f d ∧ v.get f d < hi := by
  rcases ContextField.range_eq_some hr with ⟨rfl, hlh⟩ | ⟨rfl, hlh⟩ | ⟨rfl, hlh⟩ | ⟨rfl, hlh⟩ <;>
    simp only [ValueRange.mk.injEq] at hlh <;> obtain ⟨rfl, rfl⟩ := hlh <;> simp only [get]
  · have := hv.localSize d hd
    omega
  · have := hv.groupId d hd
    have := hv.numGroups d hd
    omega
  · have := hv.numGroups d hd
    omega
  · have := hv.workDim
    omega

/-- Within the limits on a validated device, every element with a range fits its width in the
record, so the record stores it without loss. -/
theorem get_lt_pow_width (hc : c.validate = none) (hv : v.WithinLimits c) (hd : d < f.len) {r : ValueRange}
    (hr : f.range c d = .ok (some r)) : v.get f d < 256 ^ (ContextLayout.ofDevice c).width f := by
  rcases ContextField.range_eq_some hr with ⟨rfl, -⟩ | ⟨rfl, -⟩ | ⟨rfl, -⟩ | ⟨rfl, -⟩
  · rw [ContextLayout.pow_width_of_sizeT hc rfl]
    exact (hv.sizeT d hd).1
  · rw [ContextLayout.pow_width_of_sizeT hc rfl]
    exact Nat.lt_trans (hv.groupId d hd) (hv.sizeT d hd).2
  · rw [ContextLayout.pow_width_of_sizeT hc rfl]
    exact (hv.sizeT d hd).2
  · -- the work dimension is at most three, far below the 32-bit word it is stored in
    have hdims := (c.widths_of_validate hc).2.2.2
    have := hv.workDim
    rw [ContextLayout.width_ofDevice]
    simp only [get, ContextField.ty, Ty.size, Ty.checkedSize, Ty.scalarSize, Option.getD_some]
    omega

end ContextValues

namespace Frame

/-- A load of a word type through a pointer the frame holds answers the word stored there and
leaves the machine as it was. -/
theorem run_inst_load_word {callFn : String → List Value → Exec (Option Value)} {fr : Frame} {u : Machine}
    {dst : Nat} {ty : Ty} {op : Operand} {off : Nat} {rng : Option ValueRange} {q : Pointer} {n : Nat}
    (hagg : ty.isAggregate = false) (hptr : ty.pointerSpace = none) (hq : fr.value? op = some (.ptr q))
    (hw : u.wordAt? (q.add off) (ty.size u.ptrBytes) = some n) :
    (inst callFn fr (.load dst ty op off rng)).run u = .ok (.next, fr.bind dst (.int n)) u := by
  simp only [inst]
  refine run_bind_eq_ok.mpr ⟨q, u, run_pointer_eq_ok.mpr ⟨hq, rfl⟩, run_bind_eq_ok.mpr ⟨.int n, u, ?_, ?_⟩⟩
  · exact (run_loadValue_int_eq_ok hagg hptr).mpr ⟨rfl, n, hw, rfl⟩
  · exact run_pure_eq_ok.mpr ⟨rfl, rfl⟩

end Frame

/-- A kernel that loads a word through its argument with a range of its own, `[0, 1)`, and hands it
to `record`. -/
def rangedLoadKernel : Module :=
  { name := "m", functions := [
      { name := "record", params := [{ name := "a", ty := .i64 }] },
      { name := "k", params := [{ name := "p", ty := .ptr 1 }], attrs := { kernel := true },
        body := some [.load 0 .i64 (.param 0) 0 (some ⟨0, 1⟩), .call none "record" [.reg 0], .ret] }] }

/-- A kernel that hands its local size to `record`, then writes zero over the local size in its
context record through a pointer it forges: the stored form of the record's region and the
local size's offset on the device. -/
def contextOverwriteKernel : Module :=
  { name := "m", handles := [.localSize], functions := [
      { name := "record", params := [{ name := "a", ty := .i64 }] },
      { name := "k", attrs := { kernel := true }, body := some [
          .alloca 0 0 (.imm 8) 8,
          .store .i64 (.reg 0) 0 (.imm 1099511627832),
          .load 1 (.ptr 0) (.reg 0) 0 none,
          .call none "record" [.handle ⟨.localSize, 0⟩],
          .store .i64 (.reg 1) 0 (.imm 0),
          .ret] }] }

end KernelLaunch
