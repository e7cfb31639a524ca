import KernelLaunch.Ir.Syntax
/-!
# Device configurations

The constants of a target that the work-group pass consumes: pointer and
`size_t` widths, the address-space ids of each kind of memory, work-item
limits, which launchers to emit, and how output is delivered. Three presets
are built in: a host CPU, a 32-bit accelerator and an SPMD GPU.

`validate` checks that the constants are consistent; its first failing rule
names the problem.
-/

namespace KernelLaunch

/-- The address-space ids a device assigns to each kind of memory. Id 0 is
always the private space. -/
structure AddressSpaces where
  globalSpace : Nat
  localSpace : Nat
  constantSpace : Nat
  /-- Where the execution context record lives. -/
  contextSpace : Nat
  /-- Where the packed argument buffer lives. -/
  argsSpace : Nat
  deriving Repr, BEq, DecidableEq, Inhabited

/-- A device configuration. Widths, dimensions and address spaces are 32-bit
words; sizes are 64-bit words. -/
structure DeviceConfig where
  name : String
  displayName : String
  /-- Pointer width in bits. -/
  addressBits : Nat
  /-- Width of `size_t` context fields and local ids. -/
  sizeTWidth : Nat
  addressSpaces : AddressSpaces
  /-- Number of work-item dimensions (one to three). -/
  maxWorkItemDims : Nat
  /-- Largest local size per dimension. -/
  maxWorkItemSizes : Dims3
  /-- Largest number of work-groups per grid dimension. -/
  maxGridDimWidth : Nat
  /-- Kernels are entered through a packed argument buffer. -/
  argBufferLauncher : Bool
  /-- One call runs the whole grid. -/
  gridLauncher : Bool
  /-- The hardware iterates the work-items. -/
  spmd : Bool
  /-- The launcher allocates local-memory buffers itself. -/
  allocaLocals : Bool
  /-- The local size is known only at launch. -/
  dynamicLocalSize : Bool
  /-- The local size fixed at generation time (ignored when dynamic). -/
  localSize : Dims3
  /-- The global offset is assumed to be zero. -/
  assumeZeroGlobalOffset : Bool
  /-- Formatted output goes to a device-side buffer. -/
  deviceSidePrintf : Bool
  /-- Subgroup sizes that may be requested. -/
  subgroupSizes : List Nat
  deriving Repr, Inhabited

namespace DeviceConfig

/-- A multi-core host CPU: direct arguments, dynamic local size. -/
def cpu : DeviceConfig where
  name := "cpu"
  displayName := "Host CPU"
  addressBits := 64
  sizeTWidth := 64
  addressSpaces := { globalSpace := 1, localSpace := 3, constantSpace := 2, contextSpace := 0, argsSpace := 0 }
  maxWorkItemDims := 3
  maxWorkItemSizes := ⟨4096, 4096, 4096⟩
  maxGridDimWidth := 4294967296
  argBufferLauncher := false
  gridLauncher := false
  spmd := false
  allocaLocals := true
  dynamicLocalSize := true
  localSize := ⟨1, 1, 1⟩
  assumeZeroGlobalOffset := false
  deviceSidePrintf := true
  subgroupSizes := [8, 16]

/-- A 32-bit accelerator entered once per grid through an argument buffer. -/
def accel : DeviceConfig where
  name := "accel"
  displayName := "32-bit Accelerator"
  addressBits := 32
  sizeTWidth := 32
  addressSpaces := { globalSpace := 1, localSpace := 3, constantSpace := 2, contextSpace := 5, argsSpace := 4 }
  maxWorkItemDims := 3
  maxWorkItemSizes := ⟨64, 64, 64⟩
  maxGridDimWidth := 65536
  argBufferLauncher := true
  gridLauncher := true
  spmd := false
  allocaLocals := true
  dynamicLocalSize := false
  localSize := ⟨4, 1, 1⟩
  assumeZeroGlobalOffset := true
  deviceSidePrintf := false
  subgroupSizes := []

/-- A GPU-like SPMD device: the hardware runs one invocation per work-item. -/
def spmdGpu : DeviceConfig where
  name := "spmd"
  displayName := "SPMD GPU"
  addressBits := 64
  sizeTWidth := 64
  addressSpaces := { globalSpace := 1, localSpace := 3, constantSpace := 4, contextSpace := 1, argsSpace := 1 }
  maxWorkItemDims := 3
  maxWorkItemSizes := ⟨1024, 1024, 64⟩
  maxGridDimWidth := 2147483648
  argBufferLauncher := true
  gridLauncher := false
  spmd := true
  allocaLocals := false
  dynamicLocalSize := true
  localSize := ⟨1, 1, 1⟩
  assumeZeroGlobalOffset := false
  deviceSidePrintf := true
  subgroupSizes := [8, 16, 32]

/-- The built-in device of a name. -/
def builtin? : String → Option DeviceConfig
  | "cpu" => some cpu
  | "accel" => some accel
  | "spmd" => some spmdGpu
  | _ => none

/-- Pointer size in bytes. -/
def ptrBytes (c : DeviceConfig) : Nat := c.addressBits / 8

/-- The `size_t` type. -/
def sizeT (c : DeviceConfig) : Ty := Ty.sizeT c.sizeTWidth

/-- `size_t` size in bytes. -/
def sizeTBytes (c : DeviceConfig) : Nat := c.sizeTWidth / 8

/-- The local size and a zero global offset are known before code generation. -/
def fastPathEligible (c : DeviceConfig) : Bool := !c.dynamicLocalSize && c.assumeZeroGlobalOffset

/-- A pointer to global memory. -/
def globalPtr (c : DeviceConfig) : Ty := .ptr c.addressSpaces.globalSpace

/-- A pointer to local memory. -/
def localPtr (c : DeviceConfig) : Ty := .ptr c.addressSpaces.localSpace

/-- A pointer to the execution context. -/
def contextPtr (c : DeviceConfig) : Ty := .ptr c.addressSpaces.contextSpace

/-- A pointer to the argument buffer. -/
def argsPtr (c : DeviceConfig) : Ty := .ptr c.addressSpaces.argsSpace

/-- Whether a kernel parameter may point into the space: private, global,
local or constant memory. -/
def isKernelArgSpace (c : DeviceConfig) (space : Nat) : Bool :=
  space == privateSpace || space == c.addressSpaces.globalSpace || space == c.addressSpaces.localSpace ||
    space == c.addressSpaces.constantSpace

/-- The first local-size entry outside `1..=max`, with its dimension. -/
def localSizeViolation (c : DeviceConfig) : Option (Nat × Nat × Nat) :=
  ((List.range 3).zip (c.localSize.toList.zip c.maxWorkItemSizes.toList)).findSome?
    fun (d, s, m) => if s == 0 || s > m then some (d, s, m) else none

/-- The first inconsistency of the constants, if any. -/
def validate (c : DeviceConfig) : Option String :=
  let sp := c.addressSpaces
  if c.sizeTWidth != 32 && c.sizeTWidth != 64 then
    some ("device.size_t_width must be 32 or 64, got " ++ toString c.sizeTWidth)
  else if c.addressBits != 32 && c.addressBits != 64 then
    some ("device.address_bits must be 32 or 64, got " ++ toString c.addressBits)
  else if c.maxWorkItemDims < 1 || c.maxWorkItemDims > 3 then
    some ("workitem.max_dims must be between 1 and 3, got " ++ toString c.maxWorkItemDims)
  else if c.maxWorkItemSizes.toList.contains 0 then
    some "workitem.max_sizes entries must be > 0"
  else if c.maxGridDimWidth == 0 then
    some "workitem.max_grid_dim_width must be > 0"
  else if sp.globalSpace == sp.localSpace || sp.globalSpace == sp.constantSpace || sp.localSpace == sp.constantSpace then
    some "global, local and constant address spaces must be distinct"
  else if sp.localSpace == privateSpace then
    some "local address space cannot be the private space 0"
  else if !c.dynamicLocalSize then
    match c.localSizeViolation with
    | some (d, s, m) =>
        some ("workgroup.local_size[" ++ toString d ++ "] = " ++ toString s ++ " outside 1..=" ++ toString m)
    | none => none
  else none

end DeviceConfig

end KernelLaunch
