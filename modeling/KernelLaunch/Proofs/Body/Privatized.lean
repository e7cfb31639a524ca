import KernelLaunch.Proofs.Body.Prelude
/-!
# A derived body runs as its kernel

The body derived from a kernel takes the kernel's arguments, a pointer to the context record and,
unless it runs a whole work-group, the work-item's local ids. `derivedBody_runs_as_kernel` says
that it does what the kernel does for that work-item: run on a machine whose context region holds
a record, it ends as the kernel ends when the reference interpreter gives every handle its value
for the work-item (`Reference.handleEnv`). Both answer or both stop with the same stop, and they
leave the same memory, events and step count, once the prelude's steps are added to the kernel's.

Two conditions make this so. The kernel reads only registers it sets and parameters it declares,
so the prelude's registers and the extra parameters are out of its reach. And for a fixed local
size, the record must hold that size and a zero offset, as its elements read back: a size past
the width of `size_t` is folded into the body whole, while the record holds it cut to its field.
-/

namespace KernelLaunch

open Machine ContextLayout

/-! ## What the kernel reads -/

/-- An operand the function may read of its own: a register it sets somewhere, a parameter it
declares, a word or a handle. -/
def Operand.OwnedBy (f : Function) : Operand → Prop
  | .reg r => ∃ i ∈ f.allInsts, i.def? = some r
  | .param p => p < f.params.length
  | _ => True

instance (f : Function) : DecidablePred (Operand.OwnedBy f)
  | .reg r => inferInstanceAs (Decidable (∃ i ∈ f.allInsts, i.def? = some r))
  | .param p => inferInstanceAs (Decidable (p < f.params.length))
  | .imm _ => isTrue trivial
  | .handle _ => isTrue trivial

/-- A function that reads only registers it sets and parameters it declares. -/
def Function.ReadsOwn (f : Function) : Prop := ∀ i ∈ f.allInsts, ∀ o ∈ i.operands, o.OwnedBy f

instance (f : Function) : Decidable f.ReadsOwn :=
  inferInstanceAs (Decidable (∀ i ∈ f.allInsts, ∀ o ∈ i.operands, o.OwnedBy f))

/-- A kernel that reads only what it owns reads, in every instruction at every depth, what its
derived body can stand in for. -/
theorem DerivedPrelude.covered {c : DeviceConfig} {flavor : BodyFlavor} {shaped : Bool} {K : Function}
    {start : Nat} {pre : List Inst} {values : List (HandleRef × Operand)}
    (hpre : DerivedPrelude c flavor shaped K start pre values) (hK : K.ReadsOwn) :
    ∀ j ∈ Inst.preorderList K.insts, j.Covered values K.params.length start := by
  intro j hj
  refine ⟨fun o ho => ?_, hpre.defs j hj⟩
  have hown := hK j hj o ho
  cases o with
  | reg r =>
      obtain ⟨i, hi, hd⟩ := hown
      exact hpre.defs i hi r hd
  | param p => exact hown
  | imm _ => trivial
  | handle h => exact hpre.covers h (Function.mem_handleRefs hj ho)

/-! ## The record and the local ids -/

/-- The record holds what the flavor folds into the body: for a fixed local size, the record's
local size is that size and its global offset zero, as they read back, in every dimension of the
device. -/
def BodyFlavor.HeldIn (c : DeviceConfig) (record : ByteArray) : BodyFlavor → Prop
  | .dynamic => True
  | .fixed size => ∀ d < c.maxWorkItemDims,
      (ofDevice c).read record .localSize d = .ok (size.getD d 0) ∧ (ofDevice c).read record .globalOffset d = .ok 0

/-- The local-id arguments a body takes after the context pointer: one per dimension, none for a
body that runs a whole work-group. -/
def localIdArgs (shaped : Bool) (ids : Dims3) : List Value :=
  if shaped then [] else ids.toList.map .int

theorem getElem?_localIdArgs {ids : Dims3} {d : Nat} (hd : d < 3) :
    (localIdArgs false ids)[d]? = some (.int (ids.getD d 0)) := by
  obtain _ | _ | _ | d := d
  · rfl
  · rfl
  · rfl
  · omega

/-- A word of a record element that reads back is the element's value in the record. -/
theorem Reference.recordValue_of_read {c : DeviceConfig} {record : ByteArray} {f : ContextField} {d raw : Nat}
    (h : (ofDevice c).read record f d = .ok raw) :
    recordValue c.ptrBytes record ((ofDevice c).fieldTy f) ((ofDevice c).offset f d) =
      valueOfWord c.ptrBytes ((ofDevice c).fieldTy f) raw :=
  recordValue_of_readWord (by unfold ContextLayout.read ContextLayout.width at h; rwa [ptrBytes_ofDevice] at h)

theorem valueOfWord_sizeT (ptrBytes w raw : Nat) : valueOfWord ptrBytes (Ty.sizeT w) raw = .int raw := by
  unfold Ty.sizeT
  split <;> rfl

section Values

variable {c : DeviceConfig} {flavor : BodyFlavor} {shaped : Bool} {n start : Nat} {pre : List Inst}
  {fr : Frame} {ids : Dims3} {record : ByteArray}

/-- After the prelude has run, every operand put for a handle holds the handle's value for the
work-item: its local id among the arguments, a folded constant the record holds, or the register
its element was loaded into. -/
theorem StandsFor.value? (hflavor : flavor.HeldIn c record)
    (hids : shaped = false → ∀ d < 3, fr.args[n + 1 + d]? = some (.int (ids.getD d 0)))
    (hloads : ∀ j ty off rng, pre[j]? = some (.load (start + j) ty (.param n) off rng) →
      fr.reg? (start + j) = some (Reference.recordValue c.ptrBytes record ty off))
    {h : HandleRef} {o : Operand} (hs : StandsFor c flavor shaped n start pre h o) :
    fr.value? o = some (Reference.handleEnv c record ids h) := by
  cases hs with
  | localId hsh hd => exact hids hsh _ hd
  | @localSize size d hf hd =>
      subst hf
      show _ = some (Reference.recordValue c.ptrBytes record ((ofDevice c).fieldTy .localSize) ((ofDevice c).offset .localSize d))
      rw [Reference.recordValue_of_read (hflavor d hd).1, fieldTy_ofDevice]
      exact congrArg some (valueOfWord_sizeT _ _ _).symm
  | @globalOffset size d hf hd =>
      subst hf
      show _ = some (Reference.recordValue c.ptrBytes record ((ofDevice c).fieldTy .globalOffset)
        ((ofDevice c).offset .globalOffset d))
      rw [Reference.recordValue_of_read (hflavor d hd).2, fieldTy_ofDevice]
      exact congrArg some (valueOfWord_sizeT _ _ _).symm
  | load hf hj =>
      rw [Frame.value?_reg, hloads _ _ _ _ hj, Reference.handleEnv, hf]

end Values

/-! ## The derived body against its kernel -/

theorem Inst.length_substOperandsList (g : Operand → Operand) (is : List Inst) :
    (substOperandsList g is).length = is.length := by
  induction is with
  | nil => rfl
  | cons i is ih => exact congrArg (· + 1) ih

theorem EndsAlike.imp {α β : Type} {R S : α → β → Prop} (hRS : ∀ a b, R a b → S a b) :
    ∀ {x : EStateM.Result Stop Machine α} {y : EStateM.Result Stop Machine β}, EndsAlike R x y → EndsAlike S x y
  | .ok a _, .ok b _, ⟨hab, ht⟩ => ⟨hRS a b hab, ht⟩
  | .error _ _, .error _ _, h => h
  | .ok _ _, .error _ _, h => h.elim
  | .error _ _, .ok _ _, h => h.elim

/-- The body derived from a kernel on a validated device runs as the kernel does for one
work-item. The body gets the kernel's arguments, a pointer to the start of a region at least as
large as the context record, and the work-item's local ids unless it runs a whole work-group; the
kernel runs in the reference interpreter, under the body's name, with every handle given its value
for the work-item from the region's bytes. When the kernel reads only registers it sets and
parameters it declares, and the record holds what the flavor folds in, the two runs both answer
or both stop with the same stop, and they leave the same machine, the kernel's run counted from
the steps the prelude takes. -/
theorem derivedBody_runs_as_kernel {c : DeviceConfig} (hc : c.validate = none) {K B : Function}
    (hK : K.ReadsOwn) {flavor : BodyFlavor} {shaped : Bool} {notes : Log}
    (hB : deriveBody K c (ofDevice c) flavor shaped = .ok (.ok (B, notes)))
    (callFn : String → List Value → Exec (Option Value)) {args : List Value}
    (hargs : args.length = K.params.length) (ids : Dims3) {s : Machine} {k : Nat} {r : Region}
    (hr : s.regions[k]? = some r) (hsize : (ofDevice c).size ≤ r.size) (hp : s.ptrBytes = c.ptrBytes)
    (hflavor : flavor.HeldIn c r.contents)
    (hroom : s.steps + (B.insts.length - K.insts.length) ≤ s.stepLimit) :
    EndsAlike (fun p q => p.1 = q.1)
      ((block callFn ⟨B, args ++ .ptr ⟨k, 0⟩ :: localIdArgs shaped ids, []⟩ B.insts).run s)
      ((Reference.block (Reference.handleEnv c r.contents ids) callFn ⟨{ K with name := B.name }, args, []⟩
        K.insts).run { s with steps := s.steps + (B.insts.length - K.insts.length) }) := by
  obtain ⟨start, pre, values, hpre, hinsts⟩ := deriveBody_prelude hc hB
  have hlen : B.insts.length - K.insts.length = pre.length := by
    rw [hinsts, List.length_append, Inst.length_substOperandsList]
    omega
  rw [hlen] at hroom ⊢
  have hctx : (args ++ .ptr ⟨k, 0⟩ :: localIdArgs shaped ids)[K.params.length]? = some (.ptr ⟨k, 0⟩) := by
    rw [List.getElem?_append_right (by omega), hargs, Nat.sub_self, List.getElem?_cons_zero]
  -- the prelude loads the record's elements and leaves the rest of the frame as it was
  obtain ⟨frB, hrun, hfunc, hargs', hregs, hvals⟩ :=
    run_block_contextLoads callFn hc hsize hpre.loads
      (show (Frame.mk B (args ++ .ptr ⟨k, 0⟩ :: localIdArgs shaped ids) []).args[K.params.length]? = _ from hctx)
      hr hp hroom
  rw [hinsts, block_append, EStateM.run_bind, hrun]
  simp only
  rw [if_neg (by decide)]
  -- from there the substituted kernel runs in lockstep with the kernel
  have hm : Frame.Mirrors (Reference.handleEnv c r.contents ids) values K.params.length start frB
      ⟨{ K with name := B.name }, args, []⟩ :=
    { name := by rw [hfunc]
      args := fun i hi => by
        rw [hargs']
        exact List.getElem?_append_left (by omega)
      regs := fun x hx => by
        rw [hregs x hx]
        rfl
      stable := fun h o hl => (hpre.stands h o hl).stable
      handles := fun h o hl => (hpre.stands h o hl).value? hflavor (fun hsh d hd => by
          rw [hargs', hsh, List.getElem?_append_right (by omega), hargs,
            show K.params.length + 1 + d - K.params.length = d + 1 by omega, List.getElem?_cons_succ]
          exact getElem?_localIdArgs hd)
        hvals }
  exact EndsAlike.imp (fun _ _ h => h.1) (block_lockstep callFn K.insts hm (hpre.covered hK) _)

/-- A kernel that passes its local size in dimension zero to a function. -/
def sizeReader : Function :=
  { name := "k", body := some [.call none "record" [.handle ⟨.localSize, 0⟩], .ret], attrs := { kernel := true } }

/-- The body derived from `sizeReader` on the host device: one load of the local size from the
context record, which the call then reads. -/
def sizeReaderBody : Function :=
  { name := "_wl_k_body"
    params := [{ name := "_context", ty := .ptr 0 }, { name := "_local_id_x", ty := .i64 },
      { name := "_local_id_y", ty := .i64 }, { name := "_local_id_z", ty := .i64 }]
    body := some [.load 0 .i64 (.param 0) 56 (some ⟨1, 4097⟩), .call none "record" [.reg 0], .ret]
    attrs := { derivedFrom := some "k" } }

/-- The note deriving `sizeReaderBody` writes. -/
def sizeReaderNotes : Log :=
  #[{ level := .debug, target := privatizeTarget, message := "privatized implicit handles",
      fields := [("body", "_wl_k_body"), ("rewritten", "1")] }]

/-- A host machine whose only region is a zeroed record of the host's context size. -/
def zeroedContext : Machine := { module := { name := "m" }, ptrBytes := 8, regions := #[Region.zeroed 0 128] }

theorem sizeReader_body_runs_as_kernel :
    DeviceConfig.cpu.validate = none ∧ sizeReader.ReadsOwn ∧
      deriveBody sizeReader DeviceConfig.cpu (ofDevice DeviceConfig.cpu) .dynamic false =
        .ok (.ok (sizeReaderBody, sizeReaderNotes)) ∧
      ([] : List Value).length = sizeReader.params.length ∧
      zeroedContext.regions[0]? = some (Region.zeroed 0 128) ∧
      (ofDevice DeviceConfig.cpu).size ≤ (Region.zeroed 0 128).size ∧
      zeroedContext.ptrBytes = DeviceConfig.cpu.ptrBytes ∧
      BodyFlavor.dynamic.HeldIn DeviceConfig.cpu (Region.zeroed 0 128).contents ∧
      zeroedContext.steps + (sizeReaderBody.insts.length - sizeReader.insts.length) ≤ zeroedContext.stepLimit ∧
      EndsAlike (fun p q => p.1 = q.1)
        ((block (Machine.call 1) ⟨sizeReaderBody, [] ++ .ptr ⟨0, 0⟩ :: localIdArgs false ⟨0, 0, 0⟩, []⟩
          sizeReaderBody.insts).run zeroedContext)
        ((Reference.block (Reference.handleEnv DeviceConfig.cpu (Region.zeroed 0 128).contents ⟨0, 0, 0⟩)
          (Machine.call 1) ⟨{ sizeReader with name := sizeReaderBody.name }, [], []⟩ sizeReader.insts).run
          { zeroedContext with
            steps := zeroedContext.steps + (sizeReaderBody.insts.length - sizeReader.insts.length) }) :=
  have hB : deriveBody sizeReader DeviceConfig.cpu (ofDevice DeviceConfig.cpu) .dynamic false =
      .ok (.ok (sizeReaderBody, sizeReaderNotes)) := rfl
  ⟨rfl, by decide, hB, rfl, rfl, by decide, rfl, trivial, by decide,
    derivedBody_runs_as_kernel rfl (by decide) hB (Machine.call 1) rfl ⟨0, 0, 0⟩ rfl (by decide) rfl trivial
      (by decide)⟩

end KernelLaunch
