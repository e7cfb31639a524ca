import KernelLaunch.Proofs.Body.Simulation
import KernelLaunch.Proofs.Pass.Totality
import KernelLaunch.Proofs.Context.Placement
/-!
# The prelude of a derived body

Deriving a body walks the handles the kernel reads and, for each, picks the operand the body
reads in its place: the local-id parameter of its dimension, a constant folded in when the local
size is fixed, or a fresh register loaded from the context record. The loads form the prelude,
which runs before the kernel's instructions.

`deriveBody_prelude` says what comes out, as a `DerivedPrelude`: the prelude is context loads into
the registers from the kernel's register count on, and every handle the kernel reads is mapped to
an operand that `StandsFor` it. `run_block_contextLoads` runs such a prelude: each load reads its
element of the record, counted one step each, and nothing else changes.
-/

namespace KernelLaunch

open Machine ContextLayout

/-! ## Reading the context record -/

namespace Region

/-- The bytes of a region, read whole, are its stored bytes and zeros past them. -/
theorem slice_contents (r : Region) {off len : Nat} (h : off + len ≤ r.size) :
    Bytes.slice r.contents off len = Bytes.slice r.stored off len := by
  apply List.ext_getElem (by simp)
  intro i h₁ h₂
  simp only [Bytes.length_slice] at h₁
  rw [Bytes.getElem_slice, Bytes.getElem_slice, contents, read, Bytes.getElem!_append,
    Bytes.getElem!_extract, ByteArray.size_extract]
  split
  · rw [if_pos (by omega), Nat.zero_add]
  · -- past the stored bytes both sides read zero
    rw [Bytes.getElem!_zeros, getElem!_neg r.stored (off + i) (by omega)]
    rfl

theorem size_contents (r : Region) : r.contents.size = r.size := size_read r 0 r.size

end Region

namespace Machine

variable {s : Machine}

/-- The word at a pointer into a region is the word of the region's bytes there. -/
theorem wordAt?_contents {k off w : Nat} {r : Region} (hr : s.regions[k]? = some r)
    (hw : w ∈ [1, 2, 4, 8]) (hmax : off + w ≤ Word.max) (hfit : off + w ≤ r.size) :
    s.wordAt? ⟨k, off⟩ w = (Bytes.readWord r.contents off w).toOption := by
  have hread : Bytes.readWord (r.read off w) 0 w = .ok (Bytes.ofLittleEndian (Bytes.slice (r.read off w) 0 w)) :=
    Bytes.readWord_eq_ok hw ⟨by omega, by simp⟩
  simp only [wordAt?, hr]
  rw [if_pos ⟨hmax, hfit⟩, hread,
    Bytes.readWord_eq_ok hw ⟨hmax, by rw [Region.size_contents]; exact hfit⟩, Region.slice_read,
    Region.slice_contents r hfit]

/-- A load of a type that is no aggregate, from a word in memory, answers that word's value and
changes nothing. -/
theorem run_loadValue_of_wordAt? {fname : String} {ty : Ty} {p : Pointer} {raw : Nat}
    (hagg : ty.isAggregate = false) (hw : s.wordAt? p (ty.size s.ptrBytes) = some raw) :
    (loadValue fname ty p).run s = .ok (valueOfWord s.ptrBytes ty raw) s := by
  unfold loadValue
  simp only [hagg, Bool.false_eq_true, if_false]
  rw [run_get_bind, EStateM.run_bind, run_readWord_eq_ok.mpr ⟨rfl, hw⟩]
  -- the type picks how the word is read
  cases ty
  case array => simp [Ty.isAggregate] at hagg
  case struct => simp [Ty.isAggregate] at hagg
  all_goals rfl

end Machine

namespace Frame

theorem pointer_of_value? {fr : Frame} {o : Operand} {q : Pointer} (h : fr.value? o = some (.ptr q)) :
    fr.pointer o = pure q := by
  simp only [Frame.pointer, eval_of_value? h]
  rfl

end Frame

namespace Reference

/-- A word read from a record gives the value a load of the type decodes from it. -/
theorem recordValue_of_readWord {ptrBytes off raw : Nat} {record : ByteArray} {ty : Ty}
    (h : Bytes.readWord record off (ty.size ptrBytes) = .ok raw) :
    recordValue ptrBytes record ty off = valueOfWord ptrBytes ty raw := by
  simp only [recordValue, h]

end Reference

namespace ContextField

/-- No element of the record is an aggregate. -/
theorem isAggregate_ty (c : DeviceConfig) (f : ContextField) : (f.ty c).isAggregate = false := by
  cases f <;> first | exact ContextLayout.isAggregate_sizeT _ | rfl

end ContextField

/-! ## Running context loads -/

/-- A prelude of context loads: its `j`-th instruction loads an element of a context field
through parameter `n` into register `start + j`. -/
def ContextLoads (c : DeviceConfig) (n start : Nat) (pre : List Inst) : Prop :=
  ∀ j i, pre[j]? = some i → ∃ (f : ContextField) (d : Nat) (rng : Option ValueRange), d < f.len ∧
    i = Inst.load (start + j) ((ofDevice c).fieldTy f) (.param n) ((ofDevice c).offset f d) rng

namespace Machine

variable (callFn : String → List Value → Exec (Option Value)) {c : DeviceConfig} {s : Machine}

/-- A load of a context element through a pointer to the start of a region at least as large as
the record reads the element's value out of the region's bytes, and changes nothing. -/
theorem run_inst_contextLoad (hc : c.validate = none) {fr : Frame} {n k : Nat} {r : Region}
    (hctx : fr.args[n]? = some (.ptr ⟨k, 0⟩)) (hr : s.regions[k]? = some r)
    (hsize : (ofDevice c).size ≤ r.size) (hp : s.ptrBytes = c.ptrBytes) {f : ContextField} {d : Nat}
    (hd : d < f.len) (reg : Nat) (rng : Option ValueRange) :
    (inst callFn fr (.load reg ((ofDevice c).fieldTy f) (.param n) ((ofDevice c).offset f d) rng)).run s =
      .ok (.next, fr.bind reg (Reference.recordValue c.ptrBytes r.contents ((ofDevice c).fieldTy f)
        ((ofDevice c).offset f d))) s := by
  have hbits : c.addressBits ≤ Word.max32 := by
    rcases (c.widths_of_validate hc).2.1 with h | h <;> rw [h] <;> decide
  have hend : (ofDevice c).offset f d + (ofDevice c).width f ≤ (ofDevice c).size :=
    element_end_le_size hbits (ContextField.mem_elements.mpr hd)
  have hmax := (size_ofDevice_le hbits).2
  have hw := width_mem_ofDevice hc f
  -- the element's width is the size of its type on the machine
  have hwidth : ((ofDevice c).fieldTy f).size s.ptrBytes = (ofDevice c).width f := by
    rw [hp, width_ofDevice, fieldTy_ofDevice]
  have hoff : Pointer.add ⟨k, 0⟩ ((ofDevice c).offset f d) = ⟨k, (ofDevice c).offset f d⟩ := by
    simp only [Pointer.add, Word.wrappingAdd, Nat.zero_add]
    rw [Nat.mod_eq_of_lt (by unfold Word.size; unfold Word.max at hmax; omega)]
  have hread : Bytes.readWord r.contents ((ofDevice c).offset f d) ((ofDevice c).width f) =
      .ok (Bytes.ofLittleEndian (Bytes.slice r.contents ((ofDevice c).offset f d) ((ofDevice c).width f))) :=
    Bytes.readWord_eq_ok hw ⟨by omega, by rw [Region.size_contents]; omega⟩
  have hword : s.wordAt? (Pointer.add ⟨k, 0⟩ ((ofDevice c).offset f d)) (((ofDevice c).fieldTy f).size s.ptrBytes) =
      some (Bytes.ofLittleEndian (Bytes.slice r.contents ((ofDevice c).offset f d) ((ofDevice c).width f))) := by
    rw [hoff, hwidth, wordAt?_contents hr hw (by omega) (by omega), hread]
    rfl
  simp only [inst, Frame.pointer_of_value? (show fr.value? (.param n) = some (.ptr ⟨k, 0⟩) from hctx), pure_bind]
  rw [EStateM.run_bind, run_loadValue_of_wordAt? (by rw [fieldTy_ofDevice]; exact ContextField.isAggregate_ty c f) hword,
    Reference.recordValue_of_readWord (by rw [← hp, hwidth]; exact hread), hp]
  rfl

/-- A block whose first part ends going on runs its second part from there. -/
theorem block_append (fr : Frame) (xs ys : List Inst) :
    block callFn fr (xs ++ ys) =
      block callFn fr xs >>= fun p => if p.1 == .ret then pure p else block callFn p.2 ys := by
  induction xs generalizing fr with
  | nil =>
      simp only [List.nil_append, block, pure_bind]
      rfl
  | cons i is ih =>
      simp only [List.cons_append, block, bind_assoc]
      congr 1
      funext u
      congr 1
      funext p
      obtain ⟨flow, fr'⟩ := p
      cases flow
      · simp only [ih]
        rfl
      · rfl

/-- A run of context loads into the registers from `start` on, through a pointer to a region at
least as large as the record, with room for a step each: each load sets its register to its
element's value in the region's bytes, the registers below `start` keep their values, and the
machine only counts the steps. -/
theorem run_block_contextLoads (hc : c.validate = none) {n k : Nat} {r : Region}
    (hsize : (ofDevice c).size ≤ r.size) :
    ∀ {pre : List Inst} {start : Nat} {fr : Frame} {s : Machine}, ContextLoads c n start pre →
      fr.args[n]? = some (.ptr ⟨k, 0⟩) → s.regions[k]? = some r → s.ptrBytes = c.ptrBytes →
      s.steps + pre.length ≤ s.stepLimit →
      ∃ fr', (block callFn fr pre).run s = .ok (.next, fr') { s with steps := s.steps + pre.length } ∧
        fr'.func = fr.func ∧ fr'.args = fr.args ∧ (∀ x < start, fr'.reg? x = fr.reg? x) ∧
        ∀ j ty off rng, pre[j]? = some (.load (start + j) ty (.param n) off rng) →
          fr'.reg? (start + j) = some (Reference.recordValue c.ptrBytes r.contents ty off)
  | [], start, fr, s, _, _, _, _, _ =>
      ⟨fr, by simp only [block, List.length_nil, Nat.add_zero]; rfl, rfl, rfl, fun _ _ => rfl,
        fun j _ _ _ h => by simp at h⟩
  | i :: is, start, fr, s, hloads, hctx, hr, hp, hroom => by
      obtain ⟨f, d, rng, hd, hi⟩ := hloads 0 i rfl
      subst hi
      -- the first load sets register `start`, the rest run from `start + 1`
      set v := Reference.recordValue c.ptrBytes r.contents ((ofDevice c).fieldTy f) ((ofDevice c).offset f d)
      have hrest : ContextLoads c n (start + 1) is := fun j i' hj => by
        obtain ⟨f', d', rng', hd', rfl⟩ := hloads (j + 1) i' hj
        exact ⟨f', d', rng', hd', by rw [Nat.add_right_comm, Nat.add_assoc]⟩
      have htick : tick.run s = .ok () { s with steps := s.steps + 1 } :=
        run_tick_eq_ok.mpr ⟨by simp only [List.length_cons] at hroom; omega, rfl⟩
      have hr₁ : ({ s with steps := s.steps + 1 } : Machine).regions[k]? = some r := hr
      obtain ⟨fr', hrun, hfunc, hargs, hregs, hvals⟩ := run_block_contextLoads hc hsize hrest
        (show (fr.bind start v).args[n]? = _ from hctx) hr₁ hp
        (by simp only [List.length_cons] at hroom ⊢; omega)
      refine ⟨fr', ?_, hfunc, hargs, fun x hx => ?_, fun j ty off rng' hj => ?_⟩
      · simp only [block]
        rw [EStateM.run_bind, htick]
        simp only
        rw [EStateM.run_bind, run_inst_contextLoad callFn hc hctx hr₁ hsize hp hd]
        simp only [List.length_cons, Nat.add_zero]
        rw [if_neg (by decide), hrun]
        congr 2
        simp only
        omega
      · rw [hregs x (by omega), Frame.reg?_bind_ne _ _ (by omega)]
      · cases j with
        | zero =>
            simp only [List.getElem?_cons_zero, Option.some.injEq, Inst.load.injEq] at hj
            obtain ⟨-, rfl, -, rfl, -⟩ := hj
            rw [Nat.add_zero, hregs start (by omega), Frame.reg?_bind_self]
        | succ j =>
            rw [show start + (j + 1) = start + 1 + j by omega] at hj ⊢
            exact hvals j ty off rng' hj

end Machine

/-! ## The operand put for each handle -/

/-- The operand `o` a derived body reads in place of handle `h`, given the kernel's `n`
parameters, the prelude `pre` and its first register `start`. -/
inductive StandsFor (c : DeviceConfig) (flavor : BodyFlavor) (shaped : Bool) (n start : Nat)
    (pre : List Inst) : HandleRef → Operand → Prop
  /-- A local id is the local-id parameter of its dimension, after the kernel's parameters and
  the context pointer; a body that runs a whole work-group has none. -/
  | localId {d : Nat} : shaped = false → d < 3 →
      StandsFor c flavor shaped n start pre ⟨.localId, d⟩ (.param (n + 1 + d))
  /-- A fixed local size is folded in. -/
  | localSize {size : Dims3} {d : Nat} : flavor = .fixed size → d < c.maxWorkItemDims →
      StandsFor c flavor shaped n start pre ⟨.localSize, d⟩ (.imm (size.getD d 0))
  /-- With a fixed local size the global offset is zero. -/
  | globalOffset {size : Dims3} {d : Nat} : flavor = .fixed size → d < c.maxWorkItemDims →
      StandsFor c flavor shaped n start pre ⟨.globalOffset, d⟩ (.imm 0)
  /-- Any other handle is the register the prelude's `j`-th load sets from its element. -/
  | load {h : HandleRef} {f : ContextField} {j : Nat} {rng : Option ValueRange} :
      ContextField.ofHandle? h.kind = some f →
      pre[j]? = some (.load (start + j) ((ofDevice c).fieldTy f) (.param n) ((ofDevice c).offset f h.dim) rng) →
      StandsFor c flavor shaped n start pre h (.reg (start + j))

namespace StandsFor

variable {c : DeviceConfig} {flavor : BodyFlavor} {shaped : Bool} {n start : Nat} {pre : List Inst}
  {h : HandleRef} {o : Operand}

/-- Loads appended to the prelude leave every operand standing for its handle. -/
theorem append (hs : StandsFor c flavor shaped n start pre h o) (more : List Inst) :
    StandsFor c flavor shaped n start (pre ++ more) h o := by
  cases hs with
  | localId hsh hd => exact .localId hsh hd
  | localSize hf hd => exact .localSize hf hd
  | globalOffset hf hd => exact .globalOffset hf hd
  | load hf hj => exact .load hf ((List.getElem?_append_left (List.getElem?_eq_some_iff.mp hj).1).trans hj)

/-- An operand put for a handle is a parameter, a word or a register of the prelude. -/
theorem stable (hs : StandsFor c flavor shaped n start pre h o) : o.Stable start := by
  cases hs <;> simp [Operand.Stable]

end StandsFor

section Handles

variable {c : DeviceConfig} {l : ContextLayout} {flavor : BodyFlavor} {n : Nat} {b b' : Builder}
  {h : HandleRef} {v : Option Operand}

/-- A context load hands out the builder's next register. -/
theorem loadFromContext_eq_ok_load {ctx : Operand} {f : ContextField} {dim r : Nat}
    (hl : loadFromContext b c l ctx f dim = .ok (r, b')) :
    ∃ rng, (r, b') = b.load (l.fieldTy f) ctx (l.offset f dim) rng := by
  unfold loadFromContext at hl
  obtain ⟨rng, -, hl⟩ := except_bind_eq_ok.mp hl
  exact ⟨rng, (except_pure_eq_ok.mp hl).symm⟩

theorem ContextField.eq_localId_of_ofHandle? {kind : Handle} (h : ContextField.ofHandle? kind = none) :
    kind = .localId := by
  cases kind <;> first | rfl | cases h

/-- The operand for a handle: its local-id parameter, a constant of a fixed local size, or the
register of a load of its element, the one thing that changes the builder. -/
theorem handleValue_cases (hv : handleValue c l flavor n b h = .ok (v, b')) :
    (h.kind = .localId ∧ v = some (.param (n + 1 + h.dim)) ∧ b' = b) ∨
    (∃ size, flavor = .fixed size ∧ h.kind = .localSize ∧ v = some (.imm (size.getD h.dim 0)) ∧ b' = b) ∨
    (∃ size, flavor = .fixed size ∧ h.kind = .globalOffset ∧ v = some (.imm 0) ∧ b' = b) ∨
    ∃ f rng, ContextField.ofHandle? h.kind = some f ∧ v = some (.reg b.next) ∧
      b' = (b.load (l.fieldTy f) (.param n) (l.offset f h.dim) rng).2 := by
  unfold handleValue at hv
  split at hv
  · rename_i hk
    split at hv
    · cases hv
    · cases hv
      exact .inl ⟨hk, rfl, rfl⟩
  · rename_i size hk
    split at hv
    · cases hv
      exact .inr (.inl ⟨size, rfl, hk, rfl, rfl⟩)
    · cases hv
  · rename_i size hk
    cases hv
    exact .inr (.inr (.inl ⟨size, rfl, hk, rfl, rfl⟩))
  · rename_i hloc _ _
    split at hv
    · rename_i f hf
      obtain ⟨⟨r, b₁⟩, hload, hv⟩ := except_bind_eq_ok.mp hv
      obtain ⟨rng, hrb⟩ := loadFromContext_eq_ok_load hload
      cases except_pure_eq_ok.mp hv
      have hr : r = b.next := congrArg Prod.fst hrb
      exact .inr (.inr (.inr ⟨f, rng, hf, by rw [hr], congrArg Prod.snd hrb⟩))
    · -- only the local id has no field, and it was handled first
      rename_i hf
      exact absurd (ContextField.eq_localId_of_ofHandle? hf) hloc

/-- Every handle gets an operand. -/
theorem handleValue_isSome (hv : handleValue c l flavor n b h = .ok (v, b')) : v.isSome := by
  rcases handleValue_cases hv with ⟨-, rfl, -⟩ | ⟨-, -, -, rfl, -⟩ | ⟨-, -, -, rfl, -⟩ | ⟨-, -, -, rfl, -⟩ <;> rfl

end Handles

/-! ## The handles a kernel reads -/

theorem Handle.eq_of_beq {a b : Handle} (h : (a == b) = true) : a = b := by
  cases a <;> cases b <;> first | rfl | exact absurd h (by decide)

@[simp] theorem Handle.beq_refl (a : Handle) : (a == a) = true := by
  cases a <;> rfl

namespace HandleRef

theorem eq_of_beq {a b : HandleRef} (h : (a == b) = true) : a = b := by
  obtain ⟨k, d⟩ := a
  obtain ⟨k', d'⟩ := b
  simp only [BEq.beq, instBEqHandleRef.beq, Bool.and_eq_true] at h
  rw [Handle.eq_of_beq h.1, of_decide_eq_true h.2]

theorem mem_insertSorted_self (h : HandleRef) : ∀ l : List HandleRef, h ∈ insertSorted h l
  | [] => List.mem_singleton_self h
  | g :: gs => by
      unfold insertSorted
      split
      · exact List.mem_cons_self
      · split
        · rename_i heq
          rw [eq_of_beq heq]
          exact List.mem_cons_self
        · exact List.mem_cons_of_mem g (mem_insertSorted_self h gs)

theorem mem_insertSorted_of_mem (h : HandleRef) {x : HandleRef} :
    ∀ {l : List HandleRef}, x ∈ l → x ∈ insertSorted h l
  | [], hx => absurd hx List.not_mem_nil
  | g :: gs, hx => by
      unfold insertSorted
      split
      · exact List.mem_cons_of_mem h hx
      · split
        · exact hx
        · rcases List.mem_cons.mp hx with rfl | hx
          · exact List.mem_cons_self
          · exact List.mem_cons_of_mem _ (mem_insertSorted_of_mem h hx)

end HandleRef

/-- A fold whose steps keep `x` once held, and add it for an item that `P` holds of, ends holding
`x` when it held it at first or some item satisfies `P`. -/
theorem mem_foldl_of_step {α β : Type} {g : List β → α → List β} {x : β} {P : α → Prop}
    (hkeep : ∀ acc a, x ∈ acc → x ∈ g acc a) (hadd : ∀ acc a, P a → x ∈ g acc a) :
    ∀ {l : List α} {acc : List β}, (x ∈ acc ∨ ∃ a ∈ l, P a) → x ∈ l.foldl g acc
  | [], _, h => h.resolve_right (by simp)
  | a :: l, acc, h => by
      rw [List.foldl_cons]
      refine mem_foldl_of_step hkeep hadd ?_
      rcases h with h | ⟨a', ha', hp⟩
      · exact .inl (hkeep acc a h)
      · rcases List.mem_cons.mp ha' with rfl | ha'
        · exact .inl (hadd acc a' hp)
        · exact .inr ⟨a', ha', hp⟩

namespace Function

/-- Every handle an instruction of the body reads is among the body's handle references. -/
theorem mem_handleRefs {f : Function} {i : Inst} (hi : i ∈ f.allInsts) {h : HandleRef}
    (ho : Operand.handle h ∈ i.operands) : h ∈ f.handleRefs := by
  unfold handleRefs
  refine (mem_foldl_of_step (P := fun i => Operand.handle h ∈ i.operands)
    (fun acc j hacc => mem_foldl_of_step (P := fun _ => False) (fun acc' o hacc' => ?_) (fun _ _ h => h.elim)
      (.inl hacc)) (fun acc j hj => mem_foldl_of_step (P := (· = Operand.handle h)) (fun acc' o hacc' => ?_)
        (fun acc' o ho' => ?_) (.inr ⟨_, hj, rfl⟩)) (.inr ⟨i, hi, ho⟩))
  -- a handle operand inserts its reference, any other operand leaves the list as it is
  · split
    · exact HandleRef.mem_insertSorted_of_mem _ hacc'
    · exact hacc'
  · split
    · exact HandleRef.mem_insertSorted_of_mem _ hacc'
    · exact hacc'
  · subst ho'
    exact HandleRef.mem_insertSorted_self h acc'

/-- The operand the map gives a handle comes from an entry for that handle. -/
theorem mem_of_lookupHandle {values : List (HandleRef × Operand)} {h : HandleRef} {o : Operand}
    (hl : lookupHandle values h = some o) : (h, o) ∈ values := by
  unfold lookupHandle at hl
  obtain ⟨⟨h', o'⟩, hfind, rfl⟩ := Option.map_eq_some_iff.mp hl
  have hp := List.find?_some hfind
  simp only [Bool.and_eq_true] at hp
  have : h' = h := by
    obtain ⟨k, d⟩ := h'
    obtain ⟨k', d'⟩ := h
    simp only at hp
    rw [Handle.eq_of_beq hp.1, beq_iff_eq.mp hp.2]
  subst this
  exact List.mem_reverse.mp (List.mem_of_find?_eq_some hfind)

/-- A handle with an entry in the map has an operand. -/
theorem isSome_lookupHandle {values : List (HandleRef × Operand)} {h : HandleRef} {o : Operand}
    (hm : (h, o) ∈ values) : (lookupHandle values h).isSome := by
  unfold lookupHandle
  rw [Option.isSome_map, List.find?_isSome]
  exact ⟨(h, o), List.mem_reverse.mpr hm, by simp⟩

end Function

/-! ## Building the prelude -/

/-- A fold in `Except` over items that all satisfy `Q` ends in a state that satisfies `I` and `P`
of every item, when each step keeps `I`, makes `P` hold of its item and keeps `P` of the others. -/
theorem foldlM_keeps {α σ ε : Type} {step : σ → α → Except ε σ} {I : σ → Prop} {P : σ → α → Prop}
    {Q : α → Prop} (hstep : ∀ s x s', Q x → I s → step s x = .ok s' → I s' ∧ P s' x ∧ ∀ y, P s y → P s' y) :
    ∀ {xs : List α} {s s' : σ}, (∀ x ∈ xs, Q x) → xs.foldlM step s = .ok s' → I s →
      I s' ∧ (∀ y, P s y → P s' y) ∧ ∀ x ∈ xs, P s' x
  | [], s, s', _, h, hI => by
      rw [List.foldlM_nil, except_pure_eq_ok] at h
      subst h
      exact ⟨hI, fun _ hy => hy, fun _ hx => absurd hx List.not_mem_nil⟩
  | x :: xs, s, s', hQ, h, hI => by
      rw [List.foldlM_cons] at h
      obtain ⟨s₁, h₁, h⟩ := except_bind_eq_ok.mp h
      obtain ⟨hI₁, hx, hkeep⟩ := hstep s x s₁ (hQ x List.mem_cons_self) hI h₁
      obtain ⟨hI', hkeep', hall⟩ := foldlM_keeps hstep (fun y hy => hQ y (List.mem_cons_of_mem x hy)) h hI₁
      refine ⟨hI', fun y hy => hkeep' y (hkeep y hy), fun y hy => ?_⟩
      rcases List.mem_cons.mp hy with rfl | hy
      · exact hkeep' y hx
      · exact hall y hy

/-- A body's register count is past every register it sets. -/
theorem Function.defsBelow_of_regCount? {f : Function} {n : Nat} (h : f.regCount? = .ok n) :
    f.DefsBelow n := by
  unfold regCount? at h
  refine (foldlM_keeps (I := fun _ => True) (P := fun s i => ∀ r ∈ i.def?, r < s) (Q := fun _ => True)
    (fun s i s' _ _ hs => ?_) (fun _ _ => trivial) h trivial).2.2
  split at hs
  · rename_i r hr
    split at hs
    · cases hs
    · cases except_pure_eq_ok.mp hs
      refine ⟨trivial, fun r' hr' => ?_, fun i' hi' r' hr' => Nat.lt_of_lt_of_le (hi' r' hr') (Nat.le_max_left _ _)⟩
      rw [hr, Option.mem_some_iff] at hr'
      subst hr'
      exact Nat.lt_of_lt_of_le (Nat.lt_succ_self _) (Nat.le_max_right _ _)
  · rename_i hr
    cases except_pure_eq_ok.mp hs
    refine ⟨trivial, fun r' hr' => ?_, fun _ hi' => hi'⟩
    rw [hr] at hr'
    cases hr'

theorem ContextField.dim_lt_len {kind : Handle} {f : ContextField} {dims d : Nat}
    (hf : ContextField.ofHandle? kind = some f) (hdims : dims ≤ 3)
    (hd : d < if kind.isDimensional then dims else 1) : d < f.len := by
  cases kind <;> simp only [ContextField.ofHandle?, Option.some.injEq, reduceCtorEq] at hf <;> subst hf <;>
    simp only [Handle.isDimensional, if_true, if_false, Bool.false_eq_true] at hd <;>
    simp only [ContextField.len] <;> omega

/-- Where the fold that builds the prelude stands: the builder holds only its root body, whose
instructions `insts` are context loads into the registers from `start` on, its next register
follows them, and each handle mapped so far stands for its operand. -/
structure Planned (c : DeviceConfig) (flavor : BodyFlavor) (shaped : Bool) (n start : Nat)
    (acc : List (HandleRef × Operand)) (b : Builder) (insts : Array Inst) : Prop where
  open_ : b.open_ = [⟨none, insts⟩]
  next : b.next = start + insts.size
  loads : ContextLoads c n start insts.toList
  stands : ∀ h o, (h, o) ∈ acc → StandsFor c flavor shaped n start insts.toList h o

namespace Planned

variable {c : DeviceConfig} {flavor : BodyFlavor} {shaped : Bool} {n start : Nat}
  {acc : List (HandleRef × Operand)} {b b' : Builder} {insts : Array Inst} {h : HandleRef} {o : Operand}

theorem startingAt : Planned c flavor shaped n start [] (Builder.startingAt start) #[] :=
  ⟨rfl, rfl, fun _ _ hj => by simp at hj, fun _ _ hm => absurd hm List.not_mem_nil⟩

/-- A handle whose operand stands for it joins the map. -/
theorem add (hP : Planned c flavor shaped n start acc b insts)
    (hs : StandsFor c flavor shaped n start insts.toList h o) :
    Planned c flavor shaped n start (acc ++ [(h, o)]) b insts where
  open_ := hP.open_
  next := hP.next
  loads := hP.loads
  stands h' o' hm := by
    rcases List.mem_append.mp hm with hm | hm
    · exact hP.stands h' o' hm
    · obtain ⟨rfl, rfl⟩ := Prod.mk.inj (List.mem_singleton.mp hm)
      exact hs

section Push

variable {f : ContextField} {d : Nat}

theorem toList_push_load {rng : Option ValueRange} :
    (insts.push (.load b.next ((ofDevice c).fieldTy f) (.param n) ((ofDevice c).offset f d) rng)).toList =
      insts.toList ++ [.load b.next ((ofDevice c).fieldTy f) (.param n) ((ofDevice c).offset f d) rng] :=
  Array.toList_push

/-- A load of a context element appended to the prelude keeps it a prelude of loads, into the
next register, and keeps every entry made so far standing. -/
theorem push (hP : Planned c flavor shaped n start acc b insts) (hd : d < f.len) (rng : Option ValueRange) :
    Planned c flavor shaped n start acc (b.load ((ofDevice c).fieldTy f) (.param n) ((ofDevice c).offset f d) rng).2
      (insts.push (.load b.next ((ofDevice c).fieldTy f) (.param n) ((ofDevice c).offset f d) rng)) where
  open_ := by
    show (b.define _).2.open_ = _
    rw [Builder.define_open, hP.open_, Builder.pushTop_cons]
  next := by
    show (b.define _).2.next = _
    rw [Builder.define_next, hP.next, Array.size_push, Nat.add_assoc]
  loads j i hj := by
    rw [toList_push_load] at hj
    by_cases hlt : j < insts.toList.length
    · rw [List.getElem?_append_left hlt] at hj
      exact hP.loads j i hj
    · -- the new load is the last one, at index `insts.size`
      rw [List.getElem?_append_right (by omega), List.getElem?_singleton] at hj
      split at hj
      · cases hj
        rename_i hj0
        refine ⟨f, d, rng, hd, ?_⟩
        rw [hP.next]
        simp only [Array.length_toList] at hlt hj0
        congr 1
        omega
      · cases hj
  stands h' o' hm := by
    rw [toList_push_load]
    exact (hP.stands h' o' hm).append _

/-- The load appended last stands for the handle of its element. -/
theorem standsFor_push (hP : Planned c flavor shaped n start acc b insts)
    (hf : ContextField.ofHandle? h.kind = some f) {rng : Option ValueRange} :
    StandsFor c flavor shaped n start
      (insts.push (.load b.next ((ofDevice c).fieldTy f) (.param n) ((ofDevice c).offset f h.dim) rng)).toList
      h (.reg b.next) := by
  have hj : (insts.push (.load b.next ((ofDevice c).fieldTy f) (.param n) ((ofDevice c).offset f h.dim) rng)).toList[insts.size]? =
      some (.load (start + insts.size) ((ofDevice c).fieldTy f) (.param n) ((ofDevice c).offset f h.dim) rng) := by
    rw [toList_push_load, List.getElem?_append_right (by simp), Array.length_toList, Nat.sub_self,
      List.getElem?_cons_zero, hP.next]
  have hs : StandsFor c flavor shaped n start _ _ (.reg (start + insts.size)) := .load hf hj
  rwa [← hP.next] at hs

end Push

/-- A handle that passed the checks gets an operand standing for it, and the builder stays a
prelude of context loads. -/
theorem step (hP : Planned c flavor shaped n start acc b insts) (hdims : c.maxWorkItemDims ≤ 3)
    (hlim : h.dim < if h.kind.isDimensional then c.maxWorkItemDims else 1)
    (hshape : h.kind = .localId → shaped = false)
    (hv : handleValue c (ofDevice c) flavor n b h = .ok (some o, b')) :
    ∃ insts', Planned c flavor shaped n start (acc ++ [(h, o)]) b' insts' := by
  obtain ⟨kind, d⟩ := h
  rcases handleValue_cases hv with ⟨hk, ho, rfl⟩ | ⟨size, hf, hk, ho, rfl⟩ | ⟨size, hf, hk, ho, rfl⟩ |
    ⟨f, rng, hf, ho, rfl⟩
  · cases Option.some.inj ho
    simp only at hk
    subst hk
    simp only [Handle.isDimensional, if_true] at hlim
    exact ⟨insts, hP.add (.localId (hshape rfl) (by omega))⟩
  · cases Option.some.inj ho
    simp only at hk
    subst hk
    simp only [Handle.isDimensional, if_true] at hlim
    exact ⟨insts, hP.add (.localSize hf hlim)⟩
  · cases Option.some.inj ho
    simp only at hk
    subst hk
    simp only [Handle.isDimensional, if_true] at hlim
    exact ⟨insts, hP.add (.globalOffset hf hlim)⟩
  · cases Option.some.inj ho
    have hpush := hP.push (ContextField.dim_lt_len hf hdims hlim) rng
    exact ⟨_, hpush.add (hP.standsFor_push hf)⟩

end Planned

/-- Privatizing substitutes the mapped handles in the instructions at every depth. -/
theorem Function.insts_privatize_fst (f : Function) (values : List (HandleRef × Operand)) :
    (f.privatize values).1.insts = Inst.substOperandsList (handleSwap values) f.insts := by
  rw [Function.privatize_fst]
  cases hb : f.body <;> simp [Function.insts, hb, Inst.substOperandsList]

/-- What deriving a body puts before the kernel's instructions, and what it puts for the kernel's
handles: `start` is past every register the kernel sets, `pre` loads context elements through the
context parameter, right after the kernel's own, into the registers from `start` on, and every
handle the kernel reads is mapped to an operand that stands for it. -/
structure DerivedPrelude (c : DeviceConfig) (flavor : BodyFlavor) (shaped : Bool) (K : Function)
    (start : Nat) (pre : List Inst) (values : List (HandleRef × Operand)) : Prop where
  defs : K.DefsBelow start
  loads : ContextLoads c K.params.length start pre
  stands : ∀ h o, Function.lookupHandle values h = some o → StandsFor c flavor shaped K.params.length start pre h o
  covers : ∀ h ∈ K.handleRefs, (Function.lookupHandle values h).isSome

/-- A body derived on a validated device is a prelude of context loads followed by the kernel's
instructions with every handle replaced by the operand that stands for it. -/
theorem deriveBody_prelude {c : DeviceConfig} (hc : c.validate = none) {K B : Function} {flavor : BodyFlavor}
    {shaped : Bool} {notes : Log} (hB : deriveBody K c (ofDevice c) flavor shaped = .ok (.ok (B, notes))) :
    ∃ start pre values, DerivedPrelude c flavor shaped K start pre values ∧
      B.insts = pre ++ Inst.substOperandsList (handleSwap values) K.insts := by
  have hdims := (c.widths_of_validate hc).2.2.2
  unfold deriveBody at hB
  simp only [bind, Except.bind, pure, Except.pure] at hB
  repeat' split at hB
  all_goals first
    | (cases hB; done)
    | cases hB
      rename_i _ hval hshape _ start hstart _ res hfold _
      -- the fold keeps the builder a prelude of loads, and maps every handle it has passed
      have key := foldlM_keeps
        (I := fun s => ∃ insts, Planned c flavor shaped K.params.length start s.1 s.2 insts)
        (P := fun s h => ∃ o, (h, o) ∈ s.1) (Q := (· ∈ K.handleRefs)) ?_ (fun _ hh => hh) hfold
        ⟨#[], Planned.startingAt⟩
      · obtain ⟨⟨insts, hP⟩, -, hcov⟩ := key
        refine ⟨start, insts.toList, res.1, ⟨Function.defsBelow_of_regCount? hstart, hP.loads,
          fun h o hl => hP.stands h o (Function.mem_of_lookupHandle hl), fun h hh => ?_⟩, ?_⟩
        · obtain ⟨o, ho⟩ := hcov h hh
          exact Function.isSome_lookupHandle ho
        · show res.2.finish ++ _ = _
          rw [Builder.finish_of_open_eq _ _ hP.open_, Function.insts_privatize_fst]
          rfl
      · rintro s h s' hh ⟨insts, hP⟩ hs
        have hlim := Function.dim_lt_limit_of_validateHandles hval hh
        have hsh : h.kind = .localId → shaped = false := by
          intro hk
          cases shaped
          · rfl
          · have hany : K.handleRefs.any (fun x => x.kind == Handle.localId) = true :=
              List.any_eq_true.mpr ⟨h, hh, by rw [hk]; rfl⟩
            simp [hany] at hshape
        split at hs
        · cases hs
        · rename_i v hv
          split at hs
          · -- a builder fault stops the fold
            split at hs
            · cases hs
            · rename_i hthrow
              cases hthrow
          · split at hs
            · rename_i o ho
              cases hs
              obtain ⟨insts', hP'⟩ := hP.step hdims hlim hsh (show handleValue _ _ _ _ _ _ = .ok (some o, v.2) by
                rw [hv, ← ho])
              exact ⟨⟨insts', hP'⟩, ⟨o, List.mem_append_right _ List.mem_cons_self⟩,
                fun y ⟨o', hy⟩ => ⟨o', List.mem_append_left _ hy⟩⟩
            · -- every handle gets an operand
              rename_i hnone
              have hsome := handleValue_isSome (show handleValue _ _ _ _ _ _ = .ok (v.1, v.2) from hv)
              rw [hnone] at hsome
              cases hsome

end KernelLaunch
