import KernelLaunch.Proofs.Bytes.Words
import KernelLaunch.Context
/-!
# The bytes of a context record

On a validated device each element of the context record sits in a field of four or eight bytes,
and no two fields share a byte (`pairwise_apart_ofDevice`). So an encoded record, read back field
by field, gives the values it was written from, each cut to its field's width (`read_encode`).
The four layouts a validated device can have, by the widths of `size_t` and of pointers, are
checked once each against tables of their offsets and widths.
-/

namespace KernelLaunch

/-- A validated device has a 32- or 64-bit `size_t`, 32- or 64-bit addresses, and one to three
work-item dimensions. -/
theorem DeviceConfig.widths_of_validate {c : DeviceConfig} (h : c.validate = none) :
    (c.sizeTWidth = 32 ∨ c.sizeTWidth = 64) ∧ (c.addressBits = 32 ∨ c.addressBits = 64) ∧
      1 ≤ c.maxWorkItemDims ∧ c.maxWorkItemDims ≤ 3 := by
  unfold DeviceConfig.validate at h
  split at h
  · cases h
  split at h
  · cases h
  split at h
  · cases h
  rename_i hst hab hdims
  simp only [bne_iff_ne, ne_eq, Bool.and_eq_true, decide_eq_true_eq, not_and, Decidable.not_not,
    Bool.or_eq_true] at hst hab hdims
  omega

namespace ContextField

theorem elements_eq : elements =
    [(.workDim, 0), (.numGroups, 0), (.globalOffset, 0), (.localSize, 0), (.groupId, 0),
      (.numGroups, 1), (.globalOffset, 1), (.localSize, 1), (.groupId, 1),
      (.numGroups, 2), (.globalOffset, 2), (.localSize, 2), (.groupId, 2),
      (.printfBuffer, 0), (.printfBufferPosition, 0), (.printfBufferCapacity, 0)] := rfl

/-- The record holds exactly the elements below each field's length. -/
theorem mem_elements {f : ContextField} {d : Nat} : (f, d) ∈ elements ↔ d < f.len := by
  cases f <;> simp [elements, len]

end ContextField

namespace ContextLayout

/-- Two elements of the record share no byte. -/
def Apart (l : ContextLayout) (x y : ContextField × Nat) : Prop :=
  l.offset x.1 x.2 + l.width x.1 ≤ l.offset y.1 y.2 ∨ l.offset y.1 y.2 + l.width y.1 ≤ l.offset x.1 x.2

variable {c : DeviceConfig}

theorem width_ofDevice (f : ContextField) : (ofDevice c).width f = (f.ty c).size c.ptrBytes := by
  cases f <;> rfl

theorem fieldTy_ofDevice (f : ContextField) : (ofDevice c).fieldTy f = f.ty c := by
  cases f <;> rfl

theorem isAggregate_sizeT (w : Nat) : (Ty.sizeT w).isAggregate = false := by
  unfold Ty.sizeT
  split <;> rfl

theorem pointerSpace_sizeT (w : Nat) : (Ty.sizeT w).pointerSpace = none := by
  unfold Ty.sizeT
  split <;> rfl

/-- A layout's elements lie apart when the tables of its offsets and widths say so. -/
theorem pairwise_apart_of_tables {l : ContextLayout} (offs ws : List Nat) (hO : l.offsets = offs)
    (hW : ∀ f, l.width f = ws.getD f.index 0)
    (hcheck : ContextField.elements.Pairwise fun x y =>
      offs.getD x.1.index 0 + x.2 * ws.getD x.1.index 0 + ws.getD x.1.index 0 ≤
          offs.getD y.1.index 0 + y.2 * ws.getD y.1.index 0 ∨
        offs.getD y.1.index 0 + y.2 * ws.getD y.1.index 0 + ws.getD y.1.index 0 ≤
          offs.getD x.1.index 0 + x.2 * ws.getD x.1.index 0) :
    ContextField.elements.Pairwise l.Apart := by
  refine hcheck.imp ?_
  intro x y h
  simpa only [Apart, offset, hO, hW] using h

/-- The elements of the record on a validated device share no byte. -/
theorem pairwise_apart_ofDevice (hc : c.validate = none) : ContextField.elements.Pairwise (ofDevice c).Apart := by
  obtain ⟨hst, hab, -⟩ := c.widths_of_validate hc
  -- the layout follows from the byte widths of `size_t` and of pointers alone, four or eight each
  have hcheck : ∀ s ∈ [4, 8], ∀ p ∈ [4, 8], ContextField.elements.Pairwise fun x y =>
      let offs := [0, s, 4 * s, 7 * s, 10 * s, Word.alignTo (13 * s) p, Word.alignTo (13 * s) p + p,
        Word.alignTo (13 * s) p + 2 * p]
      let ws := [4, s, s, s, s, p, p, 4]
      offs.getD x.1.index 0 + x.2 * ws.getD x.1.index 0 + ws.getD x.1.index 0 ≤
          offs.getD y.1.index 0 + y.2 * ws.getD y.1.index 0 ∨
        offs.getD y.1.index 0 + y.2 * ws.getD y.1.index 0 + ws.getD y.1.index 0 ≤
          offs.getD x.1.index 0 + x.2 * ws.getD x.1.index 0 := by
    decide
  have hs : c.sizeTWidth / 8 ∈ [4, 8] := by rcases hst with h | h <;> simp [h]
  have hp : c.addressBits / 8 ∈ [4, 8] := by rcases hab with h | h <;> simp [h]
  refine pairwise_apart_of_tables _ [4, c.sizeTWidth / 8, c.sizeTWidth / 8, c.sizeTWidth / 8, c.sizeTWidth / 8,
    c.addressBits / 8, c.addressBits / 8, 4] ?_ ?_ (hcheck _ hs _ hp)
  · rcases hst with h₁ | h₁ <;> rcases hab with h₂ | h₂ <;>
      simp [ofDevice, ContextField.all, ContextField.ty, DeviceConfig.ptrBytes, h₁, h₂, DeviceConfig.sizeT,
        Ty.sizeT, DeviceConfig.globalPtr, Ty.size, Ty.checkedSize, Ty.scalarSize, Ty.align, Word.alignTo,
        Word.saturatingMul, Word.divCeil, ContextField.len, Word.max]
  · intro f
    rcases hst with h₁ | h₁ <;>
      cases f <;> simp [width_ofDevice, ContextField.ty, DeviceConfig.sizeT, Ty.sizeT, h₁,
        DeviceConfig.globalPtr, ContextField.index] <;> rfl

/-- Every element of the record on a validated device is four or eight bytes wide. -/
theorem width_mem_ofDevice (hc : c.validate = none) (f : ContextField) : (ofDevice c).width f ∈ [1, 2, 4, 8] := by
  obtain ⟨hst, hab, -⟩ := c.widths_of_validate hc
  rw [width_ofDevice]
  rcases hst with h₁ | h₁ <;> rcases hab with h₂ | h₂ <;>
    cases f <;> simp [ContextField.ty, DeviceConfig.sizeT, Ty.sizeT, h₁, h₂, DeviceConfig.globalPtr,
      DeviceConfig.ptrBytes, Ty.size, Ty.checkedSize, Ty.scalarSize]

/-- A field of `size_t` elements on a validated device holds exactly the numbers below
`2 ^ size_t width`. -/
theorem pow_width_of_sizeT (hc : c.validate = none) {f : ContextField} (hf : f.ty c = c.sizeT) :
    256 ^ (ofDevice c).width f = 2 ^ c.sizeTWidth := by
  obtain ⟨hst, -⟩ := c.widths_of_validate hc
  rw [width_ofDevice, hf]
  rcases hst with h | h <;> simp [h, DeviceConfig.sizeT, Ty.sizeT, Ty.size, Ty.checkedSize, Ty.scalarSize]

/-- On a validated device an encoded record has the layout's size, and every element reads back
as the value it was written from, cut to its field's width. -/
theorem read_encode {v : ContextValues} {bytes : ByteArray} (hc : c.validate = none)
    (h : (ofDevice c).encode v = .ok bytes) :
    bytes.size = (ofDevice c).size ∧
      ∀ f d, d < f.len → (ofDevice c).read bytes f d = .ok (v.get f d % 256 ^ (ofDevice c).width f) := by
  obtain ⟨hsize, hreads⟩ := Bytes.readWord_foldlM_writeWord (fun x : ContextField × Nat => (ofDevice c).offset x.1 x.2)
    (fun x => (ofDevice c).width x.1) (fun x => v.get x.1 x.2) ContextField.elements _ bytes
    (fun x _ => (Bytes.wordWidth_of_mem (width_mem_ofDevice hc x.1)).1) (pairwise_apart_ofDevice hc) h
  refine ⟨hsize.trans (Array.size_replicate ..), fun f d hd => ?_⟩
  have hread := hreads (f, d) (ContextField.mem_elements.mpr hd)
  rwa [(Bytes.wordWidth_of_mem (width_mem_ofDevice hc f)).2] at hread

end ContextLayout

end KernelLaunch
