import KernelLaunch.Proofs.Interp.Output
import KernelLaunch.Proofs.Launch.Packing
/-!
# Pointers stored in memory

Memory holds words, so a pointer is stored as one: `region + 1` above a fixed bit, the offset
below it (`Machine.encodePtr`), with no masking of either. The tag sits at bit 24 on devices with
4-byte pointers and at bit 40 on those with 8-byte ones, and a store keeps only the pointer
width's low bytes of the word. So a pointer comes back from memory exactly when its offset fits
below the tag and its tag fits in the rest of the word: a 4-byte pointer can name 255 regions.

Main statement: `stored_pointers_round_trip`. For such a pointer the stored word is nonzero and
decodes to it, no other such pointer is stored as the same word, a pointer-typed store followed by
a pointer-typed load at the same address answers it, and the launchers' pointer loads answer it
from the argument buffer the host packs and from the context record the host writes.
-/

namespace KernelLaunch

namespace Machine

variable {s t : Machine}

/-- The bounds on a pointer's offset and region that the stored word can hold are those of
`Pointer.Encodable`. -/
theorem encodable_iff {ptrBytes : Nat} (hpb : ptrBytes = 4 ∨ ptrBytes = 8) {p : Pointer} :
    p.Encodable ptrBytes ↔
      p.offset < 2 ^ regionShift ptrBytes ∧ p.region + 1 < 2 ^ (8 * ptrBytes - regionShift ptrBytes) := by
  rcases hpb with rfl | rfl <;> simp only [Pointer.Encodable, regionShift] <;> norm_num <;> omega

/-- The stored word of a pointer in bounds is nonzero, fits the pointer width and decodes to the
pointer. -/
theorem encodePtr_round_trip {ptrBytes : Nat} (hpb : ptrBytes = 4 ∨ ptrBytes = 8) {p : Pointer}
    (hp : p.Encodable ptrBytes) :
    ∃ raw, encodePtr ptrBytes p = .ok raw ∧ raw ≠ 0 ∧ raw < 256 ^ ptrBytes ∧ decodePtr ptrBytes raw = some p := by
  obtain ⟨raw, henc, hlt, hdec⟩ := encodePtr_of_encodable hpb hp
  refine ⟨raw, henc, ?_, hlt, hdec⟩
  -- the null word decodes to no pointer
  rintro rfl
  rw [decodePtr_zero] at hdec
  cases hdec

/-- Pointers in bounds with the same stored word are the same pointer. -/
theorem encodePtr_inj {ptrBytes : Nat} (hpb : ptrBytes = 4 ∨ ptrBytes = 8) {p q : Pointer}
    (hp : p.Encodable ptrBytes) (hq : q.Encodable ptrBytes) (h : encodePtr ptrBytes q = encodePtr ptrBytes p) :
    q = p := by
  obtain ⟨raw, henc, -, -, hdec⟩ := encodePtr_round_trip hpb hp
  obtain ⟨raw', henc', -, -, hdec'⟩ := encodePtr_round_trip hpb hq
  rw [henc, henc', Except.ok.injEq] at h
  rw [h, hdec] at hdec'
  exact (Option.some.inj hdec').symm

/-- A word encoded into a field of its own width of 1, 2, 4 or 8 bytes is its little-endian
bytes. -/
theorem encodeWord_eq_ok {w : Nat} (hw : w ∈ [1, 2, 4, 8]) (v : Nat) :
    ∃ bytes, Bytes.encodeWord w v = .ok bytes ∧ bytes.size = w ∧ bytes.toList = Bytes.littleEndian v w := by
  have hzero : (ByteArray.mk (Array.replicate w 0)).size = w := Array.size_replicate ..
  have hmax : w ≤ Word.max := by
    simp only [List.mem_cons, List.not_mem_nil, or_false] at hw
    unfold Word.max
    omega
  have hfit : 0 + w ≤ Word.max ∧ 0 + w ≤ (ByteArray.mk (Array.replicate w 0)).size := by
    rw [hzero]
    omega
  refine ⟨_, (Bytes.writeWord_eq_ok hw).mpr ⟨hfit, rfl⟩, ?_, ?_⟩
  · rw [Bytes.size_overwrite, hzero]
  · rw [Bytes.toList_eq_slice, Bytes.size_overwrite, hzero]
    have hself := Bytes.slice_overwrite_self _ 0 (Bytes.littleEndian v w)
      (by rw [Bytes.length_littleEndian, hzero]; omega)
    rwa [Bytes.length_littleEndian] at hself

/-- A write succeeds only inside a region. -/
theorem run_writeBytes_inside {p : Pointer} {data : ByteArray} (h : (writeBytes p data).run s = .ok () t) :
    ∃ r, s.regions[p.region]? = some r ∧ p.offset + data.size ≤ Word.max ∧ p.offset + data.size ≤ r.size := by
  unfold writeBytes at h
  obtain ⟨r, u, hb, -⟩ := run_bind_eq_ok.mp h
  obtain ⟨-, hr, hfit⟩ := run_bounds_eq_ok.mp hb
  exact ⟨r, hr, hfit⟩

/-- A store of a type that is no aggregate writes the bytes of the value's stored word, in the
type's width. -/
theorem run_storeValue_eq_ok {fname : String} {ty : Ty} {a : Pointer} {v : Value}
    (hagg : ty.isAggregate = false) (h : (storeValue fname ty a v).run s = .ok () t) :
    ∃ bytes, Bytes.encodeWord (ty.size s.ptrBytes) (storedWord s.ptrBytes v) = .ok bytes ∧
      (writeBytes a bytes).run s = .ok () t := by
  unfold storeValue at h
  dsimp only at h
  rw [if_neg (by simp [hagg])] at h
  obtain ⟨raw, u, hraw, h₁⟩ := run_bind_eq_ok.mp h
  obtain ⟨rfl, rfl⟩ := run_rawOf_eq_ok hraw
  rw [run_get_bind] at h₁
  obtain ⟨bytes, u, hbytes, hwrite⟩ := run_bind_eq_ok.mp h₁
  obtain ⟨hbytes, rfl⟩ := run_faultOf_eq_ok.mp hbytes
  exact ⟨bytes, hbytes, hwrite⟩

/-- A load of a pointer type answers the value of the word at the address, when there is one. -/
theorem run_loadValue_ptr {fname : String} {sp : Nat} {a : Pointer} {n : Nat}
    (hw : s.wordAt? a s.ptrBytes = some n) :
    (loadValue fname (.ptr sp) a).run s = .ok (valueOfWord s.ptrBytes (.ptr sp) n) s := by
  unfold loadValue
  simp only [Ty.isAggregate, Bool.false_eq_true, if_false]
  rw [run_get_bind, run_bind_eq_ok]
  exact ⟨n, s, run_readWord_eq_ok.mpr ⟨rfl, hw⟩, run_pure_eq_ok.mpr ⟨rfl, rfl⟩⟩

/-- The word of a pointer's stored form decodes to the pointer. -/
theorem valueOfWord_encodePtr {ptrBytes sp raw : Nat} {p : Pointer} (hdec : decodePtr ptrBytes raw = some p) :
    valueOfWord ptrBytes (.ptr sp) raw = .ptr p := by
  simp [valueOfWord, hdec]

/-- After a pointer in bounds is stored, a pointer load at the same address answers it. -/
theorem run_loadValue_after_storeValue {fname : String} {sp sp' : Nat} {a p : Pointer}
    (hpb : s.ptrBytes = 4 ∨ s.ptrBytes = 8) (hp : p.Encodable s.ptrBytes)
    (h : (storeValue fname (.ptr sp) a (.ptr p)).run s = .ok () t) :
    (loadValue fname (.ptr sp') a).run t = .ok (.ptr p) t := by
  have hw : s.ptrBytes ∈ [1, 2, 4, 8] := by rcases hpb with h | h <;> simp [h]
  obtain ⟨bytes, hbytes, hwrite⟩ := run_storeValue_eq_ok rfl h
  obtain ⟨raw, henc, -, hlt, hdec⟩ := encodePtr_round_trip hpb hp
  rw [show storedWord s.ptrBytes (.ptr p) = raw by simp [storedWord, henc]] at hbytes
  obtain ⟨bytes', hbytes', hsize, hlist⟩ := encodeWord_eq_ok hw raw
  obtain rfl : bytes = bytes' := Except.ok.inj (hbytes.symm.trans hbytes')
  obtain ⟨r, hr, hmax, hin⟩ := run_writeBytes_inside hwrite
  obtain ⟨-, hptr, hregions⟩ := run_writeBytes_frame hwrite
  obtain ⟨r', hr', hsize', hheld, -⟩ := hregions a.region r hr
  -- the region now holds the word's bytes at the address, and the load reads exactly them
  have hword : t.wordAt? a t.ptrBytes = some raw := by
    rw [hptr, wordAt?_eq_some hw]
    refine ⟨r', hr', ⟨by omega, by omega⟩, ?_⟩
    rw [← hsize, hheld rfl, hlist, Bytes.ofLittleEndian_littleEndian, Nat.mod_eq_of_lt hlt]
  rw [run_loadValue_ptr hword, hptr, valueOfWord_encodePtr hdec]

/-- What the host packs for a pointer into a slot that is no aggregate's is its stored word, in
the slot's width. -/
theorem slotBytes_ptr {s : Machine} {sl : ArgSlot} {p : Pointer} {data : List UInt8} (hk : sl.kind ≠ .byValue)
    (h : ArgBufferLayout.SlotBytes s sl (.ptr p) data) :
    ∃ raw, encodePtr s.ptrBytes p = .ok raw ∧ data = Bytes.littleEndian raw sl.size := by
  cases hkind : sl.kind
  case byValue => exact absurd hkind hk
  all_goals simpa [ArgBufferLayout.SlotBytes, hkind] using h

/-- A pointer slot of a packed argument buffer, holding what the host packs for a pointer in
bounds, reads back by the launcher's pointer load as the pointer. -/
theorem run_loadValue_slot_ptr {fname : String} {sp : Nat} {s w : Machine} {sl : ArgSlot} {p : Pointer}
    {k space : Nat} {B : ByteArray} (hpb : s.ptrBytes = 4 ∨ s.ptrBytes = 8) (hw : w.ptrBytes = s.ptrBytes)
    (hp : p.Encodable s.ptrBytes) (hk : sl.kind ≠ .byValue) (hsize : sl.size = s.ptrBytes)
    (hbytes : ArgBufferLayout.SlotBytes s sl (.ptr p) (Bytes.slice B sl.offset sl.size))
    (hB : w.regions[k]? = some (Region.ofBytes space B)) (hin : sl.offset + sl.size ≤ B.size)
    (hmax : sl.offset + sl.size ≤ Word.max) :
    (loadValue fname (.ptr sp) ((⟨k, 0⟩ : Pointer).add sl.offset)).run w = .ok (.ptr p) w := by
  have hwid : sl.size ∈ [1, 2, 4, 8] := by rcases hpb with h | h <;> simp [hsize, h]
  obtain ⟨raw, henc, hdata⟩ := slotBytes_ptr hk hbytes
  obtain ⟨raw', henc', -, hlt, hdec⟩ := encodePtr_round_trip hpb hp
  obtain rfl : raw = raw' := Except.ok.inj (henc.symm.trans henc')
  -- the slot's bytes are the stored word, whole, since the slot is as wide as a pointer
  have hword : w.wordAt? ((⟨k, 0⟩ : Pointer).add sl.offset) w.ptrBytes = some raw := by
    rw [hw, ← hsize, wordAt?_field hB hwid hmax hin, hdata, Bytes.ofLittleEndian_littleEndian, hsize,
      Nat.mod_eq_of_lt hlt]
  rw [run_loadValue_ptr hword, hw, valueOfWord_encodePtr hdec]

/-- On a validated device the pointers are four or eight bytes wide. -/
theorem ptrBytes_of_validate {c : DeviceConfig} (hc : c.validate = none) : c.ptrBytes = 4 ∨ c.ptrBytes = 8 := by
  obtain ⟨-, hab, -⟩ := c.widths_of_validate hc
  rcases hab with h | h <;> simp [DeviceConfig.ptrBytes, h]

/-- A pointer field of a context record, written from the stored word of a pointer in bounds,
reads back by the launcher's load of the field as the pointer. -/
theorem run_loadValue_context_ptr {fname : String} {c : DeviceConfig} (hc : c.validate = none)
    {v : ContextValues} {bytes : ByteArray} (hbytes : (ContextLayout.ofDevice c).encode v = .ok bytes)
    {w : Machine} {k space : Nat} (hr : w.regions[k]? = some (Region.ofBytes space bytes))
    (hw : w.ptrBytes = c.ptrBytes) {f : ContextField} (hf : f.ty c = c.globalPtr) {p : Pointer}
    (hp : p.Encodable c.ptrBytes) (hv : encodePtr c.ptrBytes p = .ok (v.get f 0)) :
    (loadValue fname ((ContextLayout.ofDevice c).fieldTy f)
      ((⟨k, 0⟩ : Pointer).add ((ContextLayout.ofDevice c).offset f 0))).run w = .ok (.ptr p) w := by
  obtain ⟨raw, henc, -, hlt, hdec⟩ := encodePtr_round_trip (ptrBytes_of_validate hc) hp
  obtain rfl : v.get f 0 = raw := Except.ok.inj (hv.symm.trans henc)
  have hwidth : (ContextLayout.ofDevice c).width f = c.ptrBytes := by
    rw [ContextLayout.width_ofDevice, hf]
    rfl
  have hlen : 0 < f.len := by cases f <;> decide
  have hword : w.wordAt? ((⟨k, 0⟩ : Pointer).add ((ContextLayout.ofDevice c).offset f 0)) w.ptrBytes =
      some (v.get f 0) := by
    rw [hw, ← hwidth, Harness.wordAt?_context hc hbytes hr hlen, hwidth, Nat.mod_eq_of_lt hlt]
  rw [ContextLayout.fieldTy_ofDevice, hf, DeviceConfig.globalPtr, run_loadValue_ptr hword, hw,
    valueOfWord_encodePtr hdec]

/-- A pointer whose offset fits below the region tag, at bit 24 for 4-byte pointers and at bit 40
for 8-byte ones, and whose `region + 1` fits in the bits above, is stored as a nonzero word that
decodes to it and that no other such pointer is stored as. A pointer-typed store of it followed
by a pointer-typed load at the same address answers it. A pointer slot of the argument buffer
holding what the host packs for it, and a pointer field of a context record written from its
stored word, read back as it in the launchers' loads. -/
theorem stored_pointers_round_trip (ptrBytes : Nat) (hpb : ptrBytes = 4 ∨ ptrBytes = 8) (p : Pointer)
    (hoff : p.offset < 2 ^ regionShift ptrBytes)
    (hreg : p.region + 1 < 2 ^ (8 * ptrBytes - regionShift ptrBytes)) :
    ∃ raw, encodePtr ptrBytes p = .ok raw ∧ raw ≠ 0 ∧ decodePtr ptrBytes raw = some p ∧
      (∀ q : Pointer, q.offset < 2 ^ regionShift ptrBytes →
        q.region + 1 < 2 ^ (8 * ptrBytes - regionShift ptrBytes) → encodePtr ptrBytes q = .ok raw → q = p) ∧
      (∀ (fname : String) (sp sp' : Nat) (a : Pointer) (s t : Machine), s.ptrBytes = ptrBytes →
        (storeValue fname (.ptr sp) a (.ptr p)).run s = .ok () t →
        (loadValue fname (.ptr sp') a).run t = .ok (.ptr p) t) ∧
      (∀ (fname : String) (sp : Nat) (s w : Machine) (sl : ArgSlot) (k space : Nat) (B : ByteArray),
        s.ptrBytes = ptrBytes → w.ptrBytes = ptrBytes → sl.kind ≠ .byValue → sl.size = ptrBytes →
        ArgBufferLayout.SlotBytes s sl (.ptr p) (Bytes.slice B sl.offset sl.size) →
        w.regions[k]? = some (Region.ofBytes space B) → sl.offset + sl.size ≤ B.size →
        sl.offset + sl.size ≤ Word.max →
        (loadValue fname (.ptr sp) ((⟨k, 0⟩ : Pointer).add sl.offset)).run w = .ok (.ptr p) w) ∧
      (∀ (fname : String) (c : DeviceConfig) (v : ContextValues) (bytes : ByteArray) (w : Machine)
        (k space : Nat) (f : ContextField),
        c.validate = none → c.ptrBytes = ptrBytes → w.ptrBytes = ptrBytes → f.ty c = c.globalPtr →
        v.get f 0 = raw → (ContextLayout.ofDevice c).encode v = .ok bytes →
        w.regions[k]? = some (Region.ofBytes space bytes) →
        (loadValue fname ((ContextLayout.ofDevice c).fieldTy f)
          ((⟨k, 0⟩ : Pointer).add ((ContextLayout.ofDevice c).offset f 0))).run w = .ok (.ptr p) w) := by
  have hp : p.Encodable ptrBytes := (encodable_iff hpb).mpr ⟨hoff, hreg⟩
  obtain ⟨raw, henc, hne, -, hdec⟩ := encodePtr_round_trip hpb hp
  refine ⟨raw, henc, hne, hdec, ?_, ?_, ?_, ?_⟩
  · intro q hqoff hqreg hq
    exact encodePtr_inj hpb hp ((encodable_iff hpb).mpr ⟨hqoff, hqreg⟩) (hq.trans henc.symm)
  · rintro fname sp sp' a s t rfl hstore
    exact run_loadValue_after_storeValue hpb hp hstore
  · rintro fname sp s w sl k space B rfl hw hk hsize hbytes hB hin hmax
    exact run_loadValue_slot_ptr hpb hw hp hk hsize hbytes hB hin hmax
  · rintro fname c v bytes w k space f hc rfl hw hf hv hbytes hr
    exact run_loadValue_context_ptr hc hbytes hr hw hf hp (hv ▸ henc)

/-- Past the bound the tag is lost: on a 4-byte device the pointer into region 255 is stored as a
word whose four low bytes, all a store keeps, are zero, and they read back as the null word. -/
example : encodePtr 4 ⟨255, 0⟩ = .ok (2 ^ 32) ∧ decodePtr 4 (2 ^ 32 % 256 ^ 4) = none := ⟨rfl, rfl⟩

/-- The last region and offset a 4-byte pointer can hold come back. -/
theorem stored_pointers_round_trip_lastNarrow :
    ((4 = 4 ∨ 4 = 8) ∧ 16777215 < 2 ^ regionShift 4 ∧ 254 + 1 < 2 ^ (8 * 4 - regionShift 4)) ∧
      ∃ raw, encodePtr 4 ⟨254, 16777215⟩ = .ok raw ∧ raw ≠ 0 ∧ decodePtr 4 raw = some ⟨254, 16777215⟩ := by
  have hb : (4 = 4 ∨ 4 = 8) ∧ 16777215 < 2 ^ regionShift 4 ∧ 254 + 1 < 2 ^ (8 * 4 - regionShift 4) := by
    decide
  obtain ⟨raw, henc, hne, hdec, -⟩ := stored_pointers_round_trip 4 hb.1 ⟨254, 16777215⟩ hb.2.1 hb.2.2
  exact ⟨hb, raw, henc, hne, hdec⟩

end Machine

end KernelLaunch
