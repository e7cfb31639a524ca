import KernelLaunch.Proofs.Interp.Memory
import KernelLaunch.Proofs.Launch.PackedBuffer
/-!
# Device-side output

A printf given an output buffer appends a record to it: the argument count as a 4-byte
little-endian word, then each argument as an 8-byte word, a pointer in its stored form
(`outputRecord`). A word at a second pointer counts the bytes used, and a record that would pass
the capacity is dropped, with no byte written (`appendOutput`).

`OutputHolds m o log` says that the buffer `o` of machine `m` holds the records `log`: the count
reads the length of `log`, within the capacity, and the buffer starts with `log`. One printf
through the buffer keeps it, with its record appended when it fits (`OutputHolds.printf`), and
steps that touch neither the buffer nor the count keep it as it is (`OutputHolds.of_untouched`).
Over a run that mixes the two, started with the count at zero, the buffer holds the records of
the printfs that fitted, in the order they ran (`OutputRun.holds`). The harness's buffer starts
so (`attachOutput_holds`).
-/

namespace KernelLaunch

namespace Bytes

/-- A field is its first part followed by the rest. -/
theorem slice_add (buf : ByteArray) (start m n : Nat) :
    slice buf start (m + n) = slice buf start m ++ slice buf (start + m) n := by
  simp only [slice, List.range_add, List.map_append, List.map_map]
  congr 1
  apply List.map_congr_left
  intro i _
  simp only [Function.comp_apply, Nat.add_assoc]

/-- Zeros past the end of a buffer read as the buffer does. -/
theorem slice_append_zeros (buf : ByteArray) (k start n : Nat) :
    slice (buf ++ zeros k) start n = slice buf start n := by
  apply List.ext_getElem (by simp)
  intro i h₁ h₂
  rw [getElem_slice, getElem_slice, getElem!_append]
  split
  · rfl
  · rw [getElem!_zeros, getElem!_neg buf (start + i) (by omega)]
    rfl

end Bytes

namespace Region

/-- The bytes a read answers are the region's stored bytes, zeros past them. -/
theorem toList_read (r : Region) (off len : Nat) :
    (r.read off len).toList = Bytes.slice r.stored off len := by
  rw [Bytes.toList_eq_slice, size_read, slice_read]

/-- The stored bytes a write starts from: the old ones, with zeros up to the end of the write. -/
theorem slice_write_base (r : Region) (off : Nat) (data : ByteArray) (start n : Nat) :
    Bytes.slice (if r.stored.size < off + data.size then r.stored ++ Bytes.zeros (off + data.size - r.stored.size)
      else r.stored) start n = Bytes.slice r.stored start n := by
  split
  · exact Bytes.slice_append_zeros _ _ _ _
  · rfl

theorem le_size_write_base (r : Region) (off : Nat) (data : ByteArray) :
    off + data.toList.length ≤ (if r.stored.size < off + data.size then
      r.stored ++ Bytes.zeros (off + data.size - r.stored.size) else r.stored).size := by
  rw [Bytes.length_toList]
  split
  · simp only [ByteArray.size_append, Bytes.size_zeros]
    omega
  · omega

/-- The field just written holds the data. -/
theorem slice_write_self (r : Region) (off : Nat) (data : ByteArray) :
    Bytes.slice (r.write off data).stored off data.size = data.toList := by
  have h := Bytes.slice_overwrite_self _ off data.toList (le_size_write_base r off data)
  rwa [Bytes.length_toList] at h

/-- A field apart from the one written keeps its bytes. -/
theorem slice_write_of_disjoint (r : Region) (off : Nat) (data : ByteArray) (start n : Nat)
    (hdis : start + n ≤ off ∨ off + data.size ≤ start) :
    Bytes.slice (r.write off data).stored start n = Bytes.slice r.stored start n := by
  simp only [write]
  rw [Bytes.slice_overwrite_of_disjoint _ _ _ _ _ (le_size_write_base r off data)
    (by rw [Bytes.length_toList]; omega), slice_write_base]

end Region

namespace Machine

variable {s t : Machine}

/-- The word of width 1, 2, 4 or 8 at a pointer is read off the stored bytes of its region, when
the access stays inside it. -/
theorem wordAt?_eq_some {m : Machine} {p : Pointer} {w n : Nat} (hw : w ∈ [1, 2, 4, 8]) :
    m.wordAt? p w = some n ↔ ∃ r, m.regions[p.region]? = some r ∧
      (p.offset + w ≤ Word.max ∧ p.offset + w ≤ r.size) ∧ Bytes.ofLittleEndian (Bytes.slice r.stored p.offset w) = n := by
  unfold wordAt?
  cases hr : m.regions[p.region]? with
  | none => simp
  | some r =>
      simp only [Option.some.injEq, exists_eq_left']
      by_cases hfit : p.offset + w ≤ Word.max ∧ p.offset + w ≤ r.size
      · rw [if_pos hfit, Bytes.readWord_eq_ok hw ⟨by omega, by simp⟩, Region.slice_read]
        simp [Except.toOption, hfit]
      · simp [hfit]

/-- What a write changes and what it leaves alone: the events and the pointer width stay, every
region keeps its size, the field written holds the data, and every field apart from it keeps its
bytes. -/
theorem run_writeBytes_frame {p : Pointer} {data : ByteArray} (h : (writeBytes p data).run s = .ok () t) :
    t.events = s.events ∧ t.ptrBytes = s.ptrBytes ∧
      ∀ k r, s.regions[k]? = some r → ∃ r', t.regions[k]? = some r' ∧ r'.size = r.size ∧
        (k = p.region → Bytes.slice r'.stored p.offset data.size = data.toList) ∧
        ∀ start n, (k ≠ p.region ∨ start + n ≤ p.offset ∨ p.offset + data.size ≤ start) →
          Bytes.slice r'.stored start n = Bytes.slice r.stored start n := by
  obtain ⟨rp, hrp, rfl⟩ := run_writeBytes_eq_ok h
  refine ⟨rfl, rfl, fun k r hr => ?_⟩
  simp only [Array.set!_eq_setIfInBounds, Array.getElem?_setIfInBounds]
  by_cases hk : p.region = k
  · subst hk
    obtain rfl : rp = r := Option.some.inj (hrp.symm.trans hr)
    obtain ⟨hlt, -⟩ := Array.getElem?_eq_some_iff.mp hr
    refine ⟨rp.write p.offset data, by simp [hlt], rfl,
      fun _ => Region.slice_write_self _ _ _, fun start n hdis => ?_⟩
    exact Region.slice_write_of_disjoint _ _ _ _ _ (hdis.resolve_left (absurd rfl))
  · rw [if_neg hk]
    exact ⟨r, hr, rfl, fun h => absurd h.symm hk, fun _ _ _ => rfl⟩

/-! ## Output records -/

/-- The word an output record holds for a value: a word as it is, a pointer in its stored form.
A pointer with no stored form stops the run before its record is written, and is given 0. -/
def storedWord (ptrBytes : Nat) : Value → Nat
  | .int n => n
  | .ptr p =>
      match encodePtr ptrBytes p with
      | .ok w => w
      | .error _ => 0

/-- An output record: the argument count as a 4-byte little-endian word, then each argument as an
8-byte one. -/
def outputRecord (ptrBytes : Nat) (vs : List Value) : List UInt8 :=
  Bytes.littleEndian vs.length 4 ++ vs.flatMap fun v => Bytes.littleEndian (storedWord ptrBytes v) 8

@[simp]
theorem length_outputRecord (ptrBytes : Nat) (vs : List Value) :
    (outputRecord ptrBytes vs).length = 4 + 8 * vs.length := by
  simp [outputRecord, List.length_flatMap, Nat.mul_comm]

/-- Taking a value's word succeeds with its stored word, and changes nothing. -/
theorem run_rawOf_eq_ok {v : Value} {w : Nat} (h : (rawOf v).run s = .ok w t) :
    w = storedWord s.ptrBytes v ∧ t = s := by
  cases v with
  | int n =>
      obtain ⟨rfl, rfl⟩ := run_pure_eq_ok.mp h
      exact ⟨rfl, rfl⟩
  | ptr p =>
      simp only [rawOf] at h
      rw [run_get_bind] at h
      obtain ⟨henc, rfl⟩ := run_faultOf_eq_ok.mp h
      simp only [storedWord, henc, and_self]

theorem run_mapM_rawOf_eq_ok {vs : List Value} {ws : List Nat} (h : (vs.mapM rawOf).run s = .ok ws t) :
    ws = vs.map (storedWord s.ptrBytes) ∧ t = s := by
  induction vs generalizing ws t with
  | nil =>
      obtain ⟨rfl, rfl⟩ := run_pure_eq_ok.mp h
      exact ⟨rfl, rfl⟩
  | cons v vs ih =>
      rw [List.mapM_cons] at h
      obtain ⟨w, u, hw, h⟩ := run_bind_eq_ok.mp h
      obtain ⟨rfl, rfl⟩ := run_rawOf_eq_ok hw
      obtain ⟨ws', u', hws, h⟩ := run_bind_eq_ok.mp h
      obtain ⟨rfl, rfl⟩ := ih hws
      obtain ⟨rfl, rfl⟩ := run_pure_eq_ok.mp h
      exact ⟨rfl, rfl⟩

/-- Appending output reads the count; a record that would pass the capacity is dropped with the
machine as it was, and one that fits is written after the bytes used, then the count moved past
it. -/
theorem run_appendOutput_eq_ok {buf pos : Pointer} {cap : Nat} {vs : List Value}
    (h : (appendOutput buf pos cap vs).run s = .ok () t) :
    ∃ used, s.wordAt? pos 4 = some used ∧
      (cap < used + (outputRecord s.ptrBytes vs).length ∧ t = s ∨
        used + (outputRecord s.ptrBytes vs).length ≤ cap ∧ ∃ u,
          (writeBytes (buf.add used) (ByteArray.mk (outputRecord s.ptrBytes vs).toArray)).run s = .ok () u ∧
          (writeBytes pos (ByteArray.mk (Bytes.littleEndian (used + (outputRecord s.ptrBytes vs).length) 4).toArray)).run u =
            .ok () t) := by
  unfold appendOutput at h
  obtain ⟨used, u, hread, hrest⟩ := run_bind_eq_ok.mp h
  obtain ⟨hu, hused⟩ := run_readWord_eq_ok.mp hread
  refine ⟨used, hused, ?_⟩
  rw [hu] at hrest
  dsimp only at hrest
  split at hrest
  · rename_i hover
    obtain ⟨-, rfl⟩ := run_pure_eq_ok.mp hrest
    exact .inl ⟨by simpa using hover, rfl⟩
  · rename_i hfit
    obtain ⟨ws, u, hws, h⟩ := run_bind_eq_ok.mp hrest
    obtain ⟨rfl, hu⟩ := run_mapM_rawOf_eq_ok hws
    rw [hu] at h
    obtain ⟨_, u, h₁, h₂⟩ := run_bind_eq_ok.mp h
    have hrec : Bytes.littleEndian vs.length 4 ++ (vs.map (storedWord s.ptrBytes)).flatMap
        (fun w => Bytes.littleEndian w 8) = outputRecord s.ptrBytes vs := by
      simp [outputRecord, List.flatMap_map]
    refine .inr ⟨by simp only [length_outputRecord]; omega, u, ?_, ?_⟩
    · rwa [hrec] at h₁
    · simpa only [length_outputRecord] using h₂

/-! ## The output buffer and what it holds -/

/-- A device-side output buffer as printfs name it: the buffer records go to, the word counting the
bytes used, and the capacity. The capacity fits the 4-byte count, the buffer's bytes lie at word
offsets, and the count lies apart from them. -/
structure OutputBuffer where
  buffer : Pointer
  position : Pointer
  capacity : Nat
  capacity_lt : capacity < 2 ^ 32
  within_word : buffer.offset + capacity ≤ Word.max
  apart : position.region ≠ buffer.region ∨ position.offset + 4 ≤ buffer.offset ∨
    buffer.offset + capacity ≤ position.offset

/-- A log with a record appended when it fits within the capacity; a record that does not fit is
dropped. -/
def appendIfFits (capacity : Nat) (log record : List UInt8) : List UInt8 :=
  if log.length + record.length ≤ capacity then log ++ record else log

/-- The log a sequence of records leaves in an empty buffer, each appended when it fits. -/
def outputLog (capacity : Nat) (records : List (List UInt8)) : List UInt8 :=
  records.foldl (appendIfFits capacity) []

theorem outputLog_concat (capacity : Nat) (records : List (List UInt8)) (record : List UInt8) :
    outputLog capacity (records ++ [record]) = appendIfFits capacity (outputLog capacity records) record := by
  simp only [outputLog, List.foldl_append, List.foldl_cons, List.foldl_nil]

/-- The machine `m` holds the records `log` in the output buffer: the count reads the length of the
log, within the capacity, and the buffer's region has room for the capacity and starts with the
log. -/
structure OutputHolds (m : Machine) (o : OutputBuffer) (log : List UInt8) : Prop where
  count : m.wordAt? o.position 4 = some log.length
  within : log.length ≤ o.capacity
  buffer : ∃ r, m.regions[o.buffer.region]? = some r ∧ o.buffer.offset + o.capacity ≤ r.size ∧
    (r.read o.buffer.offset log.length).toList = log

/-- From `u` to `t` nothing touched the output buffer or its count: the pointer width is the same,
the count reads the same, and the buffer's region keeps its size and its bytes over the capacity. -/
structure Untouched (o : OutputBuffer) (u t : Machine) : Prop where
  ptrBytes : t.ptrBytes = u.ptrBytes
  count : t.wordAt? o.position 4 = u.wordAt? o.position 4
  buffer : ∀ r, u.regions[o.buffer.region]? = some r → ∃ r', t.regions[o.buffer.region]? = some r' ∧
    r'.size = r.size ∧ Bytes.slice r'.stored o.buffer.offset o.capacity = Bytes.slice r.stored o.buffer.offset o.capacity

namespace OutputBuffer

variable (o : OutputBuffer)

/-- The buffer moved by at most its capacity does not wrap. -/
theorem offset_add {n : Nat} (hn : n ≤ o.capacity) : (o.buffer.add n).offset = o.buffer.offset + n := by
  have := o.within_word
  simp only [Pointer.add, Word.wrappingAdd]
  exact Nat.mod_eq_of_lt (by unfold Word.max at this; unfold Word.size; omega)

end OutputBuffer

theorem Untouched.of_regions_eq {o : OutputBuffer} {u t : Machine} (hr : t.regions = u.regions)
    (hp : t.ptrBytes = u.ptrBytes) : Untouched o u t where
  ptrBytes := hp
  count := by rw [wordAt?_congr hr]
  buffer r h := ⟨r, hr ▸ h, rfl, rfl⟩

namespace OutputHolds

variable {o : OutputBuffer} {log : List UInt8} {u : Machine}

/-- A buffer with room for its capacity holds no record while its count reads zero. -/
theorem empty (hcount : s.wordAt? o.position 4 = some 0)
    (hroom : ∃ r, s.regions[o.buffer.region]? = some r ∧ o.buffer.offset + o.capacity ≤ r.size) :
    OutputHolds s o [] where
  count := hcount
  within := Nat.zero_le _
  buffer := by
    obtain ⟨r, hr, hroom⟩ := hroom
    exact ⟨r, hr, hroom, by rw [Region.toList_read]; rfl⟩

/-- Steps that touch neither the buffer nor its count keep what the buffer holds. -/
theorem of_untouched (hs : OutputHolds u o log) (hq : Untouched o u t) : OutputHolds t o log where
  count := hq.count.trans hs.count
  within := hs.within
  buffer := by
    obtain ⟨r, hr, hroom, hlog⟩ := hs.buffer
    obtain ⟨r', hr', hsize, hslice⟩ := hq.buffer r hr
    refine ⟨r', hr', hsize ▸ hroom, ?_⟩
    rw [Region.toList_read] at hlog ⊢
    rw [← Bytes.take_slice _ _ hs.within, hslice, Bytes.take_slice _ _ hs.within, hlog]

/-- Writing a record that fits after the bytes used, then the count moved past it, appends the
record to the log. -/
theorem append {record : List UInt8} (hs : OutputHolds s o log) (hfit : log.length + record.length ≤ o.capacity)
    (h₁ : (writeBytes (o.buffer.add log.length) ⟨record.toArray⟩).run s = .ok () u)
    (h₂ : (writeBytes o.position ⟨(Bytes.littleEndian (log.length + record.length) 4).toArray⟩).run u = .ok () t) :
    OutputHolds t o (log ++ record) := by
  obtain ⟨rb, hrb, hroom, hlog⟩ := hs.buffer
  obtain ⟨rp, hrp, hpfit, -⟩ := (wordAt?_eq_some (by decide)).mp hs.count
  rw [Region.toList_read] at hlog
  have hadd := o.offset_add (le_trans (Nat.le_add_right _ _) hfit)
  have hsize₁ : (ByteArray.mk record.toArray).size = record.length := by simp [ByteArray.size]
  have hsize₂ : (ByteArray.mk (Bytes.littleEndian (log.length + record.length) 4).toArray).size = 4 := by
    simp [ByteArray.size]
  obtain ⟨-, -, frame₁⟩ := run_writeBytes_frame h₁
  obtain ⟨-, -, frame₂⟩ := run_writeBytes_frame h₂
  rw [hsize₁, hadd] at frame₁
  rw [hsize₂] at frame₂
  -- the record lands after the log, apart from the count
  obtain ⟨rb₁, hrb₁, hsb₁, hrec₁, hkeep₁⟩ := frame₁ _ rb hrb
  obtain ⟨rp₁, hrp₁, hsp₁, -, -⟩ := frame₁ _ rp hrp
  -- the count lands apart from the buffer
  obtain ⟨rb₂, hrb₂, hsb₂, -, hkeep₂⟩ := frame₂ _ rb₁ hrb₁
  obtain ⟨rp₂, hrp₂, hsp₂, hcount₂, -⟩ := frame₂ _ rp₁ hrp₁
  have happart := o.apart
  refine ⟨?_, by simpa using hfit, rb₂, hrb₂, by omega, ?_⟩
  · rw [wordAt?_eq_some (by decide)]
    refine ⟨rp₂, hrp₂, ⟨hpfit.1, by omega⟩, ?_⟩
    rw [hcount₂ rfl, Bytes.toList_mk, Bytes.ofLittleEndian_littleEndian, List.length_append]
    exact Nat.mod_eq_of_lt (by have := o.capacity_lt; omega)
  · rw [Region.toList_read, List.length_append, hkeep₂ _ _ (by omega), Bytes.slice_add,
      hkeep₁ _ _ (.inr (.inl (by omega))), hlog, hrec₁ rfl, Bytes.toList_mk]

/-- A printf through the buffer appends its event, keeps the pointer width, and appends its record
to the log when it fits; a record that does not fit leaves the regions as they were. -/
theorem printf {callFn : String → List Value → Exec (Option Value)} {fr : Frame} {fmt : String}
    {args : List Operand} {b p c : Operand} {res : Flow × Frame} (hs : OutputHolds s o log)
    (hb : fr.value? b = some (.ptr o.buffer)) (hp : fr.value? p = some (.ptr o.position))
    (hc : fr.value? c = some (.int o.capacity))
    (h : (inst callFn fr (.printf fmt args (some (b, p, c)))).run s = .ok res t) :
    ∃ vs, args.mapM fr.value? = some vs ∧ t.events = s.events.push (.printf fmt vs) ∧ t.ptrBytes = s.ptrBytes ∧
      OutputHolds t o (appendIfFits o.capacity log (outputRecord s.ptrBytes vs)) ∧
      (o.capacity < log.length + (outputRecord s.ptrBytes vs).length → t.regions = s.regions) := by
  simp only [inst] at h
  obtain ⟨vs, u, hvs, h⟩ := run_bind_eq_ok.mp h
  obtain ⟨hvs, hu⟩ := Frame.run_mapM_eval_eq_ok.mp hvs
  rw [hu] at h
  -- the three operands of the triple read the buffer, the count and the capacity
  obtain ⟨bp, u, hbp, h⟩ := run_bind_eq_ok.mp h
  obtain ⟨hbp, hu⟩ := Frame.run_pointer_eq_ok.mp hbp
  rw [hu] at h
  obtain ⟨pp, u, hpp, h⟩ := run_bind_eq_ok.mp h
  obtain ⟨hpp, hu⟩ := Frame.run_pointer_eq_ok.mp hpp
  rw [hu] at h
  obtain ⟨cap, u, hcap, h⟩ := run_bind_eq_ok.mp h
  obtain ⟨hcap, hu⟩ := Frame.run_int_eq_ok.mp hcap
  rw [hu] at h
  obtain rfl : bp = o.buffer := Value.ptr.inj (Option.some.inj (hbp.symm.trans hb))
  obtain rfl : pp = o.position := Value.ptr.inj (Option.some.inj (hpp.symm.trans hp))
  obtain rfl : cap = o.capacity := Value.int.inj (Option.some.inj (hcap.symm.trans hc))
  obtain ⟨_, u, happ, h⟩ := run_bind_eq_ok.mp h
  obtain ⟨_, u', hrec, h⟩ := run_bind_eq_ok.mp h
  rw [run_record, EStateM.Result.ok.injEq] at hrec
  obtain ⟨-, rfl⟩ := hrec
  obtain ⟨-, rfl⟩ := run_pure_eq_ok.mp h
  obtain ⟨used, hused, hdrop | ⟨hfit, u₁, h₁, h₂⟩⟩ := run_appendOutput_eq_ok happ
  · -- the record does not fit: the buffer, the count and the regions are as they were
    obtain ⟨hover, hsame⟩ := hdrop
    subst u
    obtain rfl : used = log.length := Option.some.inj (hused.symm.trans hs.count)
    refine ⟨vs, hvs, rfl, rfl, ?_, fun _ => rfl⟩
    rw [appendIfFits, if_neg (by omega)]
    exact hs.of_untouched (Untouched.of_regions_eq rfl rfl)
  · obtain rfl : used = log.length := Option.some.inj (hused.symm.trans hs.count)
    obtain ⟨hev₁, hptr₁, -⟩ := run_writeBytes_frame h₁
    obtain ⟨hev₂, hptr₂, -⟩ := run_writeBytes_frame h₂
    refine ⟨vs, hvs, by rw [hev₂, hev₁], hptr₂.trans hptr₁, ?_, fun hover => absurd hfit (by omega)⟩
    rw [appendIfFits, if_pos hfit]
    exact (hs.append hfit h₁ h₂).of_untouched (Untouched.of_regions_eq rfl rfl)

end OutputHolds

/-! ## Runs through one output buffer -/

/-- A run from `s` through the output buffer `o`: printfs through the buffer, whose argument lists
`vss` are in the order they ran, between steps that touch neither the buffer nor its count. -/
inductive OutputRun (o : OutputBuffer) (s : Machine) : List (List Value) → Machine → Prop where
  | start : OutputRun o s [] s
  | quiet {vss : List (List Value)} {u t : Machine} : OutputRun o s vss u → Untouched o u t → OutputRun o s vss t
  | printf {vss : List (List Value)} {u t : Machine} {callFn : String → List Value → Exec (Option Value)}
      {fr : Frame} {fmt : String} {args : List Operand} {b p c : Operand} {vs : List Value} {res : Flow × Frame} :
      OutputRun o s vss u → fr.value? b = some (.ptr o.buffer) → fr.value? p = some (.ptr o.position) →
      fr.value? c = some (.int o.capacity) → args.mapM fr.value? = some vs →
      (inst callFn fr (.printf fmt args (some (b, p, c)))).run u = .ok res t → OutputRun o s (vss ++ [vs]) t

/-- Over a run started with the buffer empty, the buffer holds the records of the printfs that
fitted, in the order they ran. -/
theorem OutputRun.holds {o : OutputBuffer} {vss : List (List Value)} (hs : OutputHolds s o [])
    (hrun : OutputRun o s vss t) :
    t.ptrBytes = s.ptrBytes ∧ OutputHolds t o (outputLog o.capacity (vss.map (outputRecord s.ptrBytes))) := by
  -- induction on the run; `OutputHolds.printf` carries the log over one printf
  induction hrun with
  | start => exact ⟨rfl, hs⟩
  | quiet _ hq ih => exact ⟨hq.ptrBytes.trans ih.1, ih.2.of_untouched hq⟩
  | printf _ hb hp hc hvs h ih =>
      obtain ⟨vs', hvs', -, hptr, hholds, -⟩ := ih.2.printf hb hp hc h
      obtain rfl := Option.some.inj (hvs'.symm.trans hvs)
      refine ⟨hptr.trans ih.1, ?_⟩
      rw [List.map_append, List.map_singleton, outputLog_concat]
      rwa [ih.1] at hholds

/-- The harness's output buffer starts empty: a buffer of capacity below `2 ^ 32` and its count,
as attached, form an output buffer holding no record. -/
theorem attachOutput_holds {h : Harness} {v v' : ContextValues} {capacity : Nat} {buf pos : Pointer}
    (hcap : capacity < 2 ^ 32) (hrun : (h.attachOutput v capacity).run s = .ok (v', buf, pos) t) :
    ∃ o : OutputBuffer, o.buffer = buf ∧ o.position = pos ∧ o.capacity = capacity ∧ OutputHolds t o [] := by
  unfold Harness.attachOutput at hrun
  dsimp only at hrun
  -- two allocations, a look at the pointer width, two encodings that change nothing
  obtain ⟨bp, u₁, h₁, hrun⟩ := run_bind_eq_ok.mp hrun
  rw [alloc, run_allocRegion, EStateM.Result.ok.injEq] at h₁
  obtain ⟨rfl, rfl⟩ := h₁
  obtain ⟨pp, u₂, h₂, hrun⟩ := run_bind_eq_ok.mp hrun
  rw [alloc, run_allocRegion, EStateM.Result.ok.injEq] at h₂
  obtain ⟨rfl, rfl⟩ := h₂
  rw [run_get_bind] at hrun
  obtain ⟨_, u₄, h₄, hrun⟩ := run_bind_eq_ok.mp hrun
  obtain ⟨-, rfl⟩ := run_faultOf_eq_ok.mp h₄
  obtain ⟨_, u₅, h₅, hrun⟩ := run_bind_eq_ok.mp hrun
  obtain ⟨-, rfl⟩ := run_faultOf_eq_ok.mp h₅
  obtain ⟨hres, rfl⟩ := run_pure_eq_ok.mp hrun
  simp only [Prod.mk.injEq] at hres
  obtain ⟨-, rfl, rfl⟩ := hres
  have hword : capacity ≤ Word.max := by unfold Word.max; omega
  refine ⟨⟨_, _, capacity, hcap, by simpa using hword, .inl (by simp)⟩, rfl, rfl, rfl, OutputHolds.empty ?_ ?_⟩
  · rw [wordAt?_eq_some (by decide)]
    exact ⟨Region.zeroed h.cfg.addressSpaces.globalSpace 4, by simp [Array.getElem_push], ⟨by simp [Word.max], by simp [Region.zeroed]⟩, rfl⟩
  · exact ⟨Region.zeroed h.cfg.addressSpaces.globalSpace capacity, by simp [Array.getElem_push], by simp [Region.zeroed]⟩

/-- Printfs through one output buffer whose count starts at zero: after every run, the count reads
the length of the records of the printfs that fitted, in the order they ran, within the capacity,
and the buffer starts with those records; a printf appends its event, and one whose record does
not fit changes no region. -/
theorem output_buffer_holds_fitted_records (o : OutputBuffer) {s : Machine} (hcount : s.wordAt? o.position 4 = some 0)
    (hroom : ∃ r, s.regions[o.buffer.region]? = some r ∧ o.buffer.offset + o.capacity ≤ r.size) :
    (∀ vss t, OutputRun o s vss t → OutputHolds t o (outputLog o.capacity (vss.map (outputRecord s.ptrBytes)))) ∧
    ∀ (vss : List (List Value)) (u : Machine) (callFn : String → List Value → Exec (Option Value)) (fr : Frame)
      (fmt : String) (args : List Operand) (b p c : Operand) (res : Flow × Frame) (t : Machine),
      OutputRun o s vss u → fr.value? b = some (.ptr o.buffer) → fr.value? p = some (.ptr o.position) →
      fr.value? c = some (.int o.capacity) → (inst callFn fr (.printf fmt args (some (b, p, c)))).run u = .ok res t →
      ∃ vs, args.mapM fr.value? = some vs ∧ t.events = u.events.push (.printf fmt vs) ∧
        (o.capacity < (outputLog o.capacity (vss.map (outputRecord s.ptrBytes))).length + 4 + 8 * vs.length →
          t.regions = u.regions) := by
  have hs := OutputHolds.empty hcount hroom
  refine ⟨fun vss t hrun => (hrun.holds hs).2, ?_⟩
  intro vss u callFn fr fmt args b p c res t hrun hb hp hc h
  obtain ⟨-, hu⟩ := hrun.holds hs
  obtain ⟨vs, hvs, hev, -, -, hdrop⟩ := hu.printf hb hp hc h
  refine ⟨vs, hvs, hev, fun hover => hdrop ?_⟩
  rw [length_outputRecord]
  omega

theorem output_buffer_holds_fitted_records_two_regions :
    let o : OutputBuffer := ⟨⟨0, 0⟩, ⟨1, 0⟩, 64, by decide, by decide, .inl (by decide)⟩
    let s : Machine :=
      { Machine.create ⟨"m", [], []⟩ DeviceConfig.cpu with regions := #[Region.zeroed 0 64, Region.zeroed 0 4] }
    s.wordAt? o.position 4 = some 0 ∧
      (∃ r, s.regions[o.buffer.region]? = some r ∧ o.buffer.offset + o.capacity ≤ r.size) ∧
      ∀ vss t, OutputRun o s vss t → OutputHolds t o (outputLog o.capacity (vss.map (outputRecord s.ptrBytes))) := by
  intro o s
  have hcount : s.wordAt? o.position 4 = some 0 := by decide
  have hroom : ∃ r, s.regions[o.buffer.region]? = some r ∧ o.buffer.offset + o.capacity ≤ r.size :=
    ⟨_, rfl, by decide⟩
  exact ⟨hcount, hroom, (output_buffer_holds_fitted_records o hcount hroom).1⟩

end Machine

end KernelLaunch
