import KernelLaunch.Proofs.Interp.Exec
import KernelLaunch.Proofs.Bytes.Words
/-!
# Memory

A region stores the bytes written into it and reads zeros past them; `Region.slice_read` says so
byte by byte. `Machine.wordAt?` is the word a read of a given width at a pointer answers, when
the access stays inside its region, and `run_readWord_eq_ok` and `run_loadValue_int_eq_ok` say
that the interpreter's reads answer exactly that word and change nothing. The word at a pointer
depends on the regions only, so steps that keep the regions keep every word
(`wordAt?_congr`).

Unpacking the arguments of a launch and writing its context only add regions: `Grows s t` says
that `t` is `s` with regions added, and a grown machine has the words of the regions it had
(`Grows.wordAt?`).
-/

namespace KernelLaunch

namespace Region

@[simp]
theorem size_read (r : Region) (off len : Nat) : (r.read off len).size = len := by
  simp only [read, ByteArray.size_append, Bytes.size_zeros, ByteArray.size_extract]
  omega

/-- A read of a region sees its stored bytes, and zeros past them. -/
theorem slice_read (r : Region) (off len : Nat) :
    Bytes.slice (r.read off len) 0 len = Bytes.slice r.stored off len := by
  apply List.ext_getElem (by simp)
  intro i h₁ h₂
  simp only [Bytes.length_slice] at h₁
  rw [Bytes.getElem_slice, Bytes.getElem_slice, Nat.zero_add, read, Bytes.getElem!_append,
    Bytes.getElem!_extract, ByteArray.size_extract]
  split
  · rw [if_pos (by omega)]
  · -- past the stored bytes both sides read zero
    rw [Bytes.getElem!_zeros, getElem!_neg r.stored (off + i) (by omega)]
    rfl

end Region

namespace Machine

/-- The word of width `w` at a pointer, when the access stays inside its region. -/
def wordAt? (m : Machine) (p : Pointer) (w : Nat) : Option Nat :=
  match m.regions[p.region]? with
  | some r =>
      if p.offset + w ≤ Word.max ∧ p.offset + w ≤ r.size then (Bytes.readWord (r.read p.offset w) 0 w).toOption
      else none
  | none => none

variable {s t : Machine}

/-- The words of memory are those of its regions. -/
theorem wordAt?_congr {m m' : Machine} (h : m.regions = m'.regions) : m.wordAt? = m'.wordAt? := by
  funext p w
  simp only [wordAt?, h]

/-- An access check succeeds exactly on an access inside a region, answers that region, and
changes nothing. -/
theorem run_bounds_eq_ok {p : Pointer} {len : Nat} {r : Region} :
    (bounds p len).run s = .ok r t ↔
      t = s ∧ s.regions[p.region]? = some r ∧ p.offset + len ≤ Word.max ∧ p.offset + len ≤ r.size := by
  unfold bounds
  rw [EStateM.run_bind, EStateM.run_get]
  cases hr : s.regions[p.region]? with
  | none =>
      simp only [hr]
      constructor
      · intro h
        cases h
      · rintro ⟨-, h, -⟩
        cases h
  | some r' =>
      simp only [hr, Option.some.injEq]
      by_cases hfit : p.offset + len ≤ Word.max ∧ p.offset + len ≤ r'.size
      · have hb : (decide (p.offset + len ≤ Word.max) && decide (p.offset + len ≤ r'.size)) = true := by
          simp [hfit.1, hfit.2]
        simp only [hb, if_true]
        change EStateM.Result.ok r' s = .ok r t ↔ _
        rw [EStateM.Result.ok.injEq]
        constructor
        · rintro ⟨rfl, rfl⟩
          exact ⟨rfl, rfl, hfit⟩
        · rintro ⟨rfl, rfl, -⟩
          exact ⟨rfl, rfl⟩
      · have hb : (decide (p.offset + len ≤ Word.max) && decide (p.offset + len ≤ r'.size)) = false := by
          simpa using hfit
        simp only [hb, Bool.false_eq_true, if_false]
        constructor
        · intro h
          cases h
        · rintro ⟨-, rfl, h₁, h₂⟩
          exact absurd ⟨h₁, h₂⟩ hfit

/-- A read of bytes succeeds exactly inside a region, answers the region's bytes there, and
changes nothing. -/
theorem run_readBytes_eq_ok {p : Pointer} {len : Nat} {bs : ByteArray} :
    (readBytes p len).run s = .ok bs t ↔
      t = s ∧ ∃ r, s.regions[p.region]? = some r ∧ p.offset + len ≤ Word.max ∧ p.offset + len ≤ r.size ∧
        bs = r.read p.offset len := by
  unfold readBytes
  rw [run_bind_eq_ok]
  constructor
  · rintro ⟨r, u, hb, hp⟩
    obtain ⟨rfl, hr, hfit⟩ := run_bounds_eq_ok.mp hb
    obtain ⟨rfl, rfl⟩ := run_pure_eq_ok.mp hp
    exact ⟨rfl, r, hr, hfit.1, hfit.2, rfl⟩
  · rintro ⟨rfl, r, hr, h₁, h₂, rfl⟩
    exact ⟨r, t, run_bounds_eq_ok.mpr ⟨rfl, hr, h₁, h₂⟩, run_pure_eq_ok.mpr ⟨rfl, rfl⟩⟩

/-- A read of a word answers exactly the word at the pointer, and changes nothing. -/
theorem run_readWord_eq_ok {p : Pointer} {w n : Nat} :
    (readWord p w).run s = .ok n t ↔ t = s ∧ s.wordAt? p w = some n := by
  unfold readWord
  rw [run_bind_eq_ok]
  constructor
  · rintro ⟨bs, u, hread, hword⟩
    obtain ⟨rfl, r, hr, h₁, h₂, rfl⟩ := run_readBytes_eq_ok.mp hread
    obtain ⟨hw, rfl⟩ := run_faultOf_eq_ok.mp hword
    refine ⟨rfl, ?_⟩
    simp [wordAt?, hr, h₁, h₂, hw, Except.toOption]
  · rintro ⟨rfl, hw⟩
    unfold wordAt? at hw
    split at hw
    · rename_i r hr
      split at hw
      · rename_i hfit
        refine ⟨r.read p.offset w, t, run_readBytes_eq_ok.mpr ⟨rfl, r, hr, hfit.1, hfit.2, rfl⟩, ?_⟩
        apply run_faultOf_eq_ok.mpr
        cases hread : Bytes.readWord (r.read p.offset w) 0 w with
        | error e => simp [hread, Except.toOption] at hw
        | ok k =>
            simp only [hread, Except.toOption, Option.some.injEq] at hw
            exact ⟨by rw [hw], rfl⟩
      · cases hw
    · cases hw

/-- A load of a word type answers the word at the pointer, and changes nothing. -/
theorem run_loadValue_int_eq_ok {fname : String} {ty : Ty} {p : Pointer} {v : Value}
    (hagg : ty.isAggregate = false) (hptr : ty.pointerSpace = none) :
    (loadValue fname ty p).run s = .ok v t ↔
      t = s ∧ ∃ n, s.wordAt? p (ty.size s.ptrBytes) = some n ∧ v = .int n := by
  unfold loadValue
  simp only [hagg, Bool.false_eq_true, if_false]
  rw [run_get_bind]
  constructor
  · intro h
    obtain ⟨raw, u₂, hraw, hret⟩ := run_bind_eq_ok.mp h
    obtain ⟨rfl, hword⟩ := run_readWord_eq_ok.mp hraw
    -- the load's type is no pointer, so the stored word is the value
    split at hret
    · simp [Ty.pointerSpace] at hptr
    · obtain ⟨rfl, rfl⟩ := run_pure_eq_ok.mp hret
      exact ⟨rfl, raw, hword, rfl⟩
  · rintro ⟨rfl, n, hword, rfl⟩
    rw [run_bind_eq_ok]
    refine ⟨n, t, run_readWord_eq_ok.mpr ⟨rfl, hword⟩, ?_⟩
    split
    · simp [Ty.pointerSpace] at hptr
    · exact run_pure_eq_ok.mpr ⟨rfl, rfl⟩

/-- The value a load of a type answers for the word it read: a pointer type decodes the word,
zero and untagged words giving the word zero, and any other type answers the word. -/
def valueOfWord (ptrBytes : Nat) (ty : Ty) (raw : Nat) : Value :=
  match ty with
  | .ptr _ => match decodePtr ptrBytes raw with
    | some q => .ptr q
    | none => .int 0
  | _ => .int raw

/-- A load of a type that is no aggregate answers the value of the word at the pointer, and
changes nothing. -/
theorem run_loadValue_eq_ok {fname : String} {ty : Ty} {p : Pointer} {v : Value}
    (hagg : ty.isAggregate = false) (h : (loadValue fname ty p).run s = .ok v t) :
    t = s ∧ ∃ n, s.wordAt? p (ty.size s.ptrBytes) = some n ∧ v = valueOfWord s.ptrBytes ty n := by
  unfold loadValue at h
  simp only [hagg, Bool.false_eq_true, if_false] at h
  rw [run_get_bind] at h
  obtain ⟨raw, u₂, hraw, hret⟩ := run_bind_eq_ok.mp h
  obtain ⟨rfl, hword⟩ := run_readWord_eq_ok.mp hraw
  -- the type picks how the word is read
  cases ty
  case array => simp [Ty.isAggregate] at hagg
  case struct => simp [Ty.isAggregate] at hagg
  all_goals
    obtain ⟨rfl, rfl⟩ := run_pure_eq_ok.mp hret
    exact ⟨rfl, raw, hword, rfl⟩

/-- The word at a pointer into a region that holds exactly some bytes is the word of those
bytes, for a field inside them. -/
theorem wordAt?_ofBytes {m : Machine} {k off w space : Nat} {bytes : ByteArray}
    (hr : m.regions[k]? = some (Region.ofBytes space bytes)) (hw : w ∈ [1, 2, 4, 8])
    (hmax : off + w ≤ Word.max) (hsize : off + w ≤ bytes.size) :
    m.wordAt? ⟨k, off⟩ w = (Bytes.readWord bytes off w).toOption := by
  have hread : Bytes.readWord ((Region.ofBytes space bytes).read off w) 0 w =
      .ok (Bytes.ofLittleEndian (Bytes.slice ((Region.ofBytes space bytes).read off w) 0 w)) :=
    Bytes.readWord_eq_ok hw ⟨by omega, by simp⟩
  simp only [wordAt?, hr]
  rw [if_pos ⟨hmax, by simpa [Region.ofBytes] using hsize⟩, hread, Bytes.readWord_eq_ok hw ⟨hmax, hsize⟩,
    Region.slice_read]
  rfl

end Machine

namespace Frame

/-- Reading a pointer operand succeeds exactly with its pointer, and changes nothing. -/
theorem run_pointer_eq_ok {fr : Frame} {o : Operand} {s t : Machine} {q : Pointer} :
    (fr.pointer o).run s = .ok q t ↔ fr.value? o = some (.ptr q) ∧ t = s := by
  simp only [Frame.pointer]
  constructor
  · intro h
    obtain ⟨x, u, hrun, h⟩ := Machine.run_bind_eq_ok.mp h
    obtain ⟨hx, rfl⟩ := Frame.run_eval_eq_ok.mp hrun
    cases x with
    | ptr p =>
        obtain ⟨rfl, rfl⟩ := Machine.run_pure_eq_ok.mp h
        exact ⟨hx, rfl⟩
    | int k => cases h
  · rintro ⟨hv, rfl⟩
    rw [Machine.run_bind_eq_ok]
    exact ⟨.ptr q, t, Frame.run_eval hv t, rfl⟩

end Frame

namespace Machine

variable {callFn : String → List Value → Exec (Option Value)} {fr : Frame} {s t : Machine}
  {res : Flow × Frame}

/-- A load reads the pointer operand, loads from it moved by the offset, and sets the
destination register. -/
theorem run_inst_load_eq_ok {d : Nat} {ty : Ty} {src : Operand} {off : Nat} {rng : Option ValueRange}
    (h : (inst callFn fr (.load d ty src off rng)).run s = .ok res t) :
    ∃ q v, fr.value? src = some (.ptr q) ∧ (loadValue fr.func.name ty (q.add off)).run s = .ok v t ∧
      res = (.next, fr.bind d v) := by
  simp only [inst] at h
  obtain ⟨q, u, hq, hload⟩ := run_bind_eq_ok.mp h
  obtain ⟨hqv, rfl⟩ := Frame.run_pointer_eq_ok.mp hq
  obtain ⟨v, u', hv, hret⟩ := run_bind_eq_ok.mp hload
  obtain ⟨rfl, rfl⟩ := run_pure_eq_ok.mp hret
  exact ⟨q, v, hqv, hv, rfl⟩

variable {u : Machine}

/-- The machine `t` is `s` with regions added after its own: the host's part, the events and every
region of `s` are as they were. Unpacking arguments and writing the context grow the machine. -/
structure Grows (s t : Machine) : Prop where
  module : t.module = s.module
  ptrBytes : t.ptrBytes = s.ptrBytes
  localId : t.localId = s.localId
  events : t.events = s.events
  size : s.regions.size ≤ t.regions.size
  regions : ∀ k < s.regions.size, t.regions[k]? = s.regions[k]?

namespace Grows

theorem refl (s : Machine) : Grows s s := ⟨rfl, rfl, rfl, rfl, le_refl _, fun _ _ => rfl⟩

theorem trans (h₁ : Grows s u) (h₂ : Grows u t) : Grows s t :=
  ⟨h₂.module.trans h₁.module, h₂.ptrBytes.trans h₁.ptrBytes, h₂.localId.trans h₁.localId,
    h₂.events.trans h₁.events, h₁.size.trans h₂.size,
    fun k hk => (h₂.regions k (Nat.lt_of_lt_of_le hk h₁.size)).trans (h₁.regions k hk)⟩

/-- A step that changes neither the regions nor what the host sets grows nothing. -/
theorem of_regions_eq (hm : t.module = s.module) (hp : t.ptrBytes = s.ptrBytes)
    (hl : t.localId = s.localId) (he : t.events = s.events) (hr : t.regions = s.regions) : Grows s t :=
  ⟨hm, hp, hl, he, hr ▸ le_refl _, fun _ _ => by rw [hr]⟩

/-- A new region grows the machine. -/
theorem push (s : Machine) (r : Region) : Grows s { s with regions := s.regions.push r } :=
  ⟨rfl, rfl, rfl, rfl, by simp, fun k hk => by simp [Array.getElem?_push, Nat.ne_of_lt hk]⟩

/-- A write into a region added since `s` keeps the machine grown from `s`. -/
theorem set (h : Grows s u) {k : Nat} (hk : s.regions.size ≤ k) (r : Region) :
    Grows s { u with regions := u.regions.set! k r } :=
  ⟨h.module, h.ptrBytes, h.localId, h.events, by simpa using h.size, fun j hj => by
    rw [← h.regions j hj]
    rw [Array.set!_eq_setIfInBounds, Array.getElem?_setIfInBounds_ne (Nat.ne_of_lt (Nat.lt_of_lt_of_le hj hk)).symm]⟩

/-- A grown machine has the words of the regions it had. -/
theorem wordAt? (h : Grows s t) {p : Pointer} (hp : p.region < s.regions.size) (w : Nat) :
    t.wordAt? p w = s.wordAt? p w := by
  simp only [Machine.wordAt?, h.regions p.region hp]

end Grows

/-- A load changes nothing. -/
theorem state_of_run_loadValue {fname : String} {ty : Ty} {p : Pointer} {v : Value}
    (h : (loadValue fname ty p).run s = .ok v t) : t = s := by
  unfold loadValue at h
  dsimp only at h
  split at h
  · obtain ⟨_, _, h, -⟩ := run_bind_eq_ok.mp h
    exact absurd h run_stop_ne_ok
  · rw [run_get_bind] at h
    obtain ⟨raw, u₂, hraw, hret⟩ := run_bind_eq_ok.mp h
    obtain ⟨rfl, -⟩ := run_readWord_eq_ok.mp hraw
    split at hret <;> exact (run_pure_eq_ok.mp hret).2.symm

/-- A write succeeds only inside a region, and writes the bytes into it. -/
theorem run_writeBytes_eq_ok {p : Pointer} {data : ByteArray} (h : (writeBytes p data).run s = .ok () t) :
    ∃ r, s.regions[p.region]? = some r ∧ t = { s with regions := s.regions.set! p.region (r.write p.offset data) } := by
  unfold writeBytes at h
  obtain ⟨r, u, hb, hset⟩ := run_bind_eq_ok.mp h
  obtain ⟨rfl, hr, -⟩ := run_bounds_eq_ok.mp hb
  cases hset
  exact ⟨r, hr, rfl⟩

/-- An allocation adds a zeroed region of the size its operand reads, and sets the destination to
a pointer to its start. -/
theorem run_inst_alloca_eq_ok {d sp al : Nat} {size : Operand}
    (h : (inst callFn fr (.alloca d sp size al)).run s = .ok res t) :
    ∃ n, fr.value? size = some (.int n) ∧ t = { s with regions := s.regions.push (Region.zeroed sp n) } ∧
      res = (.next, fr.bind d (.ptr ⟨s.regions.size, 0⟩)) := by
  simp only [inst] at h
  obtain ⟨n, u, hn, h₁⟩ := run_bind_eq_ok.mp h
  obtain ⟨hv, rfl⟩ := Frame.run_int_eq_ok.mp hn
  obtain ⟨q, u', hq, hret⟩ := run_bind_eq_ok.mp h₁
  cases hq
  obtain ⟨rfl, rfl⟩ := run_pure_eq_ok.mp hret
  exact ⟨n, hv, rfl, rfl⟩

/-- A copy reads the source moved by the offset and writes the bytes at the destination. -/
theorem run_inst_memcpy_eq_ok {dst src : Operand} {off len : Nat}
    (h : (inst callFn fr (.memcpy dst src off len)).run s = .ok res t) :
    ∃ dp sp data r, fr.value? dst = some (.ptr dp) ∧ fr.value? src = some (.ptr sp) ∧
      (readBytes (sp.add off) len).run s = .ok data s ∧ s.regions[dp.region]? = some r ∧
      t = { s with regions := s.regions.set! dp.region (r.write dp.offset data) } ∧ res = (.next, fr) := by
  simp only [inst] at h
  obtain ⟨dp, u, hd, h₁⟩ := run_bind_eq_ok.mp h
  obtain ⟨hdv, rfl⟩ := Frame.run_pointer_eq_ok.mp hd
  obtain ⟨sp', u₁, hs, h₂⟩ := run_bind_eq_ok.mp h₁
  obtain ⟨hsv, rfl⟩ := Frame.run_pointer_eq_ok.mp hs
  obtain ⟨data, u₂, hread, h₃⟩ := run_bind_eq_ok.mp h₂
  obtain ⟨rfl, -⟩ := run_readBytes_eq_ok.mp hread
  obtain ⟨_, u₃, hwrite, hret⟩ := run_bind_eq_ok.mp h₃
  obtain ⟨r, hr, rfl⟩ := run_writeBytes_eq_ok hwrite
  obtain ⟨rfl, rfl⟩ := run_pure_eq_ok.mp hret
  exact ⟨dp, sp', data, r, hdv, hsv, hread, hr, rfl, rfl⟩

end Machine

end KernelLaunch
