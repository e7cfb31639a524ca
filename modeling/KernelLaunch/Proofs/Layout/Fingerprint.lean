import KernelLaunch.Proofs.Layout.Rules
/-!
# What a layout's fingerprint pins down

A layout's fingerprint digests a byte string: a fixed tag, the text of each parameter's type
followed by `!` when it is passed by value and `;` otherwise, and six 32-bit device words. That
byte string is an injective encoding of everything computing a layout reads, apart from the
kernel's name (`fingerprintInput_inj`): the text of a type can be read back (`Ty.read_render`), so
the parameter part splits uniquely at its marks, and the fixed-width device words follow it.

Main statements: `compute_congr`, computing a layout answers the same for two kernels of one name
whose fingerprints digest the same byte string, and `eq_of_fingerprint_eq`, two layouts computed
for one kernel name with equal fingerprints are equal when the digest does not collide on the two
byte strings. The digest is not injective on all byte strings, so collision-freedom is assumed only
of the pair at hand.
-/

namespace KernelLaunch

namespace Ty

/-! ## Reading a type's text back -/

/-- What may follow a type's text where it is embedded: a field separator, a closing bracket, a
passing-mode mark, or nothing. -/
def Ends (s : List Char) : Prop := ∀ x ∈ s.head?, x = ',' ∨ x = ']' ∨ x = '}' ∨ x = '!' ∨ x = ';'

/-- Reads a decimal number: the run of digits in front. -/
def readNumber (cs : List Char) : Nat × List Char :=
  (Nat.ofDigitChars 10 (cs.takeWhile Char.isDigit) 0, cs.dropWhile Char.isDigit)

/-- Reads the rest of a pointer type after `ptr`. -/
def readPtr : List Char → Option (Ty × List Char)
  | ' ' :: 'a' :: 'd' :: 'd' :: 'r' :: 's' :: 'p' :: 'a' :: 'c' :: 'e' :: '(' :: r =>
      match readNumber r with
      | (s, ')' :: r) => some (.ptr s, r)
      | _ => none
  | r => some (.ptr 0, r)

mutual
/-- Reads a type's text back, with fuel for its nesting. -/
def read : Nat → List Char → Option (Ty × List Char)
  | 0, _ => none
  | _ + 1, 'i' :: '8' :: r => some (.i8, r)
  | _ + 1, 'i' :: '1' :: '6' :: r => some (.i16, r)
  | _ + 1, 'i' :: '3' :: '2' :: r => some (.i32, r)
  | _ + 1, 'i' :: '6' :: '4' :: r => some (.i64, r)
  | _ + 1, 'f' :: '1' :: '6' :: r => some (.f16, r)
  | _ + 1, 'f' :: '3' :: '2' :: r => some (.f32, r)
  | _ + 1, 'f' :: '6' :: '4' :: r => some (.f64, r)
  | _ + 1, 'p' :: 't' :: 'r' :: r => readPtr r
  | n + 1, '[' :: r =>
      match readNumber r with
      | (count, ' ' :: 'x' :: ' ' :: r) =>
          match read n r with
          | some (e, ']' :: r) => some (.array e count, r)
          | _ => none
      | _ => none
  | _ + 1, '{' :: '}' :: r => some (.struct [], r)
  | n + 1, '{' :: r => (readFields n r).map fun (fs, r) => (.struct fs, r)
  | _ + 1, _ => none

/-- Reads the fields of a structure's text, up to and including its closing brace. -/
def readFields : Nat → List Char → Option (List Ty × List Char)
  | 0, _ => none
  | n + 1, r =>
      match read n r with
      | some (f, '}' :: r) => some ([f], r)
      | some (f, ',' :: ' ' :: r) => (readFields n r).map fun (fs, r) => (f :: fs, r)
      | _ => none
end

example : read 5 "{i8, [4 x ptr addrspace(3)]}!".toList = some (.struct [.i8, .array (.ptr 3) 4], ['!']) := rfl

theorem readNumber_toDigits (n : Nat) {c : Char} (hc : c.isDigit = false) (r : List Char) :
    readNumber (Nat.toDigits 10 n ++ c :: r) = (n, c :: r) := by
  have hd : ∀ x ∈ Nat.toDigits 10 n, x.isDigit = true := fun x hx =>
    Nat.isDigit_of_mem_toDigits (by decide) (by decide) hx
  simp [readNumber, List.takeWhile_append_of_pos hd, List.dropWhile_append_of_pos hd, hc,
    Nat.ofDigitChars_ten_toDigits]

/-- After `ptr`, a text that goes on with no address space is the pointer into space zero. -/
theorem readPtr_of_ends {s : List Char} (hs : Ends s) : readPtr s = some (.ptr 0, s) := by
  match s, hs with
  | [], _ => rfl
  | x :: r, hs =>
      rcases hs x rfl with rfl | rfl | rfl | rfl | rfl <;> rfl

/-- A type's text begins with a letter or an opening bracket. -/
theorem render_toList_eq_cons (t : Ty) :
    ∃ x r, (render t).toList = x :: r ∧ (x = 'i' ∨ x = 'f' ∨ x = 'p' ∨ x = '[' ∨ x = '{') := by
  cases t with
  | ptr s => by_cases hs : s = 0 <;> simp [render, hs]
  | struct fs => simp [render]
  | _ => simp [render]

theorem renderFields_cons_toList_eq_cons (f : Ty) (fs : List Ty) :
    ∃ x r, (renderFields (f :: fs)).toList = x :: r ∧ x ≠ '}' := by
  obtain ⟨x, r, hx, hlead⟩ := render_toList_eq_cons f
  have hx' : x ≠ '}' := by rcases hlead with rfl | rfl | rfl | rfl | rfl <;> decide
  -- the fields' text begins with the first field's
  cases fs with
  | nil => exact ⟨x, r, by simp [renderFields, hx], hx'⟩
  | cons g gs => exact ⟨x, r ++ (", " ++ renderFields (g :: gs)).toList, by simp [renderFields, hx], hx'⟩

mutual
/-- A type's text followed by what may end it reads back as the type, with fuel beyond its size. -/
theorem read_render : ∀ (t : Ty) (n : Nat), sizeOf t < n → ∀ s, Ends s → read n ((render t).toList ++ s) = some (t, s)
  | .i8, n + 1, _, s, _ | .i16, n + 1, _, s, _ | .i32, n + 1, _, s, _ | .i64, n + 1, _, s, _
  | .f16, n + 1, _, s, _ | .f32, n + 1, _, s, _ | .f64, n + 1, _, s, _ => by simp [render, read]
  | .ptr 0, n + 1, _, s, hs => by simp [render, read, readPtr_of_ends hs]
  | .ptr (k + 1), n + 1, _, s, _ => by
      simp [render, read, readPtr, Nat.toString_eq_repr, Nat.toList_repr, readNumber_toDigits]
  | .array e count, n + 1, hn, s, _ => by
      have he : read n ((render e).toList ++ ']' :: s) = some (e, ']' :: s) :=
        read_render e n (by simp at hn; omega) _ (by simp [Ends])
      simp [render, read, Nat.toString_eq_repr, Nat.toList_repr, readNumber_toDigits, he]
  | .struct [], n + 1, _, s, _ => by simp [render, renderFields, read]
  | .struct (f :: fs), n + 1, hn, s, _ => by
      have hfs : readFields n ((renderFields (f :: fs)).toList ++ '}' :: s) = some (f :: fs, s) :=
        readFields_renderFields (f :: fs) n (List.cons_ne_nil _ _) (by simp at hn ⊢; omega) s
      -- the fields' text does not start with the closing brace
      obtain ⟨x, r, hx, hne⟩ := renderFields_cons_toList_eq_cons f fs
      rw [hx, List.cons_append] at hfs
      simp [render, hx, read, hne, hfs]
  termination_by t => sizeOf t

/-- The text of nonempty fields, then the closing brace, reads back as the fields. -/
theorem readFields_renderFields : ∀ (fs : List Ty) (n : Nat), fs ≠ [] → sizeOf fs < n → ∀ s,
    readFields n ((renderFields fs).toList ++ '}' :: s) = some (fs, s)
  | [f], n + 1, _, hn, s => by
      have hf := read_render f n (by simp at hn; omega) ('}' :: s) (by simp [Ends])
      simp [renderFields, readFields, hf]
  | f :: g :: gs, n + 1, _, hn, s => by
      have hrest := readFields_renderFields (g :: gs) n (List.cons_ne_nil _ _) (by simp at hn ⊢; omega) s
      have hf := read_render f n (by simp at hn; omega)
        (',' :: ' ' :: ((renderFields (g :: gs)).toList ++ '}' :: s)) (by simp [Ends])
      simp [renderFields, readFields, hf, hrest]
  termination_by fs => sizeOf fs
end

/-- A type's text, followed by what may end it, determines the type and the rest. -/
theorem render_append_inj {t t' : Ty} {s s' : List Char} (hs : Ends s) (hs' : Ends s')
    (h : (render t).toList ++ s = (render t').toList ++ s') : t = t' ∧ s = s' := by
  have hread := read_render t (sizeOf t + sizeOf t' + 1) (by omega) s hs
  rw [h, read_render t' _ (by omega) s' hs'] at hread
  obtain ⟨rfl, rfl⟩ := Prod.mk.inj (Option.some.inj hread)
  exact ⟨rfl, rfl⟩

/-- Distinct types have distinct texts. -/
theorem render_injective : Function.Injective render := by
  intro t t' h
  have hl : (render t).toList ++ [] = (render t').toList ++ [] := by rw [h]
  exact (render_append_inj (by simp [Ends]) (by simp [Ends]) hl).1

end Ty

namespace Bytes

/-- Words below `256 ^ n` have distinct little-endian digits. -/
theorem littleEndian_inj {n w w' : Nat} (hw : w < 256 ^ n) (hw' : w' < 256 ^ n)
    (h : littleEndian w n = littleEndian w' n) : w = w' := by
  have hback := congrArg ofLittleEndian h
  rwa [ofLittleEndian_littleEndian, ofLittleEndian_littleEndian, Nat.mod_eq_of_lt hw, Nat.mod_eq_of_lt hw'] at hback

/-- Words below `256 ^ n`, each written in `n > 0` little-endian bytes one after another, can be
read back. -/
theorem flatMap_littleEndian_inj {n : Nat} (hn : 0 < n) :
    ∀ {ws ws' : List Nat}, (∀ w ∈ ws, w < 256 ^ n) → (∀ w ∈ ws', w < 256 ^ n) →
      ws.flatMap (littleEndian · n) = ws'.flatMap (littleEndian · n) → ws = ws'
  | [], [], _, _, _ => rfl
  | [], w' :: ws', _, _, h | w' :: ws', [], _, _, h => by
      have hlen := congrArg List.length h
      simp at hlen
      omega
  | w :: ws, w' :: ws', hw, hw', h => by
      simp only [List.flatMap_cons] at h
      obtain ⟨hhead, htail⟩ := List.append_inj h (by simp)
      have hw₁ := littleEndian_inj (hw w List.mem_cons_self) (hw' w' List.mem_cons_self) hhead
      have hws := flatMap_littleEndian_inj hn (fun x hx => hw x (List.mem_cons_of_mem _ hx))
        (fun x hx => hw' x (List.mem_cons_of_mem _ hx)) htail
      rw [hw₁, hws]

end Bytes

/-- What computing a layout reads of a parameter: its type and whether it is passed by value. -/
def Param.signature (p : Param) : Ty × Bool := (p.ty, p.byValue)

namespace DeviceConfig

/-- The device words a fingerprint digests, in order: address bits, `size_t` width, the global,
local and constant spaces, and whether the launcher allocates local memory. -/
def fingerprintWords (c : DeviceConfig) : List Nat :=
  [c.addressBits, c.sizeTWidth, c.addressSpaces.globalSpace, c.addressSpaces.localSpace,
    c.addressSpaces.constantSpace, if c.allocaLocals then 1 else 0]

/-- The fingerprinted device words are 32-bit, as a device description has them. -/
def WordsFit (c : DeviceConfig) : Prop := ∀ w ∈ c.fingerprintWords, w ≤ Word.max32

/-- Two devices on which computing a layout reads the same: the widths of pointers and of `size_t`
in bytes, the local space, and whether the launcher allocates local memory. -/
structure LayoutAgree (c c' : DeviceConfig) : Prop where
  ptrBytes : c.ptrBytes = c'.ptrBytes
  sizeTBytes : c.sizeTBytes = c'.sizeTBytes
  localSpace : c.addressSpaces.localSpace = c'.addressSpaces.localSpace
  allocaLocals : c.allocaLocals = c'.allocaLocals

/-- Devices with the same fingerprinted words read the same when computing a layout. -/
theorem LayoutAgree.of_fingerprintWords {c c' : DeviceConfig} (h : c.fingerprintWords = c'.fingerprintWords) :
    c.LayoutAgree c' := by
  simp only [fingerprintWords, List.cons.injEq, and_true] at h
  obtain ⟨hbits, hwidth, -, hlocal, -, halloca⟩ := h
  refine ⟨by unfold DeviceConfig.ptrBytes; rw [hbits], by unfold DeviceConfig.sizeTBytes; rw [hwidth], hlocal, ?_⟩
  cases hb : c.allocaLocals <;> cases hb' : c'.allocaLocals <;> simp_all

end DeviceConfig

namespace ArgBufferLayout

/-! ## The byte string a fingerprint digests -/

/-- The mark that follows a parameter's type text: `!` when it is passed by value, `;` otherwise. -/
def passMark (byValue : Bool) : String := if byValue then "!" else ";"

/-- The parameter part of the byte string a fingerprint digests, as text. -/
def paramText (ps : List Param) : String := String.join (ps.map fun p => p.ty.render ++ passMark p.byValue)

theorem foldl_paramBytes (ps : List Param) (acc : ByteArray) :
    ps.foldl (fun acc p => acc ++ (p.ty.render ++ if p.byValue then "!" else ";").toUTF8) acc =
      acc ++ (paramText ps).toUTF8 := by
  induction ps generalizing acc with
  | nil => simp [paramText]
  | cons p ps ih =>
      rw [List.foldl_cons, ih]
      simp [paramText, passMark, ByteArray.append_assoc]

/-- The byte string a fingerprint digests: the tag, the parameter text, then the device words in
four little-endian bytes each. -/
theorem fingerprintInput_eq (f : Function) (c : DeviceConfig) :
    fingerprintInput f c = "wglaunch.argbuffer.v1".toUTF8 ++ (paramText f.params).toUTF8 ++
      ByteArray.mk (c.fingerprintWords.flatMap (Bytes.littleEndian · 4)).toArray := by
  simp only [fingerprintInput, foldl_paramBytes, DeviceConfig.fingerprintWords]
  simp

theorem paramText_cons_toList (p : Param) (ps : List Param) :
    (paramText (p :: ps)).toList =
      (p.ty.render).toList ++ (if p.byValue then '!' else ';') :: (paramText ps).toList := by
  cases hb : p.byValue <;> simp [paramText, passMark, hb]

theorem paramText_nil_ne_cons (p : Param) (ps : List Param) : paramText [] ≠ paramText (p :: ps) := by
  intro h
  obtain ⟨x, r, hx, -⟩ := Ty.render_toList_eq_cons p.ty
  have hl := congrArg String.toList h
  simp [hx, paramText] at hl

/-- The parameter text reads only each parameter's signature, not its name. -/
theorem paramText_congr {ps ps' : List Param} (h : ps.map Param.signature = ps'.map Param.signature) :
    paramText ps = paramText ps' := by
  have hsig : ∀ qs : List Param,
      paramText qs = String.join ((qs.map Param.signature).map fun s => s.1.render ++ passMark s.2) := by
    intro qs
    rw [paramText, List.map_map]
    rfl
  rw [hsig, hsig, h]

/-- The parameter text splits uniquely at its marks: it determines each parameter's type and
passing mode. -/
theorem paramText_inj : ∀ {ps ps' : List Param}, paramText ps = paramText ps' →
    ps.map Param.signature = ps'.map Param.signature
  | [], [], _ => rfl
  | [], p' :: ps', h => absurd h (paramText_nil_ne_cons p' ps')
  | p :: ps, [], h => absurd h.symm (paramText_nil_ne_cons p ps)
  | p :: ps, p' :: ps', h => by
      have hl := congrArg String.toList h
      rw [paramText_cons_toList, paramText_cons_toList] at hl
      -- each mark ends the type text before it
      have hmark : ∀ b : Bool, Ty.Ends ((if b then '!' else ';') :: (paramText ps).toList) ∧
          Ty.Ends ((if b then '!' else ';') :: (paramText ps').toList) := by
        intro b
        cases b <;> simp [Ty.Ends]
      obtain ⟨hty, hrest⟩ := Ty.render_append_inj (hmark p.byValue).1 (hmark p'.byValue).2 hl
      obtain ⟨hm, htext⟩ := List.cons.inj hrest
      have hbv : p.byValue = p'.byValue := by
        cases hb : p.byValue <;> cases hb' : p'.byValue <;> simp_all
      simp only [List.map_cons, Param.signature, hty, hbv, List.cons.injEq, true_and]
      exact paramText_inj (String.toList_inj.mp htext)

/-- The byte string a fingerprint digests determines, on devices whose fingerprinted words are
32-bit, every parameter's type and passing mode and the device words. -/
theorem fingerprintInput_inj {f f' : Function} {c c' : DeviceConfig} (hc : c.WordsFit) (hc' : c'.WordsFit)
    (h : fingerprintInput f c = fingerprintInput f' c') :
    f.params.map Param.signature = f'.params.map Param.signature ∧ c.fingerprintWords = c'.fingerprintWords := by
  rw [fingerprintInput_eq, fingerprintInput_eq, ByteArray.append_assoc, ByteArray.append_assoc] at h
  have hbytes := congrArg (fun b : ByteArray => b.data.toList) ((ByteArray.append_right_inj _).mp h)
  simp only [ByteArray.data_append, Array.toList_append] at hbytes
  -- the device words take the last 24 bytes on both sides
  obtain ⟨hparams, hwords⟩ := List.append_inj' hbytes (by simp [DeviceConfig.fingerprintWords])
  have hfit : ∀ d : DeviceConfig, d.WordsFit → ∀ w ∈ d.fingerprintWords, w < 256 ^ 4 := by
    intro d hd w hw
    have := hd w hw
    unfold Word.max32 at this
    omega
  refine ⟨paramText_inj (String.toByteArray_inj.mp (ByteArray.ext (Array.toList_inj.mp hparams))), ?_⟩
  exact Bytes.flatMap_littleEndian_inj (by decide) (hfit c hc) (hfit c' hc') (by simpa using hwords)

/-- The byte string a fingerprint digests reads only the parameters' signatures and the device
words, not the kernel's or the parameters' names. -/
theorem fingerprintInput_congr {f f' : Function} {c c' : DeviceConfig}
    (hsig : f.params.map Param.signature = f'.params.map Param.signature)
    (hwords : c.fingerprintWords = c'.fingerprintWords) : fingerprintInput f c = fingerprintInput f' c' := by
  rw [fingerprintInput_eq, fingerprintInput_eq, paramText_congr hsig, hwords]

/-! ## Computing reads nothing else -/

section Congr

variable {f f' : Function} {c c' : DeviceConfig}

/-- A parameter's slot by the rules depends only on its signature and on what the device's layout
reads. -/
theorem shapeOf_congr (hc : c.LayoutAgree c') {p p' : Param} (hp : p.signature = p'.signature) :
    shapeOf c p = shapeOf c' p' := by
  obtain ⟨hty, hbv⟩ := Prod.mk.inj hp
  unfold shapeOf kindRule
  rw [hty, hbv, hc.ptrBytes, hc.sizeTBytes, hc.localSpace, hc.allocaLocals]

/-- Placing parameters of the same signatures on devices that read the same places the same
slots, whatever the kernels' and parameters' names. -/
theorem place_congr (hc : c.LayoutAgree c') :
    ∀ {ps ps' : List Param}, ps.map Param.signature = ps'.map Param.signature →
      ∀ {index offset maxAlign : Nat} {r : List ArgSlot × Nat × Nat},
        place f c ps index offset maxAlign = .ok (.ok r) → place f' c' ps' index offset maxAlign = .ok (.ok r)
  | [], [], _, _, _, _, _, h => h
  | [], _ :: _, hsig, _, _, _, _, _ | _ :: _, [], hsig, _, _, _, _, _ => by simp at hsig
  | p :: ps, p' :: ps', hsig, index, offset, maxAlign, ⟨slots, stop, al⟩, h => by
      obtain ⟨hp, hps⟩ := List.cons.inj hsig
      obtain ⟨kind, size, align, start, stop₁, rest, hk, he, hal, hs, hstop, hrest, rfl⟩ := place_cons_eq_ok h
      -- the parameter gets the same slot by the rules on both sides
      have hshape : shapeOf c' p' = some (kind, size, align) := shapeOf_congr hc hp ▸ shapeOf_of_extentOf hk he
      have hke : kindOf f' c' p' = .ok kind ∧ extentOf f' c' p' kind = .ok (size, align) :=
        extentOf_of_shapeOf hshape
      rw [place_cons_eq hke.1 hke.2 hal hs hstop, place_congr hc hps hrest]
      rfl

/-- Computing a layout for a kernel of the same name and parameter signatures, on a device that
reads the same, with the same fingerprint, answers the same layout. -/
theorem compute_congr (hname : f.name = f'.name) (hc : c.LayoutAgree c')
    (hsig : f.params.map Param.signature = f'.params.map Param.signature) (hfp : fingerprintOf f c = fingerprintOf f' c')
    {l : ArgBufferLayout} (h : compute f c = .ok (.ok l)) : compute f' c' = .ok (.ok l) := by
  obtain ⟨stop, hplace, hsize, hkernel, hfingerprint⟩ := compute_eq_ok_place h
  have hplace' : place f' c' f'.params 0 0 1 = .ok (.ok (l.slots, stop, l.align)) := place_congr hc hsig hplace
  simp only [compute, hplace', Except.map, hsize]
  obtain ⟨kernel, slots, size, align, fingerprint⟩ := l
  simp_all

/-- The byte string a fingerprint digests determines the layout computed for a kernel of a given
name, on devices whose fingerprinted words are 32-bit. -/
theorem compute_eq_of_fingerprintInput (hc : c.WordsFit) (hc' : c'.WordsFit) (hname : f.name = f'.name)
    (hin : fingerprintInput f c = fingerprintInput f' c') {l : ArgBufferLayout} (h : compute f c = .ok (.ok l)) :
    compute f' c' = .ok (.ok l) := by
  obtain ⟨hsig, hwords⟩ := fingerprintInput_inj hc hc' hin
  exact compute_congr hname (.of_fingerprintWords hwords) hsig (congrArg Blake3.hexDigest hin) h

/-- Two layouts computed for kernels of one name, on devices whose fingerprinted words are 32-bit,
with equal fingerprints are equal, when the digest does not collide on their two byte strings. -/
theorem eq_of_fingerprint_eq (hc : c.WordsFit) (hc' : c'.WordsFit)
    (hcol : Blake3.hexDigest (fingerprintInput f c) = Blake3.hexDigest (fingerprintInput f' c') →
      fingerprintInput f c = fingerprintInput f' c')
    {l l' : ArgBufferLayout} (h : compute f c = .ok (.ok l)) (h' : compute f' c' = .ok (.ok l'))
    (hkernel : l.kernel = l'.kernel) (hfp : l.fingerprint = l'.fingerprint) : l = l' := by
  obtain ⟨-, -, -, hname, hfingerprint⟩ := compute_eq_ok_place h
  obtain ⟨-, -, -, hname', hfingerprint'⟩ := compute_eq_ok_place h'
  -- equal fingerprints are equal digests, so the byte strings are equal
  have hin : fingerprintInput f c = fingerprintInput f' c' := by
    apply hcol
    rw [← fingerprintOf, ← fingerprintOf, ← hfingerprint, ← hfingerprint', hfp]
  have hsame := compute_eq_of_fingerprintInput hc hc' (hname ▸ hname' ▸ hkernel) hin h
  rw [h'] at hsame
  exact (Except.ok.inj (Except.ok.inj hsame)).symm

end Congr

end ArgBufferLayout

end KernelLaunch
