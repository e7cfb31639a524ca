import KernelLaunch.Ir.Load
import KernelLaunch.Proofs.Json.Records
/-!
# Reading back the data form of a module

A module printed as pretty JSON reads back as the same module (`ofJsonText_toJsonText`) when
three things hold. Every number fits the word its field is read into (`Module.fits`): registers,
parameter indices, address spaces, dimensions and subgroup sizes in 32 bits, the other numbers in
64. The handles are listed in declaration order without repeats, as the reader rebuilds them as a
set. And the text nests fewer than 128 arrays and objects, the reader's nesting limit; a deeper
module prints but does not read back.

Each decoder is shown to read the data form of what it decodes (`ReadsJson`): the tags of the
enumerations by their position in the tag lists, the records member by member, and the recursive
types and instructions by induction on the decoders' fuel, which the nesting of the text bounds.
-/

namespace KernelLaunch

/-! ## Numbers that fit their words -/

namespace Ty

mutual
/-- Whether every address space fits in 32 bits and every array length in 64. -/
def fits : Ty → Bool
  | .ptr s => s ≤ Word.max32
  | .array e n => fits e && n ≤ Word.max
  | .struct fs => fitsAll fs
  | _ => true

/-- Whether every type of a list fits. -/
def fitsAll : List Ty → Bool
  | [] => true
  | t :: ts => fits t && fitsAll ts
end

theorem toJsonList_eq_map (ts : List Ty) : toJsonList ts = ts.map toJson := by
  induction ts with
  | nil => rfl
  | cons t ts ih => rw [toJsonList, ih, List.map_cons]

theorem fits_of_mem {t : Ty} : ∀ {ts : List Ty}, fitsAll ts = true → t ∈ ts → t.fits = true
  | _ :: _, h, .head _ => by simp only [fitsAll, Bool.and_eq_true] at h; exact h.1
  | _ :: _, h, .tail _ hm => by simp only [fitsAll, Bool.and_eq_true] at h; exact fits_of_mem h.2 hm

end Ty

/-- Whether a handle's dimension fits in 32 bits. -/
def HandleRef.fits (h : HandleRef) : Bool := h.dim ≤ Word.max32

/-- Whether an operand's register or parameter index fits in 32 bits and its immediate in 64. -/
def Operand.fits : Operand → Bool
  | .reg r => r ≤ Word.max32
  | .param i => i ≤ Word.max32
  | .imm v => v ≤ Word.max
  | .handle h => h.fits

namespace Inst

mutual
/-- Whether every number of an instruction, nested bodies included, fits its word. -/
def fits : Inst → Bool
  | .bin d _ l r => d ≤ Word.max32 && l.fits && r.fits
  | .load d t p o rng => d ≤ Word.max32 && t.fits && p.fits && o ≤ Word.max &&
      rng.all fun r => r.lo ≤ Word.max && r.hi ≤ Word.max
  | .store t p o v => t.fits && p.fits && o ≤ Word.max && v.fits
  | .alloca d sp s a => d ≤ Word.max32 && sp ≤ Word.max32 && s.fits && a ≤ Word.max
  | .memcpy d s o n => d.fits && s.fits && o ≤ Word.max && n ≤ Word.max
  | .call d _ args => d.all (· ≤ Word.max32) && args.all Operand.fits
  | .barrier => true
  | .printf _ args buf => args.all Operand.fits && buf.all fun (a, b, c) => a.fits && b.fits && c.fits
  | .placeholder d _ => d ≤ Word.max32
  | .loop v b body => v ≤ Word.max32 && b.fits && fitsAll body
  | .ret => true

/-- Whether every instruction of a body fits. -/
def fitsAll : List Inst → Bool
  | [] => true
  | i :: is => fits i && fitsAll is
end

theorem toJsonList_eq_map (is : List Inst) : toJsonList is = is.map toJson := by
  induction is with
  | nil => rfl
  | cons i is ih => rw [toJsonList, ih, List.map_cons]

theorem fits_of_mem {i : Inst} : ∀ {is : List Inst}, fitsAll is = true → i ∈ is → i.fits = true
  | _ :: _, h, .head _ => by simp only [fitsAll, Bool.and_eq_true] at h; exact h.1
  | _ :: _, h, .tail _ hm => by simp only [fitsAll, Bool.and_eq_true] at h; exact fits_of_mem h.2 hm

end Inst

/-- Whether the subgroup sizes fit in 32 bits and the work-group extents in 64. -/
def FnAttrs.fits (a : FnAttrs) : Bool :=
  a.reqdSubgroupSize.all (· ≤ Word.max32) &&
    a.reqdWorkGroupSize.all (fun v => v.x ≤ Word.max && v.y ≤ Word.max && v.z ≤ Word.max) &&
    a.subgroupSize.all (· ≤ Word.max32)

/-- Whether every number of a function's parameters, body and attributes fits its word. -/
def Function.fits (f : Function) : Bool :=
  f.params.all (·.ty.fits) && f.body.all Inst.fitsAll && f.attrs.fits

/-- Whether every number of a module fits its word. -/
def Module.fits (m : Module) : Bool := m.functions.all Function.fits

namespace Handle

theorem insertSorted_of_lt {h : Handle} :
    ∀ {acc : List Handle}, (∀ g ∈ acc, g.index < h.index) → insertSorted h acc = acc ++ [h]
  | [], _ => rfl
  | g :: gs, hlt => by
      have hg := hlt g List.mem_cons_self
      rw [insertSorted, if_neg (by omega), if_neg (by omega),
        insertSorted_of_lt fun g' hg' => hlt g' (List.mem_cons_of_mem g hg')]
      rfl

theorem foldl_insertSorted :
    ∀ {hs acc : List Handle}, (acc ++ hs).Pairwise (·.index < ·.index) →
      hs.foldl (fun acc h => insertSorted h acc) acc = acc ++ hs
  | [], acc, _ => by simp
  | h :: hs, acc, hp => by
      have hlt : ∀ g ∈ acc, g.index < h.index := fun g hg =>
        (List.pairwise_append.mp hp).2.2 g hg h List.mem_cons_self
      rw [List.foldl_cons, insertSorted_of_lt hlt, foldl_insertSorted (by simpa using hp)]
      simp

/-- Handles already in declaration order without repeats are their own set. -/
theorem normalize_of_pairwise {hs : List Handle} (h : hs.Pairwise (·.index < ·.index)) : normalize hs = hs :=
  foldl_insertSorted (by simpa using h)

end Handle

namespace Reader

open Decode

/-! ## Types -/

/-- A type whose numbers fit is read back by the type decoder, with fuel past its nesting. -/
theorem readsJson_ty : ∀ {fuel : Nat} {t : Ty}, t.fits = true → t.toJson.depth < fuel →
    ReadsJson (ty fuel) t.toJson t
  | 0, _, _, hd => absurd hd (Nat.not_lt_zero _)
  | fuel + 1, t, hfit, hd => by
      rw [ty]
      cases t with
      | i8 => exact readsJson_variant_bare (n := 0) rfl fun _ => rfl
      | i16 => exact readsJson_variant_bare (n := 1) rfl fun _ => rfl
      | i32 => exact readsJson_variant_bare (n := 2) rfl fun _ => rfl
      | i64 => exact readsJson_variant_bare (n := 3) rfl fun _ => rfl
      | f16 => exact readsJson_variant_bare (n := 4) rfl fun _ => rfl
      | f32 => exact readsJson_variant_bare (n := 5) rfl fun _ => rfl
      | f64 => exact readsJson_variant_bare (n := 6) rfl fun _ => rfl
      | ptr s =>
          simp only [Ty.fits, decide_eq_true_eq] at hfit
          exact readsJson_variant_inline (n := 7) rfl ((readsJson_word32 hfit).map _)
      | array e n =>
          simp only [Ty.fits, Bool.and_eq_true, decide_eq_true_eq] at hfit
          have he : e.toJson.depth < fuel := by
            simp only [Ty.toJson, Json.depth, Json.depthMembers, Json.depthItems] at hd
            omega
          exact readsJson_variant_inline (n := 8) rfl (readsJson_tupleVariant fun level =>
            reads_arrayWith (readsItems_pair (readsJson_ty hfit.1 he) (readsJson_word hfit.2)) _ level)
      | struct fs =>
          have hall : ∀ t ∈ fs, ReadsJson (ty fuel) t.toJson t := fun t ht => by
            have := Json.depth_le_depthItems (List.mem_map_of_mem (f := Ty.toJson) ht)
            simp only [Ty.toJson, Ty.toJsonList_eq_map, Json.depth, Json.depthMembers] at hd
            exact readsJson_ty (Ty.fits_of_mem hfit ht) (by omega)
          have hlist := (readsJson_list hall).map Ty.struct
          rw [← Ty.toJsonList_eq_map] at hlist
          exact readsJson_variant_inline (n := 9) rfl hlist

/-! ## Tags, handles and operands -/

/-- An enumeration is read by its tag: the decoder finds the tag's position among the tags and
takes the value there. -/
theorem readsJson_tag {E : Type} {all : List E} {tag : E → String} {dflt x : E} {n : Nat}
    (hn : indexOf? (all.map tag) (tag x) = some n) (hx : all.getD n dflt = x) :
    ReadsJson (variant (all.map tag) fun i acc => unitVariant (all.getD i dflt) acc) (.str (tag x)) x :=
  readsJson_variant_bare hn fun c => by rw [hx]; rfl

theorem readsJson_handle (h : Handle) : ReadsJson handle (.str h.tag) h := by
  cases h <;> exact readsJson_tag rfl rfl

theorem readsJson_binOp (op : BinOp) : ReadsJson binOp (.str op.tag) op := by
  cases op <;> exact readsJson_tag rfl rfl

theorem readsJson_launcherKind (k : LauncherKind) : ReadsJson launcherKind (.str k.tag) k := by
  cases k <;> exact readsJson_tag rfl rfl

theorem readsJson_handleRef {h : HandleRef} (hfit : h.fits = true) : ReadsJson handleRef h.toJson h := by
  simp only [HandleRef.fits, decide_eq_true_eq] at hfit
  exact readsJson_record
    (.cons (n := 0) rfl rfl ((readsJson_handle h.kind).bind_pure _)
      (.cons (n := 1) rfl rfl ((readsJson_word32 hfit).bind_pure _) (.nil _))) rfl

theorem readsJson_operand {o : Operand} (hfit : o.fits = true) : ReadsJson operand o.toJson o := by
  cases o with
  | reg r =>
      simp only [Operand.fits, decide_eq_true_eq] at hfit
      exact readsJson_variant_inline (n := 0) rfl ((readsJson_word32 hfit).map _)
  | param i =>
      simp only [Operand.fits, decide_eq_true_eq] at hfit
      exact readsJson_variant_inline (n := 1) rfl ((readsJson_word32 hfit).map _)
  | imm v =>
      simp only [Operand.fits, decide_eq_true_eq] at hfit
      exact readsJson_variant_inline (n := 2) rfl ((readsJson_word hfit).map _)
  | handle h => exact readsJson_variant_inline (n := 3) rfl ((readsJson_handleRef hfit).map _)

theorem readsJson_valueRange {r : ValueRange} (hlo : r.lo ≤ Word.max) (hhi : r.hi ≤ Word.max) :
    ReadsJson valueRange (.obj [("lo", .nat r.lo), ("hi", .nat r.hi)]) r :=
  readsJson_record
    (.cons (n := 0) rfl rfl ((readsJson_word hlo).bind_pure _)
      (.cons (n := 1) rfl rfl ((readsJson_word hhi).bind_pure _) (.nil _))) rfl

/-! ## Instructions -/

theorem readsJson_operands {args : List Operand} (h : args.all Operand.fits = true) :
    ReadsJson (list operand) (operandsJson args) args :=
  readsJson_list fun _ ho => readsJson_operand (List.all_eq_true.mp h _ ho)

/-- An instruction whose numbers fit is read back by the instruction decoder, with fuel past its
nesting and within the allowance the types inside it are read with. -/
theorem readsJson_inst : ∀ {fuel : Nat} {i : Inst}, i.fits = true → i.toJson.depth < fuel → fuel ≤ allowance →
    ReadsJson (inst fuel) i.toJson i
  | 0, _, _, hd, _ => absurd hd (Nat.not_lt_zero _)
  | fuel + 1, i, hfit, hd, hfuel => by
      rw [inst]
      cases i with
      | bin d op l r =>
          simp only [Inst.fits, Bool.and_eq_true, decide_eq_true_eq] at hfit
          obtain ⟨⟨hdst, hl⟩, hr⟩ := hfit
          exact readsJson_variant_inline (n := 0) rfl (readsJson_recordVariant (readsJson_record
            (.cons (n := 0) rfl rfl ((readsJson_word32 hdst).bind_pure _)
            (.cons (n := 1) rfl rfl ((readsJson_binOp op).bind_pure _)
            (.cons (n := 2) rfl rfl ((readsJson_operand hl).bind_pure _)
            (.cons (n := 3) rfl rfl ((readsJson_operand hr).bind_pure _) (.nil _))))) rfl))
      | load d t p o rng =>
          simp only [Inst.fits, Bool.and_eq_true, decide_eq_true_eq] at hfit
          obtain ⟨⟨⟨⟨hdst, ht⟩, hp⟩, ho⟩, hrng⟩ := hfit
          have htd : t.toJson.depth < allowance := by
            cases rng <;> simp only [Inst.toJson, List.cons_append, List.nil_append, List.append_nil, Json.depth,
              Json.depthMembers] at hd <;> omega
          cases rng with
          | none =>
              exact readsJson_variant_inline (n := 1) rfl (readsJson_recordVariant (readsJson_record
                (.cons (n := 0) rfl rfl ((readsJson_word32 hdst).bind_pure _)
                (.cons (n := 1) rfl rfl ((readsJson_ty ht htd).bind_pure _)
                (.cons (n := 2) rfl rfl ((readsJson_operand hp).bind_pure _)
                (.cons (n := 3) rfl rfl ((readsJson_word ho).bind_pure _) (.nil _))))) rfl))
          | some r =>
              simp only [Option.all_some, Bool.and_eq_true, decide_eq_true_eq] at hrng
              exact readsJson_variant_inline (n := 1) rfl (readsJson_recordVariant (readsJson_record
                (.cons (n := 0) rfl rfl ((readsJson_word32 hdst).bind_pure _)
                (.cons (n := 1) rfl rfl ((readsJson_ty ht htd).bind_pure _)
                (.cons (n := 2) rfl rfl ((readsJson_operand hp).bind_pure _)
                (.cons (n := 3) rfl rfl ((readsJson_word ho).bind_pure _)
                (.cons (n := 4) rfl rfl (((readsJson_valueRange hrng.1 hrng.2).optional (Json.obj_ne_null _)).bind_pure _)
                  (.nil _)))))) rfl))
      | store t p o v =>
          simp only [Inst.fits, Bool.and_eq_true, decide_eq_true_eq] at hfit
          obtain ⟨⟨⟨ht, hp⟩, ho⟩, hv⟩ := hfit
          have htd : t.toJson.depth < allowance := by
            simp only [Inst.toJson, Json.depth, Json.depthMembers] at hd
            omega
          exact readsJson_variant_inline (n := 2) rfl (readsJson_recordVariant (readsJson_record
            (.cons (n := 0) rfl rfl ((readsJson_ty ht htd).bind_pure _)
            (.cons (n := 1) rfl rfl ((readsJson_operand hp).bind_pure _)
            (.cons (n := 2) rfl rfl ((readsJson_word ho).bind_pure _)
            (.cons (n := 3) rfl rfl ((readsJson_operand hv).bind_pure _) (.nil _))))) rfl))
      | alloca d sp sz a =>
          simp only [Inst.fits, Bool.and_eq_true, decide_eq_true_eq] at hfit
          obtain ⟨⟨⟨hdst, hsp⟩, hsz⟩, ha⟩ := hfit
          exact readsJson_variant_inline (n := 3) rfl (readsJson_recordVariant (readsJson_record
            (.cons (n := 0) rfl rfl ((readsJson_word32 hdst).bind_pure _)
            (.cons (n := 1) rfl rfl ((readsJson_word32 hsp).bind_pure _)
            (.cons (n := 2) rfl rfl ((readsJson_operand hsz).bind_pure _)
            (.cons (n := 3) rfl rfl ((readsJson_word ha).bind_pure _) (.nil _))))) rfl))
      | memcpy d src o len =>
          simp only [Inst.fits, Bool.and_eq_true, decide_eq_true_eq] at hfit
          obtain ⟨⟨⟨hdst, hsrc⟩, ho⟩, hlen⟩ := hfit
          exact readsJson_variant_inline (n := 4) rfl (readsJson_recordVariant (readsJson_record
            (.cons (n := 0) rfl rfl ((readsJson_operand hdst).bind_pure _)
            (.cons (n := 1) rfl rfl ((readsJson_operand hsrc).bind_pure _)
            (.cons (n := 2) rfl rfl ((readsJson_word ho).bind_pure _)
            (.cons (n := 3) rfl rfl ((readsJson_word hlen).bind_pure _) (.nil _))))) rfl))
      | call d c args =>
          simp only [Inst.fits, Bool.and_eq_true] at hfit
          obtain ⟨hdst, hargs⟩ := hfit
          cases d with
          | none =>
              exact readsJson_variant_inline (n := 5) rfl (readsJson_recordVariant (readsJson_record
                (.cons (n := 1) rfl rfl ((readsJson_string c).bind_pure _)
                (.cons (n := 2) rfl rfl ((readsJson_operands hargs).bind_pure _) (.nil _))) rfl))
          | some r =>
              simp only [Option.all_some, decide_eq_true_eq] at hdst
              exact readsJson_variant_inline (n := 5) rfl (readsJson_recordVariant (readsJson_record
                (.cons (n := 0) rfl rfl (((readsJson_word32 hdst).optional (Json.nat_ne_null _)).bind_pure _)
                (.cons (n := 1) rfl rfl ((readsJson_string c).bind_pure _)
                (.cons (n := 2) rfl rfl ((readsJson_operands hargs).bind_pure _) (.nil _)))) rfl))
      | barrier => exact readsJson_variant_bare (n := 6) rfl fun _ => rfl
      | printf fmt args buf =>
          simp only [Inst.fits, Bool.and_eq_true] at hfit
          obtain ⟨hargs, hbuf⟩ := hfit
          cases buf with
          | none =>
              exact readsJson_variant_inline (n := 7) rfl (readsJson_recordVariant (readsJson_record
                (.cons (n := 0) rfl rfl ((readsJson_string fmt).bind_pure _)
                (.cons (n := 1) rfl rfl ((readsJson_operands hargs).bind_pure _) (.nil _))) rfl))
          | some abc =>
              obtain ⟨a, b, c⟩ := abc
              simp only [Option.all_some, Bool.and_eq_true] at hbuf
              have htriple : ReadsJson (triple operand) (operandsJson [a, b, c]) (a, b, c) :=
                readsJson_triple fun o ho => readsJson_operand (by
                  simp only [List.mem_cons, List.not_mem_nil, or_false] at ho
                  rcases ho with rfl | rfl | rfl
                  · exact hbuf.1.1
                  · exact hbuf.1.2
                  · exact hbuf.2)
              exact readsJson_variant_inline (n := 7) rfl (readsJson_recordVariant (readsJson_record
                (.cons (n := 0) rfl rfl ((readsJson_string fmt).bind_pure _)
                (.cons (n := 1) rfl rfl ((readsJson_operands hargs).bind_pure _)
                (.cons (n := 2) rfl rfl ((htriple.optional (Json.arr_ne_null _)).bind_pure _) (.nil _)))) rfl))
      | placeholder d name =>
          simp only [Inst.fits, decide_eq_true_eq] at hfit
          exact readsJson_variant_inline (n := 8) rfl (readsJson_recordVariant (readsJson_record
            (.cons (n := 0) rfl rfl ((readsJson_word32 hfit).bind_pure _)
            (.cons (n := 1) rfl rfl ((readsJson_string name).bind_pure _) (.nil _))) rfl))
      | loop v b body =>
          simp only [Inst.fits, Bool.and_eq_true, decide_eq_true_eq] at hfit
          obtain ⟨⟨hv, hb⟩, hbody⟩ := hfit
          -- the body is read one level of fuel down, which its nesting in the loop leaves room for
          have hall : ∀ x ∈ body, ReadsJson (inst fuel) x.toJson x := fun x hx => by
            have := Json.depth_le_depthItems (List.mem_map_of_mem (f := Inst.toJson) hx)
            simp only [Inst.toJson, Inst.toJsonList_eq_map, Json.depth, Json.depthMembers] at hd
            exact readsJson_inst (Inst.fits_of_mem hbody hx) (by omega) (by omega)
          have hlist := readsJson_list hall
          rw [← Inst.toJsonList_eq_map] at hlist
          exact readsJson_variant_inline (n := 9) rfl (readsJson_recordVariant (readsJson_record
            (.cons (n := 0) rfl rfl ((readsJson_word32 hv).bind_pure _)
            (.cons (n := 1) rfl rfl ((readsJson_operand hb).bind_pure _)
            (.cons (n := 2) rfl rfl (hlist.bind_pure _) (.nil _)))) rfl))
      | ret => exact readsJson_variant_bare (n := 10) rfl fun _ => rfl

theorem getD_map_some {β : Type} (x : Option β) : (x.map some).getD none = x := by
  cases x <;> rfl

/-! ## Parameters, attributes, functions and modules -/

theorem readsJson_param {p : Param} (hfit : p.ty.fits = true) (hd : p.toJson.depth < allowance) :
    ReadsJson param p.toJson p := by
  have htd : p.ty.toJson.depth < allowance := by
    simp only [Param.toJson, Json.depth, Json.depthMembers] at hd
    omega
  exact readsJson_record
    (.cons (n := 0) rfl rfl ((readsJson_string p.name).bind_pure _)
    (.cons (n := 1) rfl rfl ((readsJson_ty hfit htd).bind_pure _)
    (.cons (n := 2) rfl rfl ((readsJson_bool p.byValue).bind_pure _) (.nil _)))) rfl

theorem readsJson_dims3 {v : Dims3} (hx : v.x ≤ Word.max) (hy : v.y ≤ Word.max) (hz : v.z ≤ Word.max) :
    ReadsJson dims3 v.toJson v := by
  have htriple : ReadsJson (triple word) (.arr ([v.x, v.y, v.z].map Json.nat)) (v.x, v.y, v.z) :=
    readsJson_triple fun n hn => readsJson_word (by
      simp only [List.mem_cons, List.not_mem_nil, or_false] at hn
      rcases hn with rfl | rfl | rfl <;> assumption)
  intro level l i depth ws post hl hws hpost hd
  unfold dims3
  rw [bind_ok (htriple level l i depth ws post hl hws hpost hd)]
  rfl

theorem readsJson_fnAttrs {a : FnAttrs} (hfit : a.fits = true) : ReadsJson fnAttrs a.toJson a := by
  simp only [FnAttrs.fits, Bool.and_eq_true] at hfit
  obtain ⟨⟨hrsg, hrwg⟩, hsg⟩ := hfit
  apply readsJson_record
  · -- the two flags, then each attribute that is present
    simp only [List.append_assoc, List.cons_append, List.nil_append]
    refine .cons (n := 0) rfl rfl ((readsJson_bool a.kernel).bind_pure _)
      (.cons (n := 1) rfl rfl ((readsJson_bool a.workgroupBody).bind_pure _)
      (.option (n := 2) (k := "reqd_subgroup_size") (f := Json.nat)
        (u := fun (s : AttrFields) x => { s with reqdSubgroupSize := x.map some }) a.reqdSubgroupSize
        (by cases a.reqdSubgroupSize <;> rfl) rfl rfl rfl (fun v hv => ?_)
      (.option (n := 3) (k := "reqd_work_group_size") (f := Dims3.toJson)
        (u := fun (s : AttrFields) x => { s with reqdWorkGroupSize := x.map some }) a.reqdWorkGroupSize
        (by cases a.reqdWorkGroupSize <;> rfl) rfl rfl rfl (fun v hv => ?_)
      (.option (n := 4) (k := "launcher") (f := fun k => .str k.tag)
        (u := fun (s : AttrFields) x => { s with launcher := x.map some }) a.launcher
        (by cases a.launcher <;> rfl) rfl rfl rfl (fun k _ => ?_)
      (.option (n := 5) (k := "subgroup_size") (f := Json.nat)
        (u := fun (s : AttrFields) x => { s with subgroupSize := x.map some }) a.subgroupSize
        (by cases a.subgroupSize <;> rfl) rfl rfl rfl (fun v hv => ?_)
      (.option (n := 6) (k := "derived_from") (f := Json.str)
        (u := fun (s : AttrFields) x => { s with derivedFrom := x.map some }) a.derivedFrom
        (by cases a.derivedFrom <;> rfl) rfl rfl rfl
        (fun d _ => ((readsJson_string d).optional (Json.str_ne_null _)).bind_pure _) (.nil _)))))))
    · rw [hv, Option.all_some, decide_eq_true_eq] at hrsg
      exact ((readsJson_word32 hrsg).optional (Json.nat_ne_null _)).bind_pure _
    · simp only [hv, Option.all_some, Bool.and_eq_true, decide_eq_true_eq] at hrwg
      exact ((readsJson_dims3 hrwg.1.1 hrwg.1.2 hrwg.2).optional (Json.arr_ne_null _)).bind_pure _
    · -- stated apart: elaborated inside the chain, the launcher's reader is unfolded too far
      have hkind := (readsJson_launcherKind k).optional (Json.str_ne_null _)
      exact hkind.bind_pure _
    · rw [hv, Option.all_some, decide_eq_true_eq] at hsg
      exact ((readsJson_word32 hsg).optional (Json.nat_ne_null _)).bind_pure _
  · simp only [getD_map_some, Option.getD_some]

theorem readsJson_function {f : Function} (hfit : f.fits = true) (hd : f.toJson.depth < allowance) :
    ReadsJson function f.toJson f := by
  obtain ⟨name, params, body, attrs⟩ := f
  simp only [Function.fits, Bool.and_eq_true] at hfit
  obtain ⟨⟨hparams, hbody⟩, hattrs⟩ := hfit
  simp only [Function.toJson, Json.depth, Json.depthMembers] at hd
  have hps : ReadsJson (list param) (.arr (params.map Param.toJson)) params :=
    readsJson_list fun p hp => readsJson_param (List.all_eq_true.mp hparams p hp) (by
      have := Json.depth_le_depthItems (List.mem_map_of_mem (f := Param.toJson) hp)
      omega)
  cases body with
  | none =>
      exact readsJson_record
        (.cons (n := 0) rfl rfl ((readsJson_string name).bind_pure _)
        (.cons (n := 1) rfl rfl (hps.bind_pure _)
        (.cons (n := 2) rfl rfl ((readsJson_optional_none _).bind_pure _)
        (.cons (n := 3) rfl rfl ((readsJson_fnAttrs hattrs).bind_pure _) (.nil _))))) rfl
  | some b =>
      rw [Option.all_some] at hbody
      -- every instruction of the body nests less deeply than the function
      have hb : ReadsJson Decode.body (bodyJson b) b := by
        unfold bodyJson Decode.body
        rw [Inst.toJsonList_eq_map]
        refine readsJson_list fun i hi => readsJson_inst (Inst.fits_of_mem hbody hi) ?_ (Nat.le_refl _)
        have := Json.depth_le_depthItems (List.mem_map_of_mem (f := Inst.toJson) hi)
        simp only [bodyJson, Inst.toJsonList_eq_map, Json.depth] at hd
        omega
      exact readsJson_record
        (.cons (n := 0) rfl rfl ((readsJson_string name).bind_pure _)
        (.cons (n := 1) rfl rfl (hps.bind_pure _)
        (.cons (n := 2) rfl rfl ((hb.optional (Json.arr_ne_null _)).bind_pure _)
        (.cons (n := 3) rfl rfl ((readsJson_fnAttrs hattrs).bind_pure _) (.nil _))))) rfl

theorem readsJson_module {m : Module} (hfit : m.fits = true) (hset : m.handles.Pairwise (·.index < ·.index))
    (hd : m.toJson.depth < allowance) : ReadsJson module m.toJson m := by
  have hfs : ReadsJson (list function) (.arr (m.functions.map Function.toJson)) m.functions :=
    readsJson_list fun f hf => readsJson_function (List.all_eq_true.mp hfit f hf) (by
      have := Json.depth_le_depthItems (List.mem_map_of_mem (f := Function.toJson) hf)
      simp only [Module.toJson, Json.depth, Json.depthMembers] at hd
      omega)
  have hhs : ReadsJson (list handle) (.arr (m.handles.map fun h => .str h.tag)) m.handles :=
    readsJson_list fun h _ => readsJson_handle h
  refine readsJson_record
    (.cons (n := 0) rfl rfl ((readsJson_string m.name).bind_pure _)
    (.cons (n := 1) rfl rfl (hfs.bind_pure _)
    (.cons (n := 2) rfl rfl (hhs.bind_pure _) (.nil _)))) ?_
  -- the handles are read back as a set, which they already are
  simp only [need, Option.getD_some, Handle.normalize_of_pairwise hset]
  rfl

end Reader

namespace Module

open Reader

/-- A module whose numbers fit their words, whose handles are listed in declaration order without
repeats, and whose data form nests fewer than 128 levels reads back from its pretty JSON text as
itself. -/
theorem ofJsonText_toJsonText {m : Module} (hfit : m.fits = true) (hset : m.handles.Pairwise (·.index < ·.index))
    (hdepth : m.toJson.depth < 128) : ofJsonText m.toJsonText = .ok m := by
  have htext : (utf8 m.toJsonText).drop 0 = [] ++ utf8 (Json.prettyAt 0 m.toJson) ++ [] := by
    simp [toJsonText, Json.pretty]
  have hread := readsJson_module hfit hset (by unfold Decode.allowance; omega) 0 _ 0 128 [] [] htext Blank.nil
    (.inl rfl) hdepth
  have hend : (utf8 m.toJsonText).drop (0 + ([] : List UInt8).length + (utf8 (Json.prettyAt 0 m.toJson)).length) =
      [] ++ [] := by
    simp [toJsonText, Json.pretty]
  simp only [ofJsonText, Reader.ofText, toUTF8_eq]
  rw [show ({ src := (utf8 m.toJsonText).toByteArray, pos := 0, depth := 128, parsed := false } : Cursor) =
      Cursor.at (utf8 m.toJsonText) 0 128 from rfl, bind_ok hread,
    bind_ok (blanks_at hend Blank.nil (fun b hb => by cases hb))]
  rfl

/-- A kernel with a ranged load, a loop over a call that reads a handle, a store of the largest
word, a structure parameter and a required work-group size. -/
def loopKernel : Module :=
  { name := "m",
    functions := [
      { name := "record", params := [{ name := "a", ty := .i64 }, { name := "b", ty := .i64 }] },
      { name := "k",
        params := [{ name := "p", ty := .ptr 1 }, { name := "s", ty := .struct [.i32, .array .f32 4], byValue := true }],
        body := some [.load 0 .i64 (.param 0) 8 (some ⟨1, 4097⟩),
          .loop 1 (.reg 0) [.call none "record" [.reg 1, .handle ⟨.localId, 0⟩]],
          .store .i64 (.param 0) 0 (.imm 18446744073709551615), .ret],
        attrs := { kernel := true, reqdWorkGroupSize := some ⟨2, 1, 1⟩ } }],
    handles := [.localId, .printfBuffer] }

theorem ofJsonText_toJsonText_loopKernel :
    loopKernel.fits = true ∧ loopKernel.handles.Pairwise (·.index < ·.index) ∧ loopKernel.toJson.depth < 128 ∧
      ofJsonText loopKernel.toJsonText = .ok loopKernel :=
  ⟨rfl, by decide, by decide, ofJsonText_toJsonText rfl (by decide) (by decide)⟩

end Module

end KernelLaunch
