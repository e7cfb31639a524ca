import KernelLaunch.Kernel.Launcher
import KernelLaunch.Proofs.Interp.Loops
import KernelLaunch.Proofs.Bytes.Words
/-!
# What the builder builds

A builder keeps a stack of open bodies, the innermost first and the root last. Every operation
either appends to the innermost body, opens a loop on top of the stack, or closes the innermost
loop into the body below it. This module says what each operation does to the stack and to the
next fresh register, and from that what the launchers' building steps leave behind: the
work-item loops a launcher opens are the levels of `Inst.around`, the call in the middle of them
is the body call, and resolving the placeholders puts the loop variables in the call.

The fault a builder keeps is not followed here: a launcher that is generated at all had none.
-/

namespace KernelLaunch

theorem nat_beq_false_of_ne {a b : Nat} (h : a ≠ b) : (a == b) = false := by simp [h]

/-! ## Placeholders -/

/-- The operand a placeholder map puts for an operand: a mapped register's operand, else the
operand itself. -/
def placeholderSwap (map : List (Nat × Operand)) : Operand → Operand
  | .reg r => ((map.find? (·.1 == r)).map (·.2)).getD (.reg r)
  | o => o

/-- The instructions a placeholder map keeps: all but the mapped placeholders. -/
def placeholderKeep (map : List (Nat × Operand)) : Inst → Bool
  | .placeholder d _ => ((map.find? (·.1 == d)).map (·.2)).isNone
  | _ => true

theorem replacePlaceholders_eq (insts : List Inst) (map : List (Nat × Operand)) :
    replacePlaceholders insts map =
      Inst.rewriteList (Inst.mapOperands (placeholderSwap map)) (placeholderKeep map) insts := by
  unfold replacePlaceholders
  dsimp only
  congr 1
  · congr 1
    funext o
    cases o <;> rfl

theorem rewriteList_append (f : Inst → Inst) (keep : Inst → Bool) (xs ys : List Inst) :
    Inst.rewriteList f keep (xs ++ ys) = Inst.rewriteList f keep xs ++ Inst.rewriteList f keep ys := by
  induction xs with
  | nil => simp [Inst.rewriteList]
  | cons i is ih =>
      simp only [List.cons_append, Inst.rewriteList]
      split <;> simp [ih]

/-- Rewriting operands through a level of a nest rewrites its bound and its body. -/
theorem rewriteList_around (g : Operand → Operand) (keep : Inst → Bool) (d : Option (Nat × Operand))
    (body : List Inst) (hkeep : ∀ v b body, keep (.loop v b body) = true) :
    Inst.rewriteList (Inst.mapOperands g) keep (Inst.around d body) =
      Inst.around (d.map fun h => (h.1, g h.2)) (Inst.rewriteList (Inst.mapOperands g) keep body) := by
  cases d with
  | none => rfl
  | some h =>
      obtain ⟨v, b⟩ := h
      simp [Inst.around, Inst.rewriteList, Inst.rewrite, Inst.mapOperands, hkeep]

@[simp]
theorem placeholderSwap_param (map : List (Nat × Operand)) (i : Nat) :
    placeholderSwap map (.param i) = .param i := rfl

@[simp]
theorem placeholderSwap_imm (map : List (Nat × Operand)) (n : Nat) :
    placeholderSwap map (.imm n) = .imm n := rfl

/-- A register below the placeholders is left as it is. -/
theorem placeholderSwap_reg_of_lt {p r : Nat} (a b c : Operand) (hr : r < p) :
    placeholderSwap [(p, a), (p + 1, b), (p + 2, c)] (.reg r) = .reg r := by
  have h₀ : (p == r) = false := by simp; omega
  have h₁ : (p + 1 == r) = false := by simp; omega
  have h₂ : (p + 2 == r) = false := by simp; omega
  simp [placeholderSwap, List.find?, h₀, h₁, h₂]

/-- Resolving the three local-id placeholders of a body call inside a nest drops them and puts
the ids in the call, when the call's other arguments are parameters and each level's bound is
left as it is. -/
theorem replacePlaceholders_nest {p : Nat} {ix iy iz : Operand} (lead : List Operand)
    {body : String} {dz dy dx : Option (Nat × Operand)}
    (hlead : ∀ o ∈ lead, ∃ i, o = .param i)
    (hbounds : ∀ d ∈ [dz, dy, dx], d.map (fun h => (h.1, placeholderSwap [(p, ix), (p + 1, iy), (p + 2, iz)] h.2)) = d) :
    replacePlaceholders (Inst.around dz (Inst.around dy (Inst.around dx
        [.placeholder p "_local_id_x", .placeholder (p + 1) "_local_id_y",
          .placeholder (p + 2) "_local_id_z", .call none body (lead ++ [.reg p, .reg (p + 1), .reg (p + 2)])])))
      [(p, ix), (p + 1, iy), (p + 2, iz)] =
    Inst.around dz (Inst.around dy (Inst.around dx [.call none body (lead ++ [ix, iy, iz])])) := by
  have hkeep : ∀ v b body, placeholderKeep [(p, ix), (p + 1, iy), (p + 2, iz)] (.loop v b body) = true :=
    fun _ _ _ => rfl
  have hlead' : lead.map (placeholderSwap [(p, ix), (p + 1, iy), (p + 2, iz)]) = lead := by
    refine (List.map_congr_left fun o ho => ?_).trans (List.map_id lead)
    obtain ⟨i, rfl⟩ := hlead o ho
    rfl
  have h₁ : (p == p + 1) = false := by simp
  have h₂ : (p == p + 2) = false := by simp
  have h₃ : (p + 1 == p + 2) = false := by simp
  rw [replacePlaceholders_eq, rewriteList_around _ _ _ _ hkeep, rewriteList_around _ _ _ _ hkeep,
    rewriteList_around _ _ _ _ hkeep]
  simp only [List.mem_cons, List.not_mem_nil, or_false, forall_eq_or_imp, forall_eq] at hbounds
  rw [hbounds.1, hbounds.2.1, hbounds.2.2]
  simp [Inst.rewriteList, placeholderKeep, Inst.rewrite, Inst.mapOperands, placeholderSwap, hlead',
    List.find?, h₁, h₂, h₃]

namespace Builder

/-- Appends an instruction to the innermost body of a stack. -/
def pushTop : List OpenBody → Inst → List OpenBody
  | o :: os, i => { o with insts := o.insts.push i } :: os
  | [], _ => []

/-- Closes the innermost body of a stack into the loop it belongs to, in the body below. -/
def closeTop : List OpenBody → List OpenBody
  | ⟨some (v, bound), insts⟩ :: rest@(_ :: _) => pushTop rest (.loop v bound insts.toList)
  | os => os

variable (b : Builder)

@[simp]
theorem pushTop_cons (o : OpenBody) (os : List OpenBody) (i : Inst) :
    pushTop (o :: os) i = { o with insts := o.insts.push i } :: os := rfl

@[simp]
theorem closeTop_single (o : OpenBody) : closeTop [o] = [o] := by
  rcases o with ⟨_ | ⟨v, bound⟩, insts⟩ <;> rfl

@[simp]
theorem push_open (i : Inst) : (b.push i).open_ = pushTop b.open_ i := by
  rcases b with ⟨next, _ | ⟨o, os⟩, fault⟩ <;> rfl

@[simp]
theorem push_next (i : Inst) : (b.push i).next = b.next := by
  rcases b with ⟨next, _ | ⟨o, os⟩, fault⟩ <;> rfl

@[simp]
theorem fresh_fst : b.fresh.1 = b.next := rfl

@[simp]
theorem fresh_next : b.fresh.2.next = b.next + 1 := rfl

@[simp]
theorem fresh_open : b.fresh.2.open_ = b.open_ := rfl

@[simp]
theorem define_fst (mk : Nat → Inst) : (b.define mk).1 = b.next := rfl

@[simp]
theorem define_next (mk : Nat → Inst) : (b.define mk).2.next = b.next + 1 := by
  simp [define]

@[simp]
theorem define_open (mk : Nat → Inst) : (b.define mk).2.open_ = pushTop b.open_ (mk b.next) := by
  simp [define]

@[simp]
theorem beginLoop_fst (bound : Operand) : (b.beginLoop bound).1 = b.next := rfl

@[simp]
theorem beginLoop_next (bound : Operand) : (b.beginLoop bound).2.next = b.next + 1 := rfl

@[simp]
theorem beginLoop_open (bound : Operand) :
    (b.beginLoop bound).2.open_ = ⟨some (b.next, bound), #[]⟩ :: b.open_ := rfl

@[simp]
theorem endLoop_open : b.endLoop.open_ = closeTop b.open_ := by
  unfold endLoop closeTop
  split <;> simp_all

@[simp]
theorem endLoop_next : b.endLoop.next = b.next := by
  unfold endLoop
  split <;> simp

@[simp]
theorem extend_next (is : List Inst) : (b.extend is).next = b.next := by
  induction is generalizing b with
  | nil => rfl
  | cons i is ih => exact (ih (b.push i)).trans (push_next b i)

@[simp]
theorem startingAt_open (n : Nat) : (startingAt n).open_ = [⟨none, #[]⟩] := rfl

@[simp]
theorem startingAt_next (n : Nat) : (startingAt n).next = n := rfl

theorem open_foldl_endLoop (l : List Nat) (b : Builder) :
    (l.foldl (fun b _ => b.endLoop) b).open_ = l.foldl (fun os _ => closeTop os) b.open_ := by
  induction l generalizing b with
  | nil => rfl
  | cons x l ih => simp [List.foldl, ih]

/-- What `finish` answers for a stack: the root body once every loop is closed. -/
def finishStack (os : List OpenBody) : List Inst :=
  ((((List.range os.length).foldl (fun os _ => closeTop os) os).getLast?).map (·.insts.toList)).getD []

@[simp]
theorem finish_eq : b.finish = finishStack b.open_ := by
  unfold finish finishStack
  dsimp only
  rw [open_foldl_endLoop]
  split <;> rename_i h <;> simp [h]

@[simp]
theorem finishStack_single (o : OpenBody) : finishStack [o] = o.insts.toList := by
  simp [finishStack]

/-- A builder with only its root body open finishes with that body's instructions. -/
theorem finish_of_open_eq (o : OpenBody) (h : b.open_ = [o]) : b.finish = o.insts.toList := by
  simp [h]

/-- Appends instructions to the innermost body of a stack, in order. -/
def pushAll (os : List OpenBody) (is : List Inst) : List OpenBody := is.foldl pushTop os

@[simp]
theorem pushAll_cons (o : OpenBody) (os : List OpenBody) (is : List Inst) :
    pushAll (o :: os) is = { o with insts := o.insts ++ is.toArray } :: os := by
  induction is generalizing o with
  | nil => simp [pushAll]
  | cons i is ih =>
      simp only [pushAll, List.foldl_cons, pushTop_cons] at ih ⊢
      rw [ih]
      simp

theorem extend_open (is : List Inst) : (b.extend is).open_ = pushAll b.open_ is := by
  induction is generalizing b with
  | nil => rfl
  | cons i is ih =>
      rw [show b.extend (i :: is) = (b.push i).extend is from rfl, ih (b.push i), push_open]
      rfl

end Builder

namespace LauncherGen

open Builder

/-- The level `openLoops` opens for a bound, with loop variable `v`: none for the constant one. -/
def level (bound : Operand) (v : Nat) : Option (Nat × Operand) :=
  if isOne bound then none else some (v, bound)

/-- The number of loops a level opens. -/
def opens (bound : Operand) : Nat := if isOne bound then 0 else 1

/-- The open body a level adds to the stack: none without a loop. -/
def frame : Option (Nat × Operand) → List OpenBody
  | none => []
  | some h => [⟨some h, #[]⟩]

/-- The three levels `openLoops` opens for the extents `[x, y, z]`, z first, their variables
counted from `next`. -/
def levels (next : Nat) (ex ey ez : Operand) :
    Option (Nat × Operand) × Option (Nat × Operand) × Option (Nat × Operand) :=
  (level ez next, level ey (next + opens ez), level ex (next + opens ez + opens ey))

/-- Opening the loops for three extents answers the index operands of x, y and z, the number of
loops opened, and a stack with one body per opened loop on top, the x loop innermost. -/
theorem openLoops_eq (b : Builder) (ex ey ez : Operand) :
    let d := levels b.next ex ey ez
    (openLoops b [ex, ey, ez]).1 = [Inst.index d.2.2, Inst.index d.2.1, Inst.index d.1] ∧
      (openLoops b [ex, ey, ez]).2.1 = opens ez + opens ey + opens ex ∧
      (openLoops b [ex, ey, ez]).2.2.next = b.next + (opens ez + opens ey + opens ex) ∧
      (openLoops b [ex, ey, ez]).2.2.open_ = frame d.2.2 ++ frame d.2.1 ++ frame d.1 ++ b.open_ := by
  simp only [openLoops, levels, level, opens, List.foldl, List.getD]
  by_cases hz : isOne ez <;> by_cases hy : isOne ey <;> by_cases hx : isOne ex <;>
    simp [hz, hy, hx, frame, Inst.index, Nat.add_assoc]

/-- The body call puts three placeholders for the local ids, then the call, on the innermost
body, and answers the placeholders' registers. -/
theorem bodyCall_eq (b : Builder) (body : String) (args : List Operand) (ctx : Operand) :
    (bodyCall b body args ctx).1 = [b.next, b.next + 1, b.next + 2] ∧
      (bodyCall b body args ctx).2.next = b.next + 3 ∧
      (bodyCall b body args ctx).2.open_ = pushAll b.open_
        [.placeholder b.next "_local_id_x", .placeholder (b.next + 1) "_local_id_y",
          .placeholder (b.next + 2) "_local_id_z",
          .call none body (args ++ [ctx] ++ [.reg b.next, .reg (b.next + 1), .reg (b.next + 2)])] := by
  simp [bodyCall, localIdParams, placeholder, Builder.call, pushAll, Nat.add_assoc]

@[simp]
theorem closeLoops_next (b : Builder) (n : Nat) : (closeLoops b n).next = b.next := by
  induction n with
  | zero => rfl
  | succ n ih =>
      simp only [closeLoops, List.range_succ, List.foldl_append, List.foldl_cons, List.foldl_nil,
        endLoop_next] at ih ⊢
      exact ih

/-- Closing the loops opened for three levels, with `inner` on the innermost body, leaves the
root body with the nest of the three levels around `inner` appended. -/
theorem closeLoops_levels (b : Builder) {root inner : List Inst} {dz dy dx : Option (Nat × Operand)}
    (h : b.open_ = pushAll (frame dx ++ frame dy ++ frame dz ++ [⟨none, root.toArray⟩]) inner) :
    (closeLoops b (dz.isSome.toNat + dy.isSome.toNat + dx.isSome.toNat)).open_ =
      [⟨none, (root ++ Inst.around dz (Inst.around dy (Inst.around dx inner))).toArray⟩] := by
  rcases dz with _ | ⟨vz, bz⟩ <;> rcases dy with _ | ⟨vy, by'⟩ <;> rcases dx with _ | ⟨vx, bx⟩ <;>
    simp [closeLoops, List.range_succ, h, frame, closeTop, Inst.around]

/-- The range tag of the local-size load for a dimension. -/
def localRange (g : LauncherGen) (dim : Nat) : Option ValueRange :=
  match ContextField.range g.cfg .localSize dim with
  | .ok r => r
  | .error _ => none

/-- The extent of a launcher's work-item loop for a dimension: the constant one past the
device's dimensions, else the fixed size, or the register `next` the local size is loaded into. -/
def extentOp (g : LauncherGen) (bounds : Bounds) (next dim : Nat) : Operand :=
  if dim < g.cfg.maxWorkItemDims then
    match bounds with
    | .fixed size => .imm (size.getD dim 0)
    | .context => .reg next
  else .imm 1

/-- The load a launcher emits for the extent of a dimension: the local size read from the
context into register `next`, when the bound comes from there. -/
def extentLoad (g : LauncherGen) (bounds : Bounds) (ctx : Operand) (next dim : Nat) : List Inst :=
  if dim < g.cfg.maxWorkItemDims then
    match bounds with
    | .fixed _ => []
    | .context => [.load next (g.context.fieldTy .localSize) ctx (g.context.offset .localSize dim)
        (g.localRange dim)]
  else []

theorem localBound_eq_ok {g : LauncherGen} {b b' : Builder} {ctx : Operand} {bounds : Bounds}
    {dim : Nat} {e : Operand} (h : g.localBound b ctx bounds dim = .ok (e, b')) :
    e = g.extentOp bounds b.next dim ∧ b'.next = b.next + (g.extentLoad bounds ctx b.next dim).length ∧
      b'.open_ = pushAll b.open_ (g.extentLoad bounds ctx b.next dim) := by
  unfold localBound at h
  unfold extentOp extentLoad
  by_cases hdim : dim < g.cfg.maxWorkItemDims
  · rw [if_neg (Nat.not_le.mpr hdim)] at h
    rw [if_pos hdim, if_pos hdim]
    cases bounds with
    | fixed size =>
        cases h
        simp [pushAll]
    | context =>
        simp only [loadField, loadFromContext] at h
        cases hr : ContextField.range g.cfg .localSize dim with
        | error f => simp [hr, bind, Except.bind] at h
        | ok r =>
            simp only [hr, bind, Except.bind, pure, Except.pure, Except.ok.injEq, Prod.mk.injEq] at h
            obtain ⟨rfl, rfl⟩ := h
            simp [localRange, hr, Builder.load, pushAll]
  · rw [if_pos (Nat.le_of_not_lt hdim)] at h
    rw [if_neg hdim, if_neg hdim]
    cases h
    simp [pushAll]

theorem opens_eq_toNat (bound : Operand) (v : Nat) : opens bound = (level bound v).isSome.toNat := by
  by_cases h : isOne bound <;> simp [opens, level, h]

theorem resolve_open (b : Builder) (phs : List Nat) (ids : List Operand) :
    (resolve b phs ids).open_ = [⟨none, (replacePlaceholders b.finish (phs.zip ids)).toArray⟩] := by
  simp [resolve, extend_open]

/-- A level whose bound the map leaves alone is left alone. -/
theorem level_map_swap {map : List (Nat × Operand)} {bound : Operand} (v : Nat)
    (h : placeholderSwap map bound = bound) :
    (level bound v).map (fun h => (h.1, placeholderSwap map h.2)) = level bound v := by
  by_cases hb : isOne bound <;> simp [level, hb, h]

/-- An extent whose load, if any, went to a register below the placeholders is left alone. -/
theorem placeholderSwap_extentOp (g : LauncherGen) (bounds : Bounds) (ctx : Operand) {n p : Nat}
    (dim : Nat) (a b c : Operand) (hn : n + (g.extentLoad bounds ctx n dim).length ≤ p) :
    placeholderSwap [(p, a), (p + 1, b), (p + 2, c)] (g.extentOp bounds n dim) =
      g.extentOp bounds n dim := by
  unfold extentOp
  unfold extentLoad at hn
  split
  · split
    · rfl
    · simp_all only [ite_true, List.length_singleton]
      exact placeholderSwap_reg_of_lt a b c (by omega)
  · rfl

/-- The loads of the extents read through the context parameter, which no map changes. -/
theorem replacePlaceholders_extentLoad (g : LauncherGen) (bounds : Bounds) {i : Nat} (n dim : Nat)
    (map : List (Nat × Operand)) :
    replacePlaceholders (g.extentLoad bounds (.param i) n dim) map = g.extentLoad bounds (.param i) n dim := by
  unfold extentLoad
  split
  · split <;> simp [replacePlaceholders_eq, Inst.rewriteList, placeholderKeep, Inst.rewrite, Inst.mapOperands]
  · simp [replacePlaceholders_eq, Inst.rewriteList]

/-- Building the work-item loops from an empty builder: the loads of the extents, then the nest
of the three levels, z outermost, around one call of the body whose last arguments are the
context and the indices of x, y and z. -/
theorem workItemLoops_eq_ok {g : LauncherGen} {b b' : Builder} {body : String}
    {args : List Operand} {i : Nat} {bounds : Bounds} (hb : b.open_ = [⟨none, #[]⟩])
    (hargs : ∀ o ∈ args, ∃ j, o = .param j)
    (h : g.workItemLoops b body args (.param i) bounds = .ok b') :
    let n₁ := b.next + (g.extentLoad bounds (.param i) b.next 0).length
    let n₂ := n₁ + (g.extentLoad bounds (.param i) n₁ 1).length
    let d := levels (n₂ + (g.extentLoad bounds (.param i) n₂ 2).length)
      (g.extentOp bounds b.next 0) (g.extentOp bounds n₁ 1) (g.extentOp bounds n₂ 2)
    b'.open_ = [⟨none, (g.extentLoad bounds (.param i) b.next 0 ++ g.extentLoad bounds (.param i) n₁ 1 ++
      g.extentLoad bounds (.param i) n₂ 2 ++ Inst.around d.1 (Inst.around d.2.1 (Inst.around d.2.2
        [.call none body (args ++ [.param i] ++ [Inst.index d.2.2, Inst.index d.2.1, Inst.index d.1])]))).toArray⟩] := by
  intro n₁ n₂ d
  simp only [workItemLoops, List.foldlM] at h
  -- the three extents, x first
  obtain ⟨⟨es, b₁⟩, hext, h⟩ := except_bind_eq_ok.mp h
  obtain ⟨s₀, h₀, hext⟩ := except_bind_eq_ok.mp hext
  obtain ⟨⟨e₀, c₀⟩, hl₀, h₀⟩ := except_bind_eq_ok.mp h₀
  obtain rfl := except_pure_eq_ok.mp h₀
  obtain ⟨rfl, hn₀, ho₀⟩ := localBound_eq_ok hl₀
  dsimp only at hext
  obtain ⟨s₁, h₁, hext⟩ := except_bind_eq_ok.mp hext
  obtain ⟨⟨e₁, c₁⟩, hl₁, h₁⟩ := except_bind_eq_ok.mp h₁
  obtain rfl := except_pure_eq_ok.mp h₁
  obtain ⟨rfl, hn₁, ho₁⟩ := localBound_eq_ok hl₁
  dsimp only at hext
  obtain ⟨s₂, h₂, hext⟩ := except_bind_eq_ok.mp hext
  obtain ⟨⟨e₂, c₂⟩, hl₂, h₂⟩ := except_bind_eq_ok.mp h₂
  obtain rfl := except_pure_eq_ok.mp h₂
  obtain ⟨rfl, hn₂, ho₂⟩ := localBound_eq_ok hl₂
  dsimp only at hext
  obtain ⟨rfl, rfl⟩ := Prod.mk.inj (except_pure_eq_ok.mp hext)
  obtain rfl := except_pure_eq_ok.mp h
  dsimp only [List.nil_append, List.cons_append]
  have hn₀' : c₀.next = n₁ := hn₀
  rw [hn₀'] at hn₁ ho₁
  have hn₁' : c₁.next = n₂ := hn₁
  rw [hn₁'] at hn₂ ho₂
  rw [hn₀', hn₁']
  -- the loops, the call with its placeholders, and the loops closed again
  obtain ⟨hids, hopened, hnext, hopen⟩ := openLoops_eq c₂ (g.extentOp bounds b.next 0)
    (g.extentOp bounds n₁ 1) (g.extentOp bounds n₂ 2)
  rw [hn₂] at hids hnext hopen
  obtain ⟨hphs, -, hcall⟩ := bodyCall_eq (openLoops c₂ [g.extentOp bounds b.next 0,
    g.extentOp bounds n₁ 1, g.extentOp bounds n₂ 2]).2.2 body args (.param i)
  have hc₂ : c₂.open_ = [⟨none, (g.extentLoad bounds (.param i) b.next 0 ++ g.extentLoad bounds (.param i) n₁ 1 ++
      g.extentLoad bounds (.param i) n₂ 2).toArray⟩] := by
    rw [ho₂, ho₁, ho₀, hb]
    simp
  rw [hopen, hc₂] at hcall
  have hclosed := closeLoops_levels _ hcall
  simp only [levels] at hclosed
  rw [← opens_eq_toNat, ← opens_eq_toNat, ← opens_eq_toNat, ← hopened] at hclosed
  rw [resolve_open, finish_of_open_eq _ _ hclosed, hids, hphs, hnext]
  simp only [List.zip_cons_cons, List.zip_nil_right]
  rw [replacePlaceholders_eq, rewriteList_append, rewriteList_append, rewriteList_append,
    ← replacePlaceholders_eq, ← replacePlaceholders_eq, ← replacePlaceholders_eq, ← replacePlaceholders_eq,
    replacePlaceholders_extentLoad, replacePlaceholders_extentLoad, replacePlaceholders_extentLoad]
  -- the extents are below the placeholders, so resolving leaves the levels alone
  have hswap : ∀ (n dim p : Nat) (a b c : Operand), n + (g.extentLoad bounds (.param i) n dim).length ≤ p →
      ∀ v, (level (g.extentOp bounds n dim) v).map
        (fun h => (h.1, placeholderSwap [(p, a), (p + 1, b), (p + 2, c)] h.2)) =
        level (g.extentOp bounds n dim) v := fun n dim p a b c hn v =>
    level_map_swap v (placeholderSwap_extentOp g bounds (.param i) dim a b c hn)
  have hn₁v : n₁ = b.next + (g.extentLoad bounds (.param i) b.next 0).length := rfl
  have hn₂v : n₂ = n₁ + (g.extentLoad bounds (.param i) n₁ 1).length := rfl
  rw [replacePlaceholders_nest (args ++ ([.param i] : List Operand))]
  · simp [d, levels]
  · intro o ho
    rcases List.mem_append.mp ho with ho | ho
    · exact hargs o ho
    · exact ⟨i, List.mem_singleton.mp ho⟩
  · simp only [List.mem_cons, List.not_mem_nil, or_false, forall_eq_or_imp, forall_eq]
    refine ⟨hswap _ _ _ _ _ _ (by omega) _, hswap _ _ _ _ _ _ (by omega) _,
      hswap _ _ _ _ _ _ (by omega) _⟩

theorem params_direct_length (g : LauncherGen) :
    (g.kernel.params ++ [({ name := contextParam, ty := g.cfg.contextPtr } : Param)]).length - 1 =
      g.kernel.params.length := by
  simp

/-- A work-item launcher taking the kernel's parameters: its parameters are the kernel's and the
context pointer, and its body loads the extents, loops over the local ids, z outermost, calls the
body with the arguments, the context and the ids, and returns. -/
theorem generate_workItems_eq_ok {g : LauncherGen} {kind : LauncherKind} {body : String}
    {bounds : Bounds} {f : Function} {log : Log}
    (h : g.generate ⟨kind, .direct, .forward, .workItems body bounds⟩ = .ok (f, log)) :
    let n := g.kernel.params.length
    let n₁ := (g.extentLoad bounds (.param n) 0 0).length
    let n₂ := n₁ + (g.extentLoad bounds (.param n) n₁ 1).length
    let d := levels (n₂ + (g.extentLoad bounds (.param n) n₂ 2).length)
      (g.extentOp bounds 0 0) (g.extentOp bounds n₁ 1) (g.extentOp bounds n₂ 2)
    f.name = kind.symbol g.kernel.name ∧
      f.params = g.kernel.params ++ [{ name := contextParam, ty := g.cfg.contextPtr }] ∧
      f.body = some (g.extentLoad bounds (.param n) 0 0 ++ g.extentLoad bounds (.param n) n₁ 1 ++
        g.extentLoad bounds (.param n) n₂ 2 ++ Inst.around d.1 (Inst.around d.2.1 (Inst.around d.2.2
          [.call none body ((List.range n).map Operand.param ++ [.param n] ++
            [Inst.index d.2.2, Inst.index d.2.1, Inst.index d.1])])) ++ [.ret]) := by
  intro n n₁ n₂ d
  simp only [generate, params_direct_length] at h
  obtain ⟨b', hb', h⟩ := except_bind_eq_ok.mp h
  have hopen := workItemLoops_eq_ok (startingAt_open 0)
    (fun o ho => by simp at ho; obtain ⟨j, -, rfl⟩ := ho; exact ⟨j, rfl⟩) hb'
  cases hf : b'.ret.fault with
  | some e => simp [hf, throw, throwThe, MonadExceptOf.throw, bind, Except.bind] at h
  | none =>
      simp only [hf, except_pure_eq_ok, Prod.mk.injEq] at h
      obtain ⟨rfl, -⟩ := h
      refine ⟨rfl, rfl, ?_⟩
      simp only [Builder.ret]
      rw [finish_of_open_eq _ _ (by rw [push_open, hopen]; rfl)]
      simp [n₁, n₂, d, n]

/-- The calls of the local-id intrinsic a hardware launcher makes, one per dimension of the
device, into registers from `next` on. -/
def idCalls (m next : Nat) : List Inst :=
  (List.range m).map fun d => Inst.call (some (next + d)) localIdIntrinsic [.imm d]

/-- The local ids a hardware launcher passes: the intrinsic's answers below the device's
dimensions, zero past them. -/
def hardwareIdOps (m next : Nat) : List Operand :=
  (List.range 3).map fun d => if d < m then .reg (next + d) else .imm 0

theorem hardwareIds_open {g : LauncherGen} {b : Builder} (body : String) {args : List Operand}
    {i : Nat} (hb : b.open_ = [⟨none, #[]⟩]) (hm : g.cfg.maxWorkItemDims ≤ 3)
    (hargs : ∀ o ∈ args, ∃ j, o = .param j) :
    (g.hardwareIds b body args (.param i)).open_ =
      [⟨none, (idCalls g.cfg.maxWorkItemDims b.next ++
        [Inst.call none body (args ++ [.param i] ++ hardwareIdOps g.cfg.maxWorkItemDims b.next)]).toArray⟩] := by
  have hargs' : ∀ map, args.map (placeholderSwap map) = args := fun map =>
    (List.map_congr_left fun o ho => by obtain ⟨j, rfl⟩ := hargs o ho; rfl).trans (List.map_id args)
  simp only [hardwareIds]
  -- the device has at most three dimensions, and each count unrolls the loop over them
  rcases (by omega : g.cfg.maxWorkItemDims = 0 ∨ g.cfg.maxWorkItemDims = 1 ∨
      g.cfg.maxWorkItemDims = 2 ∨ g.cfg.maxWorkItemDims = 3) with hm | hm | hm | hm <;>
  simp (disch := omega) [hm, bodyCall, localIdParams, List.range_succ, Builder.callValue, placeholder,
    Builder.call, resolve_open, hb, replacePlaceholders_eq, Inst.rewriteList, placeholderKeep,
    Inst.rewrite, Inst.mapOperands, placeholderSwap, hargs', idCalls, hardwareIdOps, List.find?,
    nat_beq_false_of_ne]

/-- A hardware launcher taking the kernel's parameters asks the intrinsic for the local id of
each dimension of the device, calls the body once with the arguments, the context and the ids,
and returns. -/
theorem generate_hardware_eq_ok {g : LauncherGen} {kind : LauncherKind} {body : String}
    {f : Function} {log : Log} (hm : g.cfg.maxWorkItemDims ≤ 3)
    (h : g.generate ⟨kind, .direct, .forward, .hardware body⟩ = .ok (f, log)) :
    let n := g.kernel.params.length
    f.name = kind.symbol g.kernel.name ∧
      f.params = g.kernel.params ++ [{ name := contextParam, ty := g.cfg.contextPtr }] ∧
      f.body = some (idCalls g.cfg.maxWorkItemDims 0 ++
        [.call none body ((List.range n).map Operand.param ++ [.param n] ++
          hardwareIdOps g.cfg.maxWorkItemDims 0), .ret]) := by
  intro n
  simp only [generate, params_direct_length] at h
  obtain ⟨b', hb', hrest⟩ := except_bind_eq_ok.mp h
  have hopen : b'.open_ = _ := (except_pure_eq_ok.mp hb') ▸ hardwareIds_open (g := g) body
    (i := n) (startingAt_open 0) hm (fun o ho => by simp at ho; obtain ⟨j, -, rfl⟩ := ho; exact ⟨j, rfl⟩)
  cases hf : b'.ret.fault with
  | some e => simp [hf, throw, throwThe, MonadExceptOf.throw, bind, Except.bind] at hrest
  | none =>
      simp only [hf, except_pure_eq_ok, Prod.mk.injEq] at hrest
      obtain ⟨rfl, -⟩ := hrest
      refine ⟨rfl, rfl, ?_⟩
      simp [Builder.ret, hopen, n]

/-- A launcher that calls its body once: the body gets the arguments and the context. -/
theorem generate_once_eq_ok {g : LauncherGen} {kind : LauncherKind} {body : String}
    {f : Function} {log : Log} (h : g.generate ⟨kind, .direct, .forward, .once body⟩ = .ok (f, log)) :
    let n := g.kernel.params.length
    f.name = kind.symbol g.kernel.name ∧
      f.params = g.kernel.params ++ [{ name := contextParam, ty := g.cfg.contextPtr }] ∧
      f.body = some [.call none body ((List.range n).map Operand.param ++ [.param n]), .ret] := by
  intro n
  simp only [generate, params_direct_length] at h
  obtain ⟨b', hb', hrest⟩ := except_bind_eq_ok.mp h
  cases hf : b'.ret.fault with
  | some e => simp [hf, throw, throwThe, MonadExceptOf.throw, bind, Except.bind] at hrest
  | none =>
      simp only [hf, except_pure_eq_ok, Prod.mk.injEq] at hrest
      obtain ⟨rfl, -⟩ := hrest
      obtain rfl := except_pure_eq_ok.mp hb'
      refine ⟨rfl, rfl, ?_⟩
      simp [Builder.ret, Builder.call, n]

/-- The instructions that read one slot of the argument buffer, with fresh registers from `next`
on, and the register that then holds the argument: a load for scalars, pointers and local
pointers; a private copy for an aggregate; a load of the size and an allocation for local memory
the launcher allocates. -/
def slotCode (g : LauncherGen) (s : ArgSlot) (next : Nat) : List Inst × Nat :=
  let ty := (g.kernel.params[s.index]?.map (·.ty)).getD .i32
  match s.kind with
  | .scalar | .pointer => ([.load next ty (.param 0) s.offset none], next)
  | .byValue => ([.alloca next privateAddressSpace (.imm s.size) s.align,
      .memcpy (.reg next) (.param 0) s.offset s.size], next)
  | .localMemory true => ([.load next (Ty.sizeT g.cfg.sizeTWidth) (.param 0) s.offset none,
      .alloca (next + 1) g.cfg.addressSpaces.localSpace (.reg next) localBufferAlign], next + 1)
  | .localMemory false => ([.load next g.cfg.localPtr (.param 0) s.offset none], next)

/-- The code of a list of items, each item's code in turn with fresh registers from `next` on,
and the registers holding the items' values. -/
def codeOf {α : Type} (code : α → Nat → List Inst × Nat) : List α → Nat → List Inst × List Nat
  | [], _ => ([], [])
  | x :: xs, next =>
      let (c, r) := code x next
      let (rest, rs) := codeOf code xs (r + 1)
      (c ++ rest, r :: rs)

/-- A fold that, for each item, appends the register of its code to the arguments and the code to
the innermost body, answers the registers and the code of the whole list. -/
theorem foldl_code {α : Type} (step : List Operand × Builder → α → List Operand × Builder)
    (code : α → Nat → List Inst × Nat)
    (hstep : ∀ args b x, (step (args, b) x).1 = args ++ [.reg (code x b.next).2] ∧
      (step (args, b) x).2.next = (code x b.next).2 + 1 ∧
      (step (args, b) x).2.open_ = pushAll b.open_ (code x b.next).1) :
    ∀ (xs : List α) (args : List Operand) (b : Builder),
      (xs.foldl step (args, b)).1 = args ++ (codeOf code xs b.next).2.map Operand.reg ∧
        (xs.foldl step (args, b)).2.open_ = pushAll b.open_ (codeOf code xs b.next).1 := by
  intro xs
  induction xs with
  | nil => intro args b; simp [codeOf, pushAll]
  | cons x xs ih =>
      intro args b
      obtain ⟨h₁, h₂, h₃⟩ := hstep args b x
      rw [List.foldl_cons, show step (args, b) x = ((step (args, b) x).1, (step (args, b) x).2) from rfl]
      obtain ⟨ih₁, ih₂⟩ := ih (step (args, b) x).1 (step (args, b) x).2
      refine ⟨?_, ?_⟩
      · rw [ih₁, h₁, h₂]
        simp [codeOf]
      · rw [ih₂, h₃, h₂]
        simp [codeOf, pushAll, List.foldl_append]

/-- Unpacking an argument buffer emits each slot's code in turn and answers the registers of the
arguments. -/
theorem unpack_eq (g : LauncherGen) (b : Builder) (l : ArgBufferLayout) :
    (g.unpack b l).1 = (codeOf g.slotCode l.slots b.next).2.map Operand.reg ∧
      (g.unpack b l).2.open_ = pushAll b.open_ (codeOf g.slotCode l.slots b.next).1 := by
  unfold unpack
  dsimp only
  refine foldl_code _ g.slotCode ?_ l.slots [] b
  intro args b s
  rcases hk : s.kind with _ | _ | _ | ⟨_ | _⟩ <;>
    simp [hk, slotCode, Builder.load, Builder.alloca, Builder.memcpy, pushAll]

/-- An argument-buffer launcher reads each slot of the buffer, then calls the launcher it
delegates to once, with the arguments read and the context, and returns. -/
theorem generate_delegate_eq_ok {g : LauncherGen} {kind : LauncherKind} {l : ArgBufferLayout}
    {launcher : String} {f : Function} {log : Log}
    (h : g.generate ⟨kind, .buffer, .unpack l, .delegate launcher⟩ = .ok (f, log)) :
    f.name = kind.symbol g.kernel.name ∧
      f.params = [{ name := "_args", ty := g.cfg.argsPtr }, { name := contextParam, ty := g.cfg.contextPtr }] ∧
      f.body = some ((codeOf g.slotCode l.slots 0).1 ++
        [.call none launcher ((codeOf g.slotCode l.slots 0).2.map Operand.reg ++ [.param 1]), .ret]) := by
  simp only [generate] at h
  obtain ⟨b', hb', hrest⟩ := except_bind_eq_ok.mp h
  obtain ⟨hargs, hopen⟩ := unpack_eq g (startingAt 0) l
  cases hf : b'.ret.fault with
  | some e => simp [hf, throw, throwThe, MonadExceptOf.throw, bind, Except.bind] at hrest
  | none =>
      simp only [hf, except_pure_eq_ok, Prod.mk.injEq] at hrest
      obtain ⟨rfl, -⟩ := hrest
      obtain rfl := except_pure_eq_ok.mp hb'
      refine ⟨rfl, rfl, ?_⟩
      simp [Builder.ret, Builder.call, hargs, hopen]

end LauncherGen

end KernelLaunch
