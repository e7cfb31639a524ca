import KernelLaunch.Proofs.Pass.Clones
import KernelLaunch.Proofs.Ir.Insts
import KernelLaunch.Proofs.Launch.Builder

/-!
# Where a derived body's output goes

On a device that prints into a buffer, threading a kernel's body loads the buffer's three operands
and routes its output there: every formatted output gets the buffer triple, and every call of a
printing helper becomes a call of the helper's clone, which takes the three operands as extra
parameters and is routed the same way (`OutputClones.thread`). This module shows what a committed
emission's bodies and clones may still call and print (`Routes`): no formatted output goes to the
host, and every call is of a name the kernel calls, directly or not, that prints nothing, or of the
clone of a helper the pass's cache holds (`Pass.processKernel_routes`).

`outputRoute` is the routing of one instruction, and `routeOutput_eq` shows that routing a function
rewrites its instructions with it; `Inst.mem_preorderList_rewriteList` then reads every
instruction of the result back to one of the original. A derived body is the kernel's
instructions after a prelude of loads (`Function.DerivedBody`), so it calls what the kernel calls.
-/

namespace KernelLaunch

open Relation

namespace Inst

/-- A formatted output without the buffer triple: its text goes to the host-side stream. -/
def isHostPrintf : Inst → Bool
  | .printf _ _ none => true
  | _ => false

/-- A load, which neither calls nor prints. -/
def IsLoad (i : Inst) : Prop := ∃ d ty p off r, i = .load d ty p off r

theorem preorderList_of_loads : ∀ {is : List Inst}, (∀ i ∈ is, i.IsLoad) → preorderList is = is
  | [], _ => rfl
  | i :: is, h => by
      obtain ⟨d, ty, p, off, r, rfl⟩ := h i List.mem_cons_self
      rw [preorderList, preorderList_of_loads fun j hj => h j (List.mem_cons_of_mem _ hj)]
      rfl

theorem isPrintf_of_isHostPrintf {i : Inst} (h : i.isHostPrintf = true) : i.isPrintf = true := by
  cases i with
  | printf fmt args buf => rfl
  | _ => simp [isHostPrintf] at h

@[simp] theorem isPrintf_mapOperands (g : Operand → Operand) (i : Inst) :
    (mapOperands g i).isPrintf = i.isPrintf := by
  cases i <;> rfl

theorem eq_call_of_mapOperands {g : Operand → Operand} {i : Inst} {d : Option Nat} {y : String}
    {args : List Operand} (h : mapOperands g i = .call d y args) : ∃ args₀, i = .call d y args₀ := by
  cases i <;> simp_all [mapOperands]

end Inst

/-! ## Routing one instruction -/

/-- What routing output into `buffer` does to one instruction: a formatted output gets the
buffer triple, and a call of a printing function that has a clone calls the clone, with the buffer
appended. -/
def outputRoute (printing : List String) (clones : OutputClones) (buffer : List Operand) : Inst → Inst
  | .printf fmt args _ => .printf fmt args (match buffer with
      | [a, b, c] => some (a, b, c)
      | _ => none)
  | .call d callee args =>
      if printing.contains callee then
        match clones.get? callee with
        | some clone => .call d clone (args ++ buffer)
        | none => .call d callee args
      else .call d callee args
  | i => i

theorem routeOutput_eq (f : Function) (printing : List String) (clones : OutputClones) (buffer : List Operand) :
    routeOutput f printing clones buffer =
      { f with body := f.body.map (Inst.rewriteList (outputRoute printing clones buffer) (fun _ => true)) } := by
  unfold routeOutput
  dsimp only
  congr 3
  funext i
  cases i <;> rfl

section Route

variable {printing : List String} {clones : OutputClones} {buffer : List Operand}

theorem keepsLoops_outputRoute : Inst.KeepsLoops (outputRoute printing clones buffer) where
  loop v b body := ⟨b, rfl⟩
  not_loop i := by
    cases i with
    | call d callee args =>
        simp only [outputRoute]
        split
        · split <;> simp [Inst.IsLoop]
        · simp [Inst.IsLoop]
    | _ => simp [outputRoute, Inst.IsLoop]

/-- Routed into three operands, no instruction prints to the host. -/
theorem isHostPrintf_outputRoute (hbuf : buffer.length = 3) (i : Inst) :
    (outputRoute printing clones buffer i).isHostPrintf = false := by
  match buffer, hbuf with
  | [a, b, c], _ =>
    cases i with
    | call d callee args =>
        simp only [outputRoute]
        split
        · split <;> rfl
        · rfl
    | _ => rfl

/-- A routed call is the original call, of a function that prints nothing or has no clone, or a
call of the clone of a printing function. -/
theorem outputRoute_eq_call {i : Inst} {d : Option Nat} {y : String} {args : List Operand}
    (h : outputRoute printing clones buffer i = .call d y args) :
    (i = .call d y args ∧ (printing.contains y = false ∨ clones.get? y = none)) ∨
      ∃ x args₀, i = .call d x args₀ ∧ printing.contains x = true ∧ clones.get? x = some y := by
  cases i with
  | call d' callee args' =>
      simp only [outputRoute] at h
      split at h
      · rename_i hp
        split at h
        · rename_i clone hclone
          simp only [Inst.call.injEq] at h
          obtain ⟨rfl, rfl, -⟩ := h
          exact .inr ⟨callee, args', rfl, hp, hclone⟩
        · rename_i hclone
          simp only [Inst.call.injEq] at h
          obtain ⟨rfl, rfl, rfl⟩ := h
          exact .inl ⟨rfl, .inr hclone⟩
      · rename_i hp
        simp only [Inst.call.injEq] at h
        obtain ⟨rfl, rfl, rfl⟩ := h
        exact .inl ⟨rfl, .inl (by simpa using hp)⟩
  | printf => simp [outputRoute] at h
  | _ => simp_all [outputRoute]

theorem allInsts_routeOutput (f : Function) :
    (routeOutput f printing clones buffer).allInsts =
      Inst.preorderList (Inst.rewriteList (outputRoute printing clones buffer) (fun _ => true) f.insts) := by
  rw [routeOutput_eq]
  cases hb : f.body with
  | none => simp [Function.allInsts, Function.insts, hb, Inst.rewriteList, Inst.preorderList]
  | some is => simp [Function.allInsts, Function.insts, hb]

/-- A function routed into three operands prints nothing to the host, and calls what the original
calls, or the clone of a printing function the original calls. -/
theorem routeOutput_routes (hbuf : buffer.length = 3) (f : Function) :
    (routeOutput f printing clones buffer).contains Inst.isHostPrintf = false ∧
      ∀ y ∈ (routeOutput f printing clones buffer).callees,
        (y ∈ f.callees ∧ (y ∉ printing ∨ clones.get? y = none)) ∨
          ∃ x ∈ f.callees, x ∈ printing ∧ clones.get? x = some y := by
  have hmem := fun {j : Inst} (hj : j ∈ (routeOutput f printing clones buffer).allInsts) =>
    Inst.mem_preorderList_rewriteList keepsLoops_outputRoute f.insts (allInsts_routeOutput f ▸ hj)
  refine ⟨Function.contains_eq_false.mpr fun j hj => ?_, fun y hy => ?_⟩
  · rcases hmem hj with ⟨k, -, rfl⟩ | ⟨v, b, body, rfl⟩
    · exact isHostPrintf_outputRoute hbuf k
    · rfl
  · obtain ⟨d, args, hcall⟩ := Function.mem_callees.mp hy
    rcases hmem hcall with ⟨k, hk, hroute⟩ | ⟨v, b, body, hloop⟩
    · rcases outputRoute_eq_call hroute.symm with ⟨rfl, hy'⟩ | ⟨x, args₀, rfl, hx, hclone⟩
      · refine .inl ⟨Function.mem_callees.mpr ⟨d, args, hk⟩, ?_⟩
        simpa using hy'
      · exact .inr ⟨x, Function.mem_callees.mpr ⟨d, args₀, hk⟩, by simpa using hx, hclone⟩
    · cases hloop

end Route

/-! ## Preludes of loads -/

/-- A fold in `Except` keeps an invariant indexed by the number of steps taken, when each step
does. -/
theorem foldlM_invariant {α σ ε : Type} {step : σ → α → Except ε σ} {I : Nat → σ → Prop} :
    ∀ {xs : List α} {k : Nat} {s s' : σ}, xs.foldlM step s = .ok s' → I k s →
      (∀ k s x s', I k s → step s x = .ok s' → I (k + 1) s') → I (k + xs.length) s'
  | [], k, s, s', h, hI, _ => by
      rw [List.foldlM_nil, except_pure_eq_ok] at h
      exact h ▸ hI
  | x :: xs, k, s, s', h, hI, hstep => by
      rw [List.foldlM_cons] at h
      obtain ⟨s₁, h₁, h⟩ := except_bind_eq_ok.mp h
      have := foldlM_invariant h (hstep k s x s₁ hI h₁) hstep
      rwa [List.length_cons, show k + (xs.length + 1) = k + 1 + xs.length by omega]

namespace Builder

/-- A builder with only its root body open, which holds loads only. -/
def LoadsOnly (b : Builder) : Prop :=
  ∃ insts : Array Inst, b.open_ = [⟨none, insts⟩] ∧ ∀ i ∈ insts.toList, i.IsLoad

theorem loadsOnly_startingAt (n : Nat) : (startingAt n).LoadsOnly := ⟨#[], rfl, by simp⟩

theorem LoadsOnly.load {b : Builder} (h : b.LoadsOnly) (ty : Ty) (ptr : Operand) (off : Nat)
    (r : Option ValueRange) : (b.load ty ptr off r).2.LoadsOnly := by
  obtain ⟨insts, hopen, hloads⟩ := h
  refine ⟨insts.push (.load b.next ty ptr off r), ?_, fun i hi => ?_⟩
  · show (b.define _).2.open_ = _
    rw [define_open, hopen, pushTop_cons]
  rcases List.mem_append.mp (Array.toList_push ▸ hi) with hi | hi
  · exact hloads i hi
  · rw [List.mem_singleton.mp hi]
    exact ⟨_, _, _, _, _, rfl⟩

theorem LoadsOnly.finish {b : Builder} (h : b.LoadsOnly) : ∀ i ∈ b.finish, i.IsLoad := by
  obtain ⟨insts, hopen, hloads⟩ := h
  rw [finish_of_open_eq b _ hopen]
  exact hloads

end Builder

section Loads

variable {b b' : Builder} {c : DeviceConfig} {l : ContextLayout}

/-- A context load hands the builder back with one load added. -/
theorem loadFromContext_eq_ok {ctx : Operand} {f : ContextField} {dim r : Nat}
    (h : loadFromContext b c l ctx f dim = .ok (r, b')) :
    ∃ rng, b' = (b.load (l.fieldTy f) ctx (l.offset f dim) rng).2 := by
  unfold loadFromContext at h
  obtain ⟨rng, -, h⟩ := except_bind_eq_ok.mp h
  rw [except_pure_eq_ok] at h
  exact ⟨rng, (congrArg Prod.snd h).symm⟩

/-- The operand for a handle hands the builder back as it was, or after one context load. -/
theorem handleValue_eq_ok {flavor : BodyFlavor} {n : Nat} {h : HandleRef} {v : Option Operand}
    (hv : handleValue c l flavor n b h = .ok (v, b')) :
    b' = b ∨ ∃ f dim r, loadFromContext b c l (.param n) f dim = .ok (r, b') := by
  unfold handleValue at hv
  -- every way but a context load hands the builder back as it is
  repeat' split at hv
  all_goals first
    | cases hv <;> exact .inl rfl
    | obtain ⟨⟨r, b₁⟩, hload, hv⟩ := except_bind_eq_ok.mp hv
      rw [except_pure_eq_ok, Prod.mk.injEq] at hv
      exact .inr ⟨_, _, r, hv.2 ▸ hload⟩

theorem loadsOnly_loadFromContext {ctx : Operand} {f : ContextField} {dim r : Nat} (hb : b.LoadsOnly)
    (h : loadFromContext b c l ctx f dim = .ok (r, b')) : b'.LoadsOnly := by
  obtain ⟨rng, rfl⟩ := loadFromContext_eq_ok h
  exact hb.load _ _ _ _

theorem loadsOnly_handleValue {flavor : BodyFlavor} {n : Nat} {h : HandleRef} {v : Option Operand}
    (hb : b.LoadsOnly) (hv : handleValue c l flavor n b h = .ok (v, b')) : b'.LoadsOnly := by
  rcases handleValue_eq_ok hv with rfl | ⟨f, dim, r, hload⟩
  · exact hb
  · exact loadsOnly_loadFromContext hb hload

end Loads

/-! ## Derived bodies -/

/-- A body derived from `kernel`: loads, then the kernel's instructions with their operands
rewritten. -/
def Function.DerivedBody (kernel body : Function) : Prop :=
  ∃ pre g, (∀ i ∈ pre, i.IsLoad) ∧
    body.allInsts = pre ++ Inst.preorderList (Inst.rewriteList (Inst.mapOperands g) (fun _ => true) kernel.insts)

/-- The operand privatizing puts for an operand: a mapped handle's value, else the operand itself. -/
def handleSwap (values : List (HandleRef × Operand)) : Operand → Operand
  | .handle h => (Function.lookupHandle values h).getD (.handle h)
  | o => o

theorem Function.insts_privatize (f : Function) (values : List (HandleRef × Operand)) :
    (f.privatize values).1.insts = Inst.rewriteList (Inst.mapOperands (handleSwap values)) (fun _ => true) f.insts := by
  unfold Function.privatize
  split
  · rename_i hb
    simp [Function.insts, hb, Inst.rewriteList]
  · rename_i is hb
    simp only [Function.insts, hb, Option.getD_some]
    congr 2
    funext o
    cases o <;> rfl

/-- A body derived from a kernel is loads from the context, then the kernel's instructions with
its handles replaced. -/
theorem derivedBody_deriveBody {kernel body : Function} {c : DeviceConfig} {l : ContextLayout}
    {flavor : BodyFlavor} {shaped : Bool} {notes : Log}
    (h : deriveBody kernel c l flavor shaped = .ok (.ok (body, notes))) : kernel.DerivedBody body := by
  unfold deriveBody at h
  simp only [bind, Except.bind, pure, Except.pure] at h
  repeat' split at h
  all_goals first
    | (cases h; done)
    | cases h
      -- the prelude is built by context loads alone
      have hpre := @foldlM_invariant _ _ _ _ (fun _ (s : List (HandleRef × Operand) × Builder) => s.2.LoadsOnly)
        _ 0 _ _ ‹List.foldlM _ _ _ = Except.ok _› (Builder.loadsOnly_startingAt _) fun k s x s' hs hx => by
          split at hx
          · cases hx
          · rename_i v hv
            repeat' split at hx
            all_goals first
              | (cases hx; done)
              | cases hx
                exact loadsOnly_handleValue hs hv
      unfold Function.DerivedBody
      rw [Function.allInsts_withBody, Inst.preorderList_append, Inst.preorderList_of_loads hpre.finish,
        Function.insts_privatize]
      exact ⟨_, _, hpre.finish, rfl⟩

namespace Function.DerivedBody

variable {kernel body : Function}

/-- An instruction of a derived body is a load, a loop, or an instruction of the kernel with its
operands rewritten. -/
theorem mem_allInsts (h : kernel.DerivedBody body) {i : Inst} (hi : i ∈ body.allInsts) :
    i.IsLoad ∨ (∃ k ∈ kernel.allInsts, ∃ g, i = Inst.mapOperands g k) ∨ i.IsLoop := by
  obtain ⟨pre, g, hpre, heq⟩ := h
  rw [heq] at hi
  rcases List.mem_append.mp hi with hi | hi
  · exact .inl (hpre i hi)
  · rcases Inst.mem_preorderList_rewriteList (Inst.keepsLoops_mapOperands g) kernel.insts hi with
      ⟨k, hk, rfl⟩ | hloop
    · exact .inr (.inl ⟨k, hk, g, rfl⟩)
    · exact .inr (.inr hloop)

/-- A derived body calls only what its kernel calls. -/
theorem callees_subset (h : kernel.DerivedBody body) {y : String} (hy : y ∈ body.callees) : y ∈ kernel.callees := by
  obtain ⟨d, args, hcall⟩ := Function.mem_callees.mp hy
  rcases h.mem_allInsts hcall with ⟨_, _, _, _, _, hload⟩ | ⟨k, hk, g, hkg⟩ | ⟨_, _, _, hloop⟩
  · cases hload
  · obtain ⟨args₀, rfl⟩ := Inst.eq_call_of_mapOperands hkg.symm
    exact Function.mem_callees.mpr ⟨d, args₀, hk⟩
  · cases hloop

/-- A derived body prints only when its kernel does. -/
theorem prints (h : kernel.DerivedBody body) (hp : body.contains Inst.isPrintf = true) :
    kernel.contains Inst.isPrintf = true := by
  cases hk : kernel.contains Inst.isPrintf
  · have hquiet : body.contains Inst.isPrintf = false := Function.contains_eq_false.mpr fun i hi => by
      rcases h.mem_allInsts hi with ⟨_, _, _, _, _, rfl⟩ | ⟨k, hk', g, rfl⟩ | ⟨_, _, _, rfl⟩
      · rfl
      · rw [Inst.isPrintf_mapOperands]
        exact Function.contains_eq_false.mp hk k hk'
      · rfl
    rw [hquiet] at hp
    cases hp
  · rfl

end Function.DerivedBody

/-! ## Printing functions -/

namespace Module

/-- The function named `x` prints, or calls, directly or through others, a function of `m` that
prints. -/
def Prints (m : Module) (x : String) : Prop :=
  ∃ f ∈ m.functions, f.contains Inst.isPrintf = true ∧ ReflTransGen m.Calls x f.name

theorem mem_reaching_iff_prints {m : Module} {x : String} :
    x ∈ (CallGraph.build m).reaching m (·.contains Inst.isPrintf) ↔ m.Prints x :=
  CallGraph.mem_reaching_build

end Module

theorem Function.isDeclaration_eq_false_of_mem {f : Function} {i : Inst} (hi : i ∈ f.allInsts) :
    f.isDeclaration = false := by
  cases hb : f.body with
  | none => simp [Function.allInsts, Function.insts, hb, Inst.preorderList] at hi
  | some is => simp [Function.isDeclaration, hb]

variable {m : Module}

/-- In a module whose names differ, a printing name is a function with a body. -/
theorem Module.Prints.exists_body (hnd : (m.functions.map (·.name)).Nodup) {x : String} (hx : m.Prints x) :
    ∃ h, m.get? x = some h ∧ h.isDeclaration = false := by
  obtain ⟨f, hf, hp, hpath⟩ := hx
  rcases hpath.cases_head with rfl | ⟨z, ⟨f', hf', rfl, hz⟩, -⟩
  · obtain ⟨i, hi, -⟩ := List.any_eq_true.mp hp
    exact ⟨f, Module.get?_of_mem hnd hf, Function.isDeclaration_eq_false_of_mem hi⟩
  · obtain ⟨d, args, hcall⟩ := Function.mem_callees.mp hz
    exact ⟨f', Module.get?_of_mem hnd hf', Function.isDeclaration_eq_false_of_mem hcall⟩

/-- A kernel that reaches a printing name performs output. -/
theorem performsOutput_of_prints (hnd : (m.functions.map (·.name)).Nodup) {root x : String} {k : Function}
    (hk : m.get? root = some k) (hx : x ∈ (CallGraph.build m).reachableFrom root) (hp : m.Prints x) :
    k.performsOutput m (CallGraph.build m) = true := by
  obtain ⟨f, hf, hpf, hpath⟩ := hp
  obtain ⟨hroot, hreach⟩ := CallGraph.mem_reachableFrom_build.mp hx
  have hname : k.name = root := (Module.get?_eq_some hk).1
  unfold Function.performsOutput Function.reachesInst
  refine List.any_eq_true.mpr ⟨f.name, ?_, ?_⟩
  · rw [hname]
    exact CallGraph.mem_reachableFrom_build.mpr ⟨hroot, hreach.trans hpath⟩
  · rw [Module.get?_of_mem hnd hf]
    exact hpf

/-! ## Threading a body -/

namespace OutputClones

variable {root : String} {printing : List String}

/-- One step of noting keeps, notes a clone left in the module, or notes and lists the name. -/
theorem noteClone_cases_cloned (acc : OutputClones × List String) (name : String) :
    noteClone m root printing acc name = acc ∨
      (ClonedBefore m name ∧ noteClone m root printing acc name = (acc.1.insert name (cloneName name), acc.2)) ∨
      noteClone m root printing acc name = (acc.1.insert name (cloneName name), acc.2 ++ [name]) := by
  obtain ⟨cache, pending⟩ := acc
  simp only [noteClone]
  repeat' split
  all_goals first
    | exact .inl rfl
    | exact .inr (.inr rfl)
    | exact .inr (.inl ⟨by simp_all [ClonedBefore], rfl⟩)

/-- Noting never drops a clone from the cache. -/
theorem contains_noteClone {x : String} (acc : OutputClones × List String) (name : String) (hx : acc.1.contains x) :
    (noteClone m root printing acc name).1.contains x := by
  rcases noteClone_cases_cloned acc name with heq | ⟨-, heq⟩ | heq <;> rw [heq]
  · exact hx
  · exact contains_insert_of_contains hx _ _
  · exact contains_insert_of_contains hx _ _

/-- Noting a name other than the kernel's, that prints and has a body, leaves its clone noted. -/
theorem contains_noteClone_self {x : String} (hx : x ≠ root) (hp : x ∈ printing)
    (hb : ∃ h, m.get? x = some h ∧ h.isDeclaration = false) (acc : OutputClones × List String) :
    (noteClone m root printing acc x).1.contains x := by
  obtain ⟨cache, pending⟩ := acc
  obtain ⟨h, hh, hdecl⟩ := hb
  simp only [noteClone]
  repeat' split
  all_goals first
    | exact contains_insert_self _ _ _
    | simp_all

/-- After noting the names a kernel reaches, every one of them other than the kernel that prints
and has a body has its clone noted. -/
theorem contains_foldl_noteClone {x : String} (hx : x ≠ root) (hp : x ∈ printing)
    (hb : ∃ h, m.get? x = some h ∧ h.isDeclaration = false) :
    ∀ (names : List String) (acc : OutputClones × List String), x ∈ names ∨ acc.1.contains x →
      (names.foldl (noteClone m root printing) acc).1.contains x
  | [], _, h => h.resolve_left List.not_mem_nil
  | name :: names, acc, h => by
      rw [List.foldl_cons]
      refine contains_foldl_noteClone hx hp hb names _ ?_
      rcases h with h | h
      · rcases List.mem_cons.mp h with rfl | h
        · exact .inr (contains_noteClone_self hx hp hb acc)
        · exact .inl h
      · exact .inr (contains_noteClone acc name h)

/-- A clone noted after noting some names was noted before, or is one left in the module, or its
helper was listed to be cloned. -/
theorem contains_foldl_noteClone_cases {x : String} :
    ∀ (names : List String) (acc : OutputClones × List String),
      (names.foldl (noteClone m root printing) acc).1.contains x →
        acc.1.contains x ∨ ClonedBefore m x ∨ x ∈ (names.foldl (noteClone m root printing) acc).2
  | [], _, h => .inl h
  | name :: names, acc, h => by
      rw [List.foldl_cons] at h ⊢
      rcases contains_foldl_noteClone_cases names _ h with h | h | h
      · rcases noteClone_cases_cloned acc name with heq | ⟨hcl, heq⟩ | heq <;> rw [heq] at h
        · exact .inl h
        · by_cases hxn : x = name
          · exact .inr (.inl (hxn ▸ hcl))
          · rw [contains_insert_of_ne hxn] at h
            exact .inl h
        · by_cases hxn : x = name
          · subst hxn
            refine .inr (.inr (pending_subset_foldl_noteClone names _ ?_))
            rw [heq]
            exact List.mem_append_right _ List.mem_cons_self
          · rw [contains_insert_of_ne hxn] at h
            exact .inl h
      · exact .inr (.inl h)
      · exact .inr (.inr h)

variable {g : CallGraph} {cache cache' : OutputClones} {body body' : Function} {ctx : Operand}
  {c : DeviceConfig} {l : ContextLayout} {created : List Function} {log : Log}

/-- Threading leaves the body of a kernel that prints nothing as it is. Otherwise it notes a clone
for each printing helper the kernel reaches, loads the three buffer operands and routes the body's
output into them, and routes each new clone's output into three buffer parameters. -/
theorem thread_eq_ok_cases (h : cache.thread m g root body ctx c l = .ok (cache', body', created, log)) :
    ((∀ k, m.get? root = some k → k.performsOutput m g = false) ∧ cache' = cache ∧ body' = body ∧ created = []) ∨
      ((∃ k, m.get? root = some k ∧ k.performsOutput m g = true) ∧
        ∃ pending pre buffer,
          (g.reachableFrom root).foldl (noteClone m root (g.reaching m (·.contains Inst.isPrintf))) (cache, []) =
            (cache', pending) ∧ buffer.length = 3 ∧ (∀ i ∈ pre, i.IsLoad) ∧
          body'.allInsts = pre ++ (routeOutput body (g.reaching m (·.contains Inst.isPrintf)) cache' buffer).allInsts ∧
          ∀ f ∈ created, ∃ x ∈ pending, ∃ helper params, m.get? x = some helper ∧ params.length = 3 ∧
            f.allInsts = (routeOutput helper (g.reaching m (·.contains Inst.isPrintf)) cache' params).allInsts) := by
  unfold thread at h
  simp only [bind, Except.bind, pure, Except.pure] at h
  rcases hroot : m.get? root with _ | kf
  · simp only [hroot, Bool.not_false, if_true, Except.ok.injEq, Prod.mk.injEq] at h
    obtain ⟨rfl, rfl, rfl, -⟩ := h
    exact .inl ⟨by simp, rfl, rfl, rfl⟩
  cases hpo : kf.performsOutput m g
  · simp only [hroot, hpo, Bool.not_false, if_true, Except.ok.injEq, Prod.mk.injEq] at h
    obtain ⟨rfl, rfl, rfl, -⟩ := h
    exact .inl ⟨fun k hk => by cases hk; exact hpo, rfl, rfl, rfl⟩
  simp only [hroot, hpo, Bool.not_true, Bool.false_eq_true, if_false] at h
  split at h
  · cases h
  split at h
  · cases h
  rename_i start _ _ prelude hprelude
  -- the three loads of the buffer operands
  have hbuf := @foldlM_invariant _ _ _ _ (fun k (s : List Operand × Builder) => s.1.length = k ∧ s.2.LoadsOnly)
    _ 0 _ _ hprelude ⟨rfl, Builder.loadsOnly_startingAt _⟩ fun k s x s' hs hx => by
      split at hx
      · cases hx
      · rename_i v hv
        repeat' split at hx
        all_goals first
          | (cases hx; done)
          | cases hx
            exact ⟨by simp [hs.1], loadsOnly_loadFromContext hs.2 hv⟩
  simp only [Except.ok.injEq, Prod.mk.injEq] at h
  obtain ⟨hcache, rfl, rfl, -⟩ := h
  refine .inr ⟨⟨kf, rfl, hpo⟩, _, _, _, Prod.ext hcache rfl, hbuf.1, hbuf.2.finish, ?_, fun f hf => ?_⟩
  · rw [Function.allInsts_withBody, Inst.preorderList_append, Inst.preorderList_of_loads hbuf.2.finish, hcache]
    rfl
  · obtain ⟨name, hname, hf⟩ := List.mem_filterMap.mp hf
    obtain ⟨helper, hhelper, rfl⟩ := Option.map_eq_some_iff.mp hf
    refine ⟨name, hname, helper, [.param helper.params.length, .param (helper.params.length + 1),
      .param (helper.params.length + 2)], hhelper, rfl, ?_⟩
    rw [allInsts_routeOutput, allInsts_routeOutput, hcache]
    rfl

end OutputClones

/-- A name called, directly or not, from `root` is reached from it. -/
theorem mem_reachableFrom_of_transGen {root y : String} (h : TransGen m.Calls root y) :
    y ∈ (CallGraph.build m).reachableFrom root := by
  obtain ⟨z, ⟨f, hf, hname, -⟩, -⟩ := TransGen.head'_iff.mp h
  exact CallGraph.mem_reachableFrom_build.mpr ⟨.inl ⟨f, hf, hname⟩, h.to_reflTransGen⟩

/-- What a function reached from a root calls is called from the root, directly or not. -/
theorem transGen_of_callee {root x y : String} {h : Function} (hx : x ∈ (CallGraph.build m).reachableFrom root)
    (hh : m.get? x = some h) (hy : y ∈ h.callees) : TransGen m.Calls root y := by
  obtain ⟨-, hreach⟩ := CallGraph.mem_reachableFrom_build.mp hx
  obtain ⟨hname, hmem⟩ := Module.get?_eq_some hh
  exact TransGen.tail' hreach ⟨h, hmem, hname, hy⟩

/-- What a function routed for the kernel `root` may call: a name the kernel calls, directly or
not, that prints nothing or is the kernel itself, or the clone of a helper the cache holds. -/
def RoutedCall (m : Module) (root : String) (cache : OutputClones) (y : String) : Prop :=
  (TransGen m.Calls root y ∧ (¬ m.Prints y ∨ y = root)) ∨ ∃ x, y = cloneName x ∧ cache.contains x

/-- A function routed for the kernel `root`: nothing of it goes to the host, and it makes routed
calls only. -/
def Routes (m : Module) (root : String) (cache : OutputClones) (f : Function) : Prop :=
  f.contains Inst.isHostPrintf = false ∧ ∀ y ∈ f.callees, RoutedCall m root cache y

namespace OutputClones

variable {root : String} {cache cache' : OutputClones} {body body' : Function} {ctx : Operand}
  {c : DeviceConfig} {l : ContextLayout} {created : List Function} {log : Log}

/-- Loads followed by a function's instructions routed into three operands make a routed function,
when what it calls is reached from the kernel and every helper the kernel reaches that prints has
its clone in the cache. -/
theorem routes_of_routeOutput (hc : cache'.Named) {s f : Function} {buffer : List Operand} {pre : List Inst}
    (hbuf : buffer.length = 3) (hpre : ∀ i ∈ pre, i.IsLoad)
    (hcomplete : ∀ x ∈ (CallGraph.build m).reachableFrom root, x ≠ root → m.Prints x → cache'.contains x)
    (hsrc : ∀ y ∈ s.callees, TransGen m.Calls root y)
    (hf : f.allInsts = pre ++ (routeOutput s ((CallGraph.build m).reaching m (·.contains Inst.isPrintf)) cache'
      buffer).allInsts) : Routes m root cache' f := by
  obtain ⟨hhost, hcalls⟩ :=
    @routeOutput_routes ((CallGraph.build m).reaching m (·.contains Inst.isPrintf)) cache' buffer hbuf s
  -- an instruction of the result is a load or one of the routed function's
  have hmem : ∀ i ∈ f.allInsts, i.IsLoad ∨ i ∈ (routeOutput s _ cache' buffer).allInsts := fun i hi => by
    rw [hf] at hi
    exact (List.mem_append.mp hi).imp (hpre i) id
  refine ⟨Function.contains_eq_false.mpr fun i hi => ?_, fun y hy => ?_⟩
  · rcases hmem i hi with ⟨_, _, _, _, _, rfl⟩ | hi
    · rfl
    · exact Function.contains_eq_false.mp hhost i hi
  · obtain ⟨d, args, hcall⟩ := Function.mem_callees.mp hy
    rcases hmem _ hcall with ⟨_, _, _, _, _, hload⟩ | hi
    · cases hload
    rcases hcalls y (Function.mem_callees.mpr ⟨d, args, hi⟩) with ⟨hys, hquiet⟩ | ⟨x, -, -, hclone⟩
    · refine .inl ⟨hsrc y hys, ?_⟩
      by_cases hroot : y = root
      · exact .inr hroot
      refine .inl fun hp => ?_
      -- a printing helper the kernel reaches has its clone, so its call was routed
      rcases hquiet with hq | hq
      · exact hq (Module.mem_reaching_iff_prints.mpr hp)
      · have := hcomplete y (mem_reachableFrom_of_transGen (hsrc y hys)) hroot hp
        simp [contains, hq] at this
    · exact .inr ⟨x, hc.get? hclone, by simp [contains, hclone]⟩

/-- Threading the body of the kernel `root`, in a module whose names differ, gives a routed body
and routed clones, when the body calls only what the kernel reaches and prints only if the kernel
performs output. -/
theorem thread_routes (hnd : (m.functions.map (·.name)).Nodup) (hc : cache.Named)
    (hbody : ∀ y ∈ body.callees, TransGen m.Calls root y)
    (hquiet : body.contains Inst.isPrintf = true →
      ∃ k, m.get? root = some k ∧ k.performsOutput m (CallGraph.build m) = true)
    (h : cache.thread m (CallGraph.build m) root body ctx c l = .ok (cache', body', created, log)) :
    ∀ f ∈ body' :: created, Routes m root cache' f := by
  rcases thread_eq_ok_cases h with ⟨hno, rfl, rfl, rfl⟩ |
    ⟨-, pending, pre, buffer, hfold, hbuf, hpre, hbody', hcreated⟩
  · -- a kernel that performs no output: its body prints nothing and calls nothing that prints
    intro f hf
    rw [List.mem_singleton.mp hf]
    refine ⟨Function.contains_eq_false.mpr fun i hi => ?_, fun y hy => .inl ⟨hbody y hy, ?_⟩⟩
    · cases hhost : i.isHostPrintf
      · rfl
      · obtain ⟨k, hk, hpo⟩ := hquiet (List.any_eq_true.mpr ⟨i, hi, Inst.isPrintf_of_isHostPrintf hhost⟩)
        rw [hno k hk] at hpo
        cases hpo
    · by_cases hroot : y = root
      · exact .inr hroot
      refine .inl fun hp => ?_
      -- the body calls something, so the kernel is a function of the module
      obtain ⟨z, ⟨k, hkm, hkname, -⟩, -⟩ := TransGen.head'_iff.mp (hbody y hy)
      have hk : m.get? root = some k := hkname ▸ Module.get?_of_mem hnd hkm
      have hpo := performsOutput_of_prints hnd hk (mem_reachableFrom_of_transGen (hbody y hy)) hp
      rw [hno k hk] at hpo
      cases hpo
  · -- a kernel that performs output: every printing helper it reaches gets its clone noted
    have hc' : cache'.Named := (thread_eq_ok hc h).1
    have hcomplete : ∀ x ∈ (CallGraph.build m).reachableFrom root, x ≠ root → m.Prints x → cache'.contains x := by
      intro x hx hne hp
      have := contains_foldl_noteClone hne (Module.mem_reaching_iff_prints.mpr hp) (hp.exists_body hnd) _
        (cache, []) (.inl hx)
      rwa [hfold] at this
    intro f hf
    rcases List.mem_cons.mp hf with rfl | hf
    · exact routes_of_routeOutput hc' hbuf hpre hcomplete hbody hbody'
    · obtain ⟨x, hx, helper, params, hhelper, hparams, hfx⟩ := hcreated f hf
      -- a helper listed to be cloned is one the kernel reaches
      have hxr : x ∈ (CallGraph.build m).reachableFrom root := by
        rcases clonable_of_mem_foldl_noteClone _ (cache, []) (by rw [hfold]; exact hx) with hx' | ⟨hx', -⟩
        · exact absurd hx' List.not_mem_nil
        · exact hx'
      have hfx' : f.allInsts = [] ++ (routeOutput helper ((CallGraph.build m).reaching m (·.contains Inst.isPrintf))
          cache' params).allInsts := by
        rw [List.nil_append]
        exact hfx
      exact routes_of_routeOutput hc' hparams (by simp) hcomplete
        (fun y hy => transGen_of_callee hxr hhelper hy) hfx'

/-- A clone the cache holds after threading was held before, is one left in the module, or is the
clone of a helper just made, named after it and derived from it. -/
theorem thread_contains {g : CallGraph} (hc : cache.Named)
    (h : cache.thread m g root body ctx c l = .ok (cache', body', created, log)) {x : String} (hx : cache'.contains x) :
    cache.contains x ∨ ClonedBefore m x ∨ ∃ f ∈ created, f.name = cloneName x ∧ f.attrs.derivedFrom = some x := by
  rcases thread_eq_ok_cases h with ⟨-, rfl, -, -⟩ | ⟨hprints, pending, -, -, hfold, -, -, -, -⟩
  · exact .inl hx
  have hx' : ((g.reachableFrom root).foldl (noteClone m root (g.reaching m (·.contains Inst.isPrintf)))
      (cache, [])).1.contains x := by
    rw [hfold]
    exact hx
  rcases contains_foldl_noteClone_cases _ _ hx' with hold | hcl | hpend
  · exact .inl hold
  · exact .inr (.inl hcl)
  -- a listed helper needs a clone the cache did not have, so threading made it
  rw [hfold] at hpend
  have hfold' := hfold
  obtain ⟨-, -, -, hnew⟩ := foldl_noting cache _ (noteClone_cases m root _)
    (g.reachableFrom root) (cache, []) hc (fun _ hx => hx) List.nodup_nil (by simp)
  rw [hfold'] at hnew
  rcases clonable_of_mem_foldl_noteClone _ (cache, []) (by rw [hfold]; exact hpend) with hx'' | ⟨hreach, hcl⟩
  · exact absurd hx'' List.not_mem_nil
  obtain ⟨f, hf, hname⟩ := ((thread_clones hc h).2 x).mpr ⟨⟨hprints, hreach, hcl⟩, (hnew x hpend).1⟩
  obtain ⟨x', hx', hder, -⟩ := (thread_eq_ok hc h).2.2.2.2 f hf
  rw [hname] at hx'
  exact .inr (.inr ⟨f, hf, hname, cloneName_injective hx' ▸ hder⟩)

end OutputClones

theorem Routes.mono {root : String} {c c' : OutputClones} {f : Function} (h : Routes m root c f)
    (hsub : ∀ x, c.contains x → c'.contains x) : Routes m root c' f :=
  ⟨h.1, fun y hy => (h.2 y hy).imp id fun ⟨x, hx, hcx⟩ => ⟨x, hx, hsub x hcx⟩⟩

theorem self_mem_reachableFrom {f : Function} (hf : f ∈ m.functions) :
    f.name ∈ (CallGraph.build m).reachableFrom f.name :=
  CallGraph.mem_reachableFrom_build.mpr ⟨.inl ⟨f, hf, rfl⟩, .refl⟩

namespace Pass

open OutputClones

variable {p : Pass} {name : String} {kernel : Function} {sg : Option Nat} {shaped : Bool}

/-- On a device that prints into a buffer, deriving the bodies of the kernel `name`, in a module
whose names differ, adds bodies and clones that are routed for the cache it ends with. -/
theorem deriveBodies_routes (hnd : (m.functions.map (·.name)).Nodup) (hk : m.get? name = some kernel)
    (hprintf : p.cfg.deviceSidePrintf = true) :
    ∀ (flavors : List BodyFlavor) {log log' : Log} {outputs outputs' : OutputClones}
      {functions functions' : List Function}, outputs.Named →
      p.deriveBodies m (CallGraph.build m) name kernel sg shaped flavors log outputs functions =
        .ok (log', .ok (outputs', functions')) →
      ∀ f ∈ functions', f ∈ functions ∨ Routes m name outputs' f
  | [], log, log', outputs, outputs', functions, functions', _, h => by
      simp only [deriveBodies, pure, Except.pure, Except.ok.injEq, Prod.mk.injEq] at h
      obtain ⟨-, -, rfl⟩ := h
      exact fun f hf => .inl hf
  | flavor :: flavors, log, log', outputs, outputs', functions, functions', hc, h => by
      simp only [deriveBodies, bind, Except.bind] at h
      split at h
      · cases h
      split at h
      · simp [pure, Except.pure] at h
      rename_i _ body notes hderive
      split at h
      swap
      · rename_i hpf
        exact absurd hprintf hpf
      split at h
      · cases h
      rename_i t hthread
      obtain ⟨hkname, hkmem⟩ := Module.get?_eq_some hk
      have hderived₀ := derivedBody_deriveBody hderive
      have hderived : kernel.DerivedBody { body with attrs := { body.attrs with subgroupSize := sg } } := hderived₀
      have hself : name ∈ (CallGraph.build m).reachableFrom name := hkname ▸ self_mem_reachableFrom hkmem
      -- the body calls what the kernel calls, and prints only if the kernel does
      have hroutes := thread_routes hnd hc (fun y hy => .single ⟨kernel, hkmem, hkname, hderived.callees_subset hy⟩)
        (fun hp => ⟨kernel, hk, performsOutput_of_prints hnd hk hself
          ⟨kernel, hkmem, hderived.prints hp, hkname ▸ .refl⟩⟩) hthread
      obtain ⟨hc₁, -, -, -, -⟩ := thread_eq_ok hc hthread
      obtain ⟨-, hsub, -⟩ := deriveBodies_eq_ok flavors hc₁ h
      intro f hf
      rcases deriveBodies_routes hnd hk hprintf flavors hc₁ h f hf with hf | hf
      · simp only [List.append_assoc, List.mem_append, List.mem_singleton] at hf
        rcases hf with hf | hf | rfl
        · exact .inl hf
        · exact .inr ((hroutes f (List.mem_cons_of_mem _ hf)).mono hsub)
        · exact .inr ((hroutes _ List.mem_cons_self).mono hsub)
      · exact .inr hf

/-- A clone the cache holds after deriving bodies was held before, is one left in the module, or
is the clone of a helper made on the way, named after it and derived from it. -/
theorem deriveBodies_contains {g : CallGraph} :
    ∀ (flavors : List BodyFlavor) {log log' : Log} {outputs outputs' : OutputClones}
      {functions functions' : List Function}, outputs.Named →
      p.deriveBodies m g name kernel sg shaped flavors log outputs functions =
        .ok (log', .ok (outputs', functions')) →
      ∀ x, outputs'.contains x → outputs.contains x ∨ ClonedBefore m x ∨
        ∃ f ∈ functions', f.name = cloneName x ∧ f.attrs.derivedFrom = some x
  | [], log, log', outputs, outputs', functions, functions', _, h => by
      simp only [deriveBodies, pure, Except.pure, Except.ok.injEq, Prod.mk.injEq] at h
      obtain ⟨-, rfl, -⟩ := h
      exact fun x hx => .inl hx
  | flavor :: flavors, log, log', outputs, outputs', functions, functions', hc, h => by
      simp only [deriveBodies, bind, Except.bind] at h
      split at h
      · cases h
      split at h
      · simp [pure, Except.pure] at h
      split at h
      · split at h
        · cases h
        rename_i t hthread
        obtain ⟨hc₁, -, -, -, -⟩ := thread_eq_ok hc hthread
        obtain ⟨-, -, fs, hfs, -⟩ := deriveBodies_eq_ok flavors hc₁ h
        intro x hx
        rcases deriveBodies_contains flavors hc₁ h x hx with h₁ | hcl | hnew
        · -- held after threading this flavor
          rcases thread_contains hc hthread h₁ with h₀ | hcl | ⟨f, hf, hrest⟩
          · exact .inl h₀
          · exact .inr (.inl hcl)
          · exact .inr (.inr ⟨f, by rw [hfs]; simp [hf], hrest⟩)
        · exact .inr (.inl hcl)
        · exact .inr (.inr hnew)
      · exact deriveBodies_contains flavors hc h

/-- A kernel committed on a device that prints into a buffer, in a module whose names differ:
its emission is routed bodies and clones, then launchers; the set names two of those bodies; and
each clone the cache gains is one left in the module or one of the emission's. -/
theorem processKernel_routes (hnd : (m.functions.map (·.name)).Nodup) (hprintf : p.cfg.deviceSidePrintf = true)
    (hc : p.outputs.Named) {log : Log} {e : Emission}
    (h : p.processKernel m (CallGraph.build m) name = .ok (log, .ok e)) :
    ∃ bodies launchers, e.functions = bodies ++ launchers ∧ (∀ f ∈ bodies, Routes m name e.outputs f) ∧
      (∀ f ∈ launchers, GeneratedFor name f.name) ∧ e.set.body ∈ bodies.map (·.name) ∧ (∀ b ∈ e.set.fastBody, b ∈ bodies.map (·.name)) ∧
      ∀ x, e.outputs.contains x → p.outputs.contains x ∨ ClonedBefore m x ∨
        ∃ f ∈ bodies, f.name = cloneName x ∧ f.attrs.derivedFrom = some x := by
  obtain ⟨kernel, sg, fastSize, layout, bodyLog, bodies, launchers, notes, hk, -, -, -, -, -, hd, he, -, hfun⟩ :=
    processKernel_eq_ok h
  have hkname : kernel.name = name := (Module.get?_eq_some hk).1
  obtain ⟨-, -, fs, hfs, -, hflavors, -⟩ := deriveBodies_eq_ok _ hc hd
  rw [List.nil_append] at hfs
  subst hfs
  have hset := (LauncherGen.emitLaunchers_eq_ok he).2
  -- each flavor's body is among the bodies, under its symbol
  have hbody : ∀ b ∈ BodyFlavor.dynamic :: (fastSize.map BodyFlavor.fixed).toList,
      b.symbol name ∈ bodies.map (·.name) := fun b hb => by
    obtain ⟨f, hf, hname⟩ := hflavors b hb
    exact List.mem_map.mpr ⟨f, hf, by rw [hname, hkname]⟩
  -- launchers are named for their kinds, which no clone is
  have hlaunch : ∀ f ∈ launchers, GeneratedFor name f.name := fun f hf => by
    obtain ⟨v, -, hv⟩ := List.mem_map.mp (LauncherGen.map_name_emitLaunchers he ▸ List.mem_map_of_mem hf :
      f.name ∈ _)
    rw [← hv, ← hkname]
    exact LauncherKind.generatedFor_symbol _ _
  refine ⟨bodies, launchers, hfun, fun f hf => (deriveBodies_routes hnd hk hprintf _ hc hd f hf).resolve_left
    List.not_mem_nil, hlaunch, ?_, ?_, fun x hx => deriveBodies_contains _ hc hd x hx⟩
  · rw [hset]
    exact hbody _ List.mem_cons_self
  · rw [hset]
    intro b hb
    obtain ⟨size, hsize, rfl⟩ := Option.mem_map.mp hb
    exact hbody _ (List.mem_cons_of_mem _ (by simp [Option.mem_def.mp hsize]))

end Pass

end KernelLaunch
