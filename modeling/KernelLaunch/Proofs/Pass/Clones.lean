import KernelLaunch.Proofs.Pass.Installed
import KernelLaunch.Proofs.Ir.Reach
/-!
# Which helpers get output clones

On a device that prints into a buffer, threading a body of the kernel `root` walks the functions
the kernel reaches and lists the helpers to clone. `thread_clones` says exactly which: those that
`NeedsClone` (the kernel prints, the helper is reached, is not the kernel, prints or reaches a
function that prints, has a body and has no clone in the module yet) and that the cache has no
clone of. The walk itself is a fold of `noteClone`, and the lemmas before it follow one name
through that fold.

`mem_deriveBodies` and `clone_mem_deriveBodies` lift this to the bodies of every flavor: what
deriving bodies adds is a body of a flavor or the clone of a helper that needs one, and every
helper that needs one and is not in the starting cache gets its clone.
-/

namespace KernelLaunch

namespace OutputClones

/-- A clone of the helper left in the module by an earlier run: the function under the clone's
name is derived from the helper. -/
def ClonedBefore (m : Module) (helper : String) : Prop :=
  ∃ f, m.get? (cloneName helper) = some f ∧ f.attrs.derivedFrom = some helper

/-- What makes threading clone a helper, the cache apart: the helper is not the kernel, prints or
reaches a function that prints, has a body, and has no clone in the module yet. -/
structure Clonable (m : Module) (root : String) (printing : List String) (x : String) : Prop where
  ne_root : x ≠ root
  printing : x ∈ printing
  not_cloned : ¬ ClonedBefore m x
  body : ∃ h, m.get? x = some h ∧ h.isDeclaration = false

theorem existing_eq_true_iff {m : Module} {x : String} :
    (match m.get? (cloneName x) with
      | some f => f.attrs.derivedFrom == some x
      | none => false) = true ↔ ClonedBefore m x := by
  unfold ClonedBefore
  split <;> simp_all

theorem contains_insert_of_ne {c : OutputClones} {helper x : String} (hx : x ≠ helper) (clone : String) :
    (c.insert helper clone).contains x = c.contains x := by
  apply Bool.eq_iff_iff.mpr
  rw [contains_iff, contains_iff]
  constructor
  · rintro ⟨v, hv⟩
    rcases mem_insert_go helper clone c.clones _ hv with hv | hv
    · exact ⟨v, hv⟩
    · exact absurd (Prod.mk.inj hv).1 hx
  · rintro ⟨v, hv⟩
    exact key_mem_insert_go helper clone c.clones hv

/-- One step of noting: the name is listed to be cloned when it is clonable and the cache has no
clone of it yet, and nothing is listed otherwise. -/
theorem noteClone_pending (m : Module) (root : String) (printing : List String) (acc : OutputClones × List String)
    (name : String) :
    (noteClone m root printing acc name).2 = acc.2 ∨
      ((noteClone m root printing acc name).2 = acc.2 ++ [name] ∧ Clonable m root printing name ∧
        acc.1.contains name = false) := by
  obtain ⟨cache, pending⟩ := acc
  simp only [noteClone]
  -- every way but one keeps the list; that one lists a clonable name
  repeat' split
  all_goals first
    | exact .inl rfl
    | refine .inr ⟨rfl, ⟨?_, ?_, ?_, ?_⟩, ?_⟩ <;> simp_all [ClonedBefore]

/-- A clonable name the cache has no clone of yet is listed to be cloned. -/
theorem noteClone_of_clonable {m : Module} {root : String} {printing : List String} {name : String}
    (hc : Clonable m root printing name) (acc : OutputClones × List String) (hnew : acc.1.contains name = false) :
    noteClone m root printing acc name = (acc.1.insert name (cloneName name), acc.2 ++ [name]) := by
  obtain ⟨cache, pending⟩ := acc
  obtain ⟨hroot, hprint, hnot, h, hh, hdecl⟩ := hc
  simp only at hnew
  simp only [noteClone]
  -- the other ways out contradict what makes the name clonable
  repeat' split
  all_goals first | rfl | simp_all [ClonedBefore]

variable {m : Module} {root : String} {printing : List String}

/-- Noting never unlists a name. -/
theorem pending_subset_foldl_noteClone :
    ∀ (names : List String) (acc : OutputClones × List String) {x : String}, x ∈ acc.2 →
      x ∈ (names.foldl (noteClone m root printing) acc).2
  | [], _, _, hx => hx
  | name :: names, acc, x, hx => by
      refine pending_subset_foldl_noteClone names _ ?_
      rcases noteClone_pending m root printing acc name with heq | ⟨heq, -⟩ <;> rw [heq]
      · exact hx
      · exact List.mem_append_left _ hx

/-- A name is listed only when it was noted clonable on the way. -/
theorem clonable_of_mem_foldl_noteClone :
    ∀ (names : List String) (acc : OutputClones × List String) {x : String},
      x ∈ (names.foldl (noteClone m root printing) acc).2 → x ∈ acc.2 ∨ (x ∈ names ∧ Clonable m root printing x)
  | [], _, _, hx => .inl hx
  | name :: names, acc, x, hx => by
      rcases clonable_of_mem_foldl_noteClone names _ hx with hx | ⟨hmem, hc⟩
      · rcases noteClone_pending m root printing acc name with heq | ⟨heq, hc, -⟩ <;> rw [heq] at hx
        · exact .inl hx
        · rcases List.mem_append.mp hx with hx | hx
          · exact .inl hx
          · rw [List.mem_singleton.mp hx]
            exact .inr ⟨List.mem_cons_self, hc⟩
      · exact .inr ⟨List.mem_cons_of_mem _ hmem, hc⟩

/-- A clonable name among those noted is listed, unless the cache had its clone when noting
started. -/
theorem mem_foldl_noteClone {x : String} (hc : Clonable m root printing x) :
    ∀ (names : List String) (acc : OutputClones × List String), x ∈ names →
      (x ∈ acc.2 ∨ acc.1.contains x = false) → x ∈ (names.foldl (noteClone m root printing) acc).2
  | [], _, hx, _ => absurd hx List.not_mem_nil
  | name :: names, acc, hx, hacc => by
      rw [List.foldl_cons]
      by_cases hname : x = name
      · -- the first time the name comes, it is listed if it was not before
        subst hname
        refine pending_subset_foldl_noteClone names _ ?_
        rcases hacc with hin | hnew
        · rcases noteClone_pending m root printing acc x with heq | ⟨heq, -⟩ <;> rw [heq]
          · exact hin
          · exact List.mem_append_left _ hin
        · rw [noteClone_of_clonable hc acc hnew]
          exact List.mem_append_right _ List.mem_cons_self
      · refine mem_foldl_noteClone hc names _ ((List.mem_cons.mp hx).resolve_left hname) ?_
        rcases hacc with hin | hnew
        · left
          rcases noteClone_pending m root printing acc name with heq | ⟨heq, -⟩ <;> rw [heq]
          · exact hin
          · exact List.mem_append_left _ hin
        · -- noting another name leaves this one out of the cache
          right
          rcases noteClone_cases m root printing acc name with heq | heq | ⟨-, heq⟩ <;> rw [heq]
          · exact hnew
          · rw [contains_insert_of_ne hname]
            exact hnew
          · rw [contains_insert_of_ne hname]
            exact hnew

/-- The kernel `root` prints and reaches the helper `x`, which is clonable: threading a body of the
kernel clones `x` unless the cache has a clone of it. -/
def NeedsClone (m : Module) (g : CallGraph) (root x : String) : Prop :=
  (∃ k, m.get? root = some k ∧ k.performsOutput m g = true) ∧ x ∈ g.reachableFrom root ∧
    Clonable m root (g.reaching m (·.contains Inst.isPrintf)) x

/-- Threading a body keeps its attributes, and clones exactly the helpers that need a clone and
have none in the cache, each under its clone name. -/
theorem thread_clones {cache cache' : OutputClones} {g : CallGraph} {body body' : Function} {ctx : Operand}
    {c : DeviceConfig} {l : ContextLayout} {created : List Function} {log : Log} (hc : cache.Named)
    (h : cache.thread m g root body ctx c l = .ok (cache', body', created, log)) :
    body'.attrs = body.attrs ∧
      ∀ x, (∃ f ∈ created, f.name = cloneName x) ↔ NeedsClone m g root x ∧ cache.contains x = false := by
  unfold thread at h
  simp only [bind, Except.bind, pure, Except.pure] at h
  -- a kernel that prints nothing leaves the body as it is and clones nothing
  have hquiet : (∀ k, m.get? root = some k → k.performsOutput m g = false) →
      (cache, body, ([] : List Function), (#[] : Log)) = (cache', body', created, log) →
      body'.attrs = body.attrs ∧
        ∀ x, (∃ f ∈ created, f.name = cloneName x) ↔ NeedsClone m g root x ∧ cache.contains x = false := by
    intro hno heq
    simp only [Prod.mk.injEq] at heq
    obtain ⟨-, rfl, rfl, -⟩ := heq
    refine ⟨rfl, fun x => ⟨fun ⟨f, hf, _⟩ => absurd hf List.not_mem_nil, ?_⟩⟩
    rintro ⟨⟨⟨k, hk, hpo⟩, -⟩, -⟩
    rw [hno k hk] at hpo
    cases hpo
  rcases hroot : m.get? root with _ | kf
  · simp only [hroot, Bool.not_false, if_true, Except.ok.injEq] at h
    exact hquiet (by simp [hroot]) h
  cases hpo : kf.performsOutput m g
  · simp only [hroot, hpo, Bool.not_false, if_true, Except.ok.injEq] at h
    exact hquiet (fun k hk => by rw [hroot] at hk; cases hk; exact hpo) h
  simp only [hroot, hpo, Bool.not_true, Bool.false_eq_true, if_false] at h
  split at h
  · cases h
  split at h
  · cases h
  simp only [Except.ok.injEq, Prod.mk.injEq] at h
  obtain ⟨hcache, rfl, rfl, -⟩ := h
  obtain ⟨hn, -, -, hp⟩ := foldl_noting cache _ (noteClone_cases m root _)
    (g.reachableFrom root) (cache, []) hc (fun _ hx => hx) List.nodup_nil (by simp)
  rw [hcache] at hn hp
  -- a clone is named after its helper
  have hclone : ∀ y, (cache'.get? y).getD (cloneName y) = cloneName y := by
    intro y
    cases hget : cache'.get? y with
    | none => rfl
    | some clone => exact hn.get? hget
  simp only [List.mem_filterMap, Option.map_eq_some_iff, hcache]
  refine ⟨rfl, fun x => ⟨?_, ?_⟩⟩
  · rintro ⟨f, ⟨y, hy, helper, -, rfl⟩, hname⟩
    rw [hclone] at hname
    obtain rfl := cloneName_injective hname
    rcases clonable_of_mem_foldl_noteClone (g.reachableFrom root) (cache, []) hy with hy' | ⟨hreach, hcl⟩
    · exact absurd hy' List.not_mem_nil
    · exact ⟨⟨⟨kf, hroot, hpo⟩, hreach, hcl⟩, (hp y hy).1⟩
  · rintro ⟨⟨-, hreach, hcl⟩, hnew⟩
    have hx := mem_foldl_noteClone hcl (g.reachableFrom root) (cache, []) hreach (.inr hnew)
    obtain ⟨helper, hhelper, -⟩ := hcl.body
    exact ⟨_, ⟨x, hx, helper, hhelper, rfl⟩, hclone x⟩

end OutputClones

theorem Function.attrs_privatize (f : Function) (values : List (HandleRef × Operand)) :
    (f.privatize values).1.attrs = f.attrs := by
  unfold Function.privatize
  split <;> rfl

/-- A derived body is marked as derived from its kernel. -/
theorem derivedFrom_deriveBody {kernel body : Function} {c : DeviceConfig} {l : ContextLayout}
    {flavor : BodyFlavor} {shaped : Bool} {notes : Log}
    (h : deriveBody kernel c l flavor shaped = .ok (.ok (body, notes))) :
    body.attrs.derivedFrom = some kernel.name := by
  unfold deriveBody at h
  simp only [bind, Except.bind, pure, Except.pure] at h
  -- every way out but the last is a diagnostic or a fault
  repeat' split at h
  all_goals first
    | simp only [Except.ok.injEq, Prod.mk.injEq] at h
      obtain ⟨rfl, -⟩ := h
      simp [Function.attrs_privatize]
    | cases h

namespace Pass

open OutputClones

variable {p : Pass} {m : Module} {g : CallGraph} {name : String} {kernel : Function} {sg : Option Nat}
  {shaped : Bool}

/-- A function that deriving bodies adds is a body of one of the flavors, derived from the kernel,
or, on a device that prints into a buffer, the clone of a helper that needs one, derived from the
helper. -/
theorem mem_deriveBodies :
    ∀ (flavors : List BodyFlavor) {log log' : Log} {outputs outputs' : OutputClones}
      {functions functions' : List Function}, outputs.Named →
      p.deriveBodies m g name kernel sg shaped flavors log outputs functions =
        .ok (log', .ok (outputs', functions')) →
      ∀ f ∈ functions', f ∈ functions ∨
        (∃ b ∈ flavors, f.name = b.symbol kernel.name ∧ f.attrs.derivedFrom = some kernel.name) ∨
        (p.cfg.deviceSidePrintf = true ∧ ∃ x, f.name = cloneName x ∧ f.attrs.derivedFrom = some x ∧
          NeedsClone m g name x)
  | [], log, log', outputs, outputs', functions, functions', _, h => by
      simp only [deriveBodies, pure, Except.pure, Except.ok.injEq, Prod.mk.injEq] at h
      obtain ⟨-, -, rfl⟩ := h
      exact fun f hf => .inl hf
  | flavor :: flavors, log, log', outputs, outputs', functions, functions', hc, h => by
      simp only [deriveBodies, bind, Except.bind] at h
      split at h
      · cases h
      split at h
      · simp [pure, Except.pure] at h
      rename_i _ body notes hderive
      have hbody : ∀ f : Function, f.name = body.name → f.attrs.derivedFrom = body.attrs.derivedFrom →
          f.name = flavor.symbol kernel.name ∧ f.attrs.derivedFrom = some kernel.name := fun f hn hd =>
        ⟨hn.trans (name_deriveBody hderive), hd.trans (derivedFrom_deriveBody hderive)⟩
      split at h
      · -- the body's output goes to the buffer, after the clones it needs
        rename_i hprintf
        split at h
        · cases h
        rename_i t hthread
        obtain ⟨hc₁, hname₁, -, -, hcl₁⟩ := thread_eq_ok hc hthread
        have hattrs₁ := (thread_clones hc hthread).1
        have hneeds := (thread_clones hc hthread).2
        intro f hf
        rcases mem_deriveBodies flavors hc₁ h f hf with hf | ⟨b, hb, hrest⟩ | hclone
        · simp only [List.append_assoc, List.mem_append, List.mem_singleton] at hf
          rcases hf with hf | hf | rfl
          · exact .inl hf
          · obtain ⟨x, hx, hder, -⟩ := hcl₁ f hf
            exact .inr (.inr ⟨hprintf, x, hx, hder, ((hneeds x).mp ⟨f, hf, hx⟩).1⟩)
          · exact .inr (.inl ⟨flavor, List.mem_cons_self, hbody _ hname₁ (by rw [hattrs₁])⟩)
        · exact .inr (.inl ⟨b, List.mem_cons_of_mem _ hb, hrest⟩)
        · exact .inr (.inr hclone)
      · intro f hf
        rcases mem_deriveBodies flavors hc h f hf with hf | ⟨b, hb, hrest⟩ | hclone
        · rcases List.mem_append.mp hf with hf | hf
          · exact .inl hf
          · rw [List.mem_singleton.mp hf]
            exact .inr (.inl ⟨flavor, List.mem_cons_self, hbody _ rfl rfl⟩)
        · exact .inr (.inl ⟨b, List.mem_cons_of_mem _ hb, hrest⟩)
        · exact .inr (.inr hclone)

/-- On a device that prints into a buffer, deriving at least one body clones every helper that
needs a clone and that the cache has none of. -/
theorem clone_mem_deriveBodies {flavor : BodyFlavor} {flavors : List BodyFlavor} {log log' : Log}
    {outputs outputs' : OutputClones} {functions functions' : List Function} {x : String}
    (hprintf : p.cfg.deviceSidePrintf = true) (hneed : NeedsClone m g name x) (hnew : outputs.contains x = false)
    (hc : outputs.Named)
    (h : p.deriveBodies m g name kernel sg shaped (flavor :: flavors) log outputs functions =
      .ok (log', .ok (outputs', functions'))) :
    ∃ f ∈ functions', f.name = cloneName x := by
  simp only [deriveBodies, bind, Except.bind] at h
  split at h
  · cases h
  split at h
  · simp [pure, Except.pure] at h
  simp only [hprintf, if_true] at h
  split at h
  · cases h
  rename_i t hthread
  obtain ⟨f, hf, hname⟩ := ((thread_clones hc hthread).2 x).mpr ⟨hneed, hnew⟩
  obtain ⟨-, -, fs, rfl, -⟩ := deriveBodies_eq_ok flavors (thread_eq_ok hc hthread).1 h
  exact ⟨f, by simp [hf], hname⟩

end Pass

end KernelLaunch
