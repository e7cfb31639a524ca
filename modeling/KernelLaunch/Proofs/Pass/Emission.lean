import KernelLaunch.Kernel.Pass
import KernelLaunch.Proofs.Bytes.Words
/-!
# What the pass emits for one kernel

One lemma per step of the pass says everything a successful step did. Read `processKernel_eq_ok`
first: a kernel that gets launchers was found, passed every check, had its bodies derived (with
the output clones they need) and its launchers generated, and none of the names generated for it
was taken. The lemmas before it describe the steps it is made of: `deriveBodies_eq_ok` for the
bodies and their clones, `emitLaunchers_eq_ok` for the launchers, which are those the generator
makes from `LauncherGen.variants`, and `OutputClones.thread_eq_ok` for the clones of one body.

Generated names end in one of six endings (`generatedSuffixes`), none the end of another, so a
generated name tells its kernel and its kind (`GeneratedFor.unique`), and no clone name (ending in
`.printf`) or the local-id intrinsic is one.
-/

namespace KernelLaunch

/-! ## Generated names -/

/-- The endings of the symbols generated for a kernel: its two bodies and its four launchers. -/
def generatedSuffixes : List String :=
  ["_body", "_body_fast", "_workgroup", "_workgroup_fast", "_workgroup_argbuffer", "_grid"]

/-- A name the pass generates for the kernel `k`: one of its bodies or launchers. -/
def GeneratedFor (k n : String) : Prop := ∃ s ∈ generatedSuffixes, n = "_wl_" ++ k ++ s

/-- No generated ending is the end of another. -/
theorem eq_of_suffix_generatedSuffixes {s s' : String} (hs : s ∈ generatedSuffixes)
    (hs' : s' ∈ generatedSuffixes) (h : s.toList <:+ s'.toList) : s = s' := by
  simp only [generatedSuffixes, List.mem_cons, List.not_mem_nil, or_false] at hs hs'
  rcases hs with rfl | rfl | rfl | rfl | rfl | rfl <;> rcases hs' with rfl | rfl | rfl | rfl | rfl | rfl <;>
    first | rfl | exact absurd h (by decide)

/-- Two names with generated endings are equal only with equal stems and equal endings. -/
theorem eq_of_append_generatedSuffixes {k k' s s' : String} (hs : s ∈ generatedSuffixes)
    (hs' : s' ∈ generatedSuffixes) (h : k ++ s = k' ++ s') : k = k' ∧ s = s' := by
  have hl : k.toList ++ s.toList = k'.toList ++ s'.toList := by
    simpa only [String.toList_append] using congrArg String.toList h
  -- both endings end the same name, so one of them ends the other
  have hss : s = s' := by
    rcases List.suffix_or_suffix_of_suffix (List.suffix_append k.toList s.toList)
        (hl ▸ List.suffix_append k'.toList s'.toList) with h₁ | h₁
    · exact eq_of_suffix_generatedSuffixes hs hs' h₁
    · exact (eq_of_suffix_generatedSuffixes hs' hs h₁).symm
  subst hss
  exact ⟨String.toList_inj.mp (List.append_cancel_right hl), rfl⟩

/-- A generated name tells the kernel it was generated for. -/
theorem GeneratedFor.unique {k k' n : String} (h : GeneratedFor k n) (h' : GeneratedFor k' n) : k = k' := by
  obtain ⟨s, hs, rfl⟩ := h
  obtain ⟨s', hs', heq⟩ := h'
  exact (String.append_right_inj "_wl_").mp (eq_of_append_generatedSuffixes hs hs' heq).1

/-- A name that does not end like a generated name is generated for no kernel. -/
theorem not_generatedFor_of_suffix {n e : String} (he : e.toList <:+ n.toList)
    (hgen : ∀ s ∈ generatedSuffixes, ¬ e.toList <:+ s.toList ∧ ¬ s.toList <:+ e.toList) (k : String) :
    ¬ GeneratedFor k n := by
  rintro ⟨s, hs, rfl⟩
  have hend : s.toList <:+ ("_wl_" ++ k ++ s).toList := by
    rw [String.toList_append]
    exact List.suffix_append _ _
  rcases List.suffix_or_suffix_of_suffix he hend with h | h
  · exact (hgen s hs).1 h
  · exact (hgen s hs).2 h

/-- A helper's output clone is no generated name. -/
theorem not_generatedFor_cloneName (helper k : String) : ¬ GeneratedFor k (cloneName helper) := by
  refine not_generatedFor_of_suffix (e := ".printf") ?_ ?_ k
  · rw [cloneName, String.toList_append]
    exact List.suffix_append _ _
  · simp only [generatedSuffixes, List.mem_cons, List.not_mem_nil, or_false]
    rintro s (rfl | rfl | rfl | rfl | rfl | rfl) <;> decide

/-- The local-id intrinsic is no generated name. -/
theorem not_generatedFor_localIdIntrinsic (k : String) : ¬ GeneratedFor k localIdIntrinsic := by
  refine not_generatedFor_of_suffix (e := localIdIntrinsic) (List.suffix_refl _) ?_ k
  simp only [generatedSuffixes, localIdIntrinsic, List.mem_cons, List.not_mem_nil, or_false]
  rintro s (rfl | rfl | rfl | rfl | rfl | rfl) <;> decide

/-- The local-id intrinsic is no helper's clone. -/
theorem localIdIntrinsic_ne_cloneName (helper : String) : localIdIntrinsic ≠ cloneName helper := by
  intro h
  have hend : (".printf" : String).toList <:+ localIdIntrinsic.toList := by
    rw [h, cloneName, String.toList_append]
    exact List.suffix_append _ _
  exact absurd hend (by decide)

theorem cloneName_injective : Function.Injective cloneName := by
  intro a b h
  have he := congrArg String.toList h
  simp only [cloneName, String.toList_append, List.append_left_inj] at he
  exact String.toList_inj.mp he

namespace BodyFlavor

/-- The ending of a body's symbol. -/
def suffix : BodyFlavor → String
  | .dynamic => "_body"
  | .fixed _ => "_body_fast"

theorem symbol_eq (b : BodyFlavor) (k : String) : b.symbol k = "_wl_" ++ k ++ b.suffix := by
  cases b <;> rfl

theorem generatedFor_symbol (b : BodyFlavor) (k : String) : GeneratedFor k (b.symbol k) :=
  ⟨b.suffix, by cases b <;> simp [suffix, generatedSuffixes], symbol_eq b k⟩

end BodyFlavor

namespace LauncherKind

/-- The ending of a launcher's symbol. -/
def suffix : LauncherKind → String
  | .default => "_workgroup"
  | .fast => "_workgroup_fast"
  | .argBuffer => "_workgroup_argbuffer"
  | .grid => "_grid"

theorem symbol_eq (kind : LauncherKind) (k : String) : kind.symbol k = "_wl_" ++ k ++ kind.suffix := by
  cases kind <;> rfl

theorem suffix_mem (kind : LauncherKind) : kind.suffix ∈ generatedSuffixes := by
  cases kind <;> simp [suffix, generatedSuffixes]

theorem generatedFor_symbol (kind : LauncherKind) (k : String) : GeneratedFor k (kind.symbol k) :=
  ⟨kind.suffix, kind.suffix_mem, symbol_eq kind k⟩

/-- A kernel's launchers of different kinds have different symbols. -/
theorem symbol_injective (k : String) : Function.Injective (LauncherKind.symbol · k) := by
  intro kind kind' h
  simp only [symbol_eq] at h
  have hs := (eq_of_append_generatedSuffixes kind.suffix_mem kind'.suffix_mem h).2
  cases kind <;> cases kind' <;> first | rfl | exact absurd hs (by decide)

/-- No launcher of a kernel shares its symbol with one of the kernel's bodies. -/
theorem symbol_ne_bodySymbol (kind : LauncherKind) (b : BodyFlavor) (k : String) :
    kind.symbol k ≠ b.symbol k := by
  intro h
  rw [symbol_eq, BodyFlavor.symbol_eq] at h
  have hs := (eq_of_append_generatedSuffixes kind.suffix_mem
    (by cases b <;> simp [BodyFlavor.suffix, generatedSuffixes]) h).2
  cases kind <;> cases b <;> simp [suffix, BodyFlavor.suffix] at hs

end LauncherKind

/-! ## Functions of a module by name -/

namespace Module

theorem get?_eq_some {m : Module} {name : String} {f : Function} (h : m.get? name = some f) :
    f.name = name ∧ f ∈ m.functions := by
  unfold get? at h
  exact ⟨by simpa using List.find?_some h, List.mem_of_find?_eq_some h⟩

theorem contains_iff {m : Module} {name : String} : m.contains name ↔ name ∈ m.functions.map (·.name) := by
  simp [contains, get?, List.find?_isSome]

end Module

namespace Pass

/-- No generated function collides exactly when none is named like a function of the module. -/
theorem collision_eq_none {m : Module} {fs : List Function} :
    collision m fs = none ↔ ∀ f ∈ fs, f.name ∉ m.functions.map (·.name) := by
  simp [collision, List.find?_eq_none, Module.contains_iff]

end Pass

/-! ## Output clones -/

namespace OutputClones

theorem contains_iff {c : OutputClones} {helper : String} :
    c.contains helper ↔ ∃ clone, (helper, clone) ∈ c.clones := by
  simp only [contains, get?, Option.isSome_map, List.find?_isSome, beq_iff_eq]
  constructor
  · rintro ⟨⟨k, v⟩, hq, rfl⟩
    exact ⟨v, hq⟩
  · rintro ⟨v, hq⟩
    exact ⟨(helper, v), hq, rfl⟩

theorem mem_insert_go (helper clone : String) :
    ∀ (l : List (String × String)) (q : String × String), q ∈ insert.go helper clone l → q ∈ l ∨ q = (helper, clone)
  | [], q, hq => by simp_all [insert.go]
  | (k, v) :: rest, q, hq => by
      unfold insert.go at hq
      split at hq
      · simp only [List.mem_cons] at hq ⊢
        tauto
      · split at hq
        · simp only [List.mem_cons] at hq ⊢
          tauto
        · rcases List.mem_cons.mp hq with rfl | hq
          · exact .inl List.mem_cons_self
          · exact (mem_insert_go helper clone rest q hq).imp_left (List.mem_cons_of_mem _)

theorem self_mem_insert_go (helper clone : String) :
    ∀ l : List (String × String), (helper, clone) ∈ insert.go helper clone l
  | [] => by simp [insert.go]
  | (k, v) :: rest => by
      unfold insert.go
      split
      · exact List.mem_cons_self
      · split
        · exact List.mem_cons_self
        · exact List.mem_cons_of_mem _ (self_mem_insert_go helper clone rest)

/-- Inserting keeps every helper that had a clone. -/
theorem key_mem_insert_go (helper clone : String) :
    ∀ (l : List (String × String)) {k v : String}, (k, v) ∈ l → ∃ v', (k, v') ∈ insert.go helper clone l
  | [], _, _, h => by simp at h
  | (k₀, v₀) :: rest, k, v, h => by
      unfold insert.go
      split
      · exact ⟨v, List.mem_cons_of_mem _ h⟩
      · split
        · rename_i hk
          rcases List.mem_cons.mp h with h | h
          · obtain ⟨rfl, -⟩ := Prod.mk.inj h
            exact ⟨clone, by rw [hk]; exact List.mem_cons_self⟩
          · exact ⟨v, List.mem_cons_of_mem _ h⟩
        · rcases List.mem_cons.mp h with h | h
          · exact ⟨v, by rw [h]; exact List.mem_cons_self⟩
          · obtain ⟨v', hv'⟩ := key_mem_insert_go helper clone rest h
            exact ⟨v', List.mem_cons_of_mem _ hv'⟩

theorem contains_insert_self (c : OutputClones) (helper clone : String) : (c.insert helper clone).contains helper :=
  contains_iff.mpr ⟨clone, self_mem_insert_go helper clone c.clones⟩

theorem contains_insert_of_contains {c : OutputClones} {h : String} (hc : c.contains h) (helper clone : String) :
    (c.insert helper clone).contains h := by
  obtain ⟨v, hv⟩ := contains_iff.mp hc
  exact contains_iff.mpr (key_mem_insert_go helper clone c.clones hv)

/-- Every clone a cache notes is named after its helper. -/
def Named (c : OutputClones) : Prop := ∀ q ∈ c.clones, q.2 = cloneName q.1

theorem Named.insert {c : OutputClones} (h : c.Named) (helper : String) :
    (c.insert helper (cloneName helper)).Named := by
  intro q hq
  rcases mem_insert_go helper (cloneName helper) c.clones q hq with hq | rfl
  · exact h q hq
  · rfl

theorem Named.get? {c : OutputClones} (h : c.Named) {helper clone : String} (hq : c.get? helper = some clone) :
    clone = cloneName helper := by
  unfold OutputClones.get? at hq
  obtain ⟨q, hfind, rfl⟩ := Option.map_eq_some_iff.mp hq
  have hname : q.1 = helper := by simpa using List.find?_some hfind
  rw [h q (List.mem_of_find?_eq_some hfind), hname]

theorem Named.empty : ({} : OutputClones).Named := by
  intro q hq
  simp at hq

/-- A fold that at each name keeps its cache and list, notes a clone named after the name, or, for a
name without a clone yet, notes its clone and lists the name, ends with a named cache that has
every helper the start had and lists names that are new, each once, each with a clone. -/
theorem foldl_noting (cache₀ : OutputClones) (step : OutputClones × List String → String → OutputClones × List String)
    (hstep : ∀ acc name, step acc name = acc ∨ step acc name = (acc.1.insert name (cloneName name), acc.2) ∨
      (acc.1.contains name = false ∧ step acc name = (acc.1.insert name (cloneName name), acc.2 ++ [name]))) :
    ∀ (names : List String) (acc : OutputClones × List String), acc.1.Named →
      (∀ x, cache₀.contains x → acc.1.contains x) → acc.2.Nodup →
      (∀ x ∈ acc.2, cache₀.contains x = false ∧ acc.1.contains x) →
      let r := names.foldl step acc
      r.1.Named ∧ (∀ x, cache₀.contains x → r.1.contains x) ∧ r.2.Nodup ∧
        ∀ x ∈ r.2, cache₀.contains x = false ∧ r.1.contains x
  | [], acc, hn, hk, hd, hp => ⟨hn, hk, hd, hp⟩
  | name :: names, acc, hn, hk, hd, hp => by
      refine foldl_noting cache₀ step hstep names (step acc name) ?_ ?_ ?_ ?_ <;>
        rcases hstep acc name with heq | heq | ⟨hnew, heq⟩ <;> rw [heq]
      · exact hn
      · exact hn.insert name
      · exact hn.insert name
      · exact hk
      · exact fun x hx => contains_insert_of_contains (hk x hx) _ _
      · exact fun x hx => contains_insert_of_contains (hk x hx) _ _
      · exact hd
      · exact hd
      · -- a name without a clone is not listed yet
        refine List.nodup_append.mpr ⟨hd, List.nodup_singleton name, ?_⟩
        rintro x hx y hy rfl
        obtain rfl := List.mem_singleton.mp hy
        rw [(hp x hx).2] at hnew
        cases hnew
      · exact hp
      · exact fun x hx => ⟨(hp x hx).1, contains_insert_of_contains (hp x hx).2 _ _⟩
      · intro x hx
        rcases List.mem_append.mp hx with hx | hx
        · exact ⟨(hp x hx).1, contains_insert_of_contains (hp x hx).2 _ _⟩
        · rw [List.mem_singleton.mp hx]
          refine ⟨?_, contains_insert_self _ _ _⟩
          -- the start's helpers are all in the cache, and this one is not
          cases h₀ : cache₀.contains name
          · rfl
          · rw [hk name h₀] at hnew
            cases hnew

end OutputClones

/-- Mapping the kept images of a partial map lists a sublist of the images of a total one that
agrees with it. -/
theorem map_filterMap_sublist {α β γ : Type} (f : α → Option β) (g : β → γ) (g' : α → γ)
    (hfg : ∀ a b, f a = some b → g b = g' a) : ∀ l : List α, List.Sublist ((l.filterMap f).map g) (l.map g')
  | [] => by simp
  | a :: l => by
      rw [List.filterMap_cons, List.map_cons]
      cases hfa : f a with
      | none => exact (map_filterMap_sublist f g g' hfg l).cons _
      | some b =>
          rw [List.map_cons, hfg a b hfa]
          exact (map_filterMap_sublist f g g' hfg l).cons_cons _

namespace OutputClones

/-- Each function the kernel reaches is skipped, noted with the clone an earlier run left, or noted
and listed to be cloned when it had no clone yet. -/
theorem noteClone_cases (m : Module) (root : String) (printing : List String) (acc : OutputClones × List String)
    (name : String) : noteClone m root printing acc name = acc ∨
      noteClone m root printing acc name = (acc.1.insert name (cloneName name), acc.2) ∨
      (acc.1.contains name = false ∧
        noteClone m root printing acc name = (acc.1.insert name (cloneName name), acc.2 ++ [name])) := by
  obtain ⟨cache, pending⟩ := acc
  simp only [noteClone]
  split
  · exact .inl rfl
  · rename_i hskip
    have hnew : cache.contains name = false := by simp_all
    -- what is left notes the name alone, notes and lists it, or does nothing
    repeat' split
    all_goals first | exact .inl rfl | exact .inr (.inl rfl) | exact .inr (.inr ⟨hnew, rfl⟩)

@[simp] theorem name_routeOutput (f : Function) (printing : List String) (clones : OutputClones)
    (buffer : List Operand) : (routeOutput f printing clones buffer).name = f.name := rfl

@[simp] theorem attrs_routeOutput (f : Function) (printing : List String) (clones : OutputClones)
    (buffer : List Operand) : (routeOutput f printing clones buffer).attrs = f.attrs := rfl

/-- Threading the output of a body keeps the body's name, and makes clones only of helpers that
had none, each once, named after its helper and derived from it; the cache stays named, keeps its
helpers and gains those. -/
theorem thread_eq_ok {cache cache' : OutputClones} {m : Module} {g : CallGraph} {root : String}
    {body body' : Function} {ctx : Operand} {c : DeviceConfig} {l : ContextLayout}
    {created : List Function} {log : Log} (hc : cache.Named)
    (h : cache.thread m g root body ctx c l = .ok (cache', body', created, log)) :
    cache'.Named ∧ body'.name = body.name ∧ (∀ x, cache.contains x → cache'.contains x) ∧
      (created.map Function.name).Nodup ∧
      ∀ f ∈ created, ∃ x, f.name = cloneName x ∧ f.attrs.derivedFrom = some x ∧
        cache.contains x = false ∧ cache'.contains x := by
  unfold thread at h
  simp only [bind, Except.bind, pure, Except.pure] at h
  -- a body whose kernel prints nothing is left as it is
  have hleft : (cache, body, ([] : List Function), (#[] : Log)) = (cache', body', created, log) →
      cache'.Named ∧ body'.name = body.name ∧ (∀ x, cache.contains x → cache'.contains x) ∧
      (created.map Function.name).Nodup ∧
      ∀ f ∈ created, ∃ x, f.name = cloneName x ∧ f.attrs.derivedFrom = some x ∧
        cache.contains x = false ∧ cache'.contains x := by
    simp only [Prod.mk.injEq]
    rintro ⟨rfl, rfl, rfl, -⟩
    exact ⟨hc, rfl, fun _ hx => hx, List.nodup_nil, by simp⟩
  rcases hroot : m.get? root with _ | kf
  · simp only [hroot, Bool.not_false, if_true, Except.ok.injEq] at h
    exact hleft h
  cases hpo : kf.performsOutput m g
  · simp only [hroot, hpo, Bool.not_false, if_true, Except.ok.injEq] at h
    exact hleft h
  simp only [hroot, hpo, Bool.not_true, Bool.false_eq_true, if_false] at h
  split at h
  · cases h
  split at h
  · cases h
  simp only [Except.ok.injEq, Prod.mk.injEq] at h
  obtain ⟨hcache, rfl, rfl, -⟩ := h
  clear hleft
  obtain ⟨hn, hk, hd, hp⟩ := foldl_noting cache _ (noteClone_cases m root _)
    (g.reachableFrom root) (cache, []) hc (fun _ hx => hx) List.nodup_nil (by simp)
  rw [hcache] at hn hk hp ⊢
  refine ⟨hn, rfl, hk, ?_, fun f hf => ?_⟩
  · refine List.Nodup.sublist (map_filterMap_sublist _ _ cloneName ?_ _) (hd.map cloneName_injective)
    rintro name f hf
    obtain ⟨helper, -, rfl⟩ := Option.map_eq_some_iff.mp hf
    -- a clone takes the name the cache has for it, which is named after its helper
    cases hget : cache'.get? name with
    | none => rfl
    | some clone => exact hn.get? hget
  · obtain ⟨name, hname, hf⟩ := List.mem_filterMap.mp hf
    obtain ⟨helper, -, rfl⟩ := Option.map_eq_some_iff.mp hf
    refine ⟨name, ?_, rfl, hp name hname⟩
    cases hget : cache'.get? name with
    | none => rfl
    | some clone => exact hn.get? hget

end OutputClones

/-! ## Bodies -/

theorem Function.name_privatize (f : Function) (values : List (HandleRef × Operand)) :
    (f.privatize values).1.name = f.name := by
  unfold Function.privatize
  split <;> rfl

/-- A derived body is named for its flavor and its kernel. -/
theorem name_deriveBody {kernel body : Function} {c : DeviceConfig} {l : ContextLayout} {flavor : BodyFlavor}
    {shaped : Bool} {notes : Log} (h : deriveBody kernel c l flavor shaped = .ok (.ok (body, notes))) :
    body.name = flavor.symbol kernel.name := by
  unfold deriveBody at h
  simp only [bind, Except.bind, pure, Except.pure] at h
  -- every way out but the last is a diagnostic or a fault
  repeat' split at h
  all_goals first
    | simp only [Except.ok.injEq, Prod.mk.injEq] at h
      obtain ⟨rfl, -⟩ := h
      exact Function.name_privatize _ _
    | cases h

namespace Pass

variable {p : Pass} {m : Module} {g : CallGraph} {name : String} {kernel : Function} {sg : Option Nat}
  {shaped : Bool}

/-- Deriving the bodies of some flavors appends, for each flavor, its body, after the clones of the
helpers it needs that had none yet; the cache stays named and gains those helpers. Bodies of
flavors with different symbols get different names. -/
theorem deriveBodies_eq_ok :
    ∀ (flavors : List BodyFlavor) {log log' : Log} {outputs outputs' : OutputClones}
      {functions functions' : List Function}, outputs.Named →
      p.deriveBodies m g name kernel sg shaped flavors log outputs functions =
        .ok (log', .ok (outputs', functions')) →
      outputs'.Named ∧ (∀ x, outputs.contains x → outputs'.contains x) ∧ ∃ fs, functions' = functions ++ fs ∧
        (∀ f ∈ fs, (∃ b ∈ flavors, f.name = b.symbol kernel.name) ∨
          ∃ x, f.name = cloneName x ∧ f.attrs.derivedFrom = some x ∧ outputs.contains x = false ∧
            outputs'.contains x) ∧
        (∀ b ∈ flavors, ∃ f ∈ fs, f.name = b.symbol kernel.name) ∧
        ((flavors.map (·.symbol kernel.name)).Nodup → (fs.map Function.name).Nodup)
  | [], log, log', outputs, outputs', functions, functions', hc, h => by
      simp only [deriveBodies, pure, Except.pure, Except.ok.injEq, Prod.mk.injEq] at h
      obtain ⟨-, rfl, rfl⟩ := h
      exact ⟨hc, fun _ hx => hx, [], by simp, by simp, by simp, by simp⟩
  | flavor :: flavors, log, log', outputs, outputs', functions, functions', hc, h => by
      simp only [deriveBodies, bind, Except.bind] at h
      split at h
      · cases h
      split at h
      · simp [pure, Except.pure] at h
      rename_i _ body notes hderive
      have hname : body.name = flavor.symbol kernel.name := name_deriveBody hderive
      split at h
      · -- the body's output goes to the buffer, after the clones it needs
        split at h
        · cases h
        rename_i t hthread
        obtain ⟨hc₁, hbody, hk₁, hnd₁, hcl₁⟩ := OutputClones.thread_eq_ok hc hthread
        obtain ⟨hc', hk', fs, rfl, hfs, hall, hnd⟩ := deriveBodies_eq_ok flavors hc₁ h
        refine ⟨hc', fun x hx => hk' x (hk₁ x hx), t.2.2.1 ++ [t.2.1] ++ fs, by simp, ?_, ?_, ?_⟩
        · intro f hf
          simp only [List.append_assoc, List.mem_append, List.mem_singleton] at hf
          rcases hf with hf | rfl | hf
          · obtain ⟨x, hx, hder, hnew, hin⟩ := hcl₁ f hf
            exact .inr ⟨x, hx, hder, hnew, hk' x hin⟩
          · exact .inl ⟨flavor, List.mem_cons_self, hbody.trans hname⟩
          · rcases hfs f hf with ⟨b, hb, hfb⟩ | ⟨x, hx, hder, hnew, hin⟩
            · exact .inl ⟨b, List.mem_cons_of_mem _ hb, hfb⟩
            · -- a clone made for a later flavor is of a helper the cache did not have before either
              refine .inr ⟨x, hx, hder, ?_, hin⟩
              cases h₀ : outputs.contains x
              · rfl
              · rw [hk₁ x h₀] at hnew
                cases hnew
        · intro b hb
          rcases List.mem_cons.mp hb with rfl | hb
          · exact ⟨_, by simp, hbody.trans hname⟩
          · obtain ⟨f, hf, hfb⟩ := hall b hb
            exact ⟨f, by simp [hf], hfb⟩
        · intro hnodup
          rw [List.map_cons, List.nodup_cons] at hnodup
          have hnd' := hnd hnodup.2
          simp only [List.append_assoc, List.map_append, List.map_cons, List.singleton_append]
          refine List.nodup_append.mpr ⟨hnd₁, List.nodup_cons.mpr ⟨?_, hnd'⟩, ?_⟩
          · -- the body is no later body and no clone
            intro hmem
            obtain ⟨f, hf, hfn⟩ := List.mem_map.mp hmem
            rcases hfs f hf with ⟨b, hb, hfb⟩ | ⟨x, hx, -⟩
            · exact hnodup.1 (List.mem_map.mpr ⟨b, hb, by rw [← hfb, hfn, hbody, hname]⟩)
            · exact not_generatedFor_cloneName x kernel.name
                (by rw [← hx, hfn, hbody, hname]; exact BodyFlavor.generatedFor_symbol _ _)
          · -- the clones made now are none of the names that follow
            rintro a ha b hb rfl
            obtain ⟨f, hf, rfl⟩ := List.mem_map.mp ha
            obtain ⟨x, hx, -, -, hin⟩ := hcl₁ f hf
            rcases List.mem_cons.mp hb with hb | hb
            · exact not_generatedFor_cloneName x kernel.name
                (by rw [← hx, hb, hbody, hname]; exact BodyFlavor.generatedFor_symbol _ _)
            · obtain ⟨f', hf', hfn'⟩ := List.mem_map.mp hb
              rcases hfs f' hf' with ⟨b', -, hfb'⟩ | ⟨x', hx', -, hnew', -⟩
              · exact not_generatedFor_cloneName x kernel.name
                  (by rw [← hx, ← hfn', hfb']; exact BodyFlavor.generatedFor_symbol _ _)
              · have hxx : x' = x := cloneName_injective (by rw [← hx', hfn', hx])
                rw [hxx, hin] at hnew'
                cases hnew'
      · obtain ⟨hc', hk', fs, rfl, hfs, hall, hnd⟩ := deriveBodies_eq_ok flavors hc h
        refine ⟨hc', hk', { body with attrs := { body.attrs with subgroupSize := sg } } :: fs, by simp, ?_, ?_, ?_⟩
        · intro f hf
          rcases List.mem_cons.mp hf with rfl | hf
          · exact .inl ⟨flavor, List.mem_cons_self, hname⟩
          · rcases hfs f hf with ⟨b, hb, hfb⟩ | hcl
            · exact .inl ⟨b, List.mem_cons_of_mem _ hb, hfb⟩
            · exact .inr hcl
        · intro b hb
          rcases List.mem_cons.mp hb with rfl | hb
          · exact ⟨_, List.mem_cons_self, hname⟩
          · obtain ⟨f, hf, hfb⟩ := hall b hb
            exact ⟨f, List.mem_cons_of_mem _ hf, hfb⟩
        · intro hnodup
          rw [List.map_cons, List.nodup_cons] at hnodup
          refine List.nodup_cons.mpr ⟨?_, hnd hnodup.2⟩
          intro hmem
          obtain ⟨f, hf, hfn⟩ := List.mem_map.mp hmem
          rcases hfs f hf with ⟨b, hb, hfb⟩ | ⟨x, hx, -⟩
          · exact hnodup.1 (List.mem_map.mpr ⟨b, hb, by rw [← hfb, hfn, hname]⟩)
          · exact not_generatedFor_cloneName x kernel.name
              (by rw [← hx, hfn, hname]; exact BodyFlavor.generatedFor_symbol _ _)

end Pass

/-! ## Launchers -/

namespace LauncherGen

variable {gen : LauncherGen} {name : String} {shaped : Bool} {fastSize : Option Dims3}
  {layout : Option ArgBufferLayout}

/-- The variants a kernel's launchers are generated from, in the order they are emitted: the
default launcher; a fast one for a fixed local size; an argument-buffer one for a layout, which
enters the fast launcher if there is one and the default one otherwise; a grid one on a device
with grid launchers, which enters each group the way a work-group is entered. -/
def variants (gen : LauncherGen) (name : String) (shaped : Bool) (fastSize : Option Dims3)
    (layout : Option ArgBufferLayout) : List Variant :=
  let perGroup := Iteration.perGroup shaped gen.cfg.spmd
  let default := LauncherKind.default.symbol name
  let fast := fastSize.map fun _ => LauncherKind.fast.symbol name
  let argBuffer := layout.map fun _ => LauncherKind.argBuffer.symbol name
  [{ kind := .default, signature := .direct, args := .forward,
     iteration := perGroup (BodyFlavor.dynamic.symbol name) .context }] ++
  (fastSize.map fun size =>
    ({ kind := .fast, signature := .direct, args := .forward,
       iteration := perGroup ((BodyFlavor.fixed size).symbol name) (.fixed size) } : Variant)).toList ++
  (layout.map fun l =>
    ({ kind := .argBuffer, signature := .buffer, args := .unpack l,
       iteration := .delegate (fast.getD default) } : Variant)).toList ++
  (if gen.cfg.gridLauncher then
    [{ kind := .grid, signature := (if layout.isSome then .buffer else .direct), args := .forward,
       iteration := .groups (argBuffer.getD (fast.getD default)) }]
  else [])

/-- The set that names the launchers made from `variants`. -/
def launcherSet (gen : LauncherGen) (name : String) (shaped : Bool) (fastSize : Option Dims3)
    (layout : Option ArgBufferLayout) : LauncherSet :=
  { kernel := name, body := BodyFlavor.dynamic.symbol name,
    fastBody := fastSize.map fun s => (BodyFlavor.fixed s).symbol name,
    default := LauncherKind.default.symbol name,
    fast := fastSize.map fun _ => LauncherKind.fast.symbol name,
    argBuffer := layout.map fun _ => LauncherKind.argBuffer.symbol name,
    grid := if gen.cfg.gridLauncher then some (LauncherKind.grid.symbol name) else none,
    workgroupBody := shaped, subgroupSize := gen.subgroupSize, layout }

/-- A set's launchers are named for the kinds of the variants, in order. -/
theorem launchers_launcherSet :
    (gen.launcherSet name shaped fastSize layout).launchers =
      (gen.variants name shaped fastSize layout).map (·.kind.symbol name) := by
  cases fastSize <;> cases layout <;> cases hgrid : gen.cfg.gridLauncher <;>
    simp [launcherSet, variants, LauncherSet.launchers, hgrid]

/-- The variants are of different kinds. -/
theorem nodup_kinds_variants : ((gen.variants name shaped fastSize layout).map (·.kind)).Nodup := by
  cases fastSize <;> cases layout <;> cases hgrid : gen.cfg.gridLauncher <;> simp [variants, hgrid]

theorem name_generate {v : Variant} {f : Function} {log : Log} (h : gen.generate v = .ok (f, log)) :
    f.name = v.kind.symbol gen.kernel.name := by
  unfold generate at h
  simp only [bind, Except.bind, pure, Except.pure] at h
  -- every way out but the last is a fault
  repeat' split at h
  all_goals first
    | simp only [Except.ok.injEq, Prod.mk.injEq] at h
      obtain ⟨rfl, -⟩ := h
      rfl
    | cases h

/-- An optional launcher is nothing, or the launcher generated for its variant under that
variant's symbol. -/
theorem emitOpt_eq_ok {ov : Option Variant} {fs : List Function} {notes : Log} {sym : Option String}
    (h : gen.emitOpt name ov = .ok (fs, notes, sym)) :
    List.Forall₂ (fun v f => ∃ log, gen.generate v = .ok (f, log)) ov.toList fs ∧
      sym = ov.map (·.kind.symbol name) := by
  cases ov with
  | none =>
      simp only [emitOpt, except_pure_eq_ok, Prod.mk.injEq] at h
      obtain ⟨rfl, -, rfl⟩ := h
      exact ⟨.nil, rfl⟩
  | some v =>
      simp only [emitOpt] at h
      obtain ⟨⟨f, n⟩, hgen, h⟩ := except_bind_eq_ok.mp h
      simp only [except_pure_eq_ok, Prod.mk.injEq] at h
      obtain ⟨rfl, rfl, rfl⟩ := h
      exact ⟨.cons ⟨n, hgen⟩ .nil, rfl⟩

/-- The launchers of a kernel are those the generator makes from its variants, in order, and its
set is the one that names them. -/
theorem emitLaunchers_eq_ok {fns : List Function} {notes : Log} {S : LauncherSet}
    (h : gen.emitLaunchers name shaped fastSize layout = .ok (fns, notes, S)) :
    List.Forall₂ (fun v f => ∃ log, gen.generate v = .ok (f, log)) (gen.variants name shaped fastSize layout)
      fns ∧ S = gen.launcherSet name shaped fastSize layout := by
  unfold emitLaunchers at h
  obtain ⟨⟨fd, n₀⟩, hd, h⟩ := except_bind_eq_ok.mp h
  dsimp only at h
  obtain ⟨⟨fastFns, n₁, fast⟩, hf, h⟩ := except_bind_eq_ok.mp h
  dsimp only at h
  obtain ⟨⟨bufferFns, n₂, argBuffer⟩, hb, h⟩ := except_bind_eq_ok.mp h
  dsimp only at h
  obtain ⟨⟨gridFns, n₃, grid⟩, hg, h⟩ := except_bind_eq_ok.mp h
  simp only [except_pure_eq_ok, Prod.mk.injEq] at h
  obtain ⟨rfl, -, rfl⟩ := h
  obtain ⟨hF, rfl⟩ := emitOpt_eq_ok hf
  obtain ⟨hB, rfl⟩ := emitOpt_eq_ok hb
  obtain ⟨hG, rfl⟩ := emitOpt_eq_ok hg
  refine ⟨?_, ?_⟩
  · convert List.rel_append (List.rel_append (List.rel_append (.cons ⟨n₀, hd⟩ .nil) hF) hB) hG using 1
    cases fastSize <;> cases layout <;> cases hgrid : gen.cfg.gridLauncher <;> simp [variants, hgrid]
  · cases fastSize <;> cases layout <;> cases hgrid : gen.cfg.gridLauncher <;> simp [launcherSet, hgrid]

end LauncherGen

/-! ## One kernel -/

namespace Pass

variable {p : Pass} {m : Module} {g : CallGraph} {name : String}

/-- A kernel that gets launchers was found under its name and passed every check; its bodies were
derived for the dynamic flavor and, with a fixed local size, the fixed one; its launchers were
generated; and none of the functions made for it is named like a function of the module. -/
theorem processKernel_eq_ok {log : Log} {e : Emission} (h : p.processKernel m g name = .ok (log, .ok e)) :
    ∃ kernel sg fastSize layout bodyLog bodies launchers notes,
      m.get? name = some kernel ∧ checkParams p.cfg kernel = .ok () ∧
      requiredSubgroupSize kernel p.cfg = .ok sg ∧ checkHelpers kernel m g = .ok () ∧
      fastSizeOf kernel p.cfg = .ok fastSize ∧ p.layoutFor name kernel = .ok (.ok layout) ∧
      p.deriveBodies m g name kernel sg (kernel.hasWorkgroupBarriers m g)
        (BodyFlavor.dynamic :: (fastSize.map BodyFlavor.fixed).toList) #[] p.outputs [] =
          .ok (bodyLog, .ok (e.outputs, bodies)) ∧
      ({ cfg := p.cfg, context := p.context, kernel, subgroupSize := sg } : LauncherGen).emitLaunchers name
        (kernel.hasWorkgroupBarriers m g) fastSize layout = .ok (launchers, notes, e.set) ∧
      collision m (bodies ++ launchers) = none ∧ e.functions = bodies ++ launchers := by
  unfold processKernel at h
  rcases hk : m.get? name with _ | kernel
  · simp [hk, pure, Except.pure] at h
  rcases hc : checkParams p.cfg kernel with d | ⟨⟩
  · simp [hk, hc, pure, Except.pure] at h
  rcases hs : requiredSubgroupSize kernel p.cfg with d | sg
  · simp [hk, hc, hs, pure, Except.pure] at h
  rcases hh : checkHelpers kernel m g with d | ⟨⟩
  · simp [hk, hc, hs, hh, pure, Except.pure, bind, Except.bind] at h
  rcases hf : fastSizeOf kernel p.cfg with d | fastSize
  · simp [hk, hc, hs, hh, hf, pure, Except.pure, bind, Except.bind] at h
  rcases hl : p.layoutFor name kernel with fault | sk | layout
  · simp [hk, hc, hs, hh, hf, hl, pure, Except.pure, bind, Except.bind] at h
  · simp [hk, hc, hs, hh, hf, hl, pure, Except.pure, bind, Except.bind] at h
  simp only [hk, hc, hs, hh, hf, hl, pure, Except.pure, bind, Except.bind] at h
  rcases hd : p.deriveBodies m g name kernel sg (kernel.hasWorkgroupBarriers m g)
      (BodyFlavor.dynamic :: (fastSize.map BodyFlavor.fixed).toList) #[] p.outputs [] with
    f | ⟨bodyLog, d | ⟨outputs, bodies⟩⟩
  · simp [hd] at h
  · simp [hd] at h
  rcases he : ({ cfg := p.cfg, context := p.context, kernel, subgroupSize := sg } : LauncherGen).emitLaunchers
      name (kernel.hasWorkgroupBarriers m g) fastSize layout with f | ⟨launchers, notes, set⟩
  · simp [hd, he] at h
  rcases hx : collision m (bodies ++ launchers) with _ | taken
  · simp only [hd, he, hx, Except.ok.injEq, Prod.mk.injEq] at h
    obtain ⟨-, rfl⟩ := h
    exact ⟨kernel, sg, fastSize, layout, bodyLog, bodies, launchers, notes, rfl, hc, hs, hh, hf, hl, hd, he, hx, rfl⟩
  · simp [hd, he, hx] at h

/-- The declaration of the local-id intrinsic that committing adds on a device that runs one
invocation per work-item. -/
def localIdDeclaration : Function := { name := localIdIntrinsic, params := [{ name := "dim", ty := .i32 }] }

/-- Committing appends the emission's functions to the module, after the declaration of the
local-id intrinsic on a device that runs one invocation per work-item and whose module has no
function of that name yet; the pass keeps the emission's clones. -/
theorem commit_eq (p : Pass) (m : Module) (e : Emission) :
    ∃ decl : List Function, (decl = [] ∨ (decl = [localIdDeclaration] ∧ ¬ m.contains localIdIntrinsic)) ∧
      (p.commit m e).2.1 = { m with functions := m.functions ++ decl ++ e.functions } ∧
      (p.commit m e).1.outputs = e.outputs ∧ (p.commit m e).1.cfg = p.cfg ∧
      (p.commit m e).1.context = p.context := by
  by_cases hadd : p.cfg.spmd && !m.contains localIdIntrinsic
  · refine ⟨[localIdDeclaration], .inr ⟨rfl, by simp_all⟩, ?_, rfl, rfl, rfl⟩
    simp [commit, hadd, localIdDeclaration]
  · refine ⟨[], .inl rfl, ?_, rfl, rfl, rfl⟩
    simp [commit, hadd]

end Pass

end KernelLaunch
