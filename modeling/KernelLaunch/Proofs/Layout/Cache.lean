import KernelLaunch.Proofs.Layout.Fingerprint
import KernelLaunch.Proofs.Pass.Rerun
/-!
# The recorded layouts

The cache of recorded layouts answers a check and a record as follows: checking a layout fails
exactly when the entry of its kernel has its fingerprint but differs from it
(`check_eq_error_iff`); recording fails exactly when checking does (`record_eq_error_iff`), and
otherwise stores the layout under its kernel (`get?_record`). Along any sequence of checks and
records every entry stays stored under its own layout's kernel name (`Keyed.run`).

A cache whose layouts were all computed, each for a kernel of the name it is stored under, from
byte strings on which the digest does not collide, never finds a computed layout disagreeing
(`check_of_computed`), and recording one keeps it so (`Computed.record`).
-/

namespace KernelLaunch

namespace LayoutCache

variable {C C' : LayoutCache} {l : ArgBufferLayout} {log : Log}

/-! ## Checking and recording -/

theorem mem_insertSorted {k : String} {v : ArgBufferLayout} :
    ∀ {L : List (String × ArgBufferLayout)} {e : String × ArgBufferLayout}, e ∈ insertSorted k v L → e = (k, v) ∨ e ∈ L
  | [], e, h => .inl (List.mem_singleton.mp h)
  | (k', v') :: rest, e, h => by
      unfold insertSorted at h
      split at h
      · rcases List.mem_cons.mp h with rfl | h
        · exact .inl rfl
        · exact .inr h
      · split at h
        · rcases List.mem_cons.mp h with rfl | h
          · exact .inl rfl
          · exact .inr (List.mem_cons_of_mem _ h)
        · rcases List.mem_cons.mp h with rfl | h
          · exact .inr List.mem_cons_self
          · rcases mem_insertSorted h with rfl | h
            · exact .inl rfl
            · exact .inr (List.mem_cons_of_mem _ h)

/-- Inserting under a key puts the entry ahead of every other entry of that key. -/
theorem get?_insert_self (C : LayoutCache) (k : String) (l : ArgBufferLayout) : (C.insert k l).get? k = some l := by
  unfold insert get?
  induction C.layouts with
  | nil => simp [insertSorted]
  | cons q rest ih =>
      obtain ⟨k', v'⟩ := q
      unfold insertSorted
      split
      · simp
      · split
        · simp
        · rename_i hlt heq
          simpa [List.find?_cons, Ne.symm heq] using ih

/-- What the cache answers for a kernel is an entry stored under that kernel. -/
theorem mem_of_get? {k : String} (h : C.get? k = some l) : (k, l) ∈ C.layouts := by
  obtain ⟨e, he, rfl⟩ := Option.map_eq_some_iff.mp h
  have hk : e.1 = k := by simpa using List.find?_some he
  have hmem := List.mem_of_find?_eq_some he
  rwa [← hk]

/-- Checking a layout fails exactly when the entry of its kernel has its fingerprint but differs
from it. -/
theorem check_eq_error_iff :
    (∃ d, C.check l = .error d) ↔ ∃ was, C.get? l.kernel = some was ∧ was.fingerprint = l.fingerprint ∧ was ≠ l := by
  unfold check
  rcases C.get? l.kernel with _ | was
  · simp
  · simp only [Option.some.injEq, exists_eq_left']
    split
    · rename_i hagree
      simp only [Bool.or_eq_true, bne_iff_ne, ne_eq, beq_iff_eq] at hagree
      simp only [reduceCtorEq, exists_false, false_iff, not_and, not_not]
      rcases hagree with hfp | hsame
      · exact fun h => absurd h hfp
      · exact fun _ => hsame
    · rename_i hagree
      simp only [Bool.or_eq_true, bne_iff_ne, ne_eq, beq_iff_eq, not_or, not_not] at hagree
      simp [hagree]

/-- Recording a layout fails exactly when checking it does, with the same diagnostic. -/
theorem record_eq_error_iff {d : Diagnostic} : C.record l = .error d ↔ C.check l = .error d := by
  unfold record
  rcases hc : C.check l with d' | ⟨⟩
  · simp [bind, Except.bind]
  · simp [bind, Except.bind, pure, Except.pure]

/-- A recorded layout is what the cache then answers for its kernel; every other kernel's entry
stays as it was. -/
theorem get?_record (h : C.record l = .ok (C', log)) :
    C'.get? l.kernel = some l ∧ ∀ x, x ≠ l.kernel → C'.get? x = C.get? x := by
  rw [record_eq_ok h]
  exact ⟨get?_insert_self C l.kernel l, fun x hx => get?_insert_of_ne C (Ne.symm hx) l⟩

/-! ## Runs of checks and records -/

/-- A step a caller takes on the cache. -/
inductive Step where
  | check (l : ArgBufferLayout)
  | record (l : ArgBufferLayout)

/-- The cache after a step: a check leaves it as it is, and so does a record that fails. -/
def Step.apply (C : LayoutCache) : Step → LayoutCache
  | .check _ => C
  | .record l => match C.record l with
    | .ok (C', _) => C'
    | .error _ => C

/-- Every entry is stored under its own layout's kernel name. -/
def Keyed (C : LayoutCache) : Prop := ∀ e ∈ C.layouts, e.1 = e.2.kernel

theorem Keyed.empty : ({} : LayoutCache).Keyed := fun _ h => absurd h List.not_mem_nil

theorem Keyed.record (hC : C.Keyed) (h : C.record l = .ok (C', log)) : C'.Keyed := by
  rw [record_eq_ok h]
  intro e he
  rcases mem_insertSorted he with rfl | he
  · rfl
  · exact hC e he

theorem Keyed.apply (hC : C.Keyed) (s : Step) : (Step.apply C s).Keyed := by
  cases s with
  | check l => exact hC
  | record l =>
      rcases h : C.record l with d | ⟨C', log⟩
      · simpa only [Step.apply, h] using hC
      · simpa only [Step.apply, h] using hC.record h

/-- Along any sequence of checks and records every entry stays stored under its own layout's
kernel name. -/
theorem Keyed.run (hC : C.Keyed) (steps : List Step) : (steps.foldl Step.apply C).Keyed := by
  induction steps generalizing C with
  | nil => exact hC
  | cons s steps ih => exact ih (hC.apply s)

/-! ## Caches of computed layouts -/

/-- Every layout the cache holds was computed for a kernel of the name it is stored under, on a
device whose fingerprinted words are 32-bit, from a fingerprinted byte string of `S`. -/
def Computed (S : Set ByteArray) (C : LayoutCache) : Prop :=
  ∀ e ∈ C.layouts, ∃ (f : Function) (c : DeviceConfig), f.name = e.1 ∧ c.WordsFit ∧
    ArgBufferLayout.compute f c = .ok (.ok e.2) ∧ ArgBufferLayout.fingerprintInput f c ∈ S

section Computed

variable {S : Set ByteArray} {f : Function} {c : DeviceConfig}

theorem Computed.empty : ({} : LayoutCache).Computed S := fun _ h => absurd h List.not_mem_nil

theorem Computed.keyed (hC : C.Computed S) : C.Keyed := by
  intro e he
  obtain ⟨f, c, hname, -, hl, -⟩ := hC e he
  obtain ⟨-, -, -, hkernel, -⟩ := ArgBufferLayout.compute_eq_ok_place hl
  rw [← hname, hkernel]

/-- Recording a layout computed on a device whose fingerprinted words are 32-bit, from a byte
string of `S`, keeps every layout of the cache computed. -/
theorem Computed.record (hC : C.Computed S) (hc : c.WordsFit) (hin : ArgBufferLayout.fingerprintInput f c ∈ S)
    (hl : ArgBufferLayout.compute f c = .ok (.ok l)) (h : C.record l = .ok (C', log)) : C'.Computed S := by
  rw [record_eq_ok h]
  intro e he
  rcases mem_insertSorted he with rfl | he
  · obtain ⟨-, -, -, hkernel, -⟩ := ArgBufferLayout.compute_eq_ok_place hl
    exact ⟨f, c, hkernel.symm, hc, hl, hin⟩
  · exact hC e he

/-- A cache of computed layouts never finds a layout computed from a byte string of `S`
disagreeing, when the digest does not collide on `S`: an entry with the same kernel and fingerprint
was computed from the same byte string, hence is the same layout. -/
theorem check_of_computed (hC : C.Computed S) (hinj : Set.InjOn Blake3.hexDigest S) (hc : c.WordsFit)
    (hin : ArgBufferLayout.fingerprintInput f c ∈ S) (hl : ArgBufferLayout.compute f c = .ok (.ok l)) :
    C.check l = .ok () := by
  rcases hcheck : C.check l with d | ⟨⟩
  · obtain ⟨was, hwas, hfp, hne⟩ := check_eq_error_iff.mp ⟨d, hcheck⟩
    obtain ⟨f', c', hname', hc', hl', hin'⟩ := hC _ (mem_of_get? hwas)
    obtain ⟨-, -, -, hkernel, -⟩ := ArgBufferLayout.compute_eq_ok_place hl
    obtain ⟨-, -, -, hkernel', -⟩ := ArgBufferLayout.compute_eq_ok_place hl'
    have heq : l = was := ArgBufferLayout.eq_of_fingerprint_eq hc hc'
      (fun hd => hinj hin hin' hd) hl hl' (by rw [hkernel', hname']) hfp.symm
    exact absurd heq.symm hne
  · rfl

end Computed

end LayoutCache

end KernelLaunch
