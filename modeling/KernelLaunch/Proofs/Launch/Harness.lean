import KernelLaunch.Proofs.Launch.Unpack
import KernelLaunch.Proofs.Context.Record
import KernelLaunch.Interp.Harness

/-!
# The host side of a launch

What the harness does around the launchers. A context record and an argument buffer are new
regions of their address spaces (`run_contextRecord`, `run_argBuffer`), and every element of a
context record reads back as its value cut to its width (`wordAt?_context`). Entering a launcher
is one call on a device whose launchers loop over the work-items (`run_enter_direct`) and one call
per local id, x fastest, on a device that runs one invocation per work-item (`run_enter_spmd`).
Loops over ranges and boxes call along their iterations' entries in order (`run_forBox`).
-/

namespace KernelLaunch

open Machine

namespace Machine

variable {σ : Type} {callee : String} {R : List Value → Machine → σ → Prop} {I : Machine → Prop}

/-- A loop over `i, i + 1, …` whose every iteration keeps the invariant `I` and calls along its
own entries keeps `I` and calls along all of them in order. -/
theorem run_forRange_go {body : Nat → Exec Unit} {X : Nat → List σ} {n : Nat}
    (hstep : ∀ i < n, ∀ s t, I s → (body i).run s = .ok () t → I t ∧ CallsAlong callee R (X i) s t) :
    ∀ (left i : Nat) {s t : Machine}, i + left ≤ n → I s → (forRange.go body i left).run s = .ok () t →
      I t ∧ CallsAlong callee R ((List.range' i left).flatMap X) s t
  | 0, i, s, t, _, hI, h => by
      obtain ⟨-, rfl⟩ := run_pure_eq_ok.mp h
      exact ⟨hI, .done (.refl s)⟩
  | left + 1, i, s, t, hle, hI, h => by
      obtain ⟨_, u, hbody, hrest⟩ := run_bind_eq_ok.mp h
      obtain ⟨hIu, hcalls⟩ := hstep i (by omega) s u hI hbody
      obtain ⟨hIt, hrest⟩ := run_forRange_go hstep left (i + 1) (by omega) hIu hrest
      exact ⟨hIt, by simpa [List.range'_succ] using hcalls.append hrest⟩

theorem run_forRange {body : Nat → Exec Unit} {X : Nat → List σ} {n : Nat} {s t : Machine}
    (hstep : ∀ i < n, ∀ s t, I s → (body i).run s = .ok () t → I t ∧ CallsAlong callee R (X i) s t)
    (hI : I s) (h : (forRange n body).run s = .ok () t) :
    I t ∧ CallsAlong callee R ((List.range n).flatMap X) s t := by
  rw [List.range_eq_range']
  exact run_forRange_go hstep n 0 (by omega) hI h

/-- A loop over the points of a box, x fastest, whose every iteration keeps the invariant `I` and
calls once for its point, calls once for each point of the box, in launch order. -/
theorem run_forBox {R : List Value → Machine → Dims3 → Prop} {box : Dims3} {body : Dims3 → Exec Unit}
    {s t : Machine}
    (hstep : ∀ p : Dims3, p.x < box.x → p.y < box.y → p.z < box.z → ∀ s t, I s →
      (body p).run s = .ok () t → I t ∧ CallsAlong callee R [p] s t)
    (hI : I s) (h : (forBox box body).run s = .ok () t) : I t ∧ CallsAlong callee R box.box s t := by
  have hbox : box.box = (List.range box.z).flatMap fun z => (List.range box.y).flatMap fun y =>
      (List.range box.x).flatMap fun x => [(⟨x, y, z⟩ : Dims3)] := by
    simp only [Dims3.box, ← List.map_eq_flatMap]
  rw [hbox]
  refine run_forRange (fun z hz s t hI h => ?_) hI h
  refine run_forRange (fun y hy s t hI h => ?_) hI h
  exact run_forRange (fun x hx s t hI h => hstep ⟨x, y, z⟩ hx hy hz s t hI h) hI h

end Machine

namespace Harness

variable {h : Harness} {s t : Machine}

/-- A context record is a new region holding the encoded values. -/
theorem run_contextRecord {v : ContextValues} {ctx : Pointer} (hrun : (h.contextRecord v).run s = .ok ctx t) :
    ∃ bytes, h.context.encode v = .ok bytes ∧ ctx = ⟨s.regions.size, 0⟩ ∧
      t = { s with regions := s.regions.push (Region.ofBytes h.cfg.addressSpaces.contextSpace bytes) } := by
  unfold contextRecord at hrun
  obtain ⟨bytes, u, hb, halloc⟩ := run_bind_eq_ok.mp hrun
  clear hrun
  obtain ⟨hbytes, rfl⟩ := run_faultOf_eq_ok.mp hb
  change (allocRegion _).run _ = _ at halloc
  rw [run_allocRegion, EStateM.Result.ok.injEq] at halloc
  obtain ⟨rfl, rfl⟩ := halloc
  exact ⟨bytes, hbytes, rfl, rfl⟩

/-- A word read out of a buffer lies inside it. -/
theorem readWord_fits {buf : ByteArray} {start w n : Nat} (h : Bytes.readWord buf start w = .ok n) :
    start + w ≤ Word.max ∧ start + w ≤ buf.size := by
  rw [← Bytes.checkRange_eq_ok]
  unfold Bytes.readWord at h
  cases hc : Bytes.checkRange buf.size start w with
  | error e => simp [hc, bind, Except.bind] at h
  | ok u => rfl

/-- Every element of a context record, encoded for a validated device and stored as a region,
reads back as its value, cut to the element's width. -/
theorem wordAt?_context {c : DeviceConfig} (hc : c.validate = none) {v : ContextValues} {bytes : ByteArray}
    (hbytes : (ContextLayout.ofDevice c).encode v = .ok bytes) {m : Machine} {k space : Nat}
    (hr : m.regions[k]? = some (Region.ofBytes space bytes)) {f : ContextField} {d : Nat} (hd : d < f.len) :
    m.wordAt? ((⟨k, 0⟩ : Pointer).add ((ContextLayout.ofDevice c).offset f d)) ((ContextLayout.ofDevice c).width f) =
      some (v.get f d % 256 ^ (ContextLayout.ofDevice c).width f) := by
  obtain ⟨-, hreads⟩ := ContextLayout.read_encode hc hbytes
  have hread := hreads f d hd
  unfold ContextLayout.read at hread
  obtain ⟨hmax, hfit⟩ := readWord_fits hread
  have hoff : (⟨k, 0⟩ : Pointer).add ((ContextLayout.ofDevice c).offset f d) =
      ⟨k, (ContextLayout.ofDevice c).offset f d⟩ := by
    simp only [Pointer.add, Word.wrappingAdd, Nat.zero_add, Pointer.mk.injEq, true_and]
    exact Nat.mod_eq_of_lt (by unfold Word.max at hmax; unfold Word.size; omega)
  rw [hoff, wordAt?_ofBytes hr (ContextLayout.width_mem_ofDevice hc f) hmax hfit, hread]
  rfl

/-- A fold whose every step leaves the machine as it was leaves it as it was. -/
theorem run_foldlM_eq_self {α β : Type} {f : β → α → Exec β}
    (hf : ∀ b a s b' t, (f b a).run s = .ok b' t → t = s) :
    ∀ (xs : List α) (b : β) {s t : Machine} {b' : β}, (xs.foldlM f b).run s = .ok b' t → t = s
  | [], b, s, t, b', hrun => by
      rw [List.foldlM_nil] at hrun
      exact (run_pure_eq_ok.mp hrun).2.symm
  | x :: xs, b, s, t, b', hrun => by
      rw [List.foldlM_cons] at hrun
      obtain ⟨b₁, u, h₁, h₂⟩ := run_bind_eq_ok.mp hrun
      exact (run_foldlM_eq_self hf xs b₁ h₂).trans (hf b x s b₁ u h₁)

/-- Packing the arguments into a buffer only reads the machine, then adds the buffer as a new
region of the argument space. -/
theorem run_argBuffer {l : ArgBufferLayout} {args : List Value} {buf : Pointer}
    (hrun : (h.argBuffer l args).run s = .ok buf t) :
    args.length = l.slots.length ∧ buf = ⟨s.regions.size, 0⟩ ∧
      ∃ bytes, t = { s with regions := s.regions.push (Region.ofBytes h.cfg.addressSpaces.argsSpace bytes) } := by
  unfold argBuffer at hrun
  dsimp only at hrun
  split at hrun
  · obtain ⟨_, _, hstop, -⟩ := run_bind_eq_ok.mp hrun
    exact absurd hstop run_stop_ne_ok
  rename_i hne
  have hlen : args.length = l.slots.length := by simpa using hne
  obtain ⟨bytes, u, hpack, halloc⟩ := run_bind_eq_ok.mp hrun
  clear hrun
  -- every slot is written from a value or from bytes read, and the machine is only read
  have hu : u = s := by
    refine run_foldlM_eq_self (fun b x s b' t hx => ?_) _ _ hpack
    obtain ⟨sl, arg⟩ := x
    dsimp only at hx
    split at hx
    · obtain ⟨data, u', hread, hpure⟩ := run_bind_eq_ok.mp hx
      exact (run_pure_eq_ok.mp hpure).2.symm.trans (run_readBytes_eq_ok.mp hread).1
    · exact (run_faultOf_eq_ok.mp hx).2
    · obtain ⟨m, u', hget, hx⟩ := run_bind_eq_ok.mp hx
      cases hget
      obtain ⟨raw, u'', hraw, hx⟩ := run_bind_eq_ok.mp hx
      exact (run_faultOf_eq_ok.mp hx).2.trans (run_faultOf_eq_ok.mp hraw).2
  subst hu
  change (allocRegion _).run _ = _ at halloc
  rw [run_allocRegion, EStateM.Result.ok.injEq] at halloc
  obtain ⟨rfl, rfl⟩ := halloc
  exact ⟨hlen, rfl, bytes, rfl⟩

/-- The entry launcher's arguments are the buffer packed from the values, for a set with an
argument-buffer launcher and its layout, and the values themselves otherwise. -/
theorem run_entryArgs {S : LauncherSet} {args xs : List Value} (hrun : (h.entryArgs S args).run s = .ok xs t) :
    (∃ n l buf, S.argBuffer = some n ∧ S.layout = some l ∧ xs = [.ptr buf] ∧ (h.argBuffer l args).run s = .ok buf t) ∨
      (xs = args ∧ t = s ∧ (S.argBuffer = none ∨ S.layout = none)) := by
  unfold entryArgs at hrun
  split at hrun
  · rename_i n l habuf hlayout
    obtain ⟨buf, u, hbuf, hpure⟩ := run_bind_eq_ok.mp hrun
    obtain ⟨rfl, rfl⟩ := run_pure_eq_ok.mp hpure
    exact .inl ⟨n, l, buf, habuf, hlayout, rfl, hbuf⟩
  · rename_i hnot
    obtain ⟨rfl, rfl⟩ := run_pure_eq_ok.mp hrun
    refine .inr ⟨rfl, rfl, ?_⟩
    cases habuf : S.argBuffer with
    | none => exact .inl rfl
    | some n =>
        cases hlayout : S.layout with
        | none => exact .inr rfl
        | some l => exact absurd (hnot n l habuf hlayout) (by simp)

/-- On a device whose launchers iterate the work-items, a launcher is entered by one call with the
arguments and the context. -/
theorem run_enter_direct {launcher : String} {args : List Value} {ctx : Pointer} {items : Dims3}
    (hspmd : h.cfg.spmd = false) (hrun : (h.enter launcher args ctx items).run s = .ok () t) :
    ∃ r, (call (maxCallDepth + 1) launcher (args ++ [.ptr ctx])).run s = .ok r t := by
  unfold enter at hrun
  simp only [hspmd, Bool.not_false, if_true] at hrun
  obtain ⟨r, u, hcall, hpure⟩ := run_bind_eq_ok.mp hrun
  obtain ⟨-, rfl⟩ := run_pure_eq_ok.mp hpure
  exact ⟨r, hcall⟩

/-- On a device that runs one invocation per work-item, a launcher is entered once per local id
of the box, x fastest, each time from a machine whose local id is that id. -/
theorem run_enter_spmd {launcher : String} {args : List Value} {ctx : Pointer} {items : Dims3}
    (hspmd : h.cfg.spmd = true) (hrun : (h.enter launcher args ctx items).run s = .ok () t) :
    (forBox items fun id => do
      modify fun m => { m with localId := id }
      let _ ← call (maxCallDepth + 1) launcher (args ++ [.ptr ctx])).run s = .ok () t := by
  unfold enter at hrun
  simpa only [hspmd, Bool.not_true, Bool.false_eq_true, if_false] using hrun

end Harness

end KernelLaunch
