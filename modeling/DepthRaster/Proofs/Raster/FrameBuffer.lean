import DepthRaster.Proofs.Raster.Sample
import DepthRaster.Raster.Fill
import Mathlib.Data.List.Basic
/-!
# Frame buffers pixel by pixel

What a buffer holds at a pixel depends on the writes at that pixel alone: each of them is compared
with the sample that is there, and the higher rank stays. Writes that agree wherever they tie can
be tried in any order.
-/

namespace DepthRaster.Raster

def Write.sample (w : Write) : Sample := .pack w.depth w.order w.color

def Write.isAt (x y : Nat) (w : Write) : Bool := decide (w.x = x) && decide (w.y = y)

def Sample.after (s : Sample) (w : Write) : Sample :=
  if w.depth ≠ farDepth ∧ s.rank < w.sample.rank then w.sample else s

namespace FrameBuffer

def writeAll (fb : FrameBuffer) (writes : List Write) : FrameBuffer :=
  writes.foldl (fun fb w => (fb.composite w).1) fb

@[simp] theorem width_composite (fb : FrameBuffer) (w : Write) :
    (fb.composite w).1.width = fb.width := by
  obtain ⟨width, height, samples, size⟩ := fb
  simp only [composite]
  split_ifs <;> rfl

@[simp] theorem height_composite (fb : FrameBuffer) (w : Write) :
    (fb.composite w).1.height = fb.height := by
  obtain ⟨width, height, samples, size⟩ := fb
  simp only [composite]
  split_ifs <;> rfl

theorem offset_inj {x y x' y' width : Nat} (hx : x < width) (hx' : x' < width)
    (h : y * width + x = y' * width + x') : x = x' ∧ y = y' := by
  have hmod : (y * width + x) % width = (y' * width + x') % width := congrArg (· % width) h
  rw [Nat.mul_add_mod_of_lt hx, Nat.mul_add_mod_of_lt hx'] at hmod
  subst hmod
  exact ⟨rfl, Nat.eq_of_mul_eq_mul_right (Nat.zero_lt_of_lt hx) (Nat.add_right_cancel h)⟩

@[simp] theorem sampleAt_empty {width height x y : Nat} (hx : x < width) (hy : y < height) :
    (empty width height).sampleAt x y = some .empty := by
  simp [sampleAt, empty, hx, hy]

theorem eq_empty_of_sampleAt_empty {width height x y : Nat} {s : Sample}
    (h : (empty width height).sampleAt x y = some s) : s = .empty := by
  simp only [sampleAt, empty, Array.getElem_replicate, Option.dite_none_right_eq_some,
    Option.some.injEq] at h
  exact h.2.symm

theorem sampleAt_composite_of_isAt (fb : FrameBuffer) (w : Write) {x y : Nat}
    (h : w.isAt x y = true) :
    (fb.composite w).1.sampleAt x y = (fb.sampleAt x y).map (·.after w) := by
  obtain ⟨rfl, rfl⟩ : w.x = x ∧ w.y = y := by simpa [Write.isAt] using h
  obtain ⟨width, height, samples, size⟩ := fb
  by_cases hin : w.x < width ∧ w.y < height
  · by_cases hfar : w.depth = farDepth
    · simp [composite, sampleAt, hin, hfar, Sample.after]
    · simp only [composite, dif_pos hin, if_neg hfar]
      split_ifs with hrank
      · simp [sampleAt, hin, Sample.after, hfar, Write.sample, hrank]
      · simp [sampleAt, hin, Sample.after, hfar, Write.sample, hrank]
  · simp [composite, sampleAt, hin]

theorem sampleAt_composite_of_not_isAt (fb : FrameBuffer) (w : Write) {x y : Nat}
    (h : w.isAt x y = false) : (fb.composite w).1.sampleAt x y = fb.sampleAt x y := by
  have hne : ¬ (w.x = x ∧ w.y = y) := by simpa [Write.isAt] using h
  obtain ⟨width, height, samples, size⟩ := fb
  simp only [composite]
  split_ifs with hin hfar hrank
  · rfl
  · unfold sampleAt
    split_ifs with hxy
    · have hw : w.y * width + w.x < samples.size := size ▸ offset_lt hin.1 hin.2
      have hp : y * width + x < samples.size := size ▸ offset_lt hxy.1 hxy.2
      refine congrArg some (Array.getElem_set_ne hw hp ?_)
      intro heq
      exact hne (offset_inj hin.1 hxy.1 heq)
    · rfl
  · rfl
  · rfl

theorem sampleAt_writeAll (fb : FrameBuffer) (writes : List Write) (x y : Nat) :
    (fb.writeAll writes).sampleAt x y =
      (fb.sampleAt x y).map ((writes.filter (·.isAt x y)).foldl Sample.after) := by
  induction writes generalizing fb with
  | nil => simp [writeAll]
  | cons w writes ih =>
      change ((fb.composite w).1.writeAll writes).sampleAt x y = _
      rw [ih]
      cases h : w.isAt x y with
      | true =>
          rw [sampleAt_composite_of_isAt fb w h, List.filter_cons_of_pos h, Option.map_map]
          rfl
      | false =>
          rw [sampleAt_composite_of_not_isAt fb w h, List.filter_cons_of_neg (by simp [h])]

@[simp] theorem width_writeAll (fb : FrameBuffer) (writes : List Write) :
    (fb.writeAll writes).width = fb.width := by
  induction writes generalizing fb with
  | nil => rfl
  | cons w writes ih => exact (ih _).trans (width_composite fb w)

@[simp] theorem height_writeAll (fb : FrameBuffer) (writes : List Write) :
    (fb.writeAll writes).height = fb.height := by
  induction writes generalizing fb with
  | nil => rfl
  | cons w writes ih => exact (ih _).trans (height_composite fb w)

theorem fst_foldl_compositeCounted (state : FrameBuffer × FillCounts) (writes : List Write) :
    (writes.foldl compositeCounted state).1 = state.1.writeAll writes := by
  induction writes generalizing state with
  | nil => rfl
  | cons w writes ih => exact ih _

theorem fragments_foldl_compositeCounted (state : FrameBuffer × FillCounts)
    (writes : List Write) :
    (writes.foldl compositeCounted state).2.fragments = state.2.fragments + writes.length := by
  induction writes generalizing state with
  | nil => rfl
  | cons w writes ih =>
      rw [List.foldl_cons, ih, List.length_cons]
      change state.2.fragments + 1 + _ = _
      omega

theorem ext_sampleAt {a b : FrameBuffer} (hwidth : a.width = b.width)
    (hheight : a.height = b.height)
    (h : ∀ x < a.width, ∀ y < a.height, a.sampleAt x y = b.sampleAt x y) : a = b := by
  obtain ⟨width, height, samples, size⟩ := a
  obtain ⟨width', height', samples', size'⟩ := b
  obtain rfl : width = width' := hwidth
  obtain rfl : height = height' := hheight
  congr 1
  apply Array.ext (size.trans size'.symm)
  intro i hi hi'
  have hi : i < width * height := size ▸ hi
  have hwidth : 0 < width := Nat.pos_of_mul_pos_right (Nat.zero_lt_of_lt hi)
  have hx : i % width < width := Nat.mod_lt _ hwidth
  have hy : i / width < height := Nat.div_lt_of_lt_mul hi
  have hsame := h (i % width) hx (i / width) hy
  have hi_eq : i / width * width + i % width = i := by
    rw [Nat.mul_comm, Nat.div_add_mod]
  simpa [sampleAt, hx, hy, hi_eq] using hsame

end FrameBuffer

/-! ## Bounds on depths -/

theorem Sample.depth_after_le {s : Sample} {w : Write} {d : UInt8} (hs : s.depth ≤ d)
    (hw : w.depth ≤ d) : (s.after w).depth ≤ d := by
  unfold Sample.after
  split_ifs
  · rwa [Write.sample, Sample.depth_pack]
  · exact hs

theorem Sample.depth_foldl_after_le {writes : List Write} {d : UInt8}
    (hwrites : ∀ w ∈ writes, w.depth ≤ d) {s : Sample} (hs : s.depth ≤ d) :
    (writes.foldl Sample.after s).depth ≤ d := by
  induction writes generalizing s with
  | nil => exact hs
  | cons w writes ih =>
      obtain ⟨hw, hrest⟩ := List.forall_mem_cons.mp hwrites
      exact ih hrest (Sample.depth_after_le hs hw)

theorem FrameBuffer.depth_le_of_writeAll_empty {width height : Nat} {writes : List Write}
    {d : UInt8} (hwrites : ∀ w ∈ writes, w.depth ≤ d) {x y : Nat} {s : Sample}
    (hs : ((empty width height).writeAll writes).sampleAt x y = some s) : s.depth ≤ d := by
  rw [sampleAt_writeAll, Option.map_eq_some_iff] at hs
  obtain ⟨s, hs, rfl⟩ := hs
  refine Sample.depth_foldl_after_le (fun w hw => hwrites w (List.mem_of_mem_filter hw)) ?_
  rw [eq_empty_of_sampleAt_empty hs, Sample.depth_empty, UInt8.le_iff_toNat_le]
  exact Nat.zero_le _

/-! ## Any order of writes -/

/-- Writes that leave the same sample wherever they tie. -/
def TiesAgree (writes : List Write) : Prop :=
  ∀ v ∈ writes, ∀ w ∈ writes, v.sample.rank = w.sample.rank → v.sample = w.sample

theorem Sample.after_comm {v w : Write}
    (h : v.sample.rank = w.sample.rank → v.sample = w.sample) (s : Sample) :
    (s.after v).after w = (s.after w).after v := by
  unfold Sample.after
  grind

theorem TiesAgree.foldl_after_perm {writes order : List Write} (hagree : TiesAgree writes)
    (hperm : order.Perm writes) (s : Sample) :
    order.foldl Sample.after s = writes.foldl Sample.after s := by
  apply hperm.foldl_eq'
  intro v hv w hw s
  exact Sample.after_comm (hagree v (hperm.mem_iff.mp hv) w (hperm.mem_iff.mp hw)) s

theorem TiesAgree.filter {writes : List Write} (hagree : TiesAgree writes) (p : Write → Bool) :
    TiesAgree (writes.filter p) := by
  intro v hv w hw
  exact hagree v (List.mem_of_mem_filter hv) w (List.mem_of_mem_filter hw)

/-- What a buffer holds after writes does not depend on their order if those at one pixel agree
wherever they tie. -/
theorem FrameBuffer.writeAll_perm_of_filter (fb : FrameBuffer) {writes order : List Write}
    (hagree : ∀ x y, TiesAgree (writes.filter (·.isAt x y))) (hperm : order.Perm writes) :
    fb.writeAll order = fb.writeAll writes := by
  apply FrameBuffer.ext_sampleAt
  · simp
  · simp
  · intro x _ y _
    rw [sampleAt_writeAll, sampleAt_writeAll]
    congr 1
    funext s
    exact (hagree x y).foldl_after_perm (hperm.filter _) s

theorem FrameBuffer.writeAll_perm (fb : FrameBuffer) {writes order : List Write}
    (hagree : TiesAgree writes) (hperm : order.Perm writes) :
    fb.writeAll order = fb.writeAll writes :=
  fb.writeAll_perm_of_filter (fun _ _ => hagree.filter _) hperm

end DepthRaster.Raster
