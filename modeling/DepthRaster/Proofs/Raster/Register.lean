import DepthRaster.Proofs.Raster.FrameBuffer
import Mathlib.Data.List.Induction
/-!
# Pixels as registers

A pixel keeps the strongest of the writes that hit it: the nearest, of several as near the one of
the lowest order, and of several as strong the earliest. A write wins when it outranks every earlier
one.
-/

namespace DepthRaster.Raster

namespace Write

/-- Whether a write lands on a pixel, nearer than the far depth. -/
structure Hits (w : Write) (x y : Nat) : Prop where
  column : w.x = x
  row : w.y = y
  near : w.depth ≠ farDepth

/-- Whether a write is nearer than another, or as near and of lower order. -/
def Outranks (w v : Write) : Prop := v.depth < w.depth ∨ v.depth = w.depth ∧ w.order < v.order

theorem rank_sample_lt_iff {v w : Write} : v.sample.rank < w.sample.rank ↔ w.Outranks v :=
  Sample.rank_pack_lt_iff

theorem Outranks.irrefl {w : Write} : ¬ w.Outranks w := by
  rw [← rank_sample_lt_iff]
  exact UInt64.lt_irrefl _

theorem Outranks.trans {u v w : Write} (hwv : w.Outranks v) (hvu : v.Outranks u) :
    w.Outranks u := by
  rw [← rank_sample_lt_iff] at *
  exact UInt64.lt_trans hvu hwv

/-- What a write outranks it outranks more than what is no stronger than it. -/
theorem Outranks.of_not_outranks {u v w : Write} (hwv : w.Outranks v) (huv : ¬ u.Outranks v) :
    w.Outranks u := by
  rw [← rank_sample_lt_iff] at *
  exact UInt64.lt_of_le_of_lt (UInt64.not_lt.mp huv) hwv

theorem not_outranks_iff {v w : Write} :
    ¬ v.Outranks w ↔ v.depth ≤ w.depth ∧ (v.depth = w.depth → w.order ≤ v.order) := by
  unfold Outranks
  constructor
  · intro h
    refine ⟨UInt8.not_lt.mp fun hlt => h (.inl hlt), fun heq => ?_⟩
    exact UInt32.not_lt.mp fun hlt => h (.inr ⟨heq.symm, hlt⟩)
  · rintro ⟨hle, horder⟩ (hlt | ⟨heq, hlt⟩)
    · exact UInt8.not_lt.mpr hle hlt
    · exact UInt32.not_lt.mpr (horder heq.symm) hlt

end Write

/-- What writes leave at a pixel: the empty sample if none of them hits it, and else the sample of
the first one that no other outranks. -/
inductive Leaves (x y : Nat) (writes : List Write) : Sample → Prop where
  | untouched (missed : ∀ w ∈ writes, ¬ w.Hits x y) : Leaves x y writes .empty
  | strongest (earlier : List Write) (w : Write) (later : List Write)
      (split : writes = earlier ++ w :: later) (hits : w.Hits x y)
      (above : ∀ v ∈ earlier, v.Hits x y → w.Outranks v)
      (best : ∀ v ∈ later, v.Hits x y → ¬ v.Outranks w) : Leaves x y writes w.sample

namespace Leaves

variable {x y : Nat} {writes : List Write} {s : Sample} {w : Write}

/-- A write that does not hit the pixel changes nothing there. -/
theorem append_of_not_hits (h : Leaves x y writes s) (hmiss : ¬ w.Hits x y) :
    Leaves x y (writes ++ [w]) s := by
  cases h with
  | untouched missed =>
      refine .untouched fun v hv => ?_
      rcases List.mem_append.mp hv with hv | hv
      · exact missed v hv
      · rwa [List.mem_singleton.mp hv]
  | strongest earlier u later split hits above best =>
      refine .strongest earlier u (later ++ [w]) (by simp [split]) hits above fun v hv hvhits => ?_
      rcases List.mem_append.mp hv with hv | hv
      · exact best v hv hvhits
      · rw [List.mem_singleton.mp hv] at hvhits
        exact absurd hvhits hmiss

theorem rank_lt_iff (h : Leaves x y writes s) (hhits : w.Hits x y) :
    s.rank < w.sample.rank ↔ ∀ v ∈ writes, v.Hits x y → w.Outranks v := by
  cases h with
  | untouched missed =>
      refine ⟨fun _ v hv hvhits => absurd hvhits (missed v hv), fun _ => ?_⟩
      exact Sample.rank_empty_lt w.order w.color hhits.near
  | strongest earlier u later split hits above best =>
      rw [Write.rank_sample_lt_iff, split]
      constructor
      · intro hwu v hv hvhits
        rcases List.mem_append.mp hv with hv | hv
        · exact hwu.trans (above v hv hvhits)
        · rcases List.mem_cons.mp hv with rfl | hv
          · exact hwu
          · exact hwu.of_not_outranks fun hvu => best v hv hvhits hvu
      · intro hall
        exact hall u (List.mem_append_right _ List.mem_cons_self) hits

/-- One more write at the pixel. -/
theorem append_of_hits (h : Leaves x y writes s) (hhits : w.Hits x y) :
    Leaves x y (writes ++ [w]) (s.after w) := by
  have hiff := h.rank_lt_iff hhits
  by_cases hwins : s.rank < w.sample.rank
  · rw [Sample.after, if_pos ⟨hhits.near, hwins⟩]
    exact .strongest writes w [] rfl hhits (hiff.mp hwins) (by simp)
  · rw [Sample.after, if_neg fun hafter => hwins hafter.2]
    cases h with
    | untouched missed => exact absurd (Sample.rank_empty_lt w.order w.color hhits.near) hwins
    | strongest earlier u later split hits above best =>
        rw [Write.rank_sample_lt_iff] at hwins
        refine .strongest earlier u (later ++ [w]) (by simp [split]) hits above
          fun v hv hvhits => ?_
        rcases List.mem_append.mp hv with hv | hv
        · exact best v hv hvhits
        · rwa [List.mem_singleton.mp hv]

end Leaves

theorem tiesAgree_filter {writes : List Write}
    (h : ∀ v ∈ writes, ∀ w ∈ writes,
      v.x = w.x → v.y = w.y → v.depth = w.depth → v.order = w.order → v.color = w.color)
    (x y : Nat) : TiesAgree (writes.filter (·.isAt x y)) := by
  intro v hv w hw hrank
  simp only [List.mem_filter, Write.isAt, Bool.and_eq_true, decide_eq_true_eq] at hv hw
  obtain ⟨hdepth, horder⟩ := Sample.rank_pack_inj hrank
  have hcolor := h v hv.1 w hw.1 (hv.2.1.trans hw.2.1.symm) (hv.2.2.trans hw.2.2.symm) hdepth horder
  rw [Write.sample, Write.sample, hdepth, horder, hcolor]

namespace FrameBuffer

theorem writeAll_append (fb : FrameBuffer) (writes : List Write) (w : Write) :
    fb.writeAll (writes ++ [w]) = ((fb.writeAll writes).composite w).1 :=
  List.foldl_append

/-- What any writes leave at a pixel of a buffer that nobody wrote. -/
theorem leaves_writeAll {width height x y : Nat} (hx : x < width) (hy : y < height)
    (writes : List Write) :
    ∃ s, ((empty width height).writeAll writes).sampleAt x y = some s ∧ Leaves x y writes s := by
  induction writes using List.reverseRecOn with
  | nil => exact ⟨.empty, sampleAt_empty hx hy, .untouched (by simp)⟩
  | append_singleton writes w ih =>
      obtain ⟨s, hs, hleaves⟩ := ih
      rw [writeAll_append]
      cases hat : w.isAt x y with
      | false =>
          have hmiss : ¬ w.Hits x y := fun h => by simp [Write.isAt, h.column, h.row] at hat
          exact ⟨s, by rw [sampleAt_composite_of_not_isAt _ w hat, hs],
            hleaves.append_of_not_hits hmiss⟩
      | true =>
          obtain ⟨hcolumn, hrow⟩ : w.x = x ∧ w.y = y := by simpa [Write.isAt] using hat
          refine ⟨s.after w, by rw [sampleAt_composite_of_isAt _ w hat, hs, Option.map_some], ?_⟩
          by_cases hfar : w.depth = farDepth
          · rw [Sample.after, if_neg fun h => h.1 hfar]
            exact hleaves.append_of_not_hits fun h => h.near hfar
          · exact hleaves.append_of_hits ⟨hcolumn, hrow, hfar⟩

/-- A write wins in the buffer, nearer than the far depth and above the sample that is there. -/
theorem composite_won_iff (fb : FrameBuffer) (w : Write) :
    (fb.composite w).2 = true ↔
      w.depth ≠ farDepth ∧ ∃ s, fb.sampleAt w.x w.y = some s ∧ s.rank < w.sample.rank := by
  obtain ⟨width, height, samples, size⟩ := fb
  simp only [composite, sampleAt]
  split_ifs with hin hfar hrank
  · simp [hfar]
  · simpa [hfar, Write.sample] using hrank
  · simpa [hfar, Write.sample] using hrank
  · simp

theorem sampleAt_eq_none {width height x y : Nat} (hout : ¬ (x < width ∧ y < height))
    {writes : List Write} : ((empty width height).writeAll writes).sampleAt x y = none := by
  rw [sampleAt_writeAll, sampleAt, dif_neg (by exact hout), Option.map_none]

theorem shows_of_missed {width height x y : Nat} (hx : x < width) (hy : y < height)
    {writes : List Write} (hmissed : ∀ w ∈ writes, ¬ w.Hits x y) :
    ((empty width height).writeAll writes).depthAt x y = some 0 ∧
      ((empty width height).writeAll writes).colorAt x y = some ⟨0, 0, 0⟩ := by
  obtain ⟨s, hs, hleaves⟩ := leaves_writeAll hx hy writes
  cases hleaves with
  | untouched _ =>
      rw [depthAt, colorAt, hs]
      exact ⟨rfl, rfl⟩
  | strongest earlier w later split hits _ _ =>
      exact absurd hits (hmissed w (by rw [split]; simp))

theorem shows_of_hit {width height x y : Nat} (hx : x < width) (hy : y < height)
    {writes : List Write} (hhit : ∃ w ∈ writes, w.Hits x y) :
    ∃ earlier w later, writes = earlier ++ w :: later ∧ w.Hits x y ∧
      (∀ v ∈ writes, v.Hits x y → v.depth ≤ w.depth ∧ (v.depth = w.depth → w.order ≤ v.order)) ∧
      (∀ v ∈ earlier, v.Hits x y → ¬ (v.depth = w.depth ∧ v.order = w.order)) ∧
      ((empty width height).writeAll writes).depthAt x y = some w.depth ∧
      ((empty width height).writeAll writes).colorAt x y = some w.color := by
  obtain ⟨s, hs, hleaves⟩ := leaves_writeAll hx hy writes
  cases hleaves with
  | untouched missed =>
      obtain ⟨w, hw, hits⟩ := hhit
      exact absurd hits (missed w hw)
  | strongest earlier w later split hits above best =>
      refine ⟨earlier, w, later, split, hits, fun v hv hvhits => ?_, fun v hv hvhits htie => ?_, ?_⟩
      · rw [← Write.not_outranks_iff]
        rw [split, List.mem_append, List.mem_cons] at hv
        rcases hv with hv | rfl | hv
        · exact fun hvw => (hvw.trans (above v hv hvhits)).irrefl
        · exact Write.Outranks.irrefl
        · exact best v hv hvhits
      · have habove := above v hv hvhits
        rw [Write.Outranks, htie.1, htie.2] at habove
        rcases habove with hlt | ⟨-, hlt⟩
        · exact UInt8.lt_irrefl _ hlt
        · exact UInt32.lt_irrefl _ hlt
      · rw [depthAt, colorAt, hs]
        exact ⟨congrArg some (Sample.depth_pack ..), congrArg some (Sample.color_pack ..)⟩

theorem won_iff {width height : Nat} (earlier : List Write) (w : Write) :
    (((empty width height).writeAll earlier).composite w).2 = true ↔
      (w.x < width ∧ w.y < height) ∧ w.depth ≠ farDepth ∧
        ∀ v ∈ earlier, v.Hits w.x w.y → w.Outranks v := by
  rw [composite_won_iff]
  by_cases hin : w.x < width ∧ w.y < height
  · obtain ⟨s, hs, hleaves⟩ := leaves_writeAll hin.1 hin.2 earlier
    by_cases hfar : w.depth = farDepth
    · simp [hfar]
    · simp [hs, hin, hfar, hleaves.rank_lt_iff ⟨rfl, rfl, hfar⟩]
  · have hnone : ((empty width height).writeAll earlier).sampleAt w.x w.y = none :=
      sampleAt_eq_none hin
    simp [hnone, hin]

/-- A buffer that takes writes one after the other. A write wins just when it lands in the buffer,
nearer than the far depth, and outranks those before it at its pixel; other pixels stay as they are.
In the end a pixel shows the nearest write, of several as near the one of the lowest order, and of
several of one order the earliest; a pixel that none hit is empty. Where writes that agree in pixel,
depth and order agree in colour, they can come in any order. -/
theorem writeAll_keeps_strongest (width height : Nat) (writes : List Write) :
    let after (ws : List Write) : FrameBuffer := (empty width height).writeAll ws
    (∀ earlier w later, writes = earlier ++ w :: later →
        (((after earlier).composite w).2 = true ↔
          (w.x < width ∧ w.y < height) ∧ w.depth ≠ farDepth ∧
            ∀ v ∈ earlier, v.Hits w.x w.y → w.Outranks v) ∧
        ∀ x y, ¬ (w.x = x ∧ w.y = y) →
          (after (earlier ++ [w])).depthAt x y = (after earlier).depthAt x y ∧
            (after (earlier ++ [w])).colorAt x y = (after earlier).colorAt x y) ∧
      (∀ x y, x < width → y < height →
        ((∀ w ∈ writes, ¬ w.Hits x y) →
          (after writes).depthAt x y = some 0 ∧ (after writes).colorAt x y = some ⟨0, 0, 0⟩) ∧
        ((∃ w ∈ writes, w.Hits x y) →
          ∃ earlier w later, writes = earlier ++ w :: later ∧ w.Hits x y ∧
            (∀ v ∈ writes, v.Hits x y →
              v.depth ≤ w.depth ∧ (v.depth = w.depth → w.order ≤ v.order)) ∧
            (∀ v ∈ earlier, v.Hits x y → ¬ (v.depth = w.depth ∧ v.order = w.order)) ∧
            (after writes).depthAt x y = some w.depth ∧
            (after writes).colorAt x y = some w.color)) ∧
      (∀ x y, ¬ (x < width ∧ y < height) →
        (after writes).depthAt x y = none ∧ (after writes).colorAt x y = none) ∧
      ∀ others, others.Perm writes →
        (∀ v ∈ writes, ∀ w ∈ writes,
          v.x = w.x → v.y = w.y → v.depth = w.depth → v.order = w.order → v.color = w.color) →
        after others = after writes := by
  intro after
  refine ⟨fun earlier w later _ => ⟨won_iff earlier w, fun x y hne => ?_⟩,
    fun x y hx hy => ⟨shows_of_missed hx hy, shows_of_hit hx hy⟩, fun x y hout => ?_,
    fun others hperm hagree => ?_⟩
  · have hat : w.isAt x y = false := by simpa [Write.isAt] using hne
    simp only [after, writeAll_append, depthAt, colorAt, sampleAt_composite_of_not_isAt _ w hat,
      and_self]
  · simp [after, depthAt, colorAt, sampleAt_eq_none hout]
  · exact writeAll_perm_of_filter _ (tiesAgree_filter hagree) hperm

/-- Two writes tie at a pixel, one of the last order comes between them, and others miss: one is at
the far depth, one outside. The first of the two is kept. -/
theorem writeAll_keeps_strongest_of_ties :
    let nearest : Write := { x := 1, y := 0, depth := 9, order := 2, color := ⟨1, 2, 3⟩ }
    let writes : List Write :=
      [{ nearest with depth := 8, order := 0 }, nearest, { nearest with order := 0xFFFFFFFF },
        { nearest with color := ⟨4, 5, 6⟩ }, { nearest with depth := 0 }, { nearest with x := 2 }]
    (∃ w ∈ writes, w.Hits 1 0) ∧
      ∃ earlier w later, writes = earlier ++ w :: later ∧ w.Hits 1 0 ∧
        (∀ v ∈ writes, v.Hits 1 0 → v.depth ≤ w.depth ∧ (v.depth = w.depth → w.order ≤ v.order)) ∧
        (∀ v ∈ earlier, v.Hits 1 0 → ¬ (v.depth = w.depth ∧ v.order = w.order)) ∧
        ((empty 2 1).writeAll writes).depthAt 1 0 = some w.depth ∧
        ((empty 2 1).writeAll writes).colorAt 1 0 = some w.color := by
  intro nearest writes
  have hhit : ∃ w ∈ writes, w.Hits 1 0 := ⟨nearest, by simp [writes], rfl, rfl, by decide⟩
  exact ⟨hhit, ((writeAll_keeps_strongest 2 1 writes).2.1 1 0 (by decide) (by decide)).2 hhit⟩

end FrameBuffer

end DepthRaster.Raster
