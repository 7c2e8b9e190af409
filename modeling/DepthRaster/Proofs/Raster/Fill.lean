import DepthRaster.Proofs.Raster.Fragments
import DepthRaster.Proofs.Raster.Interior
import DepthRaster.Proofs.Raster.Occupancy
import DepthRaster.Proofs.Raster.Register
import Mathlib.Algebra.BigOperators.Group.List.Basic
/-!
# What filling a triangle does

The fragments of a triangle lie at different pixels, so each of them meets the sample that its pixel
had before the triangle. Those that win are as many as the pixels that change, whoever tries them
and when. What the triangle leaves outranks all of its fragments, so filling it again changes
nothing.
-/

namespace DepthRaster.Raster

open Color (Rgb)

/-! ## One pixel -/

namespace Sample

theorem after_eq_self {s : Sample} {w : Write}
    (h : w.depth ≠ farDepth → w.sample.rank ≤ s.rank) : s.after w = s :=
  if_neg fun hwins => UInt64.not_lt.mpr (h hwins.1) hwins.2

theorem rank_le_after (s : Sample) (w : Write) : s.rank ≤ (s.after w).rank := by
  unfold after
  split_ifs with hwins
  · exact UInt64.le_of_lt hwins.2
  · exact UInt64.le_refl _

theorem rank_le_after_self (s : Sample) {w : Write} (near : w.depth ≠ farDepth) :
    w.sample.rank ≤ (s.after w).rank := by
  unfold after
  split_ifs with hwins
  · exact UInt64.le_refl _
  · exact UInt64.not_lt.mp fun hlt => hwins ⟨near, hlt⟩

theorem rank_le_foldl_after (writes : List Write) (s : Sample) :
    s.rank ≤ (writes.foldl after s).rank := by
  induction writes generalizing s with
  | nil => exact UInt64.le_refl _
  | cons w writes ih => exact UInt64.le_trans (s.rank_le_after w) (ih _)

theorem rank_le_foldl_after_of_mem {writes : List Write} {w : Write} (hw : w ∈ writes)
    (near : w.depth ≠ farDepth) (s : Sample) :
    w.sample.rank ≤ (writes.foldl after s).rank := by
  induction writes generalizing s with
  | nil => simp at hw
  | cons v writes ih =>
      rcases List.mem_cons.mp hw with rfl | hw
      · exact UInt64.le_trans (s.rank_le_after_self near) (rank_le_foldl_after writes _)
      · exact ih hw _

/-- Writes that a sample is not below leave it as it is. -/
theorem foldl_after_eq_self {writes : List Write} {s : Sample}
    (h : ∀ w ∈ writes, w.depth ≠ farDepth → w.sample.rank ≤ s.rank) :
    writes.foldl after s = s := by
  induction writes with
  | nil => rfl
  | cons w writes ih =>
      obtain ⟨hw, hrest⟩ := List.forall_mem_cons.mp h
      rw [List.foldl_cons, after_eq_self hw, ih hrest]

/-- A sample is kept or replaced by one of the writes. -/
theorem foldl_after_eq_or (writes : List Write) (s : Sample) :
    writes.foldl after s = s ∨
      ∃ w ∈ writes, w.depth ≠ farDepth ∧ writes.foldl after s = w.sample := by
  induction writes generalizing s with
  | nil => exact .inl rfl
  | cons v writes ih =>
      rw [List.foldl_cons]
      rcases ih (s.after v) with hkept | ⟨w, hw, near, hlast⟩
      · rw [hkept, after]
        split_ifs with hwins
        · exact .inr ⟨v, List.mem_cons_self, hwins.1, rfl⟩
        · exact .inl rfl
      · exact .inr ⟨w, List.mem_cons_of_mem v hw, near, hlast⟩

/-- A sample changes when one of the writes ranks above it. -/
theorem foldl_after_ne_iff {writes : List Write} {s : Sample} :
    writes.foldl after s ≠ s ↔
      ∃ w ∈ writes, w.depth ≠ farDepth ∧ s.rank < w.sample.rank := by
  constructor
  · intro hne
    by_contra hnone
    refine hne (foldl_after_eq_self fun w hw near => UInt64.not_lt.mp fun hlt => ?_)
    exact hnone ⟨w, hw, near, hlt⟩
  · rintro ⟨w, hw, near, hlt⟩ hsame
    have hle := rank_le_foldl_after_of_mem hw near s
    rw [hsame] at hle
    exact UInt64.not_lt.mpr hle hlt

end Sample

namespace FrameBuffer

/-! ## Changed pixels -/

def changed (before after : FrameBuffer) : Finset (ℕ × ℕ) :=
  (Finset.range before.width ×ˢ Finset.range before.height).filter fun p =>
    before.sampleAt p.1 p.2 ≠ after.sampleAt p.1 p.2

theorem mem_changed {before after : FrameBuffer} {p : ℕ × ℕ} :
    p ∈ before.changed after ↔ (p.1 < before.width ∧ p.2 < before.height) ∧
      before.sampleAt p.1 p.2 ≠ after.sampleAt p.1 p.2 := by
  simp only [changed, Finset.mem_filter, Finset.mem_product, Finset.mem_range]

@[simp] theorem changed_self (fb : FrameBuffer) : fb.changed fb = ∅ := by
  simp [changed]

theorem mem_changed_writeAll {fb : FrameBuffer} {writes : List Write} {p : ℕ × ℕ} :
    p ∈ fb.changed (fb.writeAll writes) ↔
      ∃ w ∈ writes, w.Hits p.1 p.2 ∧
        ∃ s, fb.sampleAt p.1 p.2 = some s ∧ s.rank < w.sample.rank := by
  rw [mem_changed, sampleAt_writeAll]
  by_cases hin : p.1 < fb.width ∧ p.2 < fb.height
  · obtain ⟨s, hs⟩ : ∃ s, fb.sampleAt p.1 p.2 = some s := ⟨_, sampleAt_eq_some hin.1 hin.2⟩
    rw [hs, Option.map_some, ne_comm, Ne, Option.some.injEq, ← Ne, Sample.foldl_after_ne_iff]
    simp only [hin, and_self, true_and, List.mem_filter, Write.isAt, Bool.and_eq_true,
      decide_eq_true_eq, Option.some.injEq, exists_eq_left']
    constructor
    · rintro ⟨w, ⟨hw, hx, hy⟩, near, hlt⟩
      exact ⟨w, hw, ⟨hx, hy, near⟩, hlt⟩
    · rintro ⟨w, hw, ⟨hx, hy, near⟩, hlt⟩
      exact ⟨w, ⟨hw, hx, hy⟩, near, hlt⟩
  · have hnone : fb.sampleAt p.1 p.2 = none := dif_neg hin
    simp [hin, hnone]

theorem exists_hits_of_sampleAt_ne {fb : FrameBuffer} {writes : List Write} {x y : ℕ}
    (h : fb.sampleAt x y ≠ (fb.writeAll writes).sampleAt x y) :
    ∃ w ∈ writes, w.Hits x y ∧ (fb.writeAll writes).sampleAt x y = some w.sample := by
  rw [sampleAt_writeAll] at h ⊢
  cases hs : fb.sampleAt x y with
  | none => simp [hs] at h
  | some s =>
      rw [hs, Option.map_some] at h
      rcases Sample.foldl_after_eq_or (writes.filter (·.isAt x y)) s with
        hkept | ⟨w, hw, near, hlast⟩
      · exact absurd (congrArg some hkept.symm) h
      · simp only [List.mem_filter, Write.isAt, Bool.and_eq_true, decide_eq_true_eq] at hw
        exact ⟨w, hw.1, ⟨hw.2.1, hw.2.2, near⟩, congrArg some hlast⟩

theorem writeAll_writeAll (fb : FrameBuffer) (writes : List Write) :
    (fb.writeAll writes).writeAll writes = fb.writeAll writes := by
  apply ext_sampleAt
  · simp
  · simp
  · intro x _ y _
    rw [sampleAt_writeAll, sampleAt_writeAll, Option.map_map]
    congr 1
    funext s
    exact Sample.foldl_after_eq_self fun w hw near => Sample.rank_le_foldl_after_of_mem hw near s

/-! ## Writes at different pixels -/

def Scattered (writes : List Write) : Prop := (writes.map fun w => (w.x, w.y)).Nodup

theorem Scattered.perm {writes others : List Write} (h : Scattered writes)
    (hperm : others.Perm writes) : Scattered others :=
  (hperm.map _).nodup_iff.mpr h

theorem Scattered.eq_of_isAt {writes : List Write} (h : Scattered writes) {v w : Write}
    (hv : v ∈ writes) (hw : w ∈ writes) {x y : ℕ} (hvat : v.isAt x y = true)
    (hwat : w.isAt x y = true) : v = w := by
  simp only [Write.isAt, Bool.and_eq_true, decide_eq_true_eq] at hvat hwat
  refine List.inj_on_of_nodup_map h hv hw ?_
  rw [hvat.1, hvat.2, hwat.1, hwat.2]

theorem Scattered.writeAll_perm {writes others : List Write} (h : Scattered writes)
    (hperm : others.Perm writes) (fb : FrameBuffer) : fb.writeAll others = fb.writeAll writes := by
  refine fb.writeAll_perm_of_filter (fun x y v hv w hw _ => ?_) hperm
  obtain ⟨hv, hvat⟩ := List.mem_filter.mp hv
  obtain ⟨hw, hwat⟩ := List.mem_filter.mp hw
  rw [h.eq_of_isAt hv hw hvat hwat]

section

variable {before now : FrameBuffer} {w : Write} (hwidth : now.width = before.width)
  (hheight : now.height = before.height) (hsame : now.sampleAt w.x w.y = before.sampleAt w.x w.y)

include hwidth hheight hsame

/-- A write that wins, at a pixel that nobody wrote in between, changes this pixel too. -/
theorem changed_composite_of_won (hwon : (now.composite w).2 = true) :
    before.changed (now.composite w).1 = insert (w.x, w.y) (before.changed now) := by
  obtain ⟨near, s, hs, hlt⟩ := (now.composite_won_iff w).mp hwon
  have hat : w.isAt w.x w.y = true := by simp [Write.isAt]
  have hnew : (now.composite w).1.sampleAt w.x w.y = some w.sample := by
    rw [sampleAt_composite_of_isAt now w hat, hs, Option.map_some, Sample.after,
      if_pos ⟨near, hlt⟩]
  have hin : w.x < before.width ∧ w.y < before.height := by
    rw [← hwidth, ← hheight]
    by_contra hout
    exact Option.some_ne_none s (hs.symm.trans (dif_neg hout))
  ext ⟨x, y⟩
  rw [Finset.mem_insert, mem_changed, mem_changed]
  cases hxy : w.isAt x y with
  | true =>
      obtain ⟨rfl, rfl⟩ : w.x = x ∧ w.y = y := by simpa [Write.isAt] using hxy
      have hne : s ≠ w.sample := fun heq => UInt64.lt_irrefl _ (heq ▸ hlt)
      simp [hin, hnew, ← hsame, hs, hne]
  | false =>
      have hne : ¬ (x, y) = (w.x, w.y) := by
        rintro ⟨⟩
        simp [hat] at hxy
      simp only [hne, false_or, sampleAt_composite_of_not_isAt now w hxy]

theorem card_changed_composite :
    (before.changed (now.composite w).1).card =
      (before.changed now).card + (now.composite w).2.toNat := by
  cases hwon : (now.composite w).2 with
  | false => rw [composite_of_lost hwon]; rfl
  | true =>
      have hfresh : (w.x, w.y) ∉ before.changed now := by simp [mem_changed, hsame]
      rw [changed_composite_of_won hwidth hheight hsame hwon,
        Finset.card_insert_of_notMem hfresh]
      rfl

end

theorem written_compositeCounted (state : FrameBuffer × FillCounts) (w : Write) :
    (compositeCounted state w).2.written = state.2.written + (state.1.composite w).2.toNat :=
  rfl

/-- Writes at different pixels win as often as they change a pixel. -/
theorem Scattered.written_eq {writes : List Write} (h : Scattered writes) (fb : FrameBuffer)
    (counts : FillCounts) :
    (writes.foldl compositeCounted (fb, counts)).2.written =
      counts.written + (fb.changed (fb.writeAll writes)).card := by
  -- The pixel of the last write is as it was at the start, so the induction takes that one off.
  induction writes using List.reverseRecOn with
  | nil => simp [writeAll]
  | append_singleton writes w ih =>
      rw [Scattered, List.map_append, List.nodup_append] at h
      obtain ⟨hbefore, -, hapart⟩ := h
      have huntouched : (fb.writeAll writes).sampleAt w.x w.y = fb.sampleAt w.x w.y := by
        have hnone : writes.filter (·.isAt w.x w.y) = [] := by
          rw [List.filter_eq_nil_iff]
          intro v hv hvat
          have hpixel : (v.x, v.y) = (w.x, w.y) := by simpa [Write.isAt] using hvat
          exact hapart _ (List.mem_map_of_mem hv) _ List.mem_cons_self hpixel
        rw [sampleAt_writeAll, hnone]
        exact Option.map_id'
      rw [List.foldl_append, List.foldl_cons, List.foldl_nil, written_compositeCounted,
        fst_foldl_compositeCounted, writeAll_append,
        card_changed_composite (by simp) (by simp) huntouched, ← Nat.add_assoc, ← ih hbefore]

theorem Scattered.compositeAll_eq {writes : List Write} (h : Scattered writes)
    (fb : FrameBuffer) :
    fb.compositeAll writes =
      (fb.writeAll writes, ⟨writes.length, (fb.changed (fb.writeAll writes)).card⟩) := by
  have hbuffer := fst_foldl_compositeCounted (fb, {}) writes
  have hfragments := fragments_foldl_compositeCounted (fb, {}) writes
  have hwritten := h.written_eq fb {}
  rw [Nat.zero_add] at hfragments hwritten
  exact Prod.ext hbuffer (by rw [compositeAll, ← hfragments, ← hwritten])

end FrameBuffer

/-! ## Sharing the fragments of a triangle -/

def FillCounts.merge (a b : FillCounts) : FillCounts :=
  ⟨a.fragments + b.fragments, a.written + b.written⟩

/-- Counts put together in any groups, with blank counts for groups of none. -/
inductive FillCounts.Gathers : List FillCounts → FillCounts → Prop where
  | none : Gathers [] {}
  | one (counts : FillCounts) : Gathers [counts] counts
  | both {many more : List FillCounts} {a b : FillCounts} (left : Gathers many a)
      (right : Gathers more b) : Gathers (many ++ more) (a.merge b)

theorem FillCounts.Gathers.eq_sums {many : List FillCounts} {total : FillCounts}
    (h : Gathers many total) :
    total = ⟨(many.map (·.fragments)).sum, (many.map (·.written)).sum⟩ := by
  induction h with
  | none => rfl
  | one counts => simp
  | both _ _ ihleft ihright =>
      rw [ihleft, ihright]
      simp [merge]

theorem FillCounts.gathers_sums (many : List FillCounts) :
    Gathers many ⟨(many.map (·.fragments)).sum, (many.map (·.written)).sum⟩ := by
  induction many with
  | nil => exact .none
  | cons counts many ih => exact (Gathers.one counts).both ih

namespace FrameBuffer

def tried (fb : FrameBuffer) : List Write → List FillCounts
  | [] => []
  | w :: writes => ⟨1, (fb.composite w).2.toNat⟩ :: (fb.composite w).1.tried writes

theorem sums_tried (fb : FrameBuffer) (writes : List Write) (counts : FillCounts) :
    (writes.foldl compositeCounted (fb, counts)).2 =
      counts.merge ⟨((fb.tried writes).map (·.fragments)).sum,
        ((fb.tried writes).map (·.written)).sum⟩ := by
  induction writes generalizing fb counts with
  | nil => rfl
  | cons w writes ih =>
      rw [List.foldl_cons, compositeCounted, ih]
      simp [tried, FillCounts.merge, Nat.add_assoc]

/-- What workers may come to who share the fragments of a triangle: each of its writes is tried
once, at any time, and the counts are put together in any order and in any groups. -/
def MayFill (fb : FrameBuffer) (t : Triangle) (order : UInt32) (color : Rgb)
    (result : FrameBuffer × FillCounts) : Prop :=
  ∃ writes, writes.Perm ((t.fragments Float fb.width fb.height).map (·.write order color)) ∧
    result.1 = fb.writeAll writes ∧
    ∃ many, many.Perm (fb.tried writes) ∧ FillCounts.Gathers many result.2

end FrameBuffer

theorem Triangle.scattered_writes (t : Triangle) (order : UInt32) (color : Rgb)
    (width height : ℕ) :
    FrameBuffer.Scattered ((t.fragments Float width height).map (·.write order color)) := by
  rw [FrameBuffer.Scattered, List.map_map, List.Nodup, List.pairwise_map]
  refine (t.pairwise_fragments width height).imp fun {f g} hprecedes hsame => ?_
  obtain ⟨hx, hy⟩ : f.x = g.x ∧ f.y = g.y := Prod.mk.inj hsame
  unfold Precedes at hprecedes
  omega

namespace FrameBuffer

variable (fb : FrameBuffer) (t : Triangle) (order : UInt32) (color : Rgb)

theorem fill_eq (shared : Bool) :
    fb.fill t order color shared =
      fb.compositeAll ((t.fragments Float fb.width fb.height).map (·.write order color)) := by
  rw [fill, Triangle.writes_eq]

theorem mayFill_iff (shared : Bool) {result : FrameBuffer × FillCounts} :
    fb.MayFill t order color result ↔ result = fb.fill t order color shared := by
  have hscattered := t.scattered_writes order color fb.width fb.height
  rw [fill_eq]
  constructor
  · rintro ⟨writes, hperm, hbuffer, many, hmany, hgathers⟩
    have hcounts : result.2 = (fb.compositeAll writes).2 := by
      rw [hgathers.eq_sums, (hmany.map _).sum_eq, (hmany.map _).sum_eq, compositeAll, sums_tried]
      simp [FillCounts.merge]
    have hresult : result = fb.compositeAll writes :=
      Prod.ext (hbuffer.trans (fst_foldl_compositeCounted (fb, {}) writes).symm) hcounts
    rw [hresult, (hscattered.perm hperm).compositeAll_eq, hscattered.compositeAll_eq,
      hscattered.writeAll_perm hperm, hperm.length_eq]
  · rintro rfl
    refine ⟨_, .refl _, fst_foldl_compositeCounted (fb, {}) _, _, .refl _, ?_⟩
    rw [compositeAll, sums_tried]
    convert FillCounts.gathers_sums _ using 1
    simp [FillCounts.merge]

/-- Filling a triangle counts its fragments and the pixels that change. A changed pixel is that of a
fragment nearer than the far depth, whose sample it holds afterwards. It makes no difference whether
rows are shared, who tries which write when, and how the counts are put together; and to fill the
triangle once more changes nothing. -/
theorem fill_changes (shared : Bool) :
    let fragments := t.fragments Float fb.width fb.height
    let after := (fb.fill t order color shared).1
    let counts := (fb.fill t order color shared).2
    (counts.fragments = fragments.length ∧ counts.written = (fb.changed after).card) ∧
      (after.width = fb.width ∧ after.height = fb.height ∧
        ∀ x y, fb.sampleAt x y ≠ after.sampleAt x y → ∃ f ∈ fragments,
          f.x = x ∧ f.y = y ∧ f.depth ≠ farDepth ∧
            after.sampleAt x y = some (.pack f.depth order color)) ∧
      (∀ other, fb.fill t order color other = (after, counts)) ∧
      (∀ result, fb.MayFill t order color result ↔ result = (after, counts)) ∧
      ∀ again, after.fill t order color again = (after, ⟨counts.fragments, 0⟩) := by
  intro fragments after counts
  have hscattered := t.scattered_writes order color fb.width fb.height
  have hfill (other : Bool) : fb.fill t order color other =
      let written := fb.writeAll (fragments.map (·.write order color))
      (written, ⟨fragments.length, (fb.changed written).card⟩) := by
    rw [fill_eq, hscattered.compositeAll_eq, List.length_map]
  have hafter : after = fb.writeAll (fragments.map (·.write order color)) :=
    congrArg Prod.fst (hfill shared)
  have hcounts : counts = ⟨fragments.length, (fb.changed after).card⟩ :=
    (congrArg Prod.snd (hfill shared)).trans (by rw [hafter])
  refine ⟨by rw [hcounts]; exact ⟨rfl, rfl⟩, ⟨by simp [hafter], by simp [hafter], ?_⟩, ?_, ?_, ?_⟩
  · intro x y hne
    rw [hafter] at hne ⊢
    obtain ⟨w, hw, hits, hsample⟩ := exists_hits_of_sampleAt_ne hne
    obtain ⟨f, hf, rfl⟩ := List.mem_map.mp hw
    exact ⟨f, hf, hits.column, hits.row, hits.near, hsample⟩
  · intro other
    rw [hfill other, hcounts, hafter]
  · exact fun result => fb.mayFill_iff t order color shared
  · intro again
    have hsize : after.width = fb.width ∧ after.height = fb.height := by simp [hafter]
    rw [fill_eq, hsize.1, hsize.2, hscattered.compositeAll_eq, List.length_map, hcounts]
    have hsettled : after.writeAll (fragments.map (·.write order color)) = after := by
      rw [hafter, writeAll_writeAll]
    rw [hsettled, changed_self, Finset.card_empty]

/-- A buffer that already holds a fragment as near as the triangle and one that is nearer. -/
theorem fill_changes_of_occupied :
    let fb := (empty 3 3).writeAll
      [{ x := 0, y := 0, depth := 7, order := 2, color := ⟨1, 2, 3⟩ },
        { x := 1, y := 0, depth := 8, order := 9, color := ⟨1, 2, 3⟩ }]
    let t : Triangle := ⟨⟨0, 0, 7⟩, ⟨2, 0, 7⟩, ⟨0, 2, 7⟩⟩
    let after := (fb.fill t 2 ⟨4, 5, 6⟩ true).1
    (fb.changed after).card = 4 ∧ after.fill t 2 ⟨4, 5, 6⟩ false = (after, ⟨6, 0⟩) := by
  intro fb t after
  have hcounts : (fb.fill t 2 ⟨4, 5, 6⟩ true).2 = ⟨6, 4⟩ := by decide +kernel
  obtain ⟨⟨-, hwritten⟩, -, -, -, hagain⟩ := fill_changes fb t 2 ⟨4, 5, 6⟩ true
  rw [hcounts] at hwritten hagain
  exact ⟨hwritten.symm, hagain false⟩

end FrameBuffer

end DepthRaster.Raster
