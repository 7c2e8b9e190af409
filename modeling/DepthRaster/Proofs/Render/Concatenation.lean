import DepthRaster.Proofs.Render.Pixel
import DepthRaster.Proofs.Render.Statistics
/-!
# Models one after the other

A picture of two models is the merge of their pictures: at each pixel the nearer of the two shows,
the first one if they are as near. What is counted adds up.
-/

namespace DepthRaster.Render

open Color (Rgb)
open DepthRaster.Geometry (ScreenVertex)
open Mesh (Corners)
open Raster (Sample)

variable {ρ ε : Type}

def appendColors (size : Nat) (colorOf colorMore : Nat → Rgb) (i : Nat) : Rgb :=
  if i < size then colorOf i else colorMore (i - size)

theorem Canvas.covers_append (canvas : Canvas) (faces more : List (Corners ρ))
    (transform : ρ → Except ε ScreenVertex) (x y i : Nat) (d : UInt8) :
    canvas.Covers (faces ++ more) transform x y i d ↔
      (i < faces.length ∧ canvas.Covers faces transform x y i d) ∨
        faces.length ≤ i ∧ canvas.Covers more transform x y (i - faces.length) d := by
  unfold Covers PlacedAt
  rw [List.getElem?_append]
  split_ifs with hi
  · simp [hi, Nat.not_le.mpr hi]
  · simp [hi, Nat.le_of_not_lt hi]

theorem Canvas.lt_of_covers {canvas : Canvas} {faces : List (Corners ρ)}
    {transform : ρ → Except ε ScreenVertex} {x y i : Nat} {d : UInt8}
    (h : canvas.Covers faces transform x y i d) : i < faces.length := by
  obtain ⟨_, ⟨_, hget, _⟩, _⟩ := h
  exact (List.getElem?_eq_some_iff.mp hget).1

private theorem max_eq_ite (d e : UInt8) : max d e = if e ≤ d then d else e := by
  change (if d ≤ e then e else d) = _
  split_ifs with hde hed hed
  · exact UInt8.le_antisymm hed hde
  · rfl
  · rfl
  · exact absurd (UInt8.le_total d e) (not_or.mpr ⟨hde, hed⟩)

/-- The fragments of two models, numbered on, lead to the nearer of the samples that the fragments
of each lead to. -/
theorem Leads.merge {colorOf colorMore : Nat → Rgb} {size : Nat} {P Q R : Nat → UInt8 → Prop}
    {s t u : Sample} (hs : Leads colorOf P s) (ht : Leads colorMore Q t)
    (hu : Leads (appendColors size colorOf colorMore) R u)
    (hsplit : ∀ i d, R i d ↔ (i < size ∧ P i d) ∨ size ≤ i ∧ Q (i - size) d)
    (hbelow : ∀ i d, P i d → i < size) :
    u.depth = (if t.depth ≤ s.depth then s.depth else t.depth) ∧
      u.color = if t.depth ≤ s.depth then s.color else t.color := by
  have hfirst (i : Nat) (d : UInt8) (h : P i d) : R i d := (hsplit i d).mpr (.inl ⟨hbelow i d h, h⟩)
  have hsecond (j : Nat) (d : UInt8) (h : Q j d) : R (j + size) d := by
    refine (hsplit _ d).mpr (.inr ⟨Nat.le_add_left _ _, ?_⟩)
    rwa [Nat.add_sub_cancel]
  cases hu with
  | nobody hnone =>
      obtain rfl : s = .empty := hs.unique (.nobody fun i d h => hnone i d (hfirst i d h))
      obtain rfl : t = .empty := ht.unique (.nobody fun j d h => hnone _ d (hsecond j d h))
      exact ⟨rfl, rfl⟩
  | first i d present near nearest least =>
      -- The face that leads both models leads its own; a later one is nearer than all before it.
      rcases (hsplit i d).mp present with ⟨hi, hP⟩ | ⟨hi, hQ⟩
      · obtain rfl : s = .pack d (orderOf i) (colorOf i) :=
          hs.unique (.first i d hP near (fun j e h => nearest j e (hfirst j e h))
            fun j h => least j (hfirst j d h))
        have hle : t.depth ≤ d := ht.depth_le fun j e h => nearest _ e (hsecond j e h)
        simp only [Sample.depth_pack, Sample.color_pack, appendColors, if_pos hi, if_pos hle,
          and_self]
      · obtain rfl : t = .pack d (orderOf (i - size)) (colorMore (i - size)) := by
          refine ht.unique (.first (i - size) d hQ near ?_ ?_)
          · exact fun j e h => nearest _ e (hsecond j e h)
          · intro j h
            have := least _ (hsecond j d h)
            omega
        have hlt : s.depth < d := by
          apply hs.depth_lt near
          intro j e h
          apply UInt8.lt_of_le_of_ne (nearest j e (hfirst j e h))
          rintro rfl
          have := least j (hfirst j e h)
          have := hbelow j e h
          omega
        simp only [Sample.depth_pack, Sample.color_pack, appendColors,
          if_neg (Nat.not_lt.mpr hi), if_neg (UInt8.not_le.mpr hlt), and_self]

theorem Stats.Tally.append {s t u : Stats} {canvas : Canvas}
    {transform : ρ → Except ε ScreenVertex} {faces more : List (Corners ρ)}
    (hs : s.Tally canvas transform faces) (ht : t.Tally canvas transform more)
    (hu : u.Tally canvas transform (faces ++ more)) :
    u.faces = s.faces + t.faces ∧ u.rejected = s.rejected + t.rejected ∧
      u.culled = s.culled + t.culled ∧ u.rasterized = s.rasterized + t.rasterized ∧
      u.fragments = s.fragments + t.fragments := by
  have htriangles : triangles transform (faces ++ more) =
      triangles transform faces ++ triangles transform more := List.filterMap_append
  have hcauses : causes transform (faces ++ more) =
      causes transform faces ++ causes transform more := List.filterMap_append
  refine ⟨?_, ?_, ?_, ?_, ?_⟩
  · rw [hs.total, ht.total, hu.total, List.length_append]
  · rw [hs.rejected, ht.rejected, hu.rejected, hcauses, List.length_append]
  · rw [hs.culled, ht.culled, hu.culled, htriangles, List.countP_append]
  · rw [hs.rasterized, ht.rasterized, hu.rasterized, htriangles, List.countP_append]
  · rw [hs.fragments, ht.fragments, hu.fragments, htriangles, List.filter_append,
      List.map_append, List.sum_append]

/-- A picture of two models, one after the other, is the merge of their pictures: the nearer of the
two shows, the first one if they are as near. So faces that come later never make a pixel farther,
and change its colour only where they make it nearer. -/
theorem render_append (width height : Nat) (hwidth : width ≤ 2 ^ 31) (hheight : height ≤ 2 ^ 31)
    (faces more : List (Corners ρ)) (transform : ρ → Except ε ScreenVertex)
    (colorOf colorMore : Nat → Rgb) :
    let canvas : Canvas := { width, height, shared := false, wire := none }
    let first := canvas.render faces transform colorOf
    let second := canvas.render more transform colorMore
    let both := canvas.render (faces ++ more) transform
      (appendColors faces.length colorOf colorMore)
    (∀ x y : Nat, x < width → y < height → ∃ d c e k b n,
        first.Shows x y d c ∧ second.Shows x y e k ∧ both.Shows x y b n ∧
          (b = max d e ∧ n = if e ≤ d then c else k) ∧ d ≤ b ∧ (b = d → n = c)) ∧
      both.stats.faces = first.stats.faces + second.stats.faces ∧
      both.stats.rejected = first.stats.rejected + second.stats.rejected ∧
      both.stats.culled = first.stats.culled + second.stats.culled ∧
      both.stats.rasterized = first.stats.rasterized + second.stats.rasterized ∧
      both.stats.fragments = first.stats.fragments + second.stats.fragments := by
  intro canvas first second both
  refine ⟨?_, (canvas.tally_render faces transform colorOf).append
    (canvas.tally_render more transform colorMore) (canvas.tally_render _ transform _)⟩
  intro x y hx hy
  obtain ⟨s, hs, hfirst⟩ :=
    canvas.shows_render rfl hwidth hheight faces transform colorOf hx hy
  obtain ⟨t, ht, hsecond⟩ :=
    canvas.shows_render rfl hwidth hheight more transform colorMore hx hy
  obtain ⟨u, hu, hboth⟩ := canvas.shows_render rfl hwidth hheight (faces ++ more) transform
    (appendColors faces.length colorOf colorMore) hx hy
  obtain ⟨hdepth, hcolor⟩ := hs.merge ht hu (canvas.covers_append faces more transform x y)
    fun _ _ => Canvas.lt_of_covers
  refine ⟨_, _, _, _, _, _, hfirst, hsecond, hboth,
    ⟨hdepth.trans (max_eq_ite _ _).symm, hcolor⟩, ?_⟩
  change s.depth ≤ u.depth ∧ (u.depth = s.depth → u.color = s.color)
  rw [hdepth, hcolor]
  split_ifs with hle
  · exact ⟨UInt8.le_refl _, fun _ => rfl⟩
  · exact ⟨UInt8.le_of_lt (UInt8.not_le.mp hle), fun hsame => absurd (UInt8.le_of_eq hsame) hle⟩

/-- Two faces as near, one of each model, in front of a third one: that of the first model shows. -/
theorem render_append_of_ties :
    let near : Corners ScreenVertex := ⟨⟨0, 0, 7⟩, ⟨2, 0, 7⟩, ⟨0, 1, 7⟩⟩
    let far : Corners ScreenVertex := ⟨⟨0, 0, 5⟩, ⟨2, 0, 5⟩, ⟨0, 1, 5⟩⟩
    let canvas : Canvas := { width := 1, height := 1, shared := false, wire := none }
    let first := canvas.render [far, near] (Except.ok (ε := Empty)) fun _ => .white
    let second := canvas.render [near] (Except.ok (ε := Empty)) fun _ => .black
    let both := canvas.render ([far, near] ++ [near]) (Except.ok (ε := Empty))
      (appendColors 2 (fun _ => .white) fun _ => .black)
    1 ≤ 2 ^ 31 ∧ first.Shows 0 0 7 .white ∧ second.Shows 0 0 7 .black ∧ both.Shows 0 0 7 .white ∧
      both.stats.rasterized = first.stats.rasterized + second.stats.rasterized := by
  intro near far canvas first second both
  have hmerge := render_append 1 1 (by decide) (by decide) [far, near] [near]
    (Except.ok (ε := Empty)) (fun _ => .white) fun _ => .black
  have hfirst : first.Shows 0 0 7 .white := ⟨by decide +kernel, by decide +kernel⟩
  have hsecond : second.Shows 0 0 7 .black := ⟨by decide +kernel, by decide +kernel⟩
  obtain ⟨d, c, e, k, b, n, hd, he, hboth, ⟨rfl, rfl⟩, -⟩ := hmerge.1 0 0 (by decide) (by decide)
  obtain ⟨rfl, rfl⟩ := hfirst.unique hd
  obtain ⟨rfl, rfl⟩ := hsecond.unique he
  exact ⟨by decide, hfirst, hsecond, hboth, hmerge.2.2.2.2.1⟩

end DepthRaster.Render
