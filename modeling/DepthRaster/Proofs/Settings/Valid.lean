import DepthRaster.Proofs.Control.Outcomes
import DepthRaster.Render.Renderer
import Mathlib.Tactic.SplitIfs
/-!
# Valid settings

Settings that pass the check can be drawn with: their renderer exists, and their colours are those
of their texts, so nothing gives way to white.
-/

namespace DepthRaster.Settings

open Color (Rgb readRgb)
open Render (Renderer)

/-- What the check asks for. -/
structure Valid (s : Settings) : Prop where
  width : s.width ≠ 0
  height : s.height ≠ 0
  depthLevels : s.depthLevels ≠ 0
  rotation : s.rotationDegrees.isFinite = true
  projection : s.projection = "perspective" ∨ s.projection = "orthographic"
  focalDistance : s.projection = "perspective" →
    s.focalDistance.isFinite = true ∧ ¬ s.focalDistance ≤ 0
  format : s.format ∈ outputFormats
  solidColor : ∃ color, readRgb s.solidColor = .ok color
  wireColor : ∃ color, readRgb s.wireColor = .ok color

/-! ## The check -/

section

variable {ε ε' α β : Type}

private theorem error_bind (e : ε) (f : α → Except ε β) : .error e >>= f = .error e := rfl

private theorem ite_error_eq_ok {c : Prop} [Decidable c] {e : ε} {x : Except ε α} {a : α} :
    (if c then .error e else x) = .ok a ↔ ¬ c ∧ x = .ok a := by
  split_ifs with h
  · simp [h]
  · simp [h]

private theorem discard_mapError_eq_ok {x : Except ε α} {f : ε → ε'} {u : Unit} :
    discard (x.mapError f) = .ok u ↔ ∃ a, x = .ok a := by
  cases x with
  | error e => simp [discard, Functor.discard, Except.mapError, Functor.mapConst, Except.map]
  | ok a => simp [discard, Functor.discard, Except.mapError, Functor.mapConst, Except.map]

end

theorem validate_eq_ok_iff (s : Settings) : s.validate = .ok () ↔ s.Valid := by
  simp only [validate, throw, throwThe, MonadExceptOf.throw, error_bind, ite_error_eq_ok,
    not_or, Bool.not_eq_true', Bool.not_eq_false, Bool.or_eq_true, decide_eq_true_eq]
  by_cases hperspective : s.projection = "perspective"
  · simp only [hperspective, if_true, ite_error_eq_ok, bind_eq_ok, discard_mapError_eq_ok,
      List.contains_iff_mem, not_or, Bool.not_eq_false]
    constructor
    · rintro ⟨⟨hwidth, hheight⟩, hlevels, hrotation, hfocal, hformat, -, hsolid, hwire⟩
      exact ⟨hwidth, hheight, hlevels, hrotation, .inl hperspective, fun _ => hfocal, hformat,
        hsolid, hwire⟩
    · rintro ⟨hwidth, hheight, hlevels, hrotation, -, hfocal, hformat, hsolid, hwire⟩
      exact ⟨⟨hwidth, hheight⟩, hlevels, hrotation, hfocal hperspective, hformat, (), hsolid,
        hwire⟩
  · simp only [hperspective, if_false, ite_error_eq_ok, bind_eq_ok, discard_mapError_eq_ok,
      Bool.not_eq_false, List.contains_iff_mem, Decidable.not_not, ne_eq]
    constructor
    · rintro ⟨⟨hwidth, hheight⟩, hlevels, hrotation, horthographic, hformat, -, hsolid, hwire⟩
      exact ⟨hwidth, hheight, hlevels, hrotation, .inr horthographic,
        fun h => absurd h hperspective, hformat, hsolid, hwire⟩
    · rintro ⟨hwidth, hheight, hlevels, hrotation, hprojection, -, hformat, hsolid, hwire⟩
      exact ⟨⟨hwidth, hheight⟩, hlevels, hrotation, hprojection.resolve_left hperspective,
        hformat, (), hsolid, hwire⟩

/-! ## What valid settings give -/

/-- Settings that can be drawn with, in the colours that they name. -/
structure Renderable (s : Settings) : Prop where
  valid : s.validate = .ok ()
  coloring : ∃ color, readRgb s.solidColor = .ok color ∧
    s.faceColoring = (if s.colorize then .random s.seed else .solid color, [])
  wire : ∃ color, readRgb s.wireColor = .ok color ∧
    s.wireRgb = (if s.wireframe then some color else none, [])
  renderer : ∃ renderer, Renderer.ofSettings s = .ok (renderer, []) ∧
    renderer.coloring = s.faceColoring.1 ∧ renderer.wire = s.wireRgb.1

theorem faceColoring_of_readRgb {s : Settings} {color : Rgb}
    (h : readRgb s.solidColor = .ok color) :
    s.faceColoring = (if s.colorize then .random s.seed else .solid color, []) := by
  unfold faceColoring colorOrWhite
  rw [h]
  split_ifs <;> rfl

theorem wireRgb_of_readRgb {s : Settings} {color : Rgb} (h : readRgb s.wireColor = .ok color) :
    s.wireRgb = (if s.wireframe then some color else none, []) := by
  unfold wireRgb colorOrWhite
  rw [h]
  split_ifs <;> rfl

theorem renderable_of_validate {s : Settings} (h : s.validate = .ok ()) : s.Renderable := by
  obtain ⟨solid, hsolid⟩ := ((validate_eq_ok_iff s).mp h).solidColor
  obtain ⟨wire, hwire⟩ := ((validate_eq_ok_iff s).mp h).wireColor
  have hcoloring := faceColoring_of_readRgb hsolid
  have hoff := wireRgb_of_readRgb hwire
  refine ⟨h, ⟨solid, hsolid, hcoloring⟩, ⟨wire, hwire, hoff⟩, ?_⟩
  unfold Renderer.ofSettings
  rw [h, hcoloring, hoff]
  exact ⟨_, rfl, rfl, rfl⟩

end DepthRaster.Settings
