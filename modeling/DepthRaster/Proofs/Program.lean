import DepthRaster.Files.Directory
import DepthRaster.Program
import DepthRaster.Proofs.Settings.Loading
/-!
# Runs never fail for their settings

The settings of a run are checked once, when they are put together. What the renderer checks again
cannot fail, so a run ends for other reasons.
-/

namespace DepthRaster

open CommandLine (Options)
open Files (Access)

variable {m : Type → Type} [Monad m] [LawfulMonad m]

/-! ## The settings of a run -/

namespace CommandLine.Options

theorem renderable_of_overrideValid {o : Options} {s t : Settings}
    (h : o.overrideValid s = .ok t) : t.Renderable := by
  unfold overrideValid at h
  cases hcheck : (o.override s).validate with
  | error cause => simp [hcheck, Except.map, Except.mapError] at h
  | ok u =>
      obtain rfl : o.override s = t := by simpa [hcheck, Except.map, Except.mapError] using h
      exact Settings.renderable_of_validate hcheck

theorem always_settings (access : Access m) (o : Options) (parse : Toml.Parser) :
    Always (fun r => ∀ s, r.1 = .ok s → s.Renderable) (o.settings access parse) := by
  unfold settings
  cases o.config with
  | none => exact .pure fun s h => renderable_of_overrideValid h
  | some path =>
      refine (Always.top _).bind fun loaded _ => ?_
      obtain ⟨outcome, warnings⟩ := loaded
      cases outcome with
      | error cause => exact .pure fun s h => nomatch h
      | ok s => exact .pure fun t h => renderable_of_overrideValid h

end CommandLine.Options

/-! ## Runs -/

namespace Program

variable {α β ε : Type} {p : α → Prop} {q : β → Prop}

/-- A step whose results have the property, and which may fail, but not for the settings. -/
def Passes (p : α → Prop) (x : Run m α) : Prop :=
  Always (fun r : Except Failure α =>
    (∀ a, r = .ok a → p a) ∧ ∀ cause, r ≠ .error (.settings cause)) x.run

theorem Passes.pure {a : α} (h : p a) : Passes p (Pure.pure a : Run m α) := by
  refine Always.pure ⟨?_, nofun⟩
  rintro b ⟨⟩
  exact h

theorem Passes.bind {x : Run m α} {f : α → Run m β} (hx : Passes p x)
    (hf : ∀ a, p a → Passes q (f a)) : Passes q (x >>= f) := by
  unfold Passes
  rw [ExceptT.run_bind]
  refine Always.bind hx fun r hr => ?_
  cases r with
  | ok a => exact hf a (hr.1 a rfl)
  | error failure => exact .pure ⟨nofun, fun cause h => hr.2 cause (by cases h; rfl)⟩

theorem passes_ofState {x : StateT (List String) m α} (h : Always p x) :
    Passes p (ExceptT.lift x : Run m α) := by
  refine h.map fun a ha => ⟨?_, nofun⟩
  rintro b ⟨⟩
  exact ha

theorem passes_lift {x : m α} (h : Always p x) : Passes p (x : Run m α) :=
  passes_ofState h.lift_stateT

theorem passes_warn (texts : List String) : Passes (fun _ => True) (warn texts : Run m Unit) :=
  passes_ofState (Always.top (modify (· ++ texts)))

theorem passes_throw {failure : Failure} (h : ∀ cause, failure ≠ .settings cause) :
    Passes p (throw failure : Run m α) :=
  Always.pure ⟨nofun, fun cause heq => h cause (Except.error.inj heq)⟩

theorem passes_check (blame : ε → Failure) (hblame : ∀ e cause, blame e ≠ .settings cause)
    (x : Except ε α) (h : ∀ a, x = .ok a → p a) : Passes p (check blame x : Run m α) := by
  cases x with
  | ok a => exact .pure (h a rfl)
  | error e => exact passes_throw (hblame e)

theorem passes_runOptions (access : Access m) (o : Options) (formats : Formats m) :
    Passes (fun _ => True) (runOptions access o formats) := by
  unfold runOptions
  refine (passes_lift (o.always_settings access formats.settings)).bind fun loaded hsettings => ?_
  refine (passes_warn _).bind fun _ _ => ?_
  refine (passes_check .options (fun _ _ h => nomatch h) loaded.1 hsettings).bind fun s hs => ?_
  refine (passes_lift (Always.top _)).bind fun loaded _ => ?_
  refine (passes_warn _).bind fun _ _ => ?_
  refine (passes_check .mesh (fun _ _ h => nomatch h) loaded.1 fun _ h => h).bind fun mesh _ => ?_
  obtain ⟨renderer, hrenderer, -⟩ := hs.renderer
  rw [hrenderer]
  refine (Passes.pure (p := fun _ => True) True.intro).bind fun _ _ => ?_
  refine (passes_warn _).bind fun _ _ => ?_
  refine (passes_warn _).bind fun _ _ => ?_
  refine (passes_lift (Always.top _)).bind fun saved _ => ?_
  exact passes_check .save (fun _ _ h => nomatch h) saved fun _ _ => True.intro

theorem always_run (access : Access m) (words : List String) (formats : Formats m) :
    Always (fun r => ∀ cause, r.1 ≠ .failed (.settings cause)) (run access words formats) := by
  unfold run
  cases Options.ofWords words with
  | error cause => exact .pure nofun
  | ok o =>
      refine ((passes_runOptions access o formats).run_stateT []).bind fun r hr => ?_
      obtain ⟨outcome, warnings⟩ := r
      cases outcome with
      | ok u => exact .pure nofun
      | error failure =>
          refine .pure fun cause heq => hr.2 cause ?_
          cases heq
          rfl

/-- Settings that were read, from a text or for a command line, can be drawn with in the colours
that they name; so no run fails for the check that the renderer makes. -/
theorem settings_renderable (access : Access m) (formats : Formats m) :
    (∀ text s, (Settings.ofText text formats.settings).1 = .ok s → s.Renderable) ∧
      (∀ o : Options, Always (fun r => ∀ s, r.1 = .ok s → s.Renderable)
        (o.settings access formats.settings)) ∧
      ∀ words, Always (fun r => ∀ cause, r.1 ≠ .failed (.settings cause))
        (run access words formats) := by
  refine ⟨?_, fun o => o.always_settings access formats.settings,
    fun words => always_run access words formats⟩
  intro text s h
  have hvalid := (Settings.inRange_of_ofText h).toValid
  exact Settings.renderable_of_validate ((Settings.validate_eq_ok_iff s).mpr hvalid)

def badWidthText : String := "[render]\nwidth = -5\nprojection = \"orthographic\"\n"

theorem settings_renderable_of_bad_width :
    ∃ s, (Settings.ofText badWidthText Toml.parse).1 = .ok s ∧ s.width = 800 ∧
      s.projection = "orthographic" ∧ s.Renderable := by
  have h : (Settings.ofText badWidthText Toml.parse).1.toOption.map
      (fun s => (s.width, s.projection)) = some (800, "orthographic") := by decide +kernel
  obtain ⟨s, hs, hread⟩ := Option.map_eq_some_iff.mp h
  obtain ⟨hrenderable, -⟩ :=
    settings_renderable Files.Directory.access (.standard Files.Directory.access)
  cases hok : (Settings.ofText badWidthText Toml.parse).1 with
  | error e => simp [hok, Except.toOption] at hs
  | ok t =>
      rw [hok] at hs
      cases hs
      obtain ⟨hwidth, hprojection⟩ := Prod.mk.inj hread
      exact ⟨s, rfl, hwidth, hprojection, hrenderable badWidthText s hok⟩

end Program

end DepthRaster
