import DepthRaster.Proofs.Control.Always
import DepthRaster.Proofs.Numeric.Comparison
import DepthRaster.Proofs.Settings.Valid
import DepthRaster.Settings.Reader
/-!
# Settings that were read are valid

Reading begins with the defaults, which are valid. Each key keeps them so: it sets a value that
passes the check, or leaves the one that is there.
-/

namespace DepthRaster.Settings

open Color (readRgb)
open Toml (Entries)

/-- What reading keeps. The focal distance is kept in range under either projection, since the
projection may be read after it. -/
structure InRange (s : Settings) : Prop extends Valid s where
  focus : s.focalDistance.isFinite = true ∧ ¬ s.focalDistance ≤ 0

theorem inRange_default : InRange {} where
  width := by decide
  height := by decide
  depthLevels := by decide
  rotation := by decide +kernel
  projection := .inl rfl
  focalDistance := fun _ => by decide +kernel
  format := by decide
  solidColor := ⟨.white, rfl⟩
  wireColor := ⟨.white, rfl⟩
  focus := by decide +kernel

/-! ## Steps of reading -/

section

variable {α : Type} {p : Settings → Prop}

theorem always_throw {q : α → Prop} (e : SettingsError) : Always q (throw e : Reading α) :=
  ⟨throw e, rfl⟩

theorem always_warn (w : SettingsWarning) {r : Reading α} {q : α → Prop} (h : Always q r) :
    Always q (warn w >>= fun _ => r) :=
  (Always.top _).bind fun _ _ => h

theorem always_withKey {get : Entries → String → Reading (Option α)} {table : Entries}
    {key : String} {change : Settings → α → Reading Settings} {s : Settings} (hs : p s)
    (h : ∀ a, Always p (change s a)) : Always p (withKey get table key change s) := by
  unfold withKey
  refine (Always.top _).bind fun found _ => ?_
  cases found with
  | none => exact .pure hs
  | some a => exact h a

theorem always_withSection {document : Entries} {name : String}
    {read : Entries → Settings → Reading Settings} {s : Settings} (hs : p s)
    (h : ∀ table, Always p (read table s)) : Always p (withSection document name read s) := by
  unfold withSection
  cases document.lookup name with
  | none => exact .pure hs
  | some value =>
      cases hentries : value.entries? with
      | none => simpa [hentries] using always_throw _
      | some table => simpa [hentries] using h table

theorem always_ite_warn {c : Prop} [Decidable c] {s t : Settings} {w : SettingsWarning}
    (hs : p s) (ht : c → p t) :
    Always p (if c then Pure.pure t else warn w >>= fun _ => (Pure.pure s : Reading Settings)) := by
  by_cases h : c
  · rw [if_pos h]
    exact .pure (ht h)
  · rw [if_neg h]
    exact always_warn w (.pure hs)

end

/-! ## Sections -/

theorem toNat_toUInt64 {n : Int64} (h : 0 ≤ n) : (n.toUInt64.toNat : Int) = n.toInt := by
  have hn := Int64.le_iff_toInt_le.mp h
  rw [Int64.toNat_toUInt64_of_le h, Int64.toNatClampNeg, Int.toNat_of_nonneg hn]

theorem toUInt64_ne_zero {n : Int64} (h : 0 < n) : n.toUInt64 ≠ 0 := by
  have hn := Int64.lt_iff_toInt_lt.mp h
  have hword := toNat_toUInt64 (Int64.le_of_lt h)
  intro hzero
  rw [hzero] at hword
  simp only [UInt64.toNat_zero, Int64.toInt_zero] at hword hn
  omega

theorem toUInt8_ne_zero {n : Int64} (h : 1 ≤ n ∧ n ≤ 255) : n.toUInt64.toUInt8 ≠ 0 := by
  have hlow := Int64.le_iff_toInt_le.mp h.1
  have hhigh := Int64.le_iff_toInt_le.mp h.2
  have hword := toNat_toUInt64 (Int64.le_trans (by decide) h.1)
  intro hzero
  have hbyte := congrArg UInt8.toNat hzero
  rw [UInt64.toNat_toUInt8] at hbyte
  simp at hlow hhigh hbyte
  omega

theorem InRange.readFiles {s : Settings} (h : s.InRange) (table : Entries) :
    Always InRange (readFiles table s) := by
  unfold Settings.readFiles
  refine (always_withKey h fun text => .pure { h with }).bind fun s h => ?_
  refine (always_withKey h fun text => .pure { h with }).bind fun s h => ?_
  refine (always_withKey h fun text => .pure { h with }).bind fun s h => ?_
  refine (always_withKey h fun text => .pure { h with }).bind fun s h => ?_
  refine always_withKey h fun text => ?_
  exact always_ite_warn h fun hformat => { h with format := by simpa using hformat }

theorem InRange.readRender {s : Settings} (h : s.InRange) (table : Entries) :
    Always InRange (readRender table s) := by
  unfold Settings.readRender
  refine (always_withKey h fun n => always_ite_warn h fun hn => ?_).bind fun s h => ?_
  · exact { h with width := toUInt64_ne_zero hn }
  refine (always_withKey h fun n => always_ite_warn h fun hn => ?_).bind fun s h => ?_
  · exact { h with height := toUInt64_ne_zero hn }
  refine (always_withKey h fun name => ?_).bind fun s h => ?_
  · split_ifs with hname
    · exact .pure { h with projection := hname, focalDistance := fun _ => h.focus }
    · exact always_throw _
  refine (always_withKey h fun n => always_ite_warn h fun hn => ?_).bind fun s h => ?_
  · exact { h with depthLevels := toUInt8_ne_zero hn }
  refine (always_withKey h fun b => .pure { h with }).bind fun s h => ?_
  refine (always_withKey h fun b => .pure { h with }).bind fun s h => ?_
  exact always_withKey h fun b => .pure { h with }

theorem InRange.readCamera {s : Settings} (h : s.InRange) (table : Entries) :
    Always InRange (readCamera table s) := by
  unfold Settings.readCamera
  refine (always_withKey h fun x => always_ite_warn h fun hx => ?_).bind fun s h => ?_
  · exact { h with rotation := hx }
  refine always_withKey h fun x => always_ite_warn h fun hx => ?_
  simp only [Bool.and_eq_true, decide_eq_true_eq] at hx
  have hfocus := And.intro hx.1 (Numeric.not_le_zero_of_pos hx.2)
  exact { h with focalDistance := fun _ => hfocus, focus := hfocus }

theorem always_checkColor (key text : String) :
    Always (fun _ => ∃ color, readRgb text = .ok color) (checkColor key text) := by
  unfold checkColor
  cases readRgb text with
  | error cause => exact always_throw _
  | ok color => exact .pure ⟨color, rfl⟩

theorem InRange.readColor {s : Settings} (h : s.InRange) (table : Entries) :
    Always InRange (readColor table s) := by
  unfold Settings.readColor
  refine (always_withKey h fun b => .pure { h with }).bind fun s h => ?_
  refine (always_withKey h fun n => always_ite_warn h fun _ => ?_).bind fun s h => ?_
  · exact { h with }
  refine (always_withKey h fun text => ?_).bind fun s h => always_withKey h fun text => ?_
  · exact (always_checkColor _ _).bind fun _ hcolor => .pure { h with solidColor := hcolor }
  · exact (always_checkColor _ _).bind fun _ hcolor => .pure { h with wireColor := hcolor }

theorem always_readDocument (document : Entries) : Always InRange (readDocument document) := by
  unfold readDocument
  refine (always_withSection inRange_default (inRange_default.readFiles ·)).bind fun s h => ?_
  refine (always_withSection h (h.readRender ·)).bind fun s h => ?_
  refine (always_withSection h (h.readCamera ·)).bind fun s h => ?_
  exact always_withSection h (h.readColor ·)

theorem Reading.of_always {α : Type} {q : α → Prop} {r : Reading α} (h : Always q r) {a : α}
    (ha : r.outcome.1 = .ok a) : q a := by
  obtain ⟨y, rfl⟩ := h
  rw [outcome, ExceptT.run_map, StateT.run_map] at ha
  change Except.map Subtype.val (y.run.run []).1 = .ok a at ha
  cases hy : (y.run.run []).1 with
  | error e =>
      rw [hy] at ha
      cases ha
  | ok b =>
      rw [hy] at ha
      cases ha
      exact b.property

theorem inRange_of_ofText {text : String} {parse : Toml.Parser} {s : Settings}
    (h : (ofText text parse).1 = .ok s) : s.InRange := by
  refine Reading.of_always (r := readText text parse) ?_ h
  unfold readText
  cases parse text with
  | none => exact always_throw _
  | some document => exact always_readDocument _

end DepthRaster.Settings
