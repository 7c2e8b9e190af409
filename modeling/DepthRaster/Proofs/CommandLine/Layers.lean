import DepthRaster.CommandLine.Override
import DepthRaster.Proofs.Files.Directory
import DepthRaster.Proofs.Settings.Fieldwise
import DepthRaster.Proofs.Settings.Loading
import DepthRaster.Proofs.Settings.RoundTrip
/-!
# Layers of settings

The command line lies over the settings file, and the file over the defaults. What the command line
says could as well stand in the file.
-/

namespace DepthRaster.CommandLine.Options

open Files (Directory)
open Settings (choices isMisplaced readDocument sections tableAt validate_eq_ok_iff)
open Toml (Entries Value)

/-! ## Layers -/

/-- The second settings are the first ones with what a command line says, and nothing else. -/
structure Layers (o : Options) (s t : Settings) : Prop where
  model : t.model = some o.model
  width : t.width = o.width.getD s.width
  height : t.height = o.height.getD s.height
  outputDir : t.outputDir = o.outputDir.getD s.outputDir
  projection : t.projection = if o.orthographic then "orthographic" else s.projection
  wireframe : t.wireframe = (o.wireframe || s.wireframe)
  multithreaded : t.multithreaded = (!o.singleThreaded && s.multithreaded)
  seed : t.seed = o.seed.getD s.seed
  colorize : t.colorize = (o.seed.isSome || s.colorize)
  others : t = { s with
    model := t.model, width := t.width, height := t.height, outputDir := t.outputDir,
    projection := t.projection, wireframe := t.wireframe, multithreaded := t.multithreaded,
    seed := t.seed, colorize := t.colorize }

variable {o : Options} {s t : Settings}

theorem layers_iff : o.Layers s t ↔ t = o.override s := by
  constructor
  · intro h
    rw [h.others, h.model, h.width, h.height, h.outputDir, h.projection, h.wireframe,
      h.multithreaded, h.seed, h.colorize]
    rfl
  · rintro rfl
    exact ⟨rfl, rfl, rfl, rfl, rfl, rfl, rfl, rfl, rfl, rfl⟩

theorem overrideValid_of_ok (h : (o.override s).validate = .ok ()) :
    o.overrideValid s = .ok (o.override s) := by
  simp only [overrideValid, h, Except.map, Except.mapError]

theorem overrideValid_of_error {cause : SettingsFault}
    (h : (o.override s).validate = .error cause) :
    o.overrideValid s = .error (.badSettings cause) := by
  simp only [overrideValid, h, Except.map, Except.mapError]

theorem overrideValid_eq_ok_iff :
    o.overrideValid s = .ok t ↔ o.Layers s t ∧ t.validate = .ok () := by
  rw [layers_iff]
  cases hcheck : (o.override s).validate with
  | error cause =>
      rw [overrideValid_of_error hcheck]
      refine ⟨nofun, fun ⟨ht, hvalid⟩ => ?_⟩
      rw [ht, hcheck] at hvalid
      exact absurd hvalid nofun
  | ok u =>
      rw [overrideValid_of_ok hcheck]
      constructor
      · rintro ⟨⟩
        exact ⟨rfl, hcheck⟩
      · rintro ⟨rfl, -⟩
        rfl

theorem overrideValid_eq_error_iff {e : OptionsError} : o.overrideValid s = .error e ↔
    ∃ t cause, o.Layers s t ∧ t.validate = .error cause ∧ e = .badSettings cause := by
  simp only [layers_iff]
  cases hcheck : (o.override s).validate with
  | error cause =>
      rw [overrideValid_of_error hcheck]
      constructor
      · rintro ⟨⟩
        exact ⟨_, cause, rfl, hcheck, rfl⟩
      · rintro ⟨t, cause', rfl, hcause, rfl⟩
        rw [hcheck] at hcause
        rw [Except.error.inj hcause]
  | ok u =>
      rw [overrideValid_of_ok hcheck]
      refine ⟨nofun, ?_⟩
      rintro ⟨t, cause, rfl, hcause, -⟩
      rw [hcheck] at hcause
      exact absurd hcause nofun

/-- Of settings that were read, the command line can only spoil the size. -/
theorem validate_override_eq_ok_iff (h : s.InRange) :
    (o.override s).validate = .ok () ↔ ¬ (o.width = some 0 ∨ o.height = some 0) := by
  have hside {chosen : Option UInt64} {side : UInt64} (hside : side ≠ 0) :
      chosen.getD side ≠ 0 ↔ chosen ≠ some 0 := by
    cases chosen with
    | none => simpa using hside
    | some n => simp
  rw [validate_eq_ok_iff, not_or, ← ne_eq, ← ne_eq, ← hside h.width, ← hside h.height]
  constructor
  · intro hvalid
    exact ⟨hvalid.width, hvalid.height⟩
  · rintro ⟨hwidth, hheight⟩
    refine { h.toValid with
      width := hwidth
      height := hheight
      projection := ?_
      focalDistance := fun _ => h.focus }
    dsimp only [override]
    split_ifs
    · exact .inr rfl
    · exact h.projection

theorem exists_overrideValid_eq_error_iff (h : s.InRange) :
    (∃ e, o.overrideValid s = .error e) ↔ o.width = some 0 ∨ o.height = some 0 := by
  have hvalid := validate_override_eq_ok_iff (o := o) h
  cases hcheck : (o.override s).validate with
  | error cause =>
      rw [hcheck] at hvalid
      have hempty : o.width = some 0 ∨ o.height = some 0 := by
        by_contra hsize
        exact absurd (hvalid.mpr hsize) nofun
      exact ⟨fun _ => hempty, fun _ => ⟨_, overrideValid_of_error hcheck⟩⟩
  | ok u =>
      rw [overrideValid_of_ok hcheck]
      exact ⟨nofun, fun hempty => absurd hempty (hvalid.mp hcheck)⟩

/-! ## The settings file -/

section

variable (d : Directory) (o : Options) (parse : Toml.Parser)

/-- What lies under the command line: the settings file that it names, or the defaults. -/
def base : Except SettingsError Settings × List SettingsWarning :=
  match o.config with
  | none => (.ok {}, [])
  | some path => ((Settings.load Directory.access ⟨path⟩ parse).run d).1

/-- The entries of the settings file, which has none where there is no such file. -/
def document? : Option Entries :=
  match o.config with
  | none => some []
  | some path =>
    (d.read ⟨path⟩).toOption.bind fun bytes =>
      (String.fromUTF8? ⟨bytes⟩).bind (Settings.entriesOf? parse)

/-- The settings of a run in a directory. -/
def settingsIn : Except OptionsError Settings :=
  ((o.settings Directory.access parse).run d).1.1

/-- What a settings file is read as. -/
def loaded (path : Files.Path) : Except SettingsError Settings × List SettingsWarning :=
  match d.read path with
  | .error cause => (.error (.unreadable cause), [])
  | .ok bytes => Settings.ofBytes bytes parse

theorem run_load (path : Files.Path) :
    (Settings.load Directory.access path parse).run d = (loaded d parse path, d) := by
  rw [Settings.load, StateT.run_bind, Directory.run_read, loaded]
  cases d.read path with
  | error cause => rfl
  | ok bytes => rfl

theorem run_settings : (o.settings Directory.access parse).run d =
    ((match o.base d parse with
      | (.error cause, warnings) => (.error (.badConfig cause), warnings)
      | (.ok s, warnings) => (o.overrideValid s, warnings)), d) := by
  unfold settings base
  cases o.config with
  | none => rfl
  | some path =>
      dsimp only
      rw [StateT.run_bind, run_load]
      obtain ⟨outcome, warnings⟩ := loaded d parse ⟨path⟩
      cases outcome with
      | error cause => rfl
      | ok s => rfl

theorem settingsIn_eq : o.settingsIn d parse = match (o.base d parse).1 with
    | .error cause => .error (.badConfig cause)
    | .ok s => o.overrideValid s := by
  rw [settingsIn, run_settings]
  obtain ⟨outcome, warnings⟩ := o.base d parse
  cases outcome with
  | error cause => rfl
  | ok s => rfl

theorem base_eq_ok_iff {s : Settings} : (o.base d parse).1 = .ok s ↔
    ∃ document, o.document? d parse = some document ∧
      (readDocument document).outcome.1 = .ok s := by
  unfold base document?
  cases o.config with
  | none =>
      have hempty : (readDocument []).outcome.1 = .ok {} := rfl
      simp [hempty]
  | some path =>
      dsimp only
      rw [run_load, loaded]
      cases d.read ⟨path⟩ with
      | error cause => simp [Except.toOption]
      | ok bytes =>
          dsimp only [Except.toOption, Option.bind_some]
          unfold Settings.ofBytes
          cases String.fromUTF8? ⟨bytes⟩ with
          | none => simp
          | some text =>
              dsimp only [Option.bind_some]
              rw [Settings.ofText_eq]
              cases Settings.entriesOf? parse text <;> simp

end

/-! ## The command line said in the file -/

def given (o : Options) : String → String → Option Value
  | "files", "obj" => some (.string o.model)
  | "files", "output_dir" => o.outputDir.map .string
  | "render", "width" => o.width.map fun n => .integer (Int64.ofInt n.toNat)
  | "render", "height" => o.height.map fun n => .integer (Int64.ofInt n.toNat)
  | "render", "projection" => if o.orthographic then some (.string "orthographic") else none
  | "render", "use_multithreading" => if o.singleThreaded then some (.boolean false) else none
  | "render", "wireframe" => if o.wireframe then some (.boolean true) else none
  | "color", "colorize" => o.seed.map fun _ => .boolean true
  | "color", "seed" => o.seed.map fun n => .integer (Int64.ofInt n.toNat)
  | _, _ => none

/-- The numbers of a command line can be said in the file, and are in range there. -/
structure Fits (o : Options) : Prop where
  width : ∀ n, o.width = some n → n ≠ 0 ∧ n.toNat < 2 ^ 63
  height : ∀ n, o.height = some n → n ≠ 0 ∧ n.toNat < 2 ^ 63
  seed : ∀ n, o.seed = some n → n.toNat < 2 ^ 63

/-- The second document is the first one with what a command line says in the place of what stands
at those keys. -/
structure Amends (o : Options) (document amended : Entries) : Prop where
  misplaced : ∀ part ∈ sections, isMisplaced amended part.1 = false
  value : ∀ part ∈ sections, ∀ key ∈ part.2, (tableAt amended part.1).lookup key.2.name =
    (o.given part.1 key.2.name).or ((tableAt document part.1).lookup key.2.name)

/-- What the command line says at a key is the choice there, if anything. -/
def Sets {α : Type} (o : Options) (title : String) (key : Settings.Key α) (said : Option α) :
    Prop :=
  (o.given title key.name).map key.verdict = said.map .chosen

section

variable {α : Type} {title : String} {key : Settings.Key α} {said : Option α}
  {document amended : Entries}

theorem Sets.of_given {value : Value} (h : o.Sets title key said)
    (hgiven : o.given title key.name = some value) :
    ∃ a, said = some a ∧ key.verdict value = .chosen a := by
  rw [Sets, hgiven, Option.map_some] at h
  obtain ⟨a, hsaid, hverdict⟩ := Option.map_eq_some_iff.mp h.symm
  exact ⟨a, hsaid, hverdict.symm⟩

theorem Sets.of_not_given (h : o.Sets title key said) (hgiven : o.given title key.name = none) :
    said = none := by
  rw [Sets, hgiven, Option.map_none] at h
  exact Option.map_eq_none_iff.mp h.symm

theorem Sets.choice (h : o.Sets title key said)
    (hvalue : (tableAt amended title).lookup key.name =
      (o.given title key.name).or ((tableAt document title).lookup key.name)) :
    key.choice (tableAt amended title) = said.getD (key.choice (tableAt document title)) := by
  unfold Settings.Key.choice
  rw [hvalue]
  cases hgiven : o.given title key.name with
  | none =>
      rw [h.of_not_given hgiven]
      rfl
  | some value =>
      obtain ⟨a, rfl, hverdict⟩ := h.of_given hgiven
      simp [hverdict, Settings.Verdict.getD]

theorem Sets.remarks_subset (h : o.Sets title key said)
    (hvalue : (tableAt amended title).lookup key.name =
      (o.given title key.name).or ((tableAt document title).lookup key.name)) :
    key.remarks (tableAt amended title) ⊆ key.remarks (tableAt document title) := by
  unfold Settings.Key.remarks
  rw [hvalue]
  cases hgiven : o.given title key.name with
  | none => exact List.Subset.refl _
  | some value =>
      obtain ⟨a, -, hverdict⟩ := h.of_given hgiven
      simp [hverdict, Settings.Verdict.remarks]

end

section

variable (name : String) (default : UInt64) (warning : Int64 → SettingsWarning) {n : UInt64}

theorem verdict_positive (hne : n ≠ 0) (hlt : n.toNat < 2 ^ 63) :
    (Settings.Key.ranged name .integer default (0 < ·) Int64.toUInt64 warning).verdict
      (.integer (Int64.ofInt n.toNat)) = .chosen n := by
  change (if 0 < Int64.ofInt n.toNat then Settings.Verdict.chosen _ else _) = _
  rw [if_pos (Settings.zero_lt_word hlt hne), Settings.toUInt64_word]

theorem verdict_natural (hlt : n.toNat < 2 ^ 63) :
    (Settings.Key.ranged name .integer default (0 ≤ ·) Int64.toUInt64 warning).verdict
      (.integer (Int64.ofInt n.toNat)) = .chosen n := by
  change (if 0 ≤ Int64.ofInt n.toNat then Settings.Verdict.chosen _ else _) = _
  rw [if_pos (Settings.zero_le_word hlt), Settings.toUInt64_word]

end

theorem sets_model (o : Options) : o.Sets "files" .model (some (some o.model)) := rfl

theorem sets_outputDir (o : Options) : o.Sets "files" .outputDir o.outputDir := by
  change (o.outputDir.map _).map _ = _
  cases o.outputDir <;> rfl

theorem sets_width (h : o.Fits) : o.Sets "render" .width o.width := by
  change (o.width.map _).map _ = _
  cases hwidth : o.width with
  | none => rfl
  | some n => exact congrArg some (verdict_positive _ _ _ (h.width n hwidth).1 (h.width n hwidth).2)

theorem sets_height (h : o.Fits) : o.Sets "render" .height o.height := by
  change (o.height.map _).map _ = _
  cases hheight : o.height with
  | none => rfl
  | some n =>
      exact congrArg some (verdict_positive _ _ _ (h.height n hheight).1 (h.height n hheight).2)

theorem sets_projection (o : Options) : o.Sets "render" .projection
    (if o.orthographic then some "orthographic" else none) := by
  change (if o.orthographic then _ else _ : Option Value).map _ = _
  cases o.orthographic <;> rfl

theorem sets_multithreaded (o : Options) : o.Sets "render" .multithreaded
    (if o.singleThreaded then some false else none) := by
  change (if o.singleThreaded then _ else _ : Option Value).map _ = _
  cases o.singleThreaded <;> rfl

theorem sets_wireframe (o : Options) : o.Sets "render" .wireframe
    (if o.wireframe then some true else none) := by
  change (if o.wireframe then _ else _ : Option Value).map _ = _
  cases o.wireframe <;> rfl

theorem sets_colorize (o : Options) : o.Sets "color" .colorize (o.seed.map fun _ => true) := by
  change (o.seed.map _).map _ = _
  cases o.seed <;> rfl

theorem sets_seed (h : o.Fits) : o.Sets "color" .seed o.seed := by
  change (o.seed.map _).map _ = _
  cases hseed : o.seed with
  | none => rfl
  | some n => exact congrArg some (verdict_natural _ _ _ (h.seed n hseed))

theorem exists_sets (h : o.Fits) :
    ∀ part ∈ sections, ∀ key ∈ part.2, ∃ said, o.Sets part.1 key.2 said := by
  simp only [sections, List.forall_mem_cons]
  exact ⟨⟨⟨_, o.sets_model⟩, ⟨_, o.sets_outputDir⟩, ⟨none, rfl⟩, ⟨none, rfl⟩, ⟨none, rfl⟩,
      List.forall_mem_nil _⟩,
    ⟨⟨_, sets_width h⟩, ⟨_, sets_height h⟩, ⟨_, o.sets_projection⟩, ⟨none, rfl⟩,
      ⟨_, o.sets_multithreaded⟩, ⟨_, o.sets_wireframe⟩, ⟨none, rfl⟩, List.forall_mem_nil _⟩,
    ⟨⟨none, rfl⟩, ⟨none, rfl⟩, List.forall_mem_nil _⟩,
    ⟨⟨_, o.sets_colorize⟩, ⟨_, sets_seed h⟩, ⟨none, rfl⟩, ⟨none, rfl⟩, List.forall_mem_nil _⟩,
    List.forall_mem_nil _⟩

section

variable {document amended : Entries} (hfits : o.Fits) (h : o.Amends document amended)

include hfits h

theorem choices_amended : choices amended = o.override (choices document) := by
  have hvalue := h.value
  simp only [sections, List.forall_mem_cons] at hvalue
  obtain ⟨⟨hmodel, houtputDir, hcolorName, hdepthName, hformat, -⟩, ⟨hwidth, hheight, hprojection,
    hdepthLevels, hmultithreaded, hwireframe, hsaveDepth, -⟩, ⟨hrotation, hfocal, -⟩,
    ⟨hcolorize, hseed, hsolid, hwire, -⟩, -⟩ := hvalue
  have hunset {α : Type} {title : String} {key : Settings.Key α} (hset : o.Sets title key none)
      (hlookup : (tableAt amended title).lookup key.name =
        (o.given title key.name).or ((tableAt document title).lookup key.name)) :
      key.choice (tableAt amended title) = key.choice (tableAt document title) :=
    hset.choice hlookup
  simp only [choices, override, Settings.mk.injEq]
  refine ⟨o.sets_model.choice hmodel, o.sets_outputDir.choice houtputDir, hunset rfl hcolorName,
    hunset rfl hdepthName, hunset rfl hformat, (sets_width hfits).choice hwidth,
    (sets_height hfits).choice hheight, ?_, hunset rfl hdepthLevels, ?_, ?_, hunset rfl hsaveDepth,
    hunset rfl hrotation, hunset rfl hfocal, ?_, (sets_seed hfits).choice hseed, hunset rfl hsolid,
    hunset rfl hwire⟩
  · rw [o.sets_projection.choice hprojection]
    cases o.orthographic <;> rfl
  · rw [o.sets_multithreaded.choice hmultithreaded]
    cases o.singleThreaded <;> rfl
  · rw [o.sets_wireframe.choice hwireframe]
    cases o.wireframe <;> rfl
  · rw [o.sets_colorize.choice hcolorize]
    cases o.seed <;> rfl

theorem remarks_amended_subset : Settings.remarks amended ⊆ Settings.remarks document := by
  intro remark hremark
  obtain ⟨part, hpart, ⟨hmisplaced, -⟩ | ⟨key, hkey, hremark⟩⟩ :=
    (Settings.mem_remarks_iff amended).mp hremark
  · rw [h.misplaced part hpart] at hmisplaced
    exact absurd hmisplaced nofun
  · obtain ⟨said, hset⟩ := exists_sets hfits part hpart key hkey
    have hold := hset.remarks_subset (h.value part hpart key hkey) hremark
    exact (Settings.mem_remarks_iff document).mpr ⟨part, hpart, .inr ⟨key, hkey, hold⟩⟩

/-- Reading what was amended gives the settings with what the command line says. -/
theorem readDocument_amended (hread : (readDocument document).outcome.1 = .ok s) :
    (readDocument amended).outcome.1 = .ok (o.override s) := by
  obtain ⟨rfl, hsound⟩ := (Settings.readDocument_eq_ok_iff document).mp hread
  refine (Settings.readDocument_eq_ok_iff amended).mpr
    ⟨(choices_amended hfits h).symm, fun e he => ?_⟩
  exact hsound e (remarks_amended_subset hfits h he)

end

/-! ## Amending a document -/

section

variable {document : Entries} {title name : String} {value : Value}

def assign (document : Entries) (title name : String) (value : Value) : Entries :=
  (title, .table .header ((name, value) :: (tableAt document title).filter (·.1 ≠ name))) ::
    document.filter (·.1 ≠ title)

theorem lookup_filter_ne {entries : Entries} {key key' : String} (h : key' ≠ key) :
    (entries.filter (·.1 ≠ key)).lookup key' = entries.lookup key' := by
  induction entries with
  | nil => rfl
  | cons entry entries ih =>
      rw [List.filter_cons, List.lookup_cons]
      split_ifs with hentry
      · rw [List.lookup_cons, ih]
      · have hkey : entry.1 = key := by simpa using hentry
        have hne : (key' == entry.1) = false := beq_eq_false_iff_ne.mpr (hkey ▸ h)
        rw [ih, hne]

theorem lookup_assign (title' name' : String) :
    (tableAt (assign document title name value) title').lookup name' =
      if title' = title ∧ name' = name then some value
      else (tableAt document title').lookup name' := by
  by_cases htitle : title' = title
  · subst htitle
    have htable : tableAt (assign document title' name value) title' =
        (name, value) :: (tableAt document title').filter (·.1 ≠ name) := by
      simp [tableAt, assign, Value.entries?]
    rw [htable, List.lookup_cons]
    by_cases hname : name' = name
    · simp [hname]
    · simp only [beq_eq_false_iff_ne.mpr hname, hname, and_false, if_false]
      exact lookup_filter_ne hname
  · have htable : tableAt (assign document title name value) title' = tableAt document title' := by
      simp only [tableAt, assign, List.lookup_cons, beq_eq_false_iff_ne.mpr htitle]
      rw [lookup_filter_ne htitle]
    rw [htable, if_neg fun h => htitle h.1]

theorem isMisplaced_assign {title' : String} (h : isMisplaced document title' = false) :
    isMisplaced (assign document title name value) title' = false := by
  by_cases htitle : title' = title
  · subst htitle
    simp [isMisplaced, assign, Value.entries?]
  · rw [isMisplaced, assign, List.lookup_cons, beq_eq_false_iff_ne.mpr htitle]
    dsimp only
    rw [lookup_filter_ne htitle]
    exact h

def places : List (String × String) :=
  sections.flatMap fun part => part.2.map fun key => (part.1, key.2.name)

variable (o document) in
def amend (places : List (String × String)) : Entries :=
  places.foldr (fun (title, name) document =>
      (o.given title name).elim document (assign document title name))
    document

theorem lookup_amend (places : List (String × String)) (title name : String) :
    (tableAt (amend o document places) title).lookup name =
      if (title, name) ∈ places then
        (o.given title name).or ((tableAt document title).lookup name)
      else (tableAt document title).lookup name := by
  induction places with
  | nil => rfl
  | cons place places ih =>
      obtain ⟨title', name'⟩ := place
      rw [amend, List.foldr_cons, ← amend]
      simp only [List.mem_cons, Prod.mk.injEq]
      -- The first place is amended last, so that it hides what the others did there.
      cases hgiven : o.given title' name' with
      | none =>
          rw [Option.elim_none, ih]
          by_cases hplace : title = title' ∧ name = name'
          · obtain ⟨rfl, rfl⟩ := hplace
            simp [hgiven]
          · simp [hplace]
      | some value =>
          rw [Option.elim_some, lookup_assign, ih]
          by_cases hplace : title = title' ∧ name = name'
          · obtain ⟨rfl, rfl⟩ := hplace
            simp [hgiven]
          · simp [hplace]

theorem isMisplaced_amend (places : List (String × String)) {title : String}
    (h : isMisplaced document title = false) :
    isMisplaced (amend o document places) title = false := by
  induction places with
  | nil => exact h
  | cons place places ih =>
      obtain ⟨title', name'⟩ := place
      rw [amend, List.foldr_cons, ← amend]
      dsimp only
      cases o.given title' name' with
      | none => exact ih
      | some value => exact isMisplaced_assign ih

theorem amends_amend (h : ∀ part ∈ sections, isMisplaced document part.1 = false) :
    o.Amends document (amend o document places) where
  misplaced part hpart := isMisplaced_amend places (h part hpart)
  value part hpart key hkey := by
    have hplace : (part.1, key.2.name) ∈ places :=
      List.mem_flatMap.mpr ⟨part, hpart, List.mem_map.mpr ⟨key, hkey, rfl⟩⟩
    rw [lookup_amend, if_pos hplace]

theorem isMisplaced_of_read (h : (readDocument document).outcome.1 = .ok s) :
    ∀ part ∈ sections, isMisplaced document part.1 = false := by
  intro part hpart
  by_contra hmisplaced
  refine ((Settings.readDocument_eq_ok_iff document).mp h).2 (.notATable part.1) ?_
  refine (Settings.mem_remarks_iff document).mpr ⟨part, hpart, .inl ⟨?_, rfl⟩⟩
  exact Bool.eq_true_of_not_eq_false hmisplaced

end

/-- The settings of a run are those of the settings file, or the defaults without one, with what the
command line says. There are none exactly where the file cannot be loaded or the check fails, and of
a file that can be loaded only an empty size fails it. What the command line says could as well have
stood in the file, as far as it can be said there. None of this depends on how files are parsed. -/
theorem settings_layered (o : Options) (d : Directory) (parse : Toml.Parser) :
    (∀ t, o.settingsIn d parse = .ok t ↔
        ∃ s, (o.base d parse).1 = .ok s ∧ o.Layers s t ∧ t.validate = .ok ()) ∧
      (∀ e, o.settingsIn d parse = .error e ↔
        (∃ cause, (o.base d parse).1 = .error cause ∧ e = .badConfig cause) ∨
          ∃ s t cause, (o.base d parse).1 = .ok s ∧ o.Layers s t ∧ t.validate = .error cause ∧
            e = .badSettings cause) ∧
      (∀ s, (o.base d parse).1 = .ok s →
        ((∃ e, o.settingsIn d parse = .error e) ↔ o.width = some 0 ∨ o.height = some 0)) ∧
      ∀ t, o.settingsIn d parse = .ok t → o.Fits → ∃ document, o.document? d parse = some document ∧
        (∃ amended, o.Amends document amended) ∧
          ∀ amended, o.Amends document amended → (readDocument amended).outcome.1 = .ok t := by
  rw [settingsIn_eq]
  cases hbase : (o.base d parse).1 with
  | error cause =>
      refine ⟨fun t => ?_, fun e => ?_, fun s => nofun, fun t => nofun⟩
      · simp
      · simp [eq_comm]
  | ok s =>
      obtain ⟨document, hdocument, hread⟩ := (o.base_eq_ok_iff d parse).mp hbase
      have hrange := Settings.Reading.of_always (Settings.always_readDocument document) hread
      dsimp only
      refine ⟨fun t => ?_, fun e => ?_, ?_, fun t ht hfits => ⟨document, hdocument, ?_, ?_⟩⟩
      · rw [overrideValid_eq_ok_iff]
        simp
      · rw [overrideValid_eq_error_iff]
        simp
      · rintro _ ⟨⟩
        exact exists_overrideValid_eq_error_iff hrange
      · exact ⟨_, amends_amend (isMisplaced_of_read hread)⟩
      · intro amended hamends
        rw [readDocument_amended hfits hamends hread,
          layers_iff.mp (overrideValid_eq_ok_iff.mp ht).1]

def narrowFile : Directory where
  entries := ("c.toml", .file "[render]\nwidth = 5\nheight = -1\n".toUTF8.data) ::
    ({} : Directory).entries

def seeded (height : UInt64) : Options where
  model := "a.obj"
  config := some "c.toml"
  height := some height
  seed := some 7
  orthographic := true

theorem settings_layered_of_seeded :
    (∃ t, (seeded 9).settingsIn narrowFile Toml.parse = .ok t ∧ t.width = 5 ∧ t.height = 9 ∧
      ∃ document amended, (seeded 9).document? narrowFile Toml.parse = some document ∧
        (seeded 9).Amends document amended ∧ (readDocument amended).outcome.1 = .ok t) ∧
      ∃ e, (seeded 0).settingsIn narrowFile Toml.parse = .error e := by
  have hwidth : (((seeded 9).base narrowFile Toml.parse).1.toOption.map (·.width)) = some 5 := by
    decide +kernel
  obtain ⟨s, hs, hfive⟩ := Option.map_eq_some_iff.mp hwidth
  have hbase : ((seeded 9).base narrowFile Toml.parse).1 = .ok s := by
    cases hread : ((seeded 9).base narrowFile Toml.parse).1 with
    | error cause => rw [hread] at hs; exact absurd hs nofun
    | ok s' => rw [hread] at hs; rw [Option.some.inj hs]
  obtain ⟨hok, -, hrefused, hfile⟩ := settings_layered (seeded 9) narrowFile Toml.parse
  obtain ⟨-, -, hempty, -⟩ := settings_layered (seeded 0) narrowFile Toml.parse
  refine ⟨?_, (hempty s hbase).mpr (.inr rfl)⟩
  cases hrun : (seeded 9).settingsIn narrowFile Toml.parse with
  | error e => exact absurd ((hrefused s hbase).mp ⟨e, hrun⟩) (by decide)
  | ok t =>
      obtain ⟨s', hs', hlayers, -⟩ := (hok t).mp hrun
      obtain rfl : s = s' := Except.ok.inj (hbase.symm.trans hs')
      have hfits : (seeded 9).Fits := ⟨nofun, by rintro n ⟨⟩; decide, by rintro n ⟨⟩; decide⟩
      obtain ⟨document, hdocument, ⟨amended, hamends⟩, hread⟩ := hfile t hrun hfits
      exact ⟨t, rfl, hlayers.width.trans hfive, hlayers.height, document, amended, hdocument,
        hamends, hread amended hamends⟩

end DepthRaster.CommandLine.Options
