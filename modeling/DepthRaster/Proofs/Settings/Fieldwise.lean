import DepthRaster.Proofs.Settings.Keys
import Mathlib.Data.List.Basic
import Mathlib.Tactic.SplitIfs
/-!
# Settings are read key by key

Reading stops at the first fault, and without one makes the choice of each key.
-/

namespace DepthRaster.Settings

open Color (readRgb)
open Toml (Entries Value)

/-! ## Remarks in order -/

section

variable {α β : Type} {a b : α} {warnings : List SettingsWarning} {said : List Remark}
  {e : SettingsError}

def conclude (a : α) : List Remark → Except SettingsError α × List SettingsWarning
  | [] => (.ok a, [])
  | .warning w :: said => ((conclude a said).1, w :: (conclude a said).2)
  | .fault e :: _ => (.error e, [])

theorem conclude_warnings (a : α) (warnings : List SettingsWarning) (said : List Remark) :
    conclude a (warnings.map .warning ++ said) =
      ((conclude a said).1, warnings ++ (conclude a said).2) := by
  induction warnings with
  | nil => rfl
  | cons w warnings ih => rw [List.map_cons, List.cons_append, conclude, ih]; rfl

theorem exists_warnings (said : List Remark) : ∃ warnings : List SettingsWarning,
    said = warnings.map .warning ∨ ∃ e rest, said = warnings.map .warning ++ .fault e :: rest := by
  induction said with
  | nil => exact ⟨[], .inl rfl⟩
  | cons remark said ih =>
      cases remark with
      | fault e => exact ⟨[], .inr ⟨e, said, rfl⟩⟩
      | warning w =>
          obtain ⟨warnings, rfl | ⟨e, rest, rfl⟩⟩ := ih
          · exact ⟨w :: warnings, .inl rfl⟩
          · exact ⟨w :: warnings, .inr ⟨e, rest, rfl⟩⟩

theorem fault_not_mem_map_warning (e : SettingsError) (warnings : List SettingsWarning) :
    Remark.fault e ∉ warnings.map .warning := by
  simp

theorem conclude_map_warning (a : α) (warnings : List SettingsWarning) :
    conclude a (warnings.map .warning) = (.ok a, warnings) := by
  have h := conclude_warnings a warnings []
  rwa [List.append_nil, conclude, List.append_nil] at h

theorem conclude_fault (a : α) (warnings : List SettingsWarning) (e : SettingsError)
    (rest : List Remark) :
    conclude a (warnings.map .warning ++ .fault e :: rest) = (.error e, warnings) := by
  rw [conclude_warnings, conclude, List.append_nil]

theorem conclude_eq_ok :
    conclude a said = (.ok b, warnings) ↔ b = a ∧ said = warnings.map .warning := by
  obtain ⟨new, rfl | ⟨e, rest, rfl⟩⟩ := exists_warnings said
  · rw [conclude_map_warning]
    constructor
    · rintro ⟨⟩
      exact ⟨rfl, rfl⟩
    · rintro ⟨rfl, h⟩
      rw [List.map_inj_right fun _ _ => Remark.warning.inj] at h
      rw [h]
  · rw [conclude_fault]
    refine ⟨fun h => absurd (Prod.mk.inj h).1 nofun, fun ⟨_, h⟩ => ?_⟩
    have hmem : Remark.fault e ∈ warnings.map .warning :=
      h ▸ List.mem_append_right _ List.mem_cons_self
    exact absurd hmem (fault_not_mem_map_warning e warnings)

theorem conclude_eq_error : conclude a said = (.error e, warnings) ↔
    ∃ rest, said = warnings.map .warning ++ .fault e :: rest := by
  constructor
  · intro h
    obtain ⟨new, rfl | ⟨e', rest, rfl⟩⟩ := exists_warnings said
    · rw [conclude_map_warning] at h
      exact absurd (Prod.mk.inj h).1 nofun
    · rw [conclude_fault] at h
      obtain ⟨he, rfl⟩ := Prod.mk.inj h
      obtain rfl := Except.error.inj he
      exact ⟨rest, rfl⟩
  · rintro ⟨rest, rfl⟩
    exact conclude_fault a warnings e rest

theorem exists_conclude_eq_error_iff :
    (∃ e, (conclude a said).1 = .error e) ↔ ∃ e, .fault e ∈ said := by
  obtain ⟨warnings, rfl | ⟨e, rest, rfl⟩⟩ := exists_warnings said
  · rw [conclude_map_warning]
    exact ⟨fun ⟨e, h⟩ => absurd h nofun,
      fun ⟨e, h⟩ => absurd h (fault_not_mem_map_warning e warnings)⟩
  · rw [conclude_fault]
    exact ⟨fun _ => ⟨e, List.mem_append_right _ List.mem_cons_self⟩, fun _ => ⟨e, rfl⟩⟩

theorem fst_conclude_eq_ok_iff :
    (conclude a said).1 = .ok b ↔ b = a ∧ ∀ e, .fault e ∉ said := by
  obtain ⟨warnings, rfl | ⟨e, rest, rfl⟩⟩ := exists_warnings said
  · rw [conclude_map_warning, Except.ok.injEq]
    exact ⟨fun h => ⟨h.symm, fun e => fault_not_mem_map_warning e warnings⟩, fun h => h.1.symm⟩
  · rw [conclude_fault]
    exact ⟨nofun, fun h => absurd (List.mem_append_right _ List.mem_cons_self) (h.2 e)⟩

/-- Reading says this on the way to a value, whatever was said before. -/
def Says (r : Reading α) (said : List Remark) (a : α) : Prop :=
  ∀ warnings, r.run.run warnings = ((conclude a said).1, warnings ++ (conclude a said).2)

namespace Says

theorem pure (a : α) : Says (Pure.pure a) [] a := by
  intro warnings
  rw [conclude, List.append_nil]
  rfl

theorem throw (e : SettingsError) (rest : List Remark) (a : α) :
    Says (throw e) (.fault e :: rest) a := by
  intro warnings
  rw [conclude, List.append_nil]
  rfl

theorem warn (w : SettingsWarning) : Says (warn w) [.warning w] () :=
  fun _ => rfl

theorem bind {r : Reading α} {f : α → Reading β} {said' : List Remark} {b : β}
    (hr : Says r said a) (hf : Says (f a) said' b) : Says (r >>= f) (said ++ said') b := by
  intro warnings
  change (ExceptT.bindCont f (r.run.run warnings).1).run (r.run.run warnings).2 = _
  rw [hr warnings]
  obtain ⟨new, rfl | ⟨e, rest, rfl⟩⟩ := exists_warnings said
  · rw [conclude_map_warning, conclude_warnings, ← List.append_assoc]
    exact hf (warnings ++ new)
  · rw [List.append_assoc, List.cons_append, conclude_fault, conclude_fault]
    rfl

theorem outcome {r : Reading α} (h : Says r said a) : r.outcome = conclude a said := by
  rw [Reading.outcome, h, List.nil_append]

end Says

end

/-! ## Keys -/

theorem getString_eq : getString = get? .string (ValueKind.read .string) := by
  unfold getString
  congr 1
  funext value
  cases value <;> rfl

theorem getBoolean_eq : getBoolean = get? .boolean (ValueKind.read .boolean) := by
  unfold getBoolean
  congr 1
  funext value
  cases value <;> rfl

theorem getInteger_eq : getInteger = get? .integer (ValueKind.read .integer) := by
  unfold getInteger
  congr 1
  funext value
  cases value <;> rfl

theorem getNumber_eq : getNumber = get? .number (ValueKind.read .number) := by
  unfold getNumber
  congr 1
  funext value
  cases value <;> rfl

section

variable {α : Type} {table : Entries} {s : Settings}

/-- A key is read as it says if values of its kind are. Without the key, the settings are left with
the default that they have. -/
theorem says_withKey (key : Key α) {get : Entries → String → Reading (Option key.kind.type)}
    {change : Settings → key.kind.type → Reading Settings} (update : Settings → α → Settings)
    (hget : get = get? key.kind key.kind.read) (hs : update s key.default = s)
    (h : ∀ b, Says (change s b) (key.judge b).remarks
      (update s ((key.judge b).getD key.default))) :
    Says (withKey get table key.name change s) (key.remarks table)
      (update s (key.choice table)) := by
  subst hget
  unfold withKey get? Key.remarks Key.choice Key.verdict
  cases table.lookup key.name with
  | none => exact hs.symm ▸ Says.pure s
  | some value =>
      dsimp only
      cases key.kind.read value with
      | none => exact Says.throw _ [] _
      | some b => exact h b

theorem says_ite_warn {c : Prop} [Decidable c] {a default : α} {w : SettingsWarning}
    {t : Settings} (update : Settings → α → Settings) (hs : update s default = s)
    (ht : update s a = t) :
    Says (if c then Pure.pure t else warn w >>= fun _ => (Pure.pure s : Reading Settings))
      (if c then Verdict.chosen a else .unfit w).remarks
      (update s ((if c then Verdict.chosen a else .unfit w).getD default)) := by
  split_ifs with h
  · exact ht ▸ Says.pure _
  · exact (Says.warn w).bind (hs.symm ▸ Says.pure s)

theorem says_checkColor (name default text : String) (update : Settings → String → Settings) :
    Says (checkColor name text >>= fun _ => Pure.pure (update s text))
      ((Key.colored name default).judge text).remarks
      (update s (((Key.colored name default).judge text).getD default)) := by
  unfold checkColor Key.colored
  dsimp only
  cases readRgb text with
  | ok color => exact Says.pure _
  | error cause => exact Says.throw _ [] _

end

/-! ## Sections -/

section

variable (s : Settings) (table : Entries)

def withFiles : Settings :=
  { s with
    model := Key.model.choice table
    outputDir := Key.outputDir.choice table
    colorName := Key.colorName.choice table
    depthName := Key.depthName.choice table
    format := Key.format.choice table }

def withRender : Settings :=
  { s with
    width := Key.width.choice table
    height := Key.height.choice table
    projection := Key.projection.choice table
    depthLevels := Key.depthLevels.choice table
    multithreaded := Key.multithreaded.choice table
    wireframe := Key.wireframe.choice table
    saveDepth := Key.saveDepth.choice table }

def withCamera : Settings :=
  { s with
    rotationDegrees := Key.rotationDegrees.choice table
    focalDistance := Key.focalDistance.choice table }

def withColor : Settings :=
  { s with
    colorize := Key.colorize.choice table
    seed := Key.seed.choice table
    solidColor := Key.solidColor.choice table
    wireColor := Key.wireColor.choice table }

theorem says_readFiles (hs : s.withFiles [] = s) :
    Says (readFiles table s) (Key.model.remarks table ++ (Key.outputDir.remarks table ++
      (Key.colorName.remarks table ++ (Key.depthName.remarks table ++ Key.format.remarks table))))
      (s.withFiles table) := by
  rw [← hs]
  unfold readFiles
  refine (says_withKey .model (fun s model => { s with model }) getString_eq rfl
    fun _ => .pure _).bind ?_
  refine (says_withKey .outputDir (fun s outputDir => { s with outputDir }) getString_eq rfl
    fun _ => .pure _).bind ?_
  refine (says_withKey .colorName (fun s colorName => { s with colorName }) getString_eq rfl
    fun _ => .pure _).bind ?_
  refine (says_withKey .depthName (fun s depthName => { s with depthName }) getString_eq rfl
    fun _ => .pure _).bind ?_
  exact says_withKey .format (fun s format => { s with format }) getString_eq rfl
    fun _ => says_ite_warn (fun s format => { s with format }) rfl rfl

theorem says_readRender (hs : s.withRender [] = s) :
    Says (readRender table s) (Key.width.remarks table ++ (Key.height.remarks table ++
      (Key.projection.remarks table ++ (Key.depthLevels.remarks table ++
      (Key.multithreaded.remarks table ++ (Key.wireframe.remarks table ++
      Key.saveDepth.remarks table)))))) (s.withRender table) := by
  rw [← hs]
  unfold readRender
  refine (says_withKey .width (fun s width => { s with width }) getInteger_eq rfl
    fun (_ : Int64) => says_ite_warn (fun s width => { s with width }) rfl rfl).bind ?_
  refine (says_withKey .height (fun s height => { s with height }) getInteger_eq rfl
    fun (_ : Int64) => says_ite_warn (fun s height => { s with height }) rfl rfl).bind ?_
  refine (says_withKey .projection (fun s projection => { s with projection }) getString_eq rfl
    fun name => ?_).bind ?_
  · dsimp only [Key.projection]
    split_ifs
    · exact .pure _
    · exact .throw _ [] _
  refine (says_withKey .depthLevels (fun s depthLevels => { s with depthLevels }) getInteger_eq rfl
    fun (_ : Int64) => says_ite_warn (fun s depthLevels => { s with depthLevels }) rfl rfl).bind ?_
  refine (says_withKey .multithreaded (fun s multithreaded => { s with multithreaded })
    getBoolean_eq rfl fun _ => .pure _).bind ?_
  refine (says_withKey .wireframe (fun s wireframe => { s with wireframe }) getBoolean_eq rfl
    fun _ => .pure _).bind ?_
  exact says_withKey .saveDepth (fun s saveDepth => { s with saveDepth }) getBoolean_eq rfl
    fun _ => .pure _

theorem says_readCamera (hs : s.withCamera [] = s) :
    Says (readCamera table s)
      (Key.rotationDegrees.remarks table ++ Key.focalDistance.remarks table)
      (s.withCamera table) := by
  rw [← hs]
  unfold readCamera
  refine (says_withKey .rotationDegrees (fun s rotationDegrees => { s with rotationDegrees })
    getNumber_eq rfl fun _ => says_ite_warn (fun s rotationDegrees => { s with rotationDegrees })
      rfl rfl).bind ?_
  exact says_withKey .focalDistance (fun s focalDistance => { s with focalDistance }) getNumber_eq
    rfl fun _ => says_ite_warn (fun s focalDistance => { s with focalDistance }) rfl rfl

theorem says_readColor (hs : s.withColor [] = s) :
    Says (readColor table s) (Key.colorize.remarks table ++ (Key.seed.remarks table ++
      (Key.solidColor.remarks table ++ Key.wireColor.remarks table))) (s.withColor table) := by
  rw [← hs]
  unfold readColor
  refine (says_withKey .colorize (fun s colorize => { s with colorize }) getBoolean_eq rfl
    fun _ => .pure _).bind ?_
  refine (says_withKey .seed (fun s seed => { s with seed }) getInteger_eq rfl
    fun (_ : Int64) => says_ite_warn (fun s seed => { s with seed }) rfl rfl).bind ?_
  refine (says_withKey .solidColor (fun s solidColor => { s with solidColor }) getString_eq rfl
    fun text => says_checkColor _ _ text fun s solidColor => { s with solidColor }).bind ?_
  exact says_withKey .wireColor (fun s wireColor => { s with wireColor }) getString_eq rfl
    fun text => says_checkColor _ _ text fun s wireColor => { s with wireColor }

end

/-! ## Documents -/

variable (document : Entries)

/-- A section that is missing is read like an empty one. -/
theorem says_withSection {title : String} {read : Entries → Settings → Reading Settings}
    {said : List Remark} {s t : Settings} (hempty : read [] s = Pure.pure s)
    (h : Says (read (tableAt document title) s) said t) :
    Says (withSection document title read s)
      ((if isMisplaced document title then [.fault (.notATable title)] else []) ++ said) t := by
  unfold withSection
  unfold tableAt at h
  unfold isMisplaced
  cases hlookup : document.lookup title with
  | none =>
      rw [hlookup] at h
      exact hempty ▸ h
  | some value =>
      rw [hlookup, Option.bind_some] at h
      rw [Option.any_some]
      dsimp only
      cases hentries : value.entries? with
      | none => exact Says.throw _ _ _
      | some table =>
          rw [hentries] at h
          exact h

theorem says_readDocument : Says (readDocument document) (remarks document) (choices document) := by
  simp only [remarks, sections, List.flatMap_cons, List.flatMap_nil, List.append_nil]
  unfold readDocument
  refine (says_withSection document rfl (says_readFiles _ _ rfl)).bind ?_
  refine (says_withSection document rfl (says_readRender _ _ rfl)).bind ?_
  refine (says_withSection document rfl (says_readCamera _ _ rfl)).bind ?_
  exact says_withSection document rfl (says_readColor _ _ rfl)

theorem outcome_readDocument :
    (readDocument document).outcome = conclude (choices document) (remarks document) :=
  (says_readDocument document).outcome

theorem readDocument_eq_ok_iff {s : Settings} : (readDocument document).outcome.1 = .ok s ↔
    s = choices document ∧ ∀ e, .fault e ∉ remarks document := by
  rw [outcome_readDocument, fst_conclude_eq_ok_iff]

def entriesOf? (parse : Toml.Parser) (text : String) : Option Entries :=
  (parse text).map (·.entries?.getD [])

theorem ofText_eq {parse : Toml.Parser} {text : String} : ofText text parse =
    (entriesOf? parse text).elim (.error .malformed, []) fun document =>
      (readDocument document).outcome := by
  unfold ofText readText entriesOf?
  cases parse text with
  | none => rfl
  | some value => rfl

/-! ## Faults -/

section

variable {α : Type}

/-- A key that refuses no value of its kind. -/
def Key.IsLenient (key : Key α) : Prop := ∀ b e, key.judge b ≠ .refused e

theorem isLenient_plain (name : String) (kind : ValueKind) (default : kind.type) :
    (Key.plain name kind default).IsLenient :=
  fun _ _ => nofun

theorem isLenient_ranged (name : String) (kind : ValueKind) (default : α)
    (fits : kind.type → Prop) [DecidablePred fits] (value : kind.type → α)
    (warning : kind.type → SettingsWarning) :
    (Key.ranged name kind default fits value warning).IsLenient := by
  intro b e h
  dsimp only [Key.ranged] at h
  split_ifs at h

theorem fault_mem_remarks_iff {key : Key α} {table : Entries} {e : SettingsError} :
    .fault e ∈ key.remarks table ↔ ∃ value, table.lookup key.name = some value ∧
      (key.kind.read value = none ∧ e = .wrongKind key.name key.kind ∨
        ∃ b, key.kind.read value = some b ∧ key.judge b = .refused e) := by
  have hremarks (verdict : Verdict α) : .fault e ∈ verdict.remarks ↔ verdict = .refused e := by
    cases verdict <;> simp [Verdict.remarks, eq_comm]
  unfold Key.remarks Key.verdict
  cases table.lookup key.name with
  | none => simp
  | some value =>
      cases hread : key.kind.read value with
      | none => simp [hread, hremarks, eq_comm]
      | some b => simp [hread, hremarks]

end

theorem isLenient_or : ∀ part ∈ sections, ∀ key ∈ part.2, key.2.IsLenient ∨
    part.1 = "render" ∧ key = ⟨_, .projection⟩ ∨
    part.1 = "color" ∧ (key = ⟨_, .solidColor⟩ ∨ key = ⟨_, .wireColor⟩) := by
  simp only [sections, List.forall_mem_cons]
  exact ⟨⟨.inl fun _ _ => nofun, .inl (isLenient_plain _ _ _), .inl (isLenient_plain _ _ _),
      .inl (isLenient_plain _ _ _), .inl (isLenient_ranged _ _ _ _ _ _), nofun⟩,
    ⟨.inl (isLenient_ranged _ _ _ _ _ _), .inl (isLenient_ranged _ _ _ _ _ _),
      .inr (.inl ⟨trivial, trivial⟩), .inl (isLenient_ranged _ _ _ _ _ _),
      .inl (isLenient_plain _ _ _), .inl (isLenient_plain _ _ _), .inl (isLenient_plain _ _ _),
      nofun⟩,
    ⟨.inl (isLenient_ranged _ _ _ _ _ _), .inl (isLenient_ranged _ _ _ _ _ _), nofun⟩,
    ⟨.inl (isLenient_plain _ _ _), .inl (isLenient_ranged _ _ _ _ _ _),
      .inr (.inr ⟨trivial, .inl trivial⟩), .inr (.inr ⟨trivial, .inr trivial⟩), nofun⟩, nofun⟩

theorem mem_remarks_iff {remark : Remark} : remark ∈ remarks document ↔
    ∃ part ∈ sections,
      isMisplaced document part.1 = true ∧ remark = .fault (.notATable part.1) ∨
        ∃ key ∈ part.2, remark ∈ key.2.remarks (tableAt document part.1) := by
  simp only [remarks, List.mem_flatMap, List.mem_append, List.mem_ite_nil_right,
    List.mem_singleton]

theorem read_string_eq_some_iff {value : Value} {text : String} :
    ValueKind.read .string value = some text ↔ value = .string text := by
  cases value <;> simp [ValueKind.read]

theorem judge_colored_eq_refused_iff {name default text : String} {e : SettingsError} :
    (Key.colored name default).judge text = .refused e ↔
      ∃ cause, readRgb text = .error cause ∧ e = .badColor name cause := by
  dsimp only [Key.colored]
  cases readRgb text with
  | ok color => simp
  | error cause => simp [eq_comm]

theorem judge_projection_eq_refused_iff {name : String} {e : SettingsError} :
    Key.projection.judge name = .refused e ↔
      ¬ (name = "perspective" ∨ name = "orthographic") ∧ e = .unknownProjection name := by
  dsimp only [Key.projection]
  split_ifs with h
  · simp [h]
  · simp [h, eq_comm]

variable {document} in
theorem isFault_of_refused {part : String × List AnyKey} (hpart : part ∈ sections) {key : AnyKey}
    (hkey : key ∈ part.2) {value : Value}
    (hvalue : (tableAt document part.1).lookup key.2.name = some value) {b : key.2.kind.type}
    (hread : key.2.kind.read value = some b) {e : SettingsError}
    (hrefused : key.2.judge b = .refused e) : IsFault document e := by
  obtain ⟨title, keys⟩ := part
  rcases isLenient_or _ hpart _ hkey with hlenient | ⟨rfl, rfl⟩ | ⟨rfl, rfl | rfl⟩
  · exact absurd hrefused (hlenient b e)
  · obtain rfl := read_string_eq_some_iff.mp hread
    obtain ⟨hname, rfl⟩ := judge_projection_eq_refused_iff.mp hrefused
    exact .unknownProjection hvalue hname
  · obtain rfl := read_string_eq_some_iff.mp hread
    obtain ⟨cause, hcause, rfl⟩ := judge_colored_eq_refused_iff.mp hrefused
    exact .badColor (by simp) hvalue hcause
  · obtain rfl := read_string_eq_some_iff.mp hread
    obtain ⟨cause, hcause, rfl⟩ := judge_colored_eq_refused_iff.mp hrefused
    exact .badColor (by simp) hvalue hcause

theorem fault_mem_remarks_document_iff {e : SettingsError} :
    .fault e ∈ remarks document ↔ IsFault document e := by
  rw [mem_remarks_iff]
  constructor
  · rintro ⟨part, hpart, ⟨hmisplaced, he⟩ | ⟨key, hkey, hfault⟩⟩
    · obtain rfl := Remark.fault.inj he
      exact .misplaced hpart hmisplaced
    · obtain ⟨value, hvalue, ⟨hread, rfl⟩ | ⟨b, hread, hrefused⟩⟩ := fault_mem_remarks_iff.mp hfault
      · exact .wrongKind hpart hkey hvalue hread
      · exact isFault_of_refused hpart hkey hvalue hread hrefused
  · intro h
    cases h with
    | @misplaced part hpart hmisplaced => exact ⟨part, hpart, .inl ⟨hmisplaced, rfl⟩⟩
    | @wrongKind part key value hpart hkey hvalue hread =>
        exact ⟨part, hpart, .inr ⟨key, hkey,
          fault_mem_remarks_iff.mpr ⟨value, hvalue, .inl ⟨hread, rfl⟩⟩⟩⟩
    | @unknownProjection name hvalue hname =>
        refine ⟨_, .tail _ (.head _), .inr ⟨⟨_, .projection⟩, by simp, ?_⟩⟩
        exact fault_mem_remarks_iff.mpr ⟨_, hvalue, .inr ⟨name, rfl,
          judge_projection_eq_refused_iff.mpr ⟨hname, rfl⟩⟩⟩
    | @badColor name text cause hname hvalue hcause =>
        rcases List.mem_cons.mp hname with rfl | hname
        · refine ⟨_, .tail _ (.tail _ (.tail _ (.head _))), .inr ⟨⟨_, .solidColor⟩, by simp, ?_⟩⟩
          exact fault_mem_remarks_iff.mpr ⟨_, hvalue, .inr ⟨text, rfl,
            judge_colored_eq_refused_iff.mpr ⟨cause, hcause, rfl⟩⟩⟩
        · obtain rfl := List.mem_singleton.mp hname
          refine ⟨_, .tail _ (.tail _ (.tail _ (.head _))), .inr ⟨⟨_, .wireColor⟩, by simp, ?_⟩⟩
          exact fault_mem_remarks_iff.mpr ⟨_, hvalue, .inr ⟨text, rfl,
            judge_colored_eq_refused_iff.mpr ⟨cause, hcause, rfl⟩⟩⟩

/-! ## What makes a difference -/

section

variable {a b : Entries}

theorem remarks_congr (h : SaysSame a b) : remarks a = remarks b := by
  unfold remarks
  refine List.flatMap_congr fun part hpart => ?_
  have hkeys : ∀ key ∈ part.2,
      key.2.remarks (tableAt a part.1) = key.2.remarks (tableAt b part.1) := by
    intro key hkey
    rw [Key.remarks, Key.remarks, h.value part hpart key hkey]
  dsimp only
  rw [h.misplaced part hpart, List.flatMap_congr hkeys]

theorem choices_congr (h : SaysSame a b) : choices a = choices b := by
  have hvalue := h.value
  simp only [sections, List.forall_mem_cons] at hvalue
  simp only [choices, Key.choice, hvalue]

theorem outcome_congr (h : SaysSame a b) :
    (readDocument a).outcome = (readDocument b).outcome := by
  rw [outcome_readDocument, outcome_readDocument, choices_congr h, remarks_congr h]

end

theorem lookup_of_ne {before after : Entries} {key name : String} {value : Value}
    (h : name ≠ key) :
    (before ++ (key, value) :: after).lookup name = (before ++ after).lookup name := by
  have hne : (name == key) = false := beq_eq_false_iff_ne.mpr h
  rw [List.lookup_append, List.lookup_append, List.lookup_cons, hne]

theorem saysSame_of_section (before after : Entries) {title : String} {value : Value}
    (h : ∀ part ∈ sections, part.1 ≠ title) :
    SaysSame (before ++ (title, value) :: after) (before ++ after) where
  misplaced part hpart := by rw [isMisplaced, isMisplaced, lookup_of_ne (h part hpart)]
  value part hpart key _ := by rw [tableAt, tableAt, lookup_of_ne (h part hpart)]

theorem saysSame_of_key (before after inner rest : Entries) {title name : String}
    {origin : Toml.Origin} {value : Value}
    (h : ∀ part ∈ sections, part.1 = title → ∀ key ∈ part.2, key.2.name ≠ name) :
    SaysSame (before ++ (title, .table origin (inner ++ (name, value) :: rest)) :: after)
      (before ++ (title, .table origin (inner ++ rest)) :: after) where
  misplaced part hpart := by
    rw [isMisplaced, isMisplaced, List.lookup_append, List.lookup_append, List.lookup_cons,
      List.lookup_cons]
    cases before.lookup part.1 with
    | some found => rfl
    | none => cases part.1 == title <;> rfl
  value part hpart key hkey := by
    rw [tableAt, tableAt, List.lookup_append, List.lookup_append, List.lookup_cons,
      List.lookup_cons]
    cases before.lookup part.1 with
    | some found => rfl
    | none =>
        cases htitle : part.1 == title with
        | false => rfl
        | true => exact lookup_of_ne (h part hpart (beq_iff_eq.mp htitle) key hkey)

/-- Reading goes key by key. It fails exactly where something is at fault, with the first fault and
the warnings before it; otherwise each choice is that of its own key, and every value that does not
fit leaves a warning. What else is in a document makes no difference. -/
theorem readDocument_fieldwise (document : Entries) :
    ((∃ e, (readDocument document).outcome.1 = .error e) ↔ ∃ e, IsFault document e) ∧
      (∀ e warnings, (readDocument document).outcome = (.error e, warnings) ↔
        ∃ rest, remarks document = warnings.map .warning ++ .fault e :: rest) ∧
      (∀ s warnings, (readDocument document).outcome = (.ok s, warnings) ↔
        s = choices document ∧ remarks document = warnings.map .warning) ∧
      ∀ other, SaysSame other document →
        (readDocument other).outcome = (readDocument document).outcome := by
  refine ⟨?_, fun e warnings => ?_, fun s warnings => ?_, fun other => outcome_congr⟩
  · rw [outcome_readDocument, exists_conclude_eq_error_iff]
    exact exists_congr fun e => fault_mem_remarks_document_iff document
  · rw [outcome_readDocument, conclude_eq_error]
  · rw [outcome_readDocument, conclude_eq_ok]

def fisheye (between : Entries) : Entries :=
  [("render", .table .header (("width", .integer (-4)) :: (between ++
    [("projection", .string "fisheye")])))]

theorem readDocument_fieldwise_of_fisheye :
    IsFault (fisheye []) (.unknownProjection "fisheye") ∧
      (readDocument (fisheye [])).outcome =
        (.error (.unknownProjection "fisheye"), [.width (-4) 800]) ∧
      (readDocument (fisheye [("depth", .integer 3)])).outcome =
        (readDocument (fisheye [])).outcome ∧
      (readDocument (("title", .string "a") :: fisheye [])).outcome =
        (readDocument (fisheye [])).outcome := by
  obtain ⟨-, herror, -, hsame⟩ := readDocument_fieldwise (fisheye [])
  refine ⟨.unknownProjection rfl (by decide), (herror _ _).mpr ⟨[], rfl⟩, hsame _ ?_, hsame _ ?_⟩
  · exact saysSame_of_key [] [] [("width", .integer (-4))] _ (by decide)
  · exact saysSame_of_section [] _ (by decide)

end DepthRaster.Settings
