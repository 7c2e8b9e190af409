import DepthRaster.Files.Directory
import DepthRaster.Proofs.Control.Outcomes
/-!
# Reading after a write

A write changes what its place holds and nothing else. So a path reads as it did before, unless it
leads to the place that was written.
-/

namespace DepthRaster.Files

/-! ## Names -/

namespace Entries

variable {entries : Entries} {name other : String} (entry : Entry)

theorem lookup_map_self (h : (entries.lookup name).isSome = true) :
    (entries.map fun old => if old.1 = name then (name, entry) else old).lookup name =
      some entry := by
  induction entries with
  | nil => exact absurd h (by simp)
  | cons old entries ih =>
      obtain ⟨key, value⟩ := old
      by_cases hkey : key = name
      · simp [hkey]
      · have hne : (name == key) = false := beq_eq_false_iff_ne.mpr (Ne.symm hkey)
        rw [List.lookup_cons, hne] at h
        rw [List.map_cons, if_neg hkey, List.lookup_cons, hne]
        exact ih h

theorem lookup_map_of_ne (h : other ≠ name) :
    (entries.map fun old => if old.1 = name then (name, entry) else old).lookup other =
      entries.lookup other := by
  induction entries with
  | nil => rfl
  | cons old entries ih =>
      obtain ⟨key, value⟩ := old
      rw [List.map_cons]
      by_cases hkey : key = name
      · have hne : (other == name) = false := beq_eq_false_iff_ne.mpr h
        rw [if_pos hkey, List.lookup_cons, List.lookup_cons, hkey, hne, ih]
      · rw [if_neg hkey, List.lookup_cons, List.lookup_cons, ih]

theorem lookup_set_self : (entries.set name entry).lookup name = some entry := by
  rw [set]
  split
  · exact lookup_map_self entry ‹_›
  · have hnone : entries.lookup name = none := Option.not_isSome_iff_eq_none.mp ‹_›
    rw [List.lookup_append, hnone, Option.none_or, List.lookup_cons_self]

theorem lookup_set_of_ne (h : other ≠ name) :
    (entries.set name entry).lookup other = entries.lookup other := by
  rw [set]
  split
  · exact lookup_map_of_ne entry h
  · have hne : (other == name) = false := beq_eq_false_iff_ne.mpr h
    simp [List.lookup_append, List.lookup_cons, hne]

end Entries

/-! ## Places -/

namespace Entry

def at? : Entry → Place → Option Entry
  | entry, [] => some entry
  | .file _, _ :: _ => none
  | .directory entries, name :: rest => (entries.lookup name).bind (·.at? rest)

theorem at?_append (entry : Entry) (place rest : Place) :
    entry.at? (place ++ rest) = (entry.at? place).bind (·.at? rest) := by
  induction place generalizing entry with
  | nil => rw [List.nil_append, at?, Option.bind_some]
  | cons name place ih =>
      cases entry with
      | file bytes => rfl
      | directory entries =>
          rw [List.cons_append, at?, at?]
          cases entries.lookup name with
          | none => rfl
          | some inner => exact ih inner

theorem at?_file (bytes : Bytes) {place : Place} (h : place ≠ []) :
    (Entry.file bytes).at? place = none := by
  cases place with
  | nil => exact absurd rfl h
  | cons name rest => rfl

theorem at?_singleton (entries : Entries) (name : String) :
    (Entry.directory entries).at? [name] = entries.lookup name := by
  rw [at?]
  cases entries.lookup name with
  | none => rfl
  | some entry => rw [Option.bind_some, at?]

theorem exists_directory_of_at? {entry found : Entry} {place rest : Place} (hrest : rest ≠ [])
    (h : entry.at? (place ++ rest) = some found) :
    ∃ inner, entry.at? place = some (.directory inner) := by
  rw [at?_append] at h
  obtain ⟨above, habove, hfound⟩ := Option.bind_eq_some_iff.mp h
  cases above with
  | file bytes => rw [at?_file bytes hrest] at hfound; exact absurd hfound nofun
  | directory inner => exact ⟨inner, habove⟩

end Entry

/-- Two directories count as the same kind of thing, whatever is in them. -/
def SameKind (a b : Option Entry) : Prop :=
  a = b ∨ (∃ inner, a = some (.directory inner)) ∧ ∃ inner, b = some (.directory inner)

theorem SameKind.directory {a b : Option Entry} (h : SameKind a b)
    (ha : ∃ inner, a = some (.directory inner)) : ∃ inner, b = some (.directory inner) := by
  rcases h with rfl | ⟨-, hb⟩
  · exact ha
  · exact hb

theorem SameKind.file {a b : Option Entry} (h : SameKind a b) {bytes : Bytes}
    (ha : a = some (.file bytes)) : b = some (.file bytes) := by
  rcases h with rfl | ⟨⟨inner, hinner⟩, -⟩
  · exact ha
  · exact absurd (ha.symm.trans hinner) nofun

namespace Entries

variable {entries : Entries} (entry : Entry)

theorem setAt_cons {name : String} {rest : Place} {inner : Entries} (hrest : rest ≠ [])
    (h : entries.lookup name = some (.directory inner)) :
    entries.setAt entry (name :: rest) =
      entries.set name (.directory (inner.setAt entry rest)) := by
  cases rest with
  | nil => exact absurd rfl hrest
  | cons next rest => simp only [setAt, h]

theorem exists_lookup_of_at? {name : String} {rest : Place} {inner : Entries}
    (h : (Entry.directory entries).at? (name :: rest) = some (.directory inner)) :
    ∃ below, entries.lookup name = some (.directory below) ∧
      (Entry.directory below).at? rest = some (.directory inner) := by
  rw [Entry.at?] at h
  obtain ⟨found, hfound, hrest⟩ := Option.bind_eq_some_iff.mp h
  cases found with
  | directory below => exact ⟨below, hfound, hrest⟩
  | file bytes =>
      cases rest with
      | nil => rw [Entry.at?] at hrest; exact absurd hrest nofun
      | cons next rest => exact absurd hrest nofun

variable {above : Place} {inner : Entries} (name : String)
  (h : (Entry.directory entries).at? above = some (.directory inner))

include h

theorem at?_setAt_self :
    (Entry.directory (entries.setAt entry (above ++ [name]))).at? (above ++ [name]) =
      some entry := by
  induction above generalizing entries with
  | nil => rw [List.nil_append, Entry.at?_singleton, setAt, lookup_set_self]
  | cons first above ih =>
      obtain ⟨below, hbelow, hrest⟩ := exists_lookup_of_at? h
      rw [List.cons_append, setAt_cons entry (by simp) hbelow, Entry.at?, lookup_set_self]
      exact ih hrest

/-- Places that are not below the one that was set keep what they hold, but for what is in
directories. -/
theorem sameKind_setAt {place : Place} (hplace : ¬ above ++ [name] <+: place) :
    SameKind ((Entry.directory entries).at? place)
      ((Entry.directory (entries.setAt entry (above ++ [name]))).at? place) := by
  induction above generalizing entries place with
  | nil =>
      cases place with
      | nil => exact .inr ⟨⟨_, by rw [Entry.at?]⟩, ⟨_, by rw [Entry.at?]⟩⟩
      | cons other place =>
          have hne : other ≠ name := by
            rintro rfl
            exact hplace (by simp)
          left
          rw [List.nil_append, setAt, Entry.at?, Entry.at?, lookup_set_of_ne entry hne]
  | cons first above ih =>
      obtain ⟨below, hbelow, hrest⟩ := exists_lookup_of_at? h
      rw [List.cons_append, setAt_cons entry (by simp) hbelow]
      cases place with
      | nil => exact .inr ⟨⟨_, by rw [Entry.at?]⟩, ⟨_, by rw [Entry.at?]⟩⟩
      | cons other place =>
          rw [Entry.at?, Entry.at?]
          by_cases hne : other = first
          · subst hne
            rw [lookup_set_self, hbelow]
            exact ih hrest fun hprefix => hplace (by simpa using hprefix)
          · rw [lookup_set_of_ne _ hne]
            exact .inl rfl

end Entries

/-! ## Ways -/

namespace Directory

def at? (d : Directory) (place : Place) : Option Entry := (Entry.directory d.entries).at? place

/-- Ways that say of each name what it stands for. -/
inductive Leads (d : Directory) : Way → Prop
  | top : d.Leads []
  | down {way : Way} {inner : Entries} (name : String) (above : d.Leads way)
      (directory : d.at? way.place = some (.directory inner)) :
      d.Leads ((name, inner.lookup name) :: way)

def tooLong : Way → Bool
  | [] => false
  | (name, _) :: _ => decide (Path.nameByteLimit < name.utf8ByteSize)

variable {d d' : Directory} {way way' : Way}

@[simp] theorem place_cons (name : String) (entry : Option Entry) (way : Way) :
    Way.place ((name, entry) :: way) = way.place ++ [name] := by
  simp [Way.place]

theorem look_of_leads (h : d.Leads way) :
    d.look way = if tooLong way then .error .nameTooLong else .ok (d.at? way.place) := by
  cases h with
  | top => rfl
  | @down above inner name _ hdirectory =>
      have hentry : d.at? (above.place ++ [name]) = inner.lookup name := by
        rw [at?] at hdirectory ⊢
        rw [Entry.at?_append, hdirectory, Option.bind_some, Entry.at?_singleton]
      rw [place_cons, hentry, look, tooLong]
      simp only [decide_eq_true_eq]

theorem leads_outside (d : Directory) (name : String) : d.Leads (d.outside name) :=
  .down name .top rfl

theorem leads_up (h : d.Leads way) : d.Leads (d.up way) := by
  cases h with
  | top => exact d.leads_outside aboveName
  | down name habove hdirectory =>
      cases habove with
      | top =>
          rw [up]
          split
          · exact .down name .top hdirectory
          · exact .top
      | down next hfirst hinner => exact .down next hfirst hinner

theorem step_eq_ok {name : String} (h : d.Leads way) :
    d.step way name = .ok way' ↔ tooLong way = false ∧ ∃ inner,
      d.at? way.place = some (.directory inner) ∧
      way' = if name = "." then way else if name = ".." then d.up way
        else (name, inner.lookup name) :: way := by
  rw [step, look_of_leads h]
  cases tooLong way with
  | true => simp [bind, Except.bind]
  | false =>
      cases d.at? way.place with
      | none => simp [bind, Except.bind]
      | some entry =>
          cases entry with
          | file bytes => simp [bind, Except.bind]
          | directory inner =>
              simp only [bind, Except.bind, Bool.false_eq_true, if_false, true_and,
                Option.some.injEq, Entry.directory.injEq, exists_eq_left']
              split
              · simp [eq_comm]
              · split
                · simp [eq_comm]
                · simp [eq_comm]

theorem leads_step {name : String} (h : d.Leads way) (hstep : d.step way name = .ok way') :
    d.Leads way' := by
  obtain ⟨-, inner, hinner, rfl⟩ := (step_eq_ok h).mp hstep
  split
  · exact h
  · split
    · exact leads_up h
    · exact .down name h hinner

theorem leads_foldlM {names : List String} (h : d.Leads way)
    (hfold : names.foldlM d.step way = .ok way') : d.Leads way' :=
  foldlM_induction (motive := fun _ way => d.Leads way) h (fun _ => leads_step) hfold

theorem leads_resolve {p : Path} (h : d.resolve p = .ok way) : d.Leads way := by
  unfold resolve at h
  split at h
  · exact absurd h nofun
  · split at h
    · exact absurd h nofun
    · split at h
      · exact absurd h nofun
      · refine leads_foldlM ?_ h
        split
        · exact d.leads_outside rootName
        · exact .top

/-! ## Directories that differ at one place -/

/-- Directories that differ at a place only, and have no directory there. -/
structure Agree (place : Place) (d d' : Directory) : Prop where
  kind : ∀ other, ¬ place <+: other → SameKind (d.at? other) (d'.at? other)
  left : ∀ inner, d.at? place ≠ some (.directory inner)
  right : ∀ inner, d'.at? place ≠ some (.directory inner)

variable {place : Place}

theorem Agree.not_isPrefix (h : Agree place d d') {other : Place}
    (hother : ∃ inner, d.at? other = some (.directory inner)) : ¬ place <+: other := by
  rintro ⟨rest, rfl⟩
  obtain ⟨inner, hinner⟩ := hother
  cases rest with
  | nil => exact h.left inner (by simpa using hinner)
  | cons name rest =>
      obtain ⟨inner, hinner⟩ := Entry.exists_directory_of_at? (List.cons_ne_nil name rest) hinner
      exact h.left inner hinner

theorem tooLong_congr (h : way'.map (·.1) = way.map (·.1)) : tooLong way' = tooLong way := by
  cases way with
  | nil => rw [List.map_eq_nil_iff.mp h]
  | cons last above =>
      cases way' with
      | nil => exact absurd h nofun
      | cons last' above' =>
          have hlast : last'.1 = last.1 := (List.cons.inj h).1
          rw [tooLong, tooLong, hlast]

theorem map_up (h : way'.map (·.1) = way.map (·.1)) :
    (d'.up way').map (·.1) = (d.up way).map (·.1) := by
  match way, way', h with
  | [], [], _ => rfl
  | [(name, _)], [(name', _)], h =>
      obtain rfl : name' = name := (List.cons.inj h).1
      simp only [up]
      split <;> rfl
  | _ :: _ :: _, _ :: _ :: _, h => exact (List.cons.inj h).2

theorem Agree.step (h : Agree place d d') {name : String} {next : Way} (hway : d.Leads way)
    (hway' : d'.Leads way') (hnames : way'.map (·.1) = way.map (·.1))
    (hstep : d.step way name = .ok next) :
    ∃ next', d'.step way' name = .ok next' ∧ next'.map (·.1) = next.map (·.1) := by
  obtain ⟨hshort, inner, hinner, rfl⟩ := (step_eq_ok hway).mp hstep
  have hplace : way'.place = way.place := congrArg List.reverse hnames
  obtain ⟨inner', hinner'⟩ :=
    (h.kind way.place (h.not_isPrefix ⟨inner, hinner⟩)).directory ⟨inner, hinner⟩
  refine ⟨_, (step_eq_ok hway').mpr ⟨(tooLong_congr hnames).trans hshort, inner',
    hplace ▸ hinner', rfl⟩, ?_⟩
  split
  · exact hnames
  · split
    · exact map_up hnames
    · exact congrArg (name :: ·) hnames

theorem Agree.foldlM (h : Agree place d d') {names : List String} {last : Way} (hway : d.Leads way)
    (hway' : d'.Leads way') (hnames : way'.map (·.1) = way.map (·.1))
    (hfold : names.foldlM d.step way = .ok last) :
    ∃ last', names.foldlM d'.step way' = .ok last' ∧ last'.map (·.1) = last.map (·.1) := by
  induction names generalizing way way' with
  | nil => exact ⟨way', rfl, Except.ok.inj hfold ▸ hnames⟩
  | cons name names ih =>
      rw [List.foldlM_cons] at hfold
      obtain ⟨next, hstep, hrest⟩ := bind_eq_ok.mp hfold
      obtain ⟨next', hstep', hnext⟩ := h.step hway hway' hnames hstep
      rw [List.foldlM_cons, hstep']
      exact ih (leads_step hway hstep) (leads_step hway' hstep') hnext hrest

theorem Agree.resolve (h : Agree place d d') {p : Path} (hresolve : d.resolve p = .ok way) :
    ∃ way', d'.resolve p = .ok way' ∧ way'.map (·.1) = way.map (·.1) := by
  unfold Directory.resolve at hresolve ⊢
  split at hresolve
  · exact absurd hresolve nofun
  · split at hresolve
    · exact absurd hresolve nofun
    · split at hresolve
      · exact absurd hresolve nofun
      · rw [if_neg ‹_›, if_neg ‹_›, if_neg ‹_›]
        refine h.foldlM ?_ ?_ ?_ hresolve
        · split
          · exact d.leads_outside rootName
          · exact .top
        · split
          · exact d'.leads_outside rootName
          · exact .top
        · split <;> rfl

def placeOf? (d : Directory) (p : Path) : Option Place := (d.resolve p).toOption.map Way.place

theorem Agree.placeOf? (h : Agree place d d') {p : Path} (hresolve : d.resolve p = .ok way) :
    d'.placeOf? p = d.placeOf? p := by
  obtain ⟨way', hresolve', hnames⟩ := h.resolve hresolve
  have hplace : way'.place = way.place := congrArg List.reverse hnames
  rw [Directory.placeOf?, Directory.placeOf?, hresolve, hresolve']
  exact congrArg some hplace

/-! ## Reading and writing -/

variable {p q : Path} {bytes old : Bytes}

theorem read_eq_ok : d.read p = .ok bytes ↔ p.namesDirectory = false ∧ ∃ way,
    d.resolve p = .ok way ∧ tooLong way = false ∧ d.at? way.place = some (.file bytes) := by
  rw [read, find]
  cases hresolve : d.resolve p with
  | error e => simp [bind, Except.bind]
  | ok way =>
      simp only [bind, Except.bind, look_of_leads (leads_resolve hresolve), Except.ok.injEq,
        exists_eq_left']
      cases tooLong way with
      | true => simp
      | false =>
          cases d.at? way.place with
          | none => simp
          | some entry =>
              cases entry with
              | directory inner => simp
              | file held => cases p.namesDirectory <;> simp

theorem write_eq_ok : d.write p bytes = .ok d' ↔ p.namesDirectory = false ∧ ∃ way,
    d.resolve p = .ok way ∧ tooLong way = false ∧
      (∀ inner, d.at? way.place ≠ some (.directory inner)) ∧
      d' = ⟨d.entries.setAt (.file bytes) way.place⟩ := by
  rw [write]
  cases hresolve : d.resolve p with
  | error e => simp [bind, Except.bind]
  | ok way =>
      simp only [bind, Except.bind, look_of_leads (leads_resolve hresolve), Except.ok.injEq,
        exists_eq_left']
      cases p.namesDirectory with
      | true => simp
      | false =>
          cases tooLong way with
          | true => simp
          | false =>
              cases d.at? way.place with
              | none => simp [eq_comm]
              | some entry => cases entry <;> simp [eq_comm]

theorem agree_of_write (h : d.write p bytes = .ok d') :
    ∃ way, d.resolve p = .ok way ∧ tooLong way = false ∧ Agree way.place d d' ∧
      d'.at? way.place = some (.file bytes) := by
  obtain ⟨-, way, hresolve, hshort, hno, rfl⟩ := write_eq_ok.mp h
  cases leads_resolve hresolve with
  | top => exact absurd rfl (hno d.entries)
  | @down above inner name _ hdirectory =>
      have hself := Entries.at?_setAt_self (.file bytes) name hdirectory
      simp only [place_cons] at hno ⊢
      refine ⟨_, hresolve, hshort, ?_, ?_⟩
      · rw [place_cons]
        refine ⟨fun other => Entries.sameKind_setAt _ name hdirectory, hno, fun below hbelow => ?_⟩
        exact absurd (hself.symm.trans hbelow) nofun
      · rw [place_cons]
        exact hself

theorem read_write_self (h : d.write p bytes = .ok d') : d'.read p = .ok bytes := by
  obtain ⟨way, hresolve, hshort, hagree, hfile⟩ := agree_of_write h
  obtain ⟨way', hresolve', hnames⟩ := hagree.resolve hresolve
  have hplace : way'.place = way.place := congrArg List.reverse hnames
  exact read_eq_ok.mpr ⟨(write_eq_ok.mp h).1, way', hresolve',
    (tooLong_congr hnames).trans hshort, hplace ▸ hfile⟩

theorem placeOf?_write (h : d.write p bytes = .ok d') (hq : (d.placeOf? q).isSome = true) :
    d'.placeOf? q = d.placeOf? q := by
  obtain ⟨way, -, -, hagree, -⟩ := agree_of_write h
  cases hresolve : d.resolve q with
  | error e => simp [placeOf?, hresolve, Except.toOption] at hq
  | ok other => exact hagree.placeOf? hresolve

theorem isSome_placeOf?_of_read (h : d.read p = .ok bytes) : (d.placeOf? p).isSome = true := by
  obtain ⟨-, way, hresolve, -⟩ := read_eq_ok.mp h
  simp [placeOf?, hresolve, Except.toOption]

/-- A path that could be read gives what was written if it leads to the place written, and else what
it gave before. -/
theorem read_write (h : d.write p bytes = .ok d') (hq : d.read q = .ok old) :
    d'.read q = .ok (if d'.placeOf? p = d'.placeOf? q then bytes else old) := by
  obtain ⟨way, hresolve, -, hagree, hfile⟩ := agree_of_write h
  obtain ⟨hname, other, hresolveq, hshort, hold⟩ := read_eq_ok.mp hq
  obtain ⟨other', hresolveq', hnames⟩ := hagree.resolve hresolveq
  have hplace : other'.place = other.place := congrArg List.reverse hnames
  rw [hagree.placeOf? hresolve, hagree.placeOf? hresolveq, placeOf?, placeOf?, hresolve, hresolveq]
  refine read_eq_ok.mpr ⟨hname, other', hresolveq', (tooLong_congr hnames).trans hshort, ?_⟩
  rw [hplace]
  simp only [Except.toOption, Option.map_some, Option.some.injEq]
  by_cases hsame : way.place = other.place
  · rw [if_pos hsame, ← hsame, hfile]
  · rw [if_neg hsame]
    refine (hagree.kind other.place ?_).file hold
    rintro ⟨rest, hrest⟩
    cases rest with
    | nil => exact hsame (by simpa using hrest)
    | cons name rest =>
        rw [← hrest] at hold
        obtain ⟨inner, hinner⟩ := Entry.exists_directory_of_at? (List.cons_ne_nil name rest) hold
        exact hagree.left inner hinner

/-! ## Access to a directory that is carried along -/

theorem run_read : (access.read p).run d = (d.read p, d) := rfl

theorem run_exists?_of_read (h : d.read p = .ok bytes) : (access.exists? p).run d = (true, d) := by
  have hfound : (d.find p).isOk = true := by
    cases hfind : d.find p with
    | error cause =>
        rw [read, hfind] at h
        exact absurd h nofun
    | ok entry => rfl
  exact congrArg (·, d) hfound

theorem write_of_run {outcome : Except OsError Unit}
    (h : (access.write p bytes).run d = (outcome, d')) :
    (∃ cause, outcome = .error cause ∧ d' = d) ∨
      outcome = .ok () ∧ d.write p bytes = .ok d' := by
  change change (·.write p bytes) d = _ at h
  cases hwrite : d.write p bytes with
  | error cause =>
      simp only [change, hwrite] at h
      obtain ⟨rfl, rfl⟩ := Prod.mk.inj h
      exact .inl ⟨cause, rfl, rfl⟩
  | ok written =>
      simp only [change, hwrite] at h
      obtain ⟨rfl, rfl⟩ := Prod.mk.inj h
      exact .inr ⟨rfl, rfl⟩

end Directory

/-! ## Text in files -/

theorem fromUTF8?_toUTF8 (text : String) : String.fromUTF8? ⟨text.toUTF8.data⟩ = some text := by
  have hvalid : ByteArray.IsValidUTF8 ⟨text.toUTF8.data⟩ := text.isValidUTF8
  rw [String.fromUTF8?, dif_pos hvalid]
  rfl

end DepthRaster.Files
