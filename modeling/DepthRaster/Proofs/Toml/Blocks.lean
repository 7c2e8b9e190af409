import DepthRaster.Proofs.Toml.Lines
/-!
# Documents of tables

A document of headers with lines under them reads as a table of tables, one for each header, with
the keys in their order.
-/

namespace DepthRaster.Toml

/-! ## Entries -/

theorem not_mem_of_nodup_append {α : Type} {a : α} {before after : List α}
    (h : (before ++ a :: after).Nodup) : a ∉ before := by
  obtain ⟨-, -, hdisjoint⟩ := List.nodup_append.mp h
  exact fun hmem => hdisjoint a hmem a List.mem_cons_self rfl

theorem lookup_eq_none {entries : Entries} {key : String} (h : key ∉ entries.map Prod.fst) :
    entries.lookup key = none := by
  rw [List.lookup_eq_none_iff]
  intro entry hentry
  exact bne_iff_ne.mpr fun heq => h (heq ▸ List.mem_map_of_mem hentry)

theorem lookup_append_self {entries : Entries} {key : String} (h : key ∉ entries.map Prod.fst)
    (value : Value) : (entries ++ [(key, value)]).lookup key = some value := by
  rw [List.lookup_append, lookup_eq_none h, Option.none_or]
  simp

namespace Entries

theorem replace_append_self {entries : Entries} {key : String} (h : key ∉ entries.map Prod.fst)
    (old new : Value) : replace (entries ++ [(key, old)]) key new = entries ++ [(key, new)] := by
  have hsame :
      entries.map (fun entry => if entry.1 = key then (key, new) else entry) = entries := by
    conv => rhs; rw [← List.map_id entries]
    apply List.map_congr_left
    intro entry hentry
    rw [if_neg]
    · rfl
    · rintro rfl
      exact h (List.mem_map_of_mem hentry)
  simp [replace, hsame]

theorem addDotted_nil {entries : Entries} {key : String} (h : key ∉ entries.map Prod.fst)
    (value : Value) : addDotted entries [] key value = some (entries ++ [(key, value)]) := by
  have hnew : addNew entries key value = some (entries ++ [(key, value)]) := by
    rw [addNew, lookup_eq_none h]
  rw [addDotted, update]
  exact hnew

theorem openTable_nil {entries : Entries} {key : String} (h : key ∉ entries.map Prod.fst) :
    openTable entries [] key = some (entries ++ [(key, .table .header [])]) := by
  rw [openTable, update, lookup_eq_none h]

end Entries

theorem Progress.add_opened {entries inner : Entries} {title key : String}
    (htitle : title ∉ entries.map Prod.fst) (hkey : key ∉ inner.map Prod.fst) (value : Value) :
    Progress.add ⟨entries ++ [(title, .table .header inner)], [title]⟩ [] key value =
      some ⟨entries ++ [(title, .table .header (inner ++ [(key, value)]))], [title]⟩ := by
  rw [Progress.add, Entries.update, lookup_append_self htitle]
  simp only [Bool.false_and, Bool.false_eq_true, if_false, Entries.update,
    Entries.addDotted_nil hkey, Option.bind_eq_bind, Option.bind_some,
    Entries.replace_append_self htitle]
  rfl

/-! ## Blocks -/

namespace Line

theorem apply_of_isFiller {line : Line} (h : line.isFiller = true) (p : Progress) :
    line.apply p = some p := by
  cases line with
  | comment text => rfl
  | blank => rfl
  | header title => exact absurd h Bool.false_ne_true
  | pair key text value => exact absurd h Bool.false_ne_true

theorem foldlM_eq_some {lines : List Line} (h : ∀ line ∈ lines, ∀ p, line.apply p = some p)
    (p : Progress) : lines.foldlM apply p = some p := by
  induction lines with
  | nil => rfl
  | cons line lines ih =>
      rw [List.foldlM_cons, h line List.mem_cons_self p]
      exact ih fun l hl => h l (List.mem_cons_of_mem line hl)

theorem foldlM_opened {lines : List Line} {entries inner : Entries} {title : String}
    (htitle : title ∉ entries.map Prod.fst) (hinner : ∀ line ∈ lines, line.isHeader = false)
    (hkeys : ((inner ++ lines.filterMap toEntry).map Prod.fst).Nodup) :
    lines.foldlM apply ⟨entries ++ [(title, .table .header inner)], [title]⟩ =
      some ⟨entries ++ [(title, .table .header (inner ++ lines.filterMap toEntry))], [title]⟩ := by
  induction lines generalizing inner with
  | nil => simp
  | cons line lines ih =>
      have hrest (l : Line) (hl : l ∈ lines) : l.isHeader = false :=
        hinner l (List.mem_cons_of_mem line hl)
      rw [List.foldlM_cons]
      cases line with
      | header other => exact absurd (hinner _ List.mem_cons_self).symm Bool.false_ne_true
      | pair key text value =>
          have hentries : (pair key text value :: lines).filterMap toEntry =
              (String.ofList key, value) :: lines.filterMap toEntry := rfl
          rw [hentries] at hkeys ⊢
          have hkey : String.ofList key ∉ inner.map Prod.fst := by
            rw [List.map_append, List.map_cons] at hkeys
            exact not_mem_of_nodup_append hkeys
          rw [apply, Progress.add_opened htitle hkey, Option.bind_eq_bind, Option.bind_some]
          rw [List.append_cons inner _ (lines.filterMap toEntry)] at hkeys ⊢
          exact ih hrest hkeys
      | comment text => exact ih hrest hkeys
      | blank => exact ih hrest hkeys

end Line

theorem foldlM_toLines {block : Block} (h : block.IsWellFormed) {p : Progress}
    (hnew : block.title ∉ p.entries.map Prod.fst) :
    block.toLines.foldlM Line.apply p =
      some ⟨p.entries ++ [(block.title, .table .header block.entries)], [block.title]⟩ := by
  have hopen : p.openTable [] block.title =
      some ⟨p.entries ++ [(block.title, .table .header [])], [block.title]⟩ := by
    rw [Progress.openTable, Entries.openTable_nil hnew]
    rfl
  rw [Block.toLines, List.foldlM_cons, Line.apply, String.ofList_toList, hopen]
  exact Line.foldlM_opened hnew h.inner h.keys

def tablesOf (blocks : List Block) : Entries :=
  blocks.map fun block => (block.title, .table .header block.entries)

theorem foldlM_blocks {blocks : List Block} (h : ∀ block ∈ blocks, block.IsWellFormed)
    {p : Progress} (hnames : (p.entries.map Prod.fst ++ blocks.map Block.title).Nodup) :
    ∃ opened, (blocks.flatMap Block.toLines).foldlM Line.apply p =
      some ⟨p.entries ++ tablesOf blocks, opened⟩ := by
  induction blocks generalizing p with
  | nil => exact ⟨p.opened, by simp [tablesOf]⟩
  | cons block blocks ih =>
      have hblock := h block List.mem_cons_self
      have hblocks (b : Block) (hb : b ∈ blocks) : b.IsWellFormed :=
        h b (List.mem_cons_of_mem block hb)
      have hnew : block.title ∉ p.entries.map Prod.fst := by
        rw [List.map_cons] at hnames
        exact not_mem_of_nodup_append hnames
      have hstep :
          ((p.entries ++ [(block.title, Value.table .header block.entries)]).map Prod.fst ++
            blocks.map Block.title).Nodup := by
        rw [List.map_append, List.append_assoc]
        exact hnames
      obtain ⟨opened, hopened⟩ := ih hblocks (p := ⟨_, [block.title]⟩) hstep
      refine ⟨opened, ?_⟩
      rw [List.flatMap_cons, List.foldlM_append, foldlM_toLines hblock hnew]
      change (blocks.flatMap Block.toLines).foldlM Line.apply ⟨_, [block.title]⟩ = _
      rw [hopened, List.append_assoc]
      rfl

/-! ## Settled documents -/

theorem settleEntries_eq_some {entries : Entries}
    (h : ∀ entry ∈ entries, entry.2.settle = some entry.2) :
    settleEntries entries = some entries := by
  induction entries with
  | nil => rw [settleEntries]
  | cons entry entries ih =>
      obtain ⟨key, value⟩ := entry
      have hvalue : value.settle = some value := h (key, value) List.mem_cons_self
      have hentries := ih fun e he => h e (List.mem_cons_of_mem _ he)
      rw [settleEntries, hvalue, hentries]
      rfl

theorem settle_table {entries : Entries} (origin : Origin)
    (h : ∀ entry ∈ entries, entry.1 ≠ reservedKey ∧ entry.2.settle = some entry.2) :
    (Value.table origin entries).settle = some (.table origin entries) := by
  rw [Value.settle, settleEntries_eq_some fun entry he => (h entry he).2]
  cases entries with
  | nil => rfl
  | cons entry entries =>
      obtain ⟨key, value⟩ := entry
      rw [Value.ofTable, if_neg (h _ List.mem_cons_self).1]
      rfl

theorem IsBareKey.ne_reservedKey {key : List Char} (h : IsBareKey key) :
    String.ofList key ≠ reservedKey := by
  intro heq
  have hkey : key = reservedKey.toList := by rw [← heq, String.toList_ofList]
  have hmark : isKeyChar '$' = true := h.chars '$' (by rw [hkey]; decide)
  exact absurd hmark (by decide)

theorem settle_entries {block : Block} (h : block.IsWellFormed) :
    ∀ entry ∈ block.entries, entry.1 ≠ reservedKey ∧ entry.2.settle = some entry.2 := by
  intro entry hentry
  obtain ⟨line, hline, hsome⟩ := List.mem_filterMap.mp hentry
  have hwell := h.lines line hline
  cases line with
  | pair key text value =>
      obtain ⟨hkey, htext⟩ := hwell
      obtain rfl : (String.ofList key, value) = entry := Option.some.inj hsome
      exact ⟨hkey.ne_reservedKey, htext.settle_eq⟩
  | header title => exact absurd hsome nofun
  | comment text => exact absurd hsome nofun
  | blank => exact absurd hsome nofun

/-- A text of lines that add nothing, and then of blocks, is read as the tables of the blocks. -/
theorem parse_of_document {text : String} {document : Document}
    (htext : text.toList = document.lines.flatMap Line.chars) (h : document.IsWellFormed) :
    parse text = some (.table .header (tablesOf document.blocks)) := by
  have hlines : ∀ line ∈ document.lines, line.IsWellFormed := by
    intro line hline
    rcases List.mem_append.mp hline with hline | hline
    · exact (h.preamble line hline).1
    · obtain ⟨block, hblock, hline⟩ := List.mem_flatMap.mp hline
      rcases List.mem_cons.mp hline with rfl | hline
      · exact (h.blocks block hblock).title
      · exact (h.blocks block hblock).lines line hline
  have hstart := Line.foldlM_eq_some
    (fun line hline => Line.apply_of_isFiller (h.preamble line hline).2) {}
  obtain ⟨opened, hopened⟩ := foldlM_blocks h.blocks (p := {}) (by simpa using h.titles)
  rw [Line.parse_of_lines htext hlines, Document.lines, List.foldlM_append, hstart]
  change ((document.blocks.flatMap Block.toLines).foldlM Line.apply {}).bind _ = _
  rw [hopened]
  refine settle_table .header fun entry hentry => ?_
  obtain ⟨block, hblock, rfl⟩ := List.mem_map.mp hentry
  have hwell := h.blocks block hblock
  have htitle := hwell.title.ne_reservedKey
  rw [String.ofList_toList] at htitle
  exact ⟨htitle, settle_table .header (settle_entries hwell)⟩

theorem lookup_tablesOf {blocks : List Block} (htitles : (blocks.map Block.title).Nodup)
    {block : Block} (hblock : block ∈ blocks) :
    (tablesOf blocks).lookup block.title = some (.table .header block.entries) := by
  induction blocks with
  | nil => exact absurd hblock List.not_mem_nil
  | cons other blocks ih =>
      obtain ⟨hfirst, hrest⟩ := List.nodup_cons.mp htitles
      rw [tablesOf, List.map_cons, List.lookup_cons]
      rcases List.mem_cons.mp hblock with rfl | hblock
      · rw [beq_self_eq_true]
      · have hne : (block.title == other.title) = false :=
          beq_eq_false_iff_ne.mpr fun heq => hfirst (heq ▸ List.mem_map_of_mem hblock)
        rw [hne]
        exact ih hrest hblock

theorem accepts_parse : Accepts parse := fun _ _ htext h =>
  ⟨_, parse_of_document htext h, _, rfl, fun _ hblock =>
    ⟨_, _, lookup_tablesOf h.titles hblock, rfl, fun _ => rfl⟩⟩

end DepthRaster.Toml
