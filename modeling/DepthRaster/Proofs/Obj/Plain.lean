import DepthRaster.Proofs.Numeric.Digits
import DepthRaster.Proofs.Obj.Reading
/-!
# Plain texts

A plain text has vertices with three coordinates, triangles with three positive numbers, and parts.
It is read exactly when every number is that of a vertex before the end of its part, and has no more
than 63 bits. One number beyond spoils the whole text, before faces are looked at one by one.
-/

namespace DepthRaster.Obj

open DepthRaster.Geometry (Point)
open Mesh (Corners)
open Numeric
open Assembly (fan triangles)

/-! ## Items -/

/-- What a line of a plain text says. -/
inductive Item where
  | blank
  | vertex (point : Point Float32)
  /-- A triangle by the numbers of its vertices, from one on. -/
  | face (numbers : Corners ℕ)
  | part

namespace Item

def vertex? : Item → Option (Point Float32)
  | vertex point => some point
  | _ => none

def face? : Item → Option (Corners ℕ)
  | face numbers => some numbers
  | _ => none

def isPart : Item → Bool
  | part => true
  | _ => false

def numbers : Item → List ℕ
  | face numbers => numbers.toList
  | _ => []

end Item

def verticesOf (items : List Item) : List (Point Float32) := items.filterMap Item.vertex?

def facesOf (items : List Item) : List (Corners ℕ) := items.filterMap Item.face?

/-- How many vertices come before the next part. -/
def reach (items : List Item) : ℕ := (verticesOf (items.takeWhile fun item => !item.isPart)).length

/-- Whether, after so many vertices, all faces have numbers that can be read, of vertices that come
before the end of their part. -/
def Resolved (count : ℕ) : List Item → Prop
  | [] => True
  | item :: items =>
    (∀ n ∈ item.numbers, n < 2 ^ 63 ∧ n ≤ count + reach items) ∧
      Resolved (count + (verticesOf [item]).length) items

instance decidableResolved : (count : ℕ) → (items : List Item) → Decidable (Resolved count items)
  | _, [] => .isTrue trivial
  | count, item :: items =>
    have := decidableResolved (count + (verticesOf [item]).length) items
    inferInstanceAs (Decidable (_ ∧ _))

/-- A positive number in digits. -/
structure Numeral (word : List Char) (n : ℕ) : Prop where
  digits : ∀ c ∈ word, Whole.isDigit c = true
  value : Whole.ofDigits word = n
  pos : 0 < n

/-- Whether a line says an item. -/
inductive Says : List Char → Item → Prop
  | blank {line} (words : Text.words line = []) : Says line .blank
  | vertex {line x y z point} (words : Text.words line = [['v'], x, y, z])
      (hx : number? x = some point.x) (hy : number? y = some point.y)
      (hz : number? z = some point.z) : Says line (.vertex point)
  | face {line i j k numbers} (words : Text.words line = [['f'], i, j, k])
      (hi : Numeral i numbers.first) (hj : Numeral j numbers.second)
      (hk : Numeral k numbers.third) : Says line (.face numbers)
  | part {line name} (words : Text.words line = ['o'] :: name) : Says line .part

/-! ## Statements -/

def writtenCorner (n : ℕ) : CornerText := { vertex := some (n : ℤ) }

theorem readCorner_numeral {word : List Char} {n : ℕ} (h : Numeral word n) :
    readCorner word = if 2 ^ 63 ≤ n then .error .face else .ok (writtenCorner n) := by
  have hne : word ≠ [] := by
    rintro rfl
    exact absurd h.pos (h.value ▸ Nat.lt_irrefl 0)
  have hslash : '/' ∉ word := fun hmem => Whole.ne_of_isDigit (h.digits _ hmem) rfl rfl
  have hnumber : readNumber word =
      if 2 ^ 63 ≤ n then .error .face else .ok (some (n : ℤ)) := by
    rw [readNumber, Whole.readSigned_eq hne h.digits, h.value]
    · split_ifs <;> rfl
    · exact hne
  rw [readCorner, List.splitOn_eq_singleton hslash, List.mapM_cons, hnumber]
  split_ifs <;> rfl

section

variable {line i j k : List Char} {numbers : Corners ℕ}

theorem read_face_words (words : Text.words line = [['f'], i, j, k]) :
    Statement.read line = Statement.face <$> [i, j, k].mapM readCorner := by
  rw [Statement.read, words]
  rfl

theorem read_face (words : Text.words line = [['f'], i, j, k]) (hi : Numeral i numbers.first)
    (hj : Numeral j numbers.second) (hk : Numeral k numbers.third)
    (hsmall : ∀ n ∈ numbers.toList, n < 2 ^ 63) :
    Statement.read line = .ok (.face (numbers.toList.map writtenCorner)) := by
  simp only [Corners.toList, List.forall_mem_cons] at hsmall
  rw [read_face_words words, List.mapM_cons, List.mapM_cons, List.mapM_cons, List.mapM_nil,
    readCorner_numeral hi, readCorner_numeral hj, readCorner_numeral hk,
    if_neg (Nat.not_le.mpr hsmall.1), if_neg (Nat.not_le.mpr hsmall.2.1),
    if_neg (Nat.not_le.mpr hsmall.2.2.1)]
  rfl

theorem read_face_of_large (words : Text.words line = [['f'], i, j, k])
    (hi : Numeral i numbers.first) (hj : Numeral j numbers.second) (hk : Numeral k numbers.third)
    (hlarge : ¬ ∀ n ∈ numbers.toList, n < 2 ^ 63) : Statement.read line = .error .face := by
  simp only [Corners.toList, List.forall_mem_cons, List.not_mem_nil, false_imp_iff, implies_true,
    and_true] at hlarge
  rw [read_face_words words, List.mapM_cons, List.mapM_cons, List.mapM_cons, List.mapM_nil,
    readCorner_numeral hi, readCorner_numeral hj, readCorner_numeral hk]
  split_ifs <;> first | rfl | omega

end

theorem read_vertex {line x y z : List Char} {point : Point Float32}
    (words : Text.words line = [['v'], x, y, z]) (hx : number? x = some point.x)
    (hy : number? y = some point.y) (hz : number? z = some point.z) :
    Statement.read line = .ok (.position point 0) := by
  have hread : Statement.read line = readPosition [x, y, z] := by
    rw [Statement.read, words]
    rfl
  rw [hread, readPosition, hx, hy, hz]
  rfl

theorem read_blank {line : List Char} (words : Text.words line = []) :
    Statement.read line = .ok .nothing := by
  rw [Statement.read, words]

theorem exists_read_part {line : List Char} {name : List (List Char)}
    (words : Text.words line = ['o'] :: name) : ∃ text, Statement.read line = .ok (.part text) := by
  rw [Statement.read, words]
  exact ⟨_, rfl⟩

/-! ## Faces that wait -/

def plainPlace (n : ℕ) : Option ℤ := some ((n : ℤ) - 1)

theorem vertexAt_plainPlace (positions : Array (Point Float32)) {n : ℕ} (h : 0 < n) :
    vertexAt positions (plainPlace n) = positions[n - 1]? := by
  obtain ⟨m, rfl⟩ := Nat.exists_eq_succ_of_ne_zero h.ne'
  have hpred : ((m.succ : ℕ) : ℤ) - 1 = m := by omega
  rw [plainPlace, hpred]
  rfl

def plainCorner (n : ℕ) : Corner := ⟨plainPlace n, none, none⟩

theorem placeOf_written (count : ℕ) {n : ℕ} (h : 0 < n) :
    placeOf count (writtenCorner n).vertex = plainPlace n := by
  simp only [placeOf, writtenCorner]
  rw [if_neg (by omega), if_neg (by omega), plainPlace]

theorem cornerOf_written (assembly : Assembly) {n : ℕ} (h : 0 < n) :
    assembly.cornerOf (writtenCorner n) = plainCorner n := by
  rw [Assembly.cornerOf, placeOf_written _ h]
  rfl

/-- An assembly in which faces with these numbers wait, and which has no colours. -/
structure Assembly.Awaits (numbers : List (Corners ℕ)) (assembly : Assembly) : Prop where
  channels : assembly.channels = 0
  waiting : assembly.waiting.toList = numbers.map fun face => face.toList.map plainCorner
  pos : ∀ face ∈ numbers, ∀ n ∈ face.toList, 0 < n

namespace Assembly.Awaits

variable {assembly closed : Assembly} {numbers : List (Corners ℕ)}

theorem triangles_eq (h : assembly.Awaits numbers) :
    triangles assembly.waiting.toList =
      numbers.map (Corners.map plainPlace) := by
  have hfan (face : Corners ℕ) :
      (fan (face.toList.map plainCorner)).map (Corners.map Corner.vertex) =
        [face.map plainPlace] := rfl
  simp only [triangles, h.waiting, List.flatMap_map, List.map_flatMap, hfan]
  exact List.map_eq_flatMap.symm

/-- The faces that wait can be ended when all their vertices are there. -/
theorem exists_close_iff (h : assembly.Awaits numbers) :
    (∃ closed, assembly.close = .ok closed) ↔
      ∀ face ∈ numbers, ∀ n ∈ face.toList, n ≤ assembly.positions.size := by
  constructor
  · rintro ⟨closed, hclose⟩ face hface n hn
    obtain ⟨s, -, hshown⟩ := Assembly.close_eq_ok hclose
    rw [h.triangles_eq] at hshown
    have hsome := hshown.isSome (face.map plainPlace) (List.mem_map_of_mem hface) (plainPlace n)
      (List.mem_map_of_mem hn)
    rw [vertexAt_plainPlace _ (h.pos face hface n hn)] at hsome
    obtain ⟨p, hp⟩ := Option.isSome_iff_exists.mp hsome
    have := (Array.getElem?_eq_some_iff.mp hp).1
    have := h.pos face hface n hn
    omega
  · intro hall
    refine Assembly.exists_close h.channels fun face hface => ?_
    rw [h.waiting] at hface
    obtain ⟨given, hgiven, rfl⟩ := List.mem_map.mp hface
    refine ⟨by simp [Corners.toList], fun corner hcorner => ?_⟩
    obtain ⟨n, hn, rfl⟩ := List.mem_map.mp hcorner
    have hpos := h.pos given hgiven n hn
    have hle := hall given hgiven n hn
    refine ⟨?_, rfl, rfl⟩
    rw [plainCorner, vertexAt_plainPlace _ hpos, Array.getElem?_eq_getElem (by omega),
      Option.isSome_some]

theorem of_close (h : assembly.Awaits numbers) (hclose : assembly.close = .ok closed) :
    closed.Awaits [] ∧ closed.positions = assembly.positions := by
  obtain ⟨draft, -, hclosed⟩ := bind_eq_ok.mp hclose
  obtain rfl := Except.ok.inj hclosed
  exact ⟨⟨h.channels, rfl, nofun⟩, rfl⟩

theorem position (h : assembly.Awaits numbers) (point : Point Float32) :
    Assembly.Awaits numbers
      { assembly with
        positions := assembly.positions.push point
        channels := assembly.channels + 0 } :=
  ⟨h.channels, h.waiting, h.pos⟩

theorem rename (h : assembly.Awaits numbers) (text : String) :
    Assembly.Awaits numbers
      { assembly with name := if text.isEmpty then unnamedPart else text } :=
  ⟨h.channels, h.waiting, h.pos⟩

theorem face (h : assembly.Awaits numbers) {face : Corners ℕ} (hfirst : 0 < face.first)
    (hsecond : 0 < face.second) (hthird : 0 < face.third) :
    Assembly.Awaits (numbers ++ [face])
      { assembly with
        waiting := assembly.waiting.push
          ((face.toList.map writtenCorner).map assembly.cornerOf) } := by
  refine ⟨h.channels, ?_, ?_⟩
  · have hcorners : (face.toList.map writtenCorner).map assembly.cornerOf =
        face.toList.map plainCorner := by
      simp only [Corners.toList, List.map_cons, List.map_nil, cornerOf_written assembly hfirst,
        cornerOf_written assembly hsecond, cornerOf_written assembly hthird]
    rw [Array.toList_push, h.waiting, List.map_append, List.map_singleton, hcorners]
  · rw [List.forall_mem_append, List.forall_mem_singleton]
    refine ⟨h.pos, ?_⟩
    simp only [Corners.toList, List.forall_mem_cons]
    exact ⟨hfirst, hsecond, hthird, List.forall_mem_nil _⟩

theorem eq_nil_of_isEmpty (h : assembly.Awaits numbers) (hempty : assembly.waiting.isEmpty = true) :
    numbers = [] := by
  rw [Array.isEmpty_iff] at hempty
  have hwaiting := h.waiting
  rw [hempty] at hwaiting
  exact List.map_eq_nil_iff.mp hwaiting.symm

theorem exists_closeFaces_iff (h : assembly.Awaits numbers) :
    (∃ closed, assembly.closeFaces = .ok closed) ↔
      ∀ face ∈ numbers, ∀ n ∈ face.toList, n ≤ assembly.positions.size := by
  rw [Assembly.closeFaces]
  split_ifs with hempty
  · rw [h.eq_nil_of_isEmpty hempty]
    exact iff_of_true ⟨assembly, rfl⟩ (List.forall_mem_nil _)
  · exact h.exists_close_iff

theorem of_closeFaces (h : assembly.Awaits numbers) (hclose : assembly.closeFaces = .ok closed) :
    closed.Awaits [] ∧ closed.positions = assembly.positions := by
  rw [Assembly.closeFaces] at hclose
  split_ifs at hclose with hempty
  · obtain rfl := Except.ok.inj hclose
    exact ⟨h.eq_nil_of_isEmpty hempty ▸ h, rfl⟩
  · exact h.of_close hclose

end Assembly.Awaits

/-! ## Runs -/

def Assembly.Finishes (library : String → Option (List String)) (assembly : Assembly)
    (lines : List Line) : Prop :=
  ∃ last closed, lines.foldlM (Assembly.stepLine library) assembly = .ok last ∧
    last.close = .ok closed

theorem Assembly.finishes_cons {library : String → Option (List String)} {assembly : Assembly}
    {line : Line} {lines : List Line} :
    assembly.Finishes library (line :: lines) ↔
      ∃ next, assembly.stepLine library line = .ok next ∧ next.Finishes library lines := by
  simp only [Finishes, List.foldlM_cons, bind_eq_ok]
  constructor
  · rintro ⟨last, closed, ⟨next, hnext, hlast⟩, hclosed⟩
    exact ⟨next, hnext, last, closed, hlast, hclosed⟩
  · rintro ⟨next, hnext, last, closed, hlast, hclosed⟩
    exact ⟨last, closed, ⟨next, hnext, hlast⟩, hclosed⟩

theorem Assembly.finishes_cons_of_ok {library : String → Option (List String)}
    {assembly next : Assembly} {line : Line} {lines : List Line}
    (h : assembly.stepLine library line = .ok next) :
    assembly.Finishes library (line :: lines) ↔ next.Finishes library lines := by
  rw [finishes_cons, h]
  constructor
  · rintro ⟨other, hother, hfinishes⟩
    exact Except.ok.inj hother ▸ hfinishes
  · exact fun hfinishes => ⟨next, rfl, hfinishes⟩

theorem Assembly.not_finishes_of_read {library : String → Option (List String)}
    {assembly : Assembly} {line : List Char} {lines : List Line} {cause : ObjError}
    (h : Statement.read line = .error cause) :
    ¬ assembly.Finishes library (some line :: lines) := by
  rw [finishes_cons, stepLine, Statement.ofLine, h]
  rintro ⟨next, hnext, -⟩
  exact absurd hnext nofun

theorem stepLine_of_read (library : String → Option (List String)) (assembly : Assembly)
    {line : List Char} {statement : Statement} (h : Statement.read line = .ok statement) :
    assembly.stepLine library (some line) = assembly.step library statement := by
  rw [Assembly.stepLine, Statement.ofLine, h]
  rfl

/-- A header of a part ends the part before it, and what follows begins without faces that wait. -/
theorem Assembly.Awaits.finishes_part_iff {library : String → Option (List String)}
    {assembly : Assembly} {numbers : List (Corners ℕ)} (h : assembly.Awaits numbers)
    {line : List Char} {text : String} (hread : Statement.read line = .ok (.part text))
    {lines : List Line} (good : ℕ → Prop) (hrest : ∀ next : Assembly, next.Awaits [] →
      (next.Finishes library lines ↔ good next.positions.size)) :
    assembly.Finishes library (some line :: lines) ↔
      (∀ face ∈ numbers, ∀ n ∈ face.toList, n ≤ assembly.positions.size) ∧
        good assembly.positions.size := by
  rw [Assembly.finishes_cons, stepLine_of_read library assembly hread, ← h.exists_closeFaces_iff]
  constructor
  · rintro ⟨next, hnext, hfinishes⟩
    obtain ⟨closed, hclosed, hnext⟩ := bind_eq_ok.mp hnext
    obtain rfl := Except.ok.inj hnext
    obtain ⟨hawaits, hpositions⟩ := h.of_closeFaces hclosed
    exact ⟨⟨closed, hclosed⟩, hpositions ▸ (hrest _ (hawaits.rename text)).mp hfinishes⟩
  · rintro ⟨⟨closed, hclosed⟩, hgood⟩
    obtain ⟨hawaits, hpositions⟩ := h.of_closeFaces hclosed
    refine ⟨_, bind_eq_ok.mpr ⟨closed, hclosed, rfl⟩, ?_⟩
    exact (hrest _ (hawaits.rename text)).mpr (hpositions ▸ hgood)

/-- A plain text is taken in when its faces are resolved, and those that wait have numbers of
vertices that come before the end of their part. The induction is on the lines, with any assembly
before them. -/
theorem finishes_iff (library : String → Option (List String)) {lines : List (List Char)}
    {items : List Item} (hsaid : List.Forall₂ Says lines items) {assembly : Assembly}
    {numbers : List (Corners ℕ)} (h : assembly.Awaits numbers) :
    assembly.Finishes library (lines.map some) ↔
      (∀ face ∈ numbers, ∀ n ∈ face.toList, n ≤ assembly.positions.size + reach items) ∧
        Resolved assembly.positions.size items := by
  induction hsaid generalizing assembly numbers with
  | nil =>
      refine Iff.trans ?_ (h.exists_close_iff.trans (and_iff_left trivial).symm)
      constructor
      · rintro ⟨last, closed, hlast, hclosed⟩
        exact ⟨closed, Except.ok.inj hlast ▸ hclosed⟩
      · rintro ⟨closed, hclosed⟩
        exact ⟨assembly, closed, rfl, hclosed⟩
  | @cons line item lines items hsaid _ ih =>
      rw [List.map_cons]
      cases hsaid with
      | blank words =>
          have hnext : assembly.stepLine library (some line) = .ok assembly :=
            stepLine_of_read library assembly (read_blank words)
          rw [Assembly.finishes_cons_of_ok hnext, ih h, Resolved]
          exact and_congr_right' (and_iff_right nofun).symm
      | @vertex _ _ _ point words hx hy hz =>
          have hnext := stepLine_of_read library assembly (read_vertex words hx hy hz)
          have hreach : reach (.vertex point :: items) = reach items + 1 := rfl
          have hpush : (assembly.positions.push point).size = assembly.positions.size + 1 :=
            Array.size_push _
          refine (Assembly.finishes_cons_of_ok hnext).trans ((ih (h.position point)).trans ?_)
          rw [hpush, Resolved, hreach, Nat.add_right_comm]
          exact and_congr_right' (and_iff_right nofun).symm
      | @face _ _ _ face words hi hj hk =>
          have hreach : reach (.face face :: items) = reach items := rfl
          rw [Resolved, hreach]
          by_cases hsmall : ∀ n ∈ face.toList, n < 2 ^ 63
          · have hnext := stepLine_of_read library assembly (read_face words hi hj hk hsmall)
            have hown : (∀ n ∈ face.toList,
                n < 2 ^ 63 ∧ n ≤ assembly.positions.size + reach items) ↔
                  ∀ n ∈ face.toList, n ≤ assembly.positions.size + reach items :=
              forall₂_congr fun n hn => and_iff_right (hsmall n hn)
            rw [Assembly.finishes_cons_of_ok hnext, ih (h.face hi.pos hj.pos hk.pos),
              List.forall_mem_append, List.forall_mem_singleton, and_assoc, ← hown]
            rfl
          · have hrefused := read_face_of_large words hi hj hk hsmall
            refine iff_of_false (Assembly.not_finishes_of_read hrefused) ?_
            exact fun ⟨_, hown, _⟩ => hsmall fun n hn => (hown n hn).1
      | part words =>
          obtain ⟨text, hread⟩ := exists_read_part words
          rw [Resolved]
          refine (h.finishes_part_iff hread (Resolved · items) fun next hnext => ?_).trans
            (and_congr_right' (and_iff_right nofun).symm)
          exact (ih hnext).trans (and_iff_right nofun)

/-! ## Readings of plain texts -/

theorem mem_facesOf_cons {item : Item} {items : List Item} {face : Corners ℕ} :
    face ∈ facesOf (item :: items) ↔ item = .face face ∨ face ∈ facesOf items := by
  simp only [facesOf, List.mem_filterMap, List.exists_mem_cons_iff]
  refine or_congr_left ?_
  cases item <;> simp [Item.face?]

theorem pos_of_mem_facesOf {lines : List (List Char)} {items : List Item}
    (hsaid : List.Forall₂ Says lines items) {face : Corners ℕ} (hface : face ∈ facesOf items)
    {n : ℕ} (hn : n ∈ face.toList) : 0 < n := by
  induction hsaid with
  | nil => exact absurd hface List.not_mem_nil
  | cons hsaid _ ih =>
      rcases mem_facesOf_cons.mp hface with rfl | hface
      · cases hsaid with
        | face words hi hj hk =>
            simp only [Corners.toList, List.mem_cons, List.not_mem_nil, or_false] at hn
            rcases hn with rfl | rfl | rfl
            · exact hi.pos
            · exact hj.pos
            · exact hk.pos
      · exact ih hface

theorem number_lt_of_resolved {count : ℕ} {items : List Item} (h : Resolved count items)
    {face : Corners ℕ} (hface : face ∈ facesOf items) {n : ℕ} (hn : n ∈ face.toList) :
    n < 2 ^ 63 := by
  induction items generalizing count with
  | nil => exact absurd hface List.not_mem_nil
  | cons item items ih =>
      obtain ⟨hown, hrest⟩ := h
      rcases mem_facesOf_cons.mp hface with rfl | hface
      · exact (hown n hn).1
      · exact ih hrest hface

theorem fan_written (count : ℕ) {face : Corners ℕ} (hfirst : 0 < face.first)
    (hsecond : 0 < face.second) (hthird : 0 < face.third) :
    (fan (face.toList.map writtenCorner)).map
      (Corners.map fun corner => placeOf count corner.vertex) = [face.map plainPlace] := by
  simp only [Corners.toList, List.map_cons, List.map_nil, fan, List.tail_cons, List.zip_cons_cons,
    List.zip_nil_right, Corners.map, placeOf_written _ hfirst, placeOf_written _ hsecond,
    placeOf_written _ hthird]

theorem foldl_stepLine_plain {lines : List (List Char)} {items : List Item}
    (hsaid : List.Forall₂ Says lines items) (reading : Reading) :
    ((lines.map some).foldl Reading.stepLine reading).positions.toList =
        reading.positions.toList ++ verticesOf items ∧
      ((∀ face ∈ facesOf items, ∀ n ∈ face.toList, n < 2 ^ 63) →
        ((lines.map some).foldl Reading.stepLine reading).triangles =
          reading.triangles ++ (facesOf items).map (Corners.map plainPlace)) := by
  induction hsaid generalizing reading with
  | nil => exact ⟨(List.append_nil _).symm, fun _ => (List.append_nil _).symm⟩
  | @cons line item lines items hsaid _ ih =>
      rw [List.map_cons, List.foldl_cons]
      have hread {statement : Statement} (h : Statement.read line = .ok statement) :
          reading.stepLine (some line) = reading.step statement := by
        rw [Reading.stepLine, Statement.ofLine, h]
      cases hsaid with
      | blank words =>
          rw [hread (read_blank words)]
          exact ih reading
      | @vertex _ _ _ point words hx hy hz =>
          obtain ⟨hpositions, htriangles⟩ := ih (reading.step (.position point 0))
          rw [hread (read_vertex words hx hy hz), hpositions]
          refine ⟨?_, htriangles⟩
          rw [Reading.step, Array.toList_push, List.append_assoc]
          rfl
      | @face _ _ _ face words hi hj hk =>
          by_cases hsmall : ∀ n ∈ face.toList, n < 2 ^ 63
          · obtain ⟨hpositions, htriangles⟩ :=
              ih (reading.step (.face (face.toList.map writtenCorner)))
            rw [hread (read_face words hi hj hk hsmall), hpositions]
            refine ⟨rfl, fun hall => ?_⟩
            rw [htriangles fun other hother => hall other (List.mem_cons_of_mem face hother),
              Reading.step, fan_written _ hi.pos hj.pos hk.pos, List.append_assoc]
            rfl
          · have hskip : reading.stepLine (some line) = reading := by
              rw [Reading.stepLine, Statement.ofLine, read_face_of_large words hi hj hk hsmall]
            rw [hskip]
            exact ⟨(ih reading).1, fun hall => absurd (hall face List.mem_cons_self) hsmall⟩
      | part words =>
          obtain ⟨text, hpart⟩ := exists_read_part words
          rw [hread hpart]
          exact ih reading

end DepthRaster.Obj
