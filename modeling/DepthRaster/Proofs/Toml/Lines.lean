import DepthRaster.Proofs.Toml.Numbers
/-!
# Documents line by line

A document of headers, keys with values, comments and blank lines is read one line after the other.
-/

namespace DepthRaster.Toml

theorem Denotes.readsAs {text : List Char} {value : Value} (h : Denotes text value) :
    ReadsAs text value := by
  have hdigits (n : Nat) (c : Char) (hc : c ∈ Nat.toDigits 10 n) : isAtomChar c = true :=
    isAtomChar_of_isDigit (Numeric.Whole.isDigit_of_mem_toDigits hc)
  cases h with
  | string h => exact readsAs_string h
  | @integer n h => exact readsAs_word Nat.toDigits_ne_nil (hdigits n) (atom?_toDigits h)
  | float h => exact readsAs_asLiteral_of_isNaN_eq_false h
  | yes => exact readsAs_word (by decide) (List.all_eq_true.mp rfl) rfl
  | no => exact readsAs_word (by decide) (List.all_eq_true.mp rfl) rfl

theorem DenotesNothing.isRefused {text : List Char} (h : DenotesNothing text) :
    IsRefused text := by
  cases h with
  | string h => exact isRefused_string h
  | @integer n h =>
      refine isRefused_word Nat.toDigits_ne_nil (fun c hc => ?_) (atom?_toDigits_of_le h)
      exact isAtomChar_of_isDigit (Numeric.Whole.isDigit_of_mem_toDigits hc)
  | word hne hletters h =>
      exact isRefused_word hne (fun c hc => isAtomChar_of_isAlpha (hletters c hc))
        (atom?_of_isAlpha hne hletters h)

/-- Values of one line stand for no date. -/
theorem Denotes.settle_eq {text : List Char} {value : Value} (h : Denotes text value) :
    value.settle = some value := by
  cases h <;> rfl

/-! ## Lines -/

theorem dropSpaces_of_head? {cs : List Char} (h : ∀ c, cs.head? = some c → isSpace c = false) :
    dropSpaces cs = cs := by
  exact dropWhile_run (p := isSpace) (List.forall_mem_nil _) h

namespace IsBareKey

variable {key : List Char}

theorem head?_append (h : IsBareKey key) {mark : Char} (hmark : isKeyChar mark = false)
    (rest : List Char) : (key ++ rest).head? ≠ some mark := by
  cases key with
  | nil => exact absurd rfl h.ne_nil
  | cons c cs =>
      intro heq
      obtain rfl : c = mark := Option.some.inj heq
      rw [h.chars c List.mem_cons_self] at hmark
      exact Bool.false_ne_true hmark.symm

theorem append_ne_cons (h : IsBareKey key) {mark : Char} (hmark : isKeyChar mark = false)
    (rest more : List Char) : key ++ rest ≠ mark :: more :=
  fun heq => h.head?_append hmark rest (congrArg List.head? heq)

theorem dropSpaces_append (h : IsBareKey key) (rest : List Char) :
    dropSpaces (key ++ rest) = key ++ rest := by
  refine dropSpaces_of_head? fun c hc => ?_
  cases hspace : isSpace c with
  | false => rfl
  | true =>
      simp only [isSpace, Bool.or_eq_true, decide_eq_true_eq] at hspace
      rcases hspace with rfl | rfl
      · exact absurd hc (h.head?_append (by decide) rest)
      · exact absurd hc (h.head?_append (by decide) rest)

theorem readSimpleKey_append (h : IsBareKey key) {rest : List Char}
    (hrest : ∀ c, rest.head? = some c → isKeyChar c = false) :
    readSimpleKey (key ++ rest) = some (String.ofList key, rest) := by
  rw [readSimpleKey]
  · simp only [takeWhile_run h.chars hrest, dropWhile_run h.chars hrest, List.isEmpty_iff]
    rw [if_neg h.ne_nil]
  · exact h.append_ne_cons (by decide) rest
  · exact h.append_ne_cons (by decide) rest

/-- A key of one part ends before what follows it and its spaces. -/
theorem readKey_append (h : IsBareKey key) {rest : List Char}
    (hrest : ∀ c, rest.head? = some c → isKeyChar c = false)
    (hpoint : (dropSpaces rest).head? ≠ some '.') :
    readKey (key ++ rest) = some (([], String.ofList key), dropSpaces rest) := by
  have hparts : readKeyParts maxNesting (key ++ rest) =
      some ([String.ofList key], dropSpaces rest) := by
    rw [maxNesting, readKeyParts, h.dropSpaces_append, h.readSimpleKey_append hrest]
    simp only [Option.bind_eq_bind, Option.bind_some]
    split
    · rename_i heq
      exact absurd (congrArg List.head? heq) hpoint
    · rfl
  rw [readKey, hparts]
  rfl

end IsBareKey

namespace Line

def apply (p : Progress) : Line → Option Progress
  | header title => p.openTable [] (String.ofList title)
  | pair key _ value => p.add [] (String.ofList key) value
  | comment _ => some p
  | blank => some p

theorem takeLineEnd_newline (rest : List Char) : takeLineEnd ('\n' :: rest) = some rest := rfl

theorem takeLineEnd_comment {text : List Char} (h : ∀ c ∈ text, isTextChar c = true)
    (rest : List Char) : takeLineEnd ('#' :: (text ++ '\n' :: rest)) = some rest := by
  have hstop : ∀ c, ('\n' :: rest).head? = some c → isTextChar c = false := by
    intro c hc
    obtain rfl : '\n' = c := Option.some.inj hc
    decide
  change (if ((text ++ '\n' :: rest).dropWhile isTextChar).isEmpty then some [] else
    takeNewline ((text ++ '\n' :: rest).dropWhile isTextChar)) = some rest
  rw [dropWhile_run h hstop]
  rfl

theorem readLines_of_start {c : Char} (hstart : c ∉ [' ', '\t', '#', '\n', '\r']) (fuel : Nat)
    (p : Progress) (cs : List Char) :
    readLines (fuel + 1) p (c :: cs) =
      (readLine p (c :: cs)).bind fun (q, rest) => readLines fuel q rest := by
  simp only [List.mem_cons, List.not_mem_nil, or_false, not_or] at hstart
  obtain ⟨hblank, htab, hcomment, hline, hreturn⟩ := hstart
  have hspaces : dropSpaces (c :: cs) = c :: cs :=
    List.dropWhile_cons_of_neg (by simp [isSpace, hblank, htab])
  have hnewline : takeNewline (c :: cs) = none := by
    rw [takeNewline]
    · exact fun rest heq => hline (List.cons.inj heq).1
    · exact fun rest heq => hreturn (List.cons.inj heq).1
  rw [readLines, hspaces]
  split
  · rename_i heq
    exact absurd heq (List.cons_ne_nil c cs)
  · rename_i heq
    exact absurd (List.cons.inj heq).1 hcomment
  · rename_i heq
    rw [← heq, hnewline]
    rfl

theorem readLine_header {title : List Char} (h : IsBareKey title) (p : Progress)
    (rest : List Char) :
    readLine p ('[' :: (title ++ ']' :: '\n' :: rest)) =
      (p.openTable [] (String.ofList title)).map fun q => (q, rest) := by
  have hkey : readKey (title ++ ']' :: '\n' :: rest) =
      some (([], String.ofList title), ']' :: '\n' :: rest) := by
    refine h.readKey_append ?_ (by simp [dropSpaces, isSpace])
    intro c hc
    obtain rfl : ']' = c := Option.some.inj hc
    decide
  rw [readLine]
  · rw [hkey]
    simp only [Option.bind_eq_bind, Option.bind_some, takeLineEnd_newline]
    cases p.openTable [] (String.ofList title) with
    | none => rfl
    | some q => rfl
  · exact fun more heq => h.append_ne_cons (by decide) _ _ heq

theorem readPair_of_start {key text : List Char} (hkey : IsBareKey key)
    (hstart : ∀ c, text.head? = some c → isSpace c = false) (rest : List Char) :
    readPair (readValue maxNesting) (key ++ ' ' :: '=' :: ' ' :: (text ++ '\n' :: rest)) =
      (readValue maxNesting (text ++ '\n' :: rest)).map fun (value, rest) =>
        ((([], String.ofList key), value), dropSpaces rest) := by
  have hread : readKey (key ++ ' ' :: '=' :: ' ' :: (text ++ '\n' :: rest)) =
      some (([], String.ofList key), '=' :: ' ' :: (text ++ '\n' :: rest)) := by
    refine hkey.readKey_append ?_ (by simp [dropSpaces, isSpace])
    intro c hc
    obtain rfl : ' ' = c := Option.some.inj hc
    decide
  have hspaces : dropSpaces (' ' :: (text ++ '\n' :: rest)) = text ++ '\n' :: rest := by
    have hstart : ∀ c, (text ++ '\n' :: rest).head? = some c → isSpace c = false := by
      cases text with
      | nil =>
          intro c hc
          obtain rfl : '\n' = c := Option.some.inj hc
          decide
      | cons d ds => exact hstart
    exact dropSpaces_of_head? hstart
  rw [readPair, hread]
  simp only [Option.bind_eq_bind, Option.bind_some, hspaces]
  cases readValue maxNesting (text ++ '\n' :: rest) with
  | none => rfl
  | some found => rfl

theorem readPair_append {key text : List Char} {value : Value} (hkey : IsBareKey key)
    (htext : ReadsAs text value) (rest : List Char) :
    readPair (readValue maxNesting) (key ++ ' ' :: '=' :: ' ' :: (text ++ '\n' :: rest)) =
      some ((([], String.ofList key), value), '\n' :: rest) := by
  rw [readPair_of_start hkey htext.start, htext.read]
  rfl

theorem readLine_pair {key text : List Char} {value : Value} (hkey : IsBareKey key)
    (htext : ReadsAs text value) (p : Progress) (rest : List Char) :
    readLine p (key ++ ' ' :: '=' :: ' ' :: (text ++ '\n' :: rest)) =
      (p.add [] (String.ofList key) value).map fun q => (q, rest) := by
  rw [readLine]
  · rw [readPair_append hkey htext]
    simp only [Option.bind_eq_bind, Option.bind_some, takeLineEnd_newline]
    cases p.add [] (String.ofList key) value with
    | none => rfl
    | some q => rfl
  · exact fun more heq => hkey.append_ne_cons (by decide) _ _ heq
  · exact fun more heq => hkey.append_ne_cons (by decide) _ _ heq

theorem chars_pair_append (key text : List Char) (value : Value) (rest : List Char) :
    (pair key text value).chars ++ rest =
      key ++ ' ' :: '=' :: ' ' :: (text ++ '\n' :: rest) := by
  simp [chars]

theorem readLines_key_append {key : List Char} (hkey : IsBareKey key) (fuel : Nat) (p : Progress)
    (rest : List Char) :
    readLines (fuel + 1) p (key ++ rest) =
      (readLine p (key ++ rest)).bind fun (q, rest) => readLines fuel q rest := by
  cases key with
  | nil => exact absurd rfl hkey.ne_nil
  | cons c cs =>
      have hstart : c ∉ [' ', '\t', '#', '\n', '\r'] := by
        intro hmem
        have hc := hkey.chars c List.mem_cons_self
        simp only [List.mem_cons, List.not_mem_nil, or_false] at hmem
        rcases hmem with rfl | rfl | rfl | rfl | rfl <;> exact absurd hc (by decide)
      rw [List.cons_append]
      exact readLines_of_start hstart fuel p _

theorem readLines_chars (line : Line) (h : line.IsWellFormed) (fuel : Nat) (p : Progress)
    (rest : List Char) :
    readLines (fuel + 1) p (line.chars ++ rest) =
      (line.apply p).bind fun p => readLines fuel p rest := by
  cases line with
  | header title =>
      have hline := readLine_header h p rest
      rw [chars, List.cons_append, List.append_assoc, List.cons_append, List.singleton_append,
        readLines_of_start (by decide), hline, apply, Option.bind_map]
      rfl
  | pair key text value =>
      obtain ⟨hkey, htext⟩ := h
      rw [chars_pair_append, readLines_key_append hkey, readLine_pair hkey htext.readsAs, apply,
        Option.bind_map]
      rfl
  | comment text =>
      rw [chars, List.cons_append, List.append_assoc]
      change (takeLineEnd ('#' :: (text ++ '\n' :: rest))).bind (readLines fuel p) = _
      rw [takeLineEnd_comment h]
      rfl
  | blank => rfl

theorem head?_chars_append {line : Line} (h : line.IsWellFormed ∨ line.IsBroken)
    (rest : List Char) : (line.chars ++ rest).head? ≠ some '\uFEFF' := by
  cases line with
  | header title => simp [chars]
  | pair key text value =>
      have hkey : IsBareKey key := h.elim And.left And.left
      rw [chars_pair_append]
      exact hkey.head?_append (by decide) _
  | comment text => simp [chars]
  | blank => simp [chars]

theorem dropMark_of_lines {cs : List Char} {lines : List Line} (hcs : cs = lines.flatMap chars)
    (h : ∀ line ∈ lines, line.IsWellFormed ∨ line.IsBroken) : dropMark cs = cs := by
  rw [dropMark]
  intro rest heq
  cases lines with
  | nil => simp [hcs] at heq
  | cons line lines =>
      rw [hcs, List.flatMap_cons] at heq
      exact head?_chars_append (h line List.mem_cons_self) _ (congrArg List.head? heq)

theorem readLines_flatMap {lines : List Line} (h : ∀ line ∈ lines, line.IsWellFormed) {fuel : Nat}
    (hfuel : lines.length < fuel) (p : Progress) :
    readLines fuel p (lines.flatMap chars) = lines.foldlM apply p := by
  induction lines generalizing fuel p with
  | nil =>
      obtain ⟨fuel, rfl⟩ := Nat.exists_eq_succ_of_ne_zero (Nat.ne_of_gt hfuel)
      rfl
  | cons line lines ih =>
      obtain ⟨fuel, rfl⟩ := Nat.exists_eq_succ_of_ne_zero (Nat.ne_of_gt (Nat.zero_lt_of_lt hfuel))
      have hline := h line List.mem_cons_self
      have hlines (l : Line) (hl : l ∈ lines) : l.IsWellFormed :=
        h l (List.mem_cons_of_mem line hl)
      rw [List.flatMap_cons, readLines_chars line hline, List.foldlM_cons]
      congr 1
      funext q
      exact ih hlines (Nat.lt_of_succ_lt_succ hfuel) q

theorem chars_ne_nil (line : Line) : line.chars ≠ [] := by
  cases line with
  | pair key text value => simp [chars]
  | header title => exact List.cons_ne_nil _ _
  | comment text => exact List.cons_ne_nil _ _
  | blank => exact List.cons_ne_nil _ _

/-- A text of lines is read as what its lines add, one after the other. -/
theorem parse_of_lines {text : String} {lines : List Line}
    (htext : text.toList = lines.flatMap chars) (h : ∀ line ∈ lines, line.IsWellFormed) :
    parse text = (lines.foldlM apply {}).bind fun p => (Value.table .header p.entries).settle := by
  have hmark := dropMark_of_lines htext fun line hline => .inl (h line hline)
  have hfuel : lines.length ≤ (lines.flatMap chars).length :=
    length_le_length_flatMap fun line _ => chars_ne_nil line
  have hread := readLines_flatMap h (Nat.lt_succ_of_le hfuel) {}
  rw [parse, hmark, htext, hread]
  rfl

end Line

end DepthRaster.Toml
