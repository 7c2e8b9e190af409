import DepthRaster.Proofs.Toml.Grammar
import DepthRaster.Text.Quoted
/-!
# Quoted texts as strings

A quoted text is a string of the language as long as none of its characters is given by number. The
numbers of the two notations look different. What is spelled right is read as its text, and what is
not is refused.
-/

namespace DepthRaster

open Text (isPrintable)

theorem Text.not_mem_of_contains_eq_false {ranges : Text.Ranges} {c : Char}
    (h : ranges.contains c = false) {first last : Nat} (hmem : (first, last) ∈ ranges) :
    ¬ (first ≤ c.toNat ∧ c.toNat ≤ last) := by
  simpa using List.any_eq_false.mp h (first, last) hmem

namespace Text.Quoted

/-- Characters that stand as they are between quotation marks, or have a letter there that TOML
knows. -/
def IsPlain (c : Char) : Prop :=
  escape c = [c] ∨ c = '"' ∨ c = '\\' ∨ c = '\n' ∨ c = '\r' ∨ c = '\t'

instance (c : Char) : Decidable (IsPlain c) :=
  inferInstanceAs (Decidable (escape c = [c] ∨ c = '"' ∨ c = '\\' ∨ c = '\n' ∨ c = '\r' ∨ c = '\t'))

theorem isPrintable_of_escape {c : Char} (h : escape c = [c]) :
    isPrintable c = true ∧ c ≠ '"' ∧ c ≠ '\\' := by
  refine ⟨?_, ?_, ?_⟩
  · unfold escape at h
    split at h
    case h_7 =>
      split at h
      · assumption
      · simp at h
    all_goals simp at h
  · rintro rfl
    exact absurd h (by decide)
  · rintro rfl
    exact absurd h (by decide)

end Text.Quoted

namespace Toml

open Text.Quoted

/-! ## Spelling -/

/-- Among the characters that do not show are all controls. -/
theorem isTextChar_of_isPrintable {c : Char} (h : isPrintable c = true) : isTextChar c = true := by
  simp only [isPrintable, Bool.or_eq_true, Bool.and_eq_true, decide_eq_true_eq, Bool.not_eq_true']
    at h
  simp only [isTextChar, Bool.or_eq_true, Bool.and_eq_true, decide_eq_true_eq, bne_iff_ne]
  right
  rcases h with ⟨hlow, hhigh⟩ | ⟨hshown, -⟩
  · refine ⟨hlow, ?_⟩
    rintro rfl
    exact absurd hhigh (by decide)
  · have hcontrol := Text.not_mem_of_contains_eq_false hshown (.head _)
    have hdelete := Text.not_mem_of_contains_eq_false hshown (.tail _ (.head _))
    constructor
    · rw [Char.le_def, UInt32.le_iff_toNat_le]
      change 32 ≤ c.toNat
      omega
    · rintro rfl
      exact absurd hdelete (by decide)

theorem Spells.escape {c : Char} {body text : List Char} (h : IsPlain c) (rest : Spells body text) :
    Spells (escape c ++ body) (c :: text) := by
  rcases h with h | rfl | rfl | rfl | rfl | rfl
  · obtain ⟨hshown, hquote, hslash⟩ := isPrintable_of_escape h
    rw [h]
    exact .plain (isTextChar_of_isPrintable hshown) hquote hslash rest
  · exact .escaped rfl rest
  · exact .escaped rfl rest
  · exact .escaped rfl rest
  · exact .escaped rfl rest
  · exact .escaped rfl rest

theorem spells_flatMap_escape {cs : List Char} (h : ∀ c ∈ cs, IsPlain c) :
    Spells (cs.flatMap escape) cs := by
  induction cs with
  | nil => exact .nil
  | cons c cs ih =>
      exact .escape (h c List.mem_cons_self) (ih fun d hd => h d (List.mem_cons_of_mem c hd))

theorem exists_isBadEscape {c : Char} (h : ¬ IsPlain c) (more : List Char) :
    ∃ rest, escape c ++ more = '\\' :: rest ∧ IsBadEscape rest := by
  have hescape : escape c ≠ [c] := fun heq => h (.inl heq)
  unfold escape at hescape ⊢
  split
  case h_1 => exact absurd (by decide) h
  case h_2 => exact absurd (by decide) h
  case h_3 => exact absurd (by decide) h
  case h_4 => exact absurd (by decide) h
  case h_5 => exact absurd (by decide) h
  case h_6 => exact ⟨_, rfl, .letter (by decide) (by decide) (by decide)⟩
  case h_7 =>
      split
      · simp_all
      · exact ⟨_, rfl, .number (by decide)⟩

theorem misspells_flatMap_escape {cs : List Char} (h : ∃ c ∈ cs, ¬ IsPlain c) :
    Misspells (cs.flatMap escape) := by
  induction cs with
  | nil =>
      obtain ⟨c, hc, -⟩ := h
      exact absurd hc List.not_mem_nil
  | cons c cs ih =>
      by_cases hplain : IsPlain c
      · have hcs : ∃ d ∈ cs, ¬ IsPlain d := by
          obtain ⟨d, hd, hno⟩ := h
          rcases List.mem_cons.mp hd with rfl | hd
          · exact absurd hplain hno
          · exact ⟨d, hd, hno⟩
        obtain ⟨start, text, rest, hstart, hbad, heq⟩ := ih hcs
        refine ⟨escape c ++ start, c :: text, rest, hstart.escape hplain, hbad, ?_⟩
        rw [List.flatMap_cons, heq, List.append_assoc]
      · obtain ⟨rest, heq, hbad⟩ := exists_isBadEscape hplain (cs.flatMap escape)
        exact ⟨[], [], rest, .nil, hbad, heq⟩

/-! ## Reading -/

theorem basicBody_plain {c : Char} (htext : isTextChar c = true) (hquote : c ≠ '"')
    (hslash : c ≠ '\\') (cs : List Char) : basicBody (c :: cs) = cons c (basicBody cs) := by
  rw [basicBody]
  · simp [htext, hslash]
  · exact hquote
  · exact fun _ _ _ _ _ hc _ => hslash hc
  · exact fun _ _ _ _ _ _ _ _ _ hc _ => hslash hc
  · exact fun _ _ hc _ => hslash hc

theorem basicBody_letter {letter : Char} (hshort : letter ≠ 'u') (hlong : letter ≠ 'U')
    (cs : List Char) :
    basicBody ('\\' :: letter :: cs) = (escaped? letter).bind fun c => cons c (basicBody cs) := by
  rw [basicBody]
  · rfl
  · exact fun _ _ _ _ _ heq _ => hshort heq
  · exact fun _ _ _ _ _ _ _ _ _ heq _ => hlong heq

theorem basicBody_of_spells {body text : List Char} (h : Spells body text) (rest : List Char) :
    basicBody (body ++ rest) = (basicBody rest).map fun (cs, after) => (text ++ cs, after) := by
  induction h with
  | nil => exact Option.map_id'.symm
  | plain hc hquote hslash _ ih =>
      rw [List.cons_append, basicBody_plain hc hquote hslash, ih, cons, Option.map_map]
      rfl
  | @escaped letter c body text h _ ih =>
      have hletter (mark : Char) (hmark : escaped? mark = none) : letter ≠ mark := by
        rintro rfl
        exact absurd (h.symm.trans hmark) nofun
      rw [List.cons_append, List.cons_append, basicBody_letter (hletter 'u' rfl) (hletter 'U' rfl),
        h, Option.bind_some, ih, cons, Option.map_map]
      rfl

theorem basicBody_of_isBadEscape {rest : List Char} (h : IsBadEscape rest) (more : List Char) :
    basicBody ('\\' :: (rest ++ more)) = none := by
  cases h with
  | letter h hshort hlong =>
      rw [List.cons_append, basicBody_letter hshort hlong, h]
      rfl
  | @number c rest h =>
      -- Four digits are looked at together, if so many characters are left.
      rw [List.cons_append, List.cons_append]
      match rest ++ more with
      | [] => simp [basicBody, escaped?]
      | [_] => simp [basicBody, escaped?]
      | [_, _] => simp [basicBody, escaped?]
      | _ :: _ :: _ :: _ => simp [basicBody, scalar?, h]

theorem basicBody_of_misspells {body : List Char} (h : Misspells body) (more : List Char) :
    basicBody (body ++ more) = none := by
  obtain ⟨start, text, rest, hstart, hbad, rfl⟩ := h
  rw [List.append_assoc, List.cons_append, basicBody_of_spells hstart,
    basicBody_of_isBadEscape hbad]
  rfl

theorem Spells.head?_ne {body text : List Char} (h : Spells body text) :
    body.head? ≠ some '"' := by
  cases h with
  | nil => exact nofun
  | plain hc hquote => exact fun heq => hquote (Option.some.inj heq)
  | escaped => exact fun heq => absurd (Option.some.inj heq) (by decide)

theorem Misspells.exists_cons {body : List Char} (h : Misspells body) :
    ∃ c cs, body = c :: cs ∧ c ≠ '"' := by
  obtain ⟨start, text, rest, hstart, -, rfl⟩ := h
  cases start with
  | nil => exact ⟨'\\', rest, rfl, by decide⟩
  | cons c cs => exact ⟨c, _, rfl, fun heq => hstart.head?_ne (congrArg some heq)⟩

theorem readString_of_head? {cs : List Char}
    (h : ∀ rest, cs ≠ '"' :: '"' :: rest) : readString ('"' :: cs) = basicBody cs := by
  rw [readString]
  exact h

end Toml

end DepthRaster
