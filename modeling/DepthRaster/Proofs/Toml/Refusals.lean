import DepthRaster.Proofs.Toml.Lines
/-!
# Texts that are refused

A line whose value cannot be read ends the reading of its document.
-/

namespace DepthRaster.Toml

namespace Line

theorem readLines_of_isBroken {line : Line} (h : line.IsBroken) (fuel : Nat) (p : Progress)
    (rest : List Char) : readLines (fuel + 1) p (line.chars ++ rest) = none := by
  cases line with
  | pair key text value =>
      obtain ⟨hkey, htext⟩ := h
      rw [chars_pair_append, readLines_key_append hkey, readLine]
      · rw [readPair_of_start hkey htext.isRefused.start, htext.isRefused.read]
        rfl
      · exact fun more heq => hkey.append_ne_cons (by decide) _ _ heq
      · exact fun more heq => hkey.append_ne_cons (by decide) _ _ heq
  | header title => exact absurd h id
  | comment text => exact absurd h id
  | blank => exact absurd h id

/-- Reading gets to the first broken line, if it gets so far, and no further. -/
theorem readLines_eq_none {lines : List Line}
    (h : ∀ line ∈ lines, line.IsWellFormed ∨ line.IsBroken)
    (hbroken : ∃ line ∈ lines, line.IsBroken) (fuel : Nat) (p : Progress) :
    readLines fuel p (lines.flatMap chars) = none := by
  induction lines generalizing fuel p with
  | nil =>
      obtain ⟨line, hline, -⟩ := hbroken
      exact absurd hline List.not_mem_nil
  | cons line lines ih =>
      cases fuel with
      | zero => rw [readLines]
      | succ fuel =>
          rw [List.flatMap_cons]
          by_cases hfirst : line.IsBroken
          · exact readLines_of_isBroken hfirst fuel p _
          · have hline := (h line List.mem_cons_self).resolve_right hfirst
            have hrest : ∃ other ∈ lines, other.IsBroken := by
              obtain ⟨other, hother, hno⟩ := hbroken
              rcases List.mem_cons.mp hother with rfl | hother
              · exact absurd hno hfirst
              · exact ⟨other, hother, hno⟩
            rw [readLines_chars line hline]
            cases line.apply p with
            | none => rfl
            | some q => exact ih (fun l hl => h l (List.mem_cons_of_mem line hl)) hrest fuel q

end Line

/-- A text of lines is no document when one of them is broken. -/
theorem refuses_parse : Refuses parse := by
  intro text lines htext h hbroken
  rw [parse, Line.dropMark_of_lines htext h, htext, Line.readLines_eq_none h hbroken]
  rfl

end DepthRaster.Toml
