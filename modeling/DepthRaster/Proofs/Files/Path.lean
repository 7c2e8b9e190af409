import DepthRaster.Files.Path
import DepthRaster.Proofs.Lists
/-!
# Extensions of paths

A path that ends in a dot and a suffix has no other extension than the suffix, whatever comes before
the dot: separators, more dots or nothing at all.
-/

namespace DepthRaster.Files.Path

/-- What is added to a list without separators goes to the last of its parts. -/
theorem exists_splitOn_append (a : Char) (cs : List Char) :
    ∃ before last, ∀ tail, a ∉ tail → (cs ++ tail).splitOn a = before ++ [last ++ tail] := by
  induction cs with
  | nil => exact ⟨[], [], fun tail htail => List.splitOn_eq_singleton htail⟩
  | cons c cs ih =>
      obtain ⟨before, last, hsplit⟩ := ih
      by_cases hc : (c == a) = true
      · refine ⟨[] :: before, last, fun tail htail => ?_⟩
        rw [List.cons_append, List.splitOn_cons_eq_if_modifyHead, if_pos hc, hsplit tail htail]
        rfl
      · cases before with
        | nil =>
            refine ⟨[], c :: last, fun tail htail => ?_⟩
            rw [List.cons_append, List.splitOn_cons_eq_if_modifyHead, if_neg hc, hsplit tail htail]
            rfl
        | cons part before =>
            refine ⟨(c :: part) :: before, last, fun tail htail => ?_⟩
            rw [List.cons_append, List.splitOn_cons_eq_if_modifyHead, if_neg hc, hsplit tail htail]
            rfl

theorem getLast?_components {p : Path} {name : String} (hname : p.names.getLast? = some name)
    (hdot : name ≠ ".") : p.components.getLast? = some name := by
  obtain ⟨before, hnames⟩ := List.getLast?_eq_some_iff.mp hname
  rw [components, hnames]
  cases before with
  | nil => simp [hdot]
  | cons first before =>
      have hrest : (before ++ [name]).filter (· ≠ ".") = before.filter (· ≠ ".") ++ [name] := by
        simp [hdot]
      simp only [List.cons_append, hrest]
      split_ifs
      · exact List.getLast?_concat
      · rw [← List.cons_append]
        exact List.getLast?_concat

variable {p : Path} {start suffix : List Char}

/-- The last name keeps the dot and the suffix that the path ends in. -/
theorem exists_getLast?_names (htext : p.text.toList = start ++ '.' :: suffix)
    (hfree : separator ∉ suffix) :
    ∃ stem, p.names.getLast? = some (String.ofList (stem ++ '.' :: suffix)) := by
  obtain ⟨before, last, hsplit⟩ := exists_splitOn_append separator start
  have hkept : (before ++ [last ++ '.' :: suffix]).filter (· ≠ []) =
      before.filter (· ≠ []) ++ [last ++ '.' :: suffix] := by simp
  refine ⟨last, ?_⟩
  rw [names, htext, hsplit _ (by simpa [separator] using hfree), hkept, List.map_append]
  exact List.getLast?_concat

theorem extension?_eq (htext : p.text.toList = start ++ '.' :: suffix) (hsuffix : suffix ≠ [])
    (hseparator : separator ∉ suffix) (hdot : '.' ∉ suffix) {extension : String}
    (h : p.extension? = some extension) : extension = String.ofList suffix := by
  obtain ⟨stem, hlast⟩ := exists_getLast?_names htext hseparator
  have hne : String.ofList (stem ++ '.' :: suffix) ≠ "." := by
    intro heq
    have hlength : (stem ++ '.' :: suffix).length = 1 := by
      rw [← String.toList_ofList (l := stem ++ '.' :: suffix), heq]
      rfl
    have hpos := List.length_pos_of_ne_nil hsuffix
    rw [List.length_append, List.length_cons] at hlength
    omega
  obtain ⟨name, hname, hextension⟩ := Option.bind_eq_some_iff.mp h
  have hfile : name = String.ofList (stem ++ '.' :: suffix) := by
    rw [fileName?, getLast?_components hlast hne] at hname
    simp only at hname
    split_ifs at hname
    exact (Option.some.inj hname).symm
  have hreverse : name.toList.reverse = suffix.reverse ++ '.' :: stem.reverse := by
    rw [hfile, String.toList_ofList]
    simp
  have hrun : name.toList.reverse.takeWhile (· ≠ '.') = suffix.reverse := by
    rw [hreverse]
    refine takeWhile_run (fun c hc => ?_) (by simp)
    have hne : c ≠ '.' := ne_of_mem_of_not_mem (List.mem_reverse.mp hc) hdot
    simpa using hne
  simp only [hrun, List.reverse_reverse] at hextension
  split_ifs at hextension
  exact (Option.some.inj hextension).symm

end DepthRaster.Files.Path
