import DepthRaster.Proofs.Obj.Plain
/-!
# Plain texts that are refused

A plain text is refused for a number with more than 63 bits or for a vertex that is not there, and
for nothing else.
-/

namespace DepthRaster.Obj

/-- The causes to refuse a plain text: a vertex that is not there, and a number with more than 63
bits if the text has one. -/
def ObjError.ComesFrom (items : List Item) (cause : ObjError) : Prop :=
  cause = .vertexOutOfBounds ∨
    cause = .face ∧ ∃ face ∈ facesOf items, ¬ ∀ n ∈ face.toList, n < 2 ^ 63

namespace Assembly

variable {assembly next : Assembly} {cause : ObjError} {numbers : List (Mesh.Corners ℕ)}

theorem useCorner_error (hchannels : assembly.channels = 0) {n : ℕ} {draft : Draft}
    (h : assembly.useCorner draft (plainCorner n) = .error cause) : cause = .vertexOutOfBounds := by
  have hvertex : assembly.useVertex draft (plainPlace n) = .error cause := by
    rcases bind_eq_error.mp h with h | ⟨draft', -, h⟩
    · exact h
    · cases h
  rw [useVertex] at hvertex
  split at hvertex
  · exact (Except.error.inj hvertex).symm
  · split at hvertex
    · cases hvertex
    · split at hvertex
      · exact (Except.error.inj hvertex).symm
      · rw [hchannels, if_neg (by omega)] at hvertex
        cases hvertex

theorem useFace_error (hchannels : assembly.channels = 0) {face : Mesh.Corners ℕ} {draft : Draft}
    (h : assembly.useFace draft (face.toList.map plainCorner) = .error cause) :
    cause = .vertexOutOfBounds := by
  rw [useFace, if_neg (by simp [Mesh.Corners.toList])] at h
  obtain ⟨corner, hcorner, draft', -, hfails⟩ :=
    exists_of_foldlM_error (p := fun _ => True) (fun _ _ _ _ _ _ => trivial) trivial h
  obtain ⟨triangle, htriangle, hmem⟩ := List.mem_flatMap.mp hcorner
  obtain ⟨n, -, rfl⟩ := List.mem_map.mp (mem_of_mem_fan htriangle hmem)
  exact useCorner_error hchannels hfails

theorem Awaits.close_error (h : assembly.Awaits numbers) (hclose : assembly.close = .error cause) :
    cause = .vertexOutOfBounds := by
  rcases bind_eq_error.mp hclose with hdraft | ⟨draft, -, hclosed⟩
  · obtain ⟨face, hface, draft', -, hfails⟩ :=
      exists_of_foldlM_error (p := fun _ => True) (fun _ _ _ _ _ _ => trivial) trivial hdraft
    rw [h.waiting] at hface
    obtain ⟨given, -, rfl⟩ := List.mem_map.mp hface
    exact useFace_error h.channels hfails
  · cases hclosed

/-! ## Lines -/

section

variable {library : String → Option (List String)} {line : List Char} {item : Item}

theorem Awaits.stepLine (h : assembly.Awaits numbers) (hsaid : Says line item)
    (hstep : assembly.stepLine library (some line) = .ok next) :
    ∃ numbers, next.Awaits numbers := by
  cases hsaid with
  | blank words =>
      rw [stepLine_of_read library assembly (read_blank words)] at hstep
      exact ⟨numbers, Except.ok.inj hstep ▸ h⟩
  | vertex words hx hy hz =>
      rw [stepLine_of_read library assembly (read_vertex words hx hy hz)] at hstep
      exact ⟨numbers, Except.ok.inj hstep ▸ h.position _⟩
  | @face _ _ _ face words hi hj hk =>
      by_cases hsmall : ∀ n ∈ face.toList, n < 2 ^ 63
      · rw [stepLine_of_read library assembly (read_face words hi hj hk hsmall)] at hstep
        exact ⟨numbers ++ [face], Except.ok.inj hstep ▸ h.face hi.pos hj.pos hk.pos⟩
      · rw [Assembly.stepLine, Statement.ofLine, read_face_of_large words hi hj hk hsmall] at hstep
        cases hstep
  | part words =>
      obtain ⟨text, hread⟩ := exists_read_part words
      rw [stepLine_of_read library assembly hread] at hstep
      obtain ⟨closed, hclosed, hnext⟩ := bind_eq_ok.mp hstep
      exact ⟨[], Except.ok.inj hnext ▸ (h.of_closeFaces hclosed).1.rename text⟩

theorem Awaits.stepLine_error (h : assembly.Awaits numbers) (hsaid : Says line item)
    (hstep : assembly.stepLine library (some line) = .error cause) : cause.ComesFrom [item] := by
  cases hsaid with
  | blank words =>
      rw [stepLine_of_read library assembly (read_blank words)] at hstep
      cases hstep
  | vertex words hx hy hz =>
      rw [stepLine_of_read library assembly (read_vertex words hx hy hz)] at hstep
      cases hstep
  | @face _ _ _ face words hi hj hk =>
      by_cases hsmall : ∀ n ∈ face.toList, n < 2 ^ 63
      · rw [stepLine_of_read library assembly (read_face words hi hj hk hsmall)] at hstep
        cases hstep
      · rw [Assembly.stepLine, Statement.ofLine, read_face_of_large words hi hj hk hsmall] at hstep
        exact .inr ⟨(Except.error.inj hstep).symm, face, List.mem_cons_self, hsmall⟩
  | part words =>
      obtain ⟨text, hread⟩ := exists_read_part words
      rw [stepLine_of_read library assembly hread] at hstep
      rcases bind_eq_error.mp hstep with hclose | ⟨closed, -, hnamed⟩
      · rw [closeFaces] at hclose
        split_ifs at hclose
        exact .inl (h.close_error hclose)
      · cases hnamed

end

end Assembly

theorem exists_says_of_mem {lines : List (List Char)} {items : List Item}
    (hsaid : List.Forall₂ Says lines items) {line : List Char} (hline : line ∈ lines) :
    ∃ item ∈ items, Says line item := by
  induction hsaid with
  | nil => exact absurd hline List.not_mem_nil
  | cons hfirst _ ih =>
      rcases List.mem_cons.mp hline with rfl | hline
      · exact ⟨_, List.mem_cons_self, hfirst⟩
      · obtain ⟨item, hitem, hsaid⟩ := ih hline
        exact ⟨item, List.mem_cons_of_mem _ hitem, hsaid⟩

theorem ObjError.ComesFrom.of_mem {items : List Item} {item : Item} {cause : ObjError}
    (h : cause.ComesFrom [item]) (hitem : item ∈ items) : cause.ComesFrom items := by
  rcases h with h | ⟨h, face, hface, hlarge⟩
  · exact .inl h
  · obtain rfl := (mem_facesOf_cons.mp hface).resolve_right List.not_mem_nil
    exact .inr ⟨h, face, List.mem_filterMap.mpr ⟨_, hitem, rfl⟩, hlarge⟩

/-- A plain text is refused for the number of a vertex only. -/
theorem submeshes_error {library : String → Option (List String)} {lines : List (List Char)}
    {items : List Item} (hsaid : List.Forall₂ Says lines items) {cause : ObjError}
    (h : submeshes library (lines.map some) = .error cause) : cause.ComesFrom items := by
  have hkept : ∀ line ∈ lines.map some, ∀ {assembly next : Assembly},
      (∃ numbers, assembly.Awaits numbers) → assembly.stepLine library line = .ok next →
        ∃ numbers, next.Awaits numbers := by
    rintro _ hmem assembly next ⟨numbers, hawaits⟩ hstep
    obtain ⟨line, hline, rfl⟩ := List.mem_map.mp hmem
    obtain ⟨item, -, hitem⟩ := exists_says_of_mem hsaid hline
    exact hawaits.stepLine hitem hstep
  have hstart : ∃ numbers, Assembly.Awaits numbers {} := ⟨[], rfl, rfl, nofun⟩
  rcases bind_eq_error.mp h with hrun | ⟨last, hrun, h⟩
  · obtain ⟨_, hmem, assembly, ⟨numbers, hawaits⟩, hfails⟩ :=
      exists_of_foldlM_error hkept hstart hrun
    obtain ⟨line, hline, rfl⟩ := List.mem_map.mp hmem
    obtain ⟨item, hitem, hline⟩ := exists_says_of_mem hsaid hline
    exact (hawaits.stepLine_error hline hfails).of_mem hitem
  · obtain ⟨numbers, hawaits⟩ := foldlM_induction
      (motive := fun _ assembly => ∃ numbers, Assembly.Awaits numbers assembly) hstart
      (fun hmem => hkept _ hmem) hrun
    rcases bind_eq_error.mp h with hclose | ⟨closed, -, hclosed⟩
    · exact .inl (hawaits.close_error hclose)
    · cases hclosed

end DepthRaster.Obj
