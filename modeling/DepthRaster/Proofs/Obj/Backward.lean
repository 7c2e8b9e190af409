import DepthRaster.Proofs.Obj.Reading
/-!
# Texts that refer backward

A text whose faces name earlier vertices only, and neither colours nor anything else, can be cut
anywhere. So it is read whatever its libraries define.
-/

namespace DepthRaster.Obj

/-- Whether a statement after so many vertices names earlier ones only, and has no colours. -/
def Statement.RefersBack (count : ℕ) : Statement → Prop
  | .position _ channels => channels = 0
  | .face corners => corners ≠ [] ∧ ∀ corner ∈ corners,
      corner.texture = none ∧ corner.normal = none ∧
        ∃ place < count, placeOf count corner.vertex = some (place : ℤ)
  | _ => True

instance (count : ℕ) : (statement : Statement) → Decidable (statement.RefersBack count)
  | .position _ channels => inferInstanceAs (Decidable (channels = 0))
  | .face _ => inferInstanceAs (Decidable (_ ∧ _))
  | .nothing | .textureCoordinate | .normal | .part _ | .library _ | .material _ => .isTrue trivial

def Statement.vertexCount : Statement → ℕ
  | .position _ _ => 1
  | _ => 0

def RefersBack (count : ℕ) : List Line → Prop
  | [] => True
  | line :: lines => ∃ statement, Statement.ofLine line = .ok statement ∧
      statement.RefersBack count ∧ RefersBack (count + statement.vertexCount) lines

/-- An assembly without colours, in which all faces that wait have their vertices. -/
structure Assembly.Ready (assembly : Assembly) : Prop where
  channels : assembly.channels = 0
  waiting : ∀ face ∈ assembly.waiting.toList, face ≠ [] ∧
    ∀ corner ∈ face, corner.Resolves assembly.positions

namespace Assembly.Ready

variable {assembly : Assembly}

theorem exists_close (h : assembly.Ready) :
    ∃ closed, assembly.close = .ok closed ∧ closed.Ready ∧
      closed.positions = assembly.positions := by
  obtain ⟨closed, hclose⟩ := Assembly.exists_close h.channels h.waiting
  obtain ⟨draft, -, hclosed⟩ := bind_eq_ok.mp hclose
  obtain rfl := Except.ok.inj hclosed
  exact ⟨_, hclose, ⟨h.channels, nofun⟩, rfl⟩

theorem exists_closeFaces (h : assembly.Ready) :
    ∃ closed, assembly.closeFaces = .ok closed ∧ closed.Ready ∧
      closed.positions = assembly.positions := by
  rw [closeFaces]
  split_ifs
  · exact ⟨assembly, rfl, h, rfl⟩
  · exact h.exists_close

theorem cornerOf_resolves {corner : CornerText} (htexture : corner.texture = none)
    (hnormal : corner.normal = none) {place : ℕ} (hplace : place < assembly.positions.size)
    (hvertex : placeOf assembly.positions.size corner.vertex = some (place : ℤ)) :
    (assembly.cornerOf corner).Resolves assembly.positions := by
  refine ⟨?_, ?_, ?_⟩
  · simp [cornerOf, hvertex, vertexAt, hplace, Int.toNat?]
  · simp [cornerOf, htexture, placeOf]
  · simp [cornerOf, hnormal, placeOf]

theorem addMaterials (h : assembly.Ready) (names : List String) :
    (names.foldl addMaterial assembly).Ready ∧
      (names.foldl addMaterial assembly).positions = assembly.positions := by
  induction names generalizing assembly with
  | nil => exact ⟨h, rfl⟩
  | cons name names ih =>
      have hadded : (assembly.addMaterial name).Ready := ⟨h.channels, h.waiting⟩
      exact ih hadded

theorem exists_step (library : String → Option (List String)) (h : assembly.Ready)
    {statement : Statement} (hback : statement.RefersBack assembly.positions.size) :
    ∃ next, assembly.step library statement = .ok next ∧ next.Ready ∧
      next.positions.size = assembly.positions.size + statement.vertexCount := by
  cases statement with
  | nothing | textureCoordinate | normal => exact ⟨_, rfl, ⟨h.channels, h.waiting⟩, rfl⟩
  | position point channels =>
      obtain rfl : channels = 0 := hback
      refine ⟨_, rfl, ⟨h.channels, fun face hface => ?_⟩, Array.size_push _⟩
      obtain ⟨hne, hcorners⟩ := h.waiting face hface
      refine ⟨hne, fun corner hcorner => ?_⟩
      obtain ⟨hvertex, htexture, hnormal⟩ := hcorners corner hcorner
      exact ⟨by rw [vertexAt_push hvertex]; exact hvertex, htexture, hnormal⟩
  | face corners =>
      obtain ⟨hne, hcorners⟩ := hback
      refine ⟨_, rfl, ⟨h.channels, ?_⟩, rfl⟩
      rw [Array.toList_push, List.forall_mem_append, List.forall_mem_singleton]
      refine ⟨h.waiting, by simpa using hne, fun corner hcorner => ?_⟩
      obtain ⟨written, hwritten, rfl⟩ := List.mem_map.mp hcorner
      obtain ⟨htexture, hnormal, place, hplace, hvertex⟩ := hcorners written hwritten
      exact cornerOf_resolves htexture hnormal hplace hvertex
  | part name =>
      obtain ⟨closed, hclosed, hready, hpositions⟩ := h.exists_closeFaces
      exact ⟨_, bind_eq_ok.mpr ⟨closed, hclosed, rfl⟩, ⟨hready.channels, hready.waiting⟩,
        congrArg Array.size hpositions⟩
  | library name =>
      obtain ⟨hready, hpositions⟩ := h.addMaterials ((library name).getD [])
      exact ⟨_, rfl, hready, congrArg Array.size hpositions⟩
  | material name =>
      simp only [Assembly.step]
      split_ifs
      · exact ⟨_, rfl, ⟨h.channels, h.waiting⟩, rfl⟩
      · obtain ⟨closed, hclosed, hready, hpositions⟩ := h.exists_closeFaces
        exact ⟨_, bind_eq_ok.mpr ⟨closed, hclosed, rfl⟩, ⟨hready.channels, hready.waiting⟩,
          congrArg Array.size hpositions⟩

theorem exists_run (library : String → Option (List String)) {lines : List Line}
    (h : assembly.Ready) (hback : RefersBack assembly.positions.size lines) :
    ∃ last, lines.foldlM (Assembly.stepLine library) assembly = .ok last ∧ last.Ready := by
  induction lines generalizing assembly with
  | nil => exact ⟨assembly, rfl, h⟩
  | cons line lines ih =>
      obtain ⟨statement, hstatement, hfirst, hrest⟩ := hback
      obtain ⟨next, hnext, hready, hsize⟩ := h.exists_step library hfirst
      obtain ⟨last, hlast, hlastReady⟩ := ih hready (hsize ▸ hrest)
      refine ⟨last, ?_, hlastReady⟩
      rw [List.foldlM_cons]
      exact bind_eq_ok.mpr ⟨next, bind_eq_ok.mpr ⟨statement, hstatement, hnext⟩, hlast⟩

end Assembly.Ready

/-- A text that refers backward is read, whatever the libraries are. -/
theorem exists_submeshes_eq_ok {lines : List Line} (h : RefersBack 0 lines)
    (library : String → Option (List String)) : ∃ found, submeshes library lines = .ok found := by
  have hstart : Assembly.Ready {} := ⟨rfl, nofun⟩
  obtain ⟨last, hrun, hready⟩ := hstart.exists_run library h
  obtain ⟨closed, hclose, -⟩ := hready.exists_close
  exact ⟨_, submeshes_eq_ok_iff.mpr ⟨last, closed, hrun, hclose, rfl⟩⟩

end DepthRaster.Obj
