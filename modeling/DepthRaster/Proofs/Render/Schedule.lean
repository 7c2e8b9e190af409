import DepthRaster.Proofs.Raster.Fragments
import DepthRaster.Proofs.Raster.FrameBuffer
import DepthRaster.Proofs.Render.Placement
import Mathlib.Data.List.Perm.Basic
import Mathlib.Logic.Relation
/-!
# Drawing by many workers

Workers take faces and writes from a pool, each at any time and in any order. A write is one step:
nobody sees its pixel in between. Whatever the order was, the buffer and all numbers but that of the
writes that won are those of one worker who goes from face to face, as long as no two faces share an
order.
-/

namespace DepthRaster.Render

open Color (Rgb)
open DepthRaster.Geometry (ScreenVertex)
open Mesh (Corners)
open Raster (FrameBuffer Sample Triangle Write TiesAgree)

def Drawing.blank (canvas : Canvas) : Drawing := { buffer := .empty canvas.width canvas.height }

/-- What a worker can take. -/
inductive Task where
  | face (face : PlacedFace)
  | write (w : Write)

/-- Drawing under way: the tasks that nobody took yet, and what came of the others. -/
structure Pool where
  tasks : List Task
  drawing : Drawing

namespace Pool

/-- Does a task. A face that is drawn leaves its writes to whoever takes them. -/
def perform (canvas : Canvas) (colorOf : Nat → Rgb) (pool : Pool) : Task → Pool
  | .face face =>
    if face.triangle.isDrawn then
      { tasks := pool.tasks ++ (canvas.writes colorOf face).map .write
        drawing := { pool.drawing with rasterized := pool.drawing.rasterized + 1 } }
    else
      { pool with drawing := { pool.drawing with culled := pool.drawing.culled + 1 } }
  | .write w =>
    let (buffer, counts) :=
      FrameBuffer.compositeCounted (pool.drawing.buffer, pool.drawing.counts) w
    { pool with drawing := { pool.drawing with buffer, counts } }

/-- A worker takes any task and does it. -/
inductive Step (canvas : Canvas) (colorOf : Nat → Rgb) : Pool → Pool → Prop where
  | take (before after : List Task) (task : Task) (drawing : Drawing) :
    Step canvas colorOf ⟨before ++ task :: after, drawing⟩
      (perform canvas colorOf ⟨before ++ after, drawing⟩ task)

abbrev Run (canvas : Canvas) (colorOf : Nat → Rgb) : Pool → Pool → Prop :=
  Relation.ReflTransGen (Step canvas colorOf)

def start (canvas : Canvas) (placed : List PlacedFace) : Pool where
  tasks := placed.map .face
  drawing := .blank canvas

end Pool

variable {ρ ε : Type}

/-- The renderings that workers may come to. Warnings come in any order too. -/
def Canvas.MayRender (canvas : Canvas) (faces : List (Corners ρ))
    (transform : ρ → Except ε ScreenVertex) (colorOf : Nat → Rgb) (r : Rendering ε) : Prop :=
  let placement := placeFaces transform faces
  ∃ drawing, Pool.Run canvas colorOf (.start canvas placement.placed) ⟨[], drawing⟩ ∧
    ∃ rejections, rejections.Perm placement.rejected ∧
      r = { canvas.develop faces.length placement drawing with rejections }

/-- The same numbers, but for that of the writes that won. -/
structure Stats.AgreesWith (s t : Stats) : Prop where
  faces : s.faces = t.faces
  rejected : s.rejected = t.rejected
  culled : s.culled = t.culled
  rasterized : s.rasterized = t.rasterized
  fragments : s.fragments = t.fragments

/-! ## What a run keeps -/

/-- The writes that a task comes to. -/
def Task.writes (canvas : Canvas) (colorOf : Nat → Rgb) : Task → List Write
  | .face f => if f.triangle.isDrawn then canvas.writes colorOf f else []
  | .write w => [w]

def Task.isFace (drawn : Bool) : Task → Bool
  | .face f => f.triangle.isDrawn == drawn
  | .write _ => false

def Drawing.complete (drawing : Drawing) (writes : List Write) (tasks : List Task) : Drawing where
  buffer := (writes.foldl FrameBuffer.compositeCounted (drawing.buffer, drawing.counts)).1
  culled := drawing.culled + tasks.countP (Task.isFace false)
  rasterized := drawing.rasterized + tasks.countP (Task.isFace true)
  counts := (writes.foldl FrameBuffer.compositeCounted (drawing.buffer, drawing.counts)).2

namespace Pool

def allWrites (canvas : Canvas) (colorOf : Nat → Rgb) (placed : List PlacedFace) : List Write :=
  (placed.map Task.face).flatMap (Task.writes canvas colorOf)

/-- What was tried and what is left make up the writes of all faces, and likewise for the faces. -/
structure Accounts (canvas : Canvas) (colorOf : Nat → Rgb) (placed : List PlacedFace)
    (pool : Pool) (done : List Write) : Prop where
  outcome : (pool.drawing.buffer, pool.drawing.counts) =
    done.foldl FrameBuffer.compositeCounted (.empty canvas.width canvas.height, {})
  writes : (done ++ pool.tasks.flatMap (Task.writes canvas colorOf)).Perm
    (allWrites canvas colorOf placed)
  culled : pool.drawing.culled + pool.tasks.countP (Task.isFace false) =
    (placed.map Task.face).countP (Task.isFace false)
  rasterized : pool.drawing.rasterized + pool.tasks.countP (Task.isFace true) =
    (placed.map Task.face).countP (Task.isFace true)

variable {canvas : Canvas} {colorOf : Nat → Rgb} {placed : List PlacedFace}

theorem accounts_start : Accounts canvas colorOf placed (.start canvas placed) [] where
  outcome := rfl
  writes := .refl _
  culled := Nat.zero_add _
  rasterized := Nat.zero_add _

private theorem writes_write (writes : List Write) :
    (writes.map Task.write).flatMap (Task.writes canvas colorOf) = writes := by
  simp [List.flatMap_map, Task.writes]

private theorem countP_write (writes : List Write) (drawn : Bool) :
    (writes.map Task.write).countP (Task.isFace drawn) = 0 := by
  simp [List.countP_eq_zero, Task.isFace]

theorem Accounts.step {pool pool' : Pool} {done : List Write}
    (h : Accounts canvas colorOf placed pool done) (hstep : Step canvas colorOf pool pool') :
    ∃ done', Accounts canvas colorOf placed pool' done' := by
  obtain ⟨before, after, task, drawing⟩ := hstep
  obtain ⟨houtcome, hwrites, hculled, hrasterized⟩ := h
  simp only [List.flatMap_append, List.flatMap_cons] at hwrites
  simp only [List.countP_append, List.countP_cons] at hculled hrasterized
  cases task with
  | face face =>
      refine ⟨done, ?_⟩
      cases hdrawn : face.triangle.isDrawn with
      | true =>
          simp only [Task.writes, hdrawn, if_true, Task.isFace, beq_self_eq_true, Bool.true_beq,
            Bool.false_eq_true, if_false] at hwrites hculled hrasterized
          simp only [perform, hdrawn, if_true]
          refine ⟨houtcome, .trans ?_ hwrites, ?_, ?_⟩
          · simp only [List.flatMap_append, writes_write, List.append_assoc]
            exact (List.perm_append_comm.append_left _).append_left _
          · simp only [List.countP_append, countP_write]
            omega
          · simp only [List.countP_append, countP_write]
            omega
      | false =>
          simp only [Task.writes, hdrawn, Task.isFace, beq_self_eq_true, Bool.false_beq,
            Bool.not_true, Bool.false_eq_true, if_true, if_false] at hwrites hculled hrasterized
          simp only [perform, hdrawn, Bool.false_eq_true, if_false]
          refine ⟨houtcome, .trans ?_ hwrites, ?_, ?_⟩
          · simp only [List.flatMap_append, List.nil_append]
            exact .refl _
          · simp only [List.countP_append]
            omega
          · simp only [List.countP_append]
            omega
  | write w =>
      refine ⟨done ++ [w], ?_⟩
      simp only [Task.writes, Task.isFace, Bool.false_eq_true, if_false, Nat.add_zero]
        at hwrites hculled hrasterized
      refine ⟨?_, .trans ?_ hwrites, ?_, ?_⟩
      · rw [List.foldl_append, ← houtcome]
        rfl
      · simp only [perform, List.flatMap_append, List.append_assoc]
        exact (List.perm_append_comm_assoc _ _ _).append_left _
      · simp only [perform, List.countP_append]
        omega
      · simp only [perform, List.countP_append]
        omega

theorem Accounts.run {pool pool' : Pool} {done : List Write}
    (h : Accounts canvas colorOf placed pool done) (hrun : Run canvas colorOf pool pool') :
    ∃ done', Accounts canvas colorOf placed pool' done' := by
  induction hrun with
  | refl => exact ⟨done, h⟩
  | tail _ hstep ih =>
      obtain ⟨done', h'⟩ := ih
      exact h'.step hstep

theorem allWrites_eq :
    allWrites canvas colorOf placed =
      (placed.filter (·.triangle.isDrawn)).flatMap (canvas.writes colorOf) := by
  rw [allWrites, List.flatMap_map]
  induction placed with
  | nil => rfl
  | cons face placed ih =>
      rw [List.flatMap_cons, ih, Task.writes]
      cases hdrawn : face.triangle.isDrawn with
      | true => simp [hdrawn]
      | false => simp [hdrawn]

theorem countP_isFace (drawn : Bool) :
    (placed.map Task.face).countP (Task.isFace drawn) =
      (placed.filter (·.triangle.isDrawn == drawn)).length := by
  rw [List.countP_map, List.countP_eq_length_filter]
  rfl

/-- When nothing is left to take, all writes were tried in some order. -/
theorem exists_order_of_run {drawing : Drawing}
    (hrun : Run canvas colorOf (.start canvas placed) ⟨[], drawing⟩) :
    ∃ order : List Write, order.Perm (allWrites canvas colorOf placed) ∧
      drawing = (Drawing.blank canvas).complete order (placed.map .face) := by
  obtain ⟨order, houtcome, hwrites, hculled, hrasterized⟩ := accounts_start.run hrun
  refine ⟨order, by simpa using hwrites, ?_⟩
  obtain ⟨buffer, culled, rasterized, counts⟩ := drawing
  simp only [Prod.ext_iff] at houtcome
  simp only [List.countP_nil, Nat.add_zero] at hculled hrasterized
  simp only [Drawing.complete, Drawing.blank, Drawing.mk.injEq, Nat.zero_add]
  exact ⟨houtcome.1, hculled, hrasterized, houtcome.2⟩

/-! ## One worker is a schedule -/

private theorem run_writes (rest : List Task) (drawing : Drawing) (writes : List Write) :
    Run canvas colorOf ⟨rest ++ writes.map .write, drawing⟩
      ⟨rest, drawing.complete writes []⟩ := by
  induction writes generalizing drawing with
  | nil =>
      rw [List.map_nil, List.append_nil]
      exact .refl
  | cons w writes ih => exact .head (.take rest (writes.map .write) (.write w) drawing) (ih _)

theorem run_tasks (tasks : List Task) (drawing : Drawing) :
    Run canvas colorOf ⟨tasks, drawing⟩
      ⟨[], drawing.complete (tasks.flatMap (Task.writes canvas colorOf)) tasks⟩ := by
  induction tasks generalizing drawing with
  | nil => exact .refl
  | cons task tasks ih =>
      refine .head (.take [] tasks task drawing) ?_
      rw [List.nil_append]
      cases task with
      | face face =>
          cases hdrawn : face.triangle.isDrawn with
          | true =>
              simp only [perform, hdrawn, if_true]
              refine (run_writes tasks _ _).trans ?_
              convert ih _ using 2
              simp [Drawing.complete, Task.writes, Task.isFace, hdrawn]
              omega
          | false =>
              simp only [perform, hdrawn, Bool.false_eq_true, if_false]
              convert ih _ using 2
              simp [Drawing.complete, Task.writes, Task.isFace, hdrawn]
              omega
      | write w => exact ih _

end Pool

/-! ## Any order gives the same images -/

theorem exists_index_of_mem_writes {canvas : Canvas} {colorOf : Nat → Rgb}
    {faces : List PlacedFace} {w : Write} (h : w ∈ faces.flatMap (canvas.writes colorOf)) :
    ∃ face ∈ faces, w.order = orderOf face.index ∧ w.color = colorOf face.index := by
  obtain ⟨face, hface, hw⟩ := List.mem_flatMap.mp h
  rw [Canvas.writes, Triangle.writes_eq] at hw
  obtain ⟨f, -, rfl⟩ := List.mem_map.mp hw
  exact ⟨face, hface, rfl, rfl⟩

/-- Writes tie only when they are of one face, as long as each face has an order of its own. -/
theorem tiesAgree_writes (canvas : Canvas) (colorOf : Nat → Rgb) (faces : List PlacedFace)
    (hindex : ∀ face ∈ faces, face.index < 2 ^ 32) :
    TiesAgree (faces.flatMap (canvas.writes colorOf)) := by
  intro v hv w hw hrank
  obtain ⟨f, hf, hvorder, hvcolor⟩ := exists_index_of_mem_writes hv
  obtain ⟨g, hg, hworder, hwcolor⟩ := exists_index_of_mem_writes hw
  obtain ⟨hdepth, horder⟩ := Sample.rank_pack_inj hrank
  rw [hvorder, hworder] at horder
  have hindices := orderOf_inj (hindex f hf) (hindex g hg) horder
  rw [Write.sample, Write.sample, hdepth, hvorder, hvcolor, hworder, hwcolor, hindices]

theorem Canvas.writes_shared (canvas : Canvas) (shared : Bool) :
    { canvas with shared }.writes = canvas.writes := by
  funext colorOf face
  simp only [Canvas.writes, Triangle.writes_eq]

/-- One worker draws the faces one after the other and tries all writes in order. -/
theorem Canvas.render_eq (canvas : Canvas) (faces : List (Corners ρ))
    (transform : ρ → Except ε ScreenVertex) (colorOf : Nat → Rgb) :
    canvas.render faces transform colorOf =
      let placement := placeFaces transform faces
      canvas.develop faces.length placement
        ((Drawing.blank canvas).complete (Pool.allWrites canvas colorOf placement.placed)
          (placement.placed.map .face)) := by
  have hfalse (t : Triangle) : (t.isDrawn == false) = !t.isDrawn := by cases t.isDrawn <;> rfl
  have htrue (t : Triangle) : (t.isDrawn == true) = t.isDrawn := by cases t.isDrawn <;> rfl
  simp only [Canvas.render, Canvas.fill, Drawing.complete, Drawing.blank, Pool.allWrites_eq,
    Pool.countP_isFace, ← List.foldl_flatMap, Placement.drawn, Placement.culled, hfalse, htrue,
    Nat.zero_add]

theorem Canvas.mayRender_render (canvas : Canvas) (faces : List (Corners ρ))
    (transform : ρ → Except ε ScreenVertex) (colorOf : Nat → Rgb) :
    canvas.MayRender faces transform colorOf (canvas.render faces transform colorOf) :=
  ⟨_, Pool.run_tasks _ _, _, .refl _, canvas.render_eq faces transform colorOf⟩

theorem Drawing.buffer_complete_perm (drawing : Drawing) (tasks : List Task)
    {writes order : List Write} (hagree : TiesAgree writes) (hperm : order.Perm writes) :
    (drawing.complete order tasks).buffer = (drawing.complete writes tasks).buffer := by
  simp only [Drawing.complete, FrameBuffer.fst_foldl_compositeCounted]
  exact FrameBuffer.writeAll_perm _ hagree hperm

theorem Drawing.fragments_complete_perm (drawing : Drawing) (tasks : List Task)
    {writes order : List Write} (hperm : order.Perm writes) :
    (drawing.complete order tasks).counts.fragments =
      (drawing.complete writes tasks).counts.fragments := by
  simp only [Drawing.complete, FrameBuffer.fragments_foldl_compositeCounted, hperm.length_eq]

/-- Many workers come to the images and numbers of one worker, whoever does what and when; only the
number of writes that won at the time may differ. What one worker does is among what they may do. -/
theorem mayRender_agrees (width height : Nat) (wire : Option Rgb) (faces : List (Corners ρ))
    (hfaces : faces.length ≤ 2 ^ 32) (transform : ρ → Except ε ScreenVertex)
    (colorOf : Nat → Rgb) :
    let one : Canvas := { width, height, shared := false, wire }
    let many : Canvas := { width, height, shared := true, wire }
    let alone := one.render faces transform colorOf
    many.MayRender faces transform colorOf (many.render faces transform colorOf) ∧
      ∀ r, many.MayRender faces transform colorOf r →
        r.color = alone.color ∧ r.depth = alone.depth ∧ r.stats.AgreesWith alone.stats := by
  intro one many alone
  refine ⟨many.mayRender_render faces transform colorOf, ?_⟩
  rintro r ⟨drawing, hrun, rejections, -, rfl⟩
  obtain ⟨order, hperm, rfl⟩ := Pool.exists_order_of_run hrun
  have halone : alone = _ := one.render_eq faces transform colorOf
  rw [halone]
  let placement := placeFaces transform faces
  have hwrites : Pool.allWrites many colorOf placement.placed =
      Pool.allWrites one colorOf placement.placed := by
    rw [Pool.allWrites_eq, Pool.allWrites_eq, ← one.writes_shared true]
  have hagree : TiesAgree (Pool.allWrites one colorOf placement.placed) := by
    rw [Pool.allWrites_eq]
    refine tiesAgree_writes one colorOf _ fun face hface => ?_
    exact Nat.lt_of_lt_of_le (index_lt_of_mem_drawn transform faces hface) hfaces
  have hbuffer := (Drawing.blank one).buffer_complete_perm (placement.placed.map .face) hagree
    (hwrites ▸ hperm)
  have hfragments := (Drawing.blank one).fragments_complete_perm (placement.placed.map .face)
    (hwrites ▸ hperm)
  have hblank : Drawing.blank many = Drawing.blank one := rfl
  refine ⟨?_, ?_, rfl, rfl, rfl, rfl, ?_⟩
  · simp only [Canvas.develop, hblank]
    rw [hbuffer]
  · simp only [Canvas.develop, hblank]
    rw [hbuffer]
  · exact hfragments

/-- Two faces in the same place, as near: whichever is drawn first, the first one shows, and the
outline of both is over it. -/
theorem mayRender_agrees_of_two :
    let faces : List (Corners ScreenVertex) :=
      List.replicate 2 ⟨⟨-1, -1, 7⟩, ⟨2, -1, 7⟩, ⟨-1, 2, 7⟩⟩
    let many : Canvas := { width := 2, height := 1, shared := true, wire := some .white }
    let colorOf (i : Nat) : Rgb := ⟨i.toUInt8 + 1, 0, 0⟩
    faces.length ≤ 2 ^ 32 ∧
      many.MayRender faces Except.ok colorOf (many.render faces (Except.ok (ε := Empty)) colorOf) ∧
      ∀ r : Rendering Empty, many.MayRender faces Except.ok colorOf r →
        r.color.bytes = #[1, 0, 0, 255, 255, 255] ∧ r.depth.bytes = #[7, 7] := by
  intro faces many colorOf
  have hfaces : faces.length ≤ 2 ^ 32 := by simp [faces]
  obtain ⟨hown, hagrees⟩ :=
    mayRender_agrees 2 1 (some .white) faces hfaces (Except.ok (ε := Empty)) colorOf
  refine ⟨hfaces, hown, fun r hr => ?_⟩
  obtain ⟨hcolor, hdepth, -⟩ := hagrees r hr
  rw [hcolor, hdepth]
  exact ⟨by decide +kernel, by decide +kernel⟩

end DepthRaster.Render
