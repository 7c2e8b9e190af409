import Mathlib.Algebra.Order.BigOperators.Group.List
import Mathlib.Data.List.TakeWhile
/-!
# Lists in parts

A run ends where something else begins, parts of one length are found at its multiples, and a grid
is made of its rows.
-/

namespace DepthRaster

section

variable {p : Char → Bool} {run rest : List Char}

theorem takeWhile_run (h : ∀ c ∈ run, p c = true) (hrest : ∀ c, rest.head? = some c → p c = false) :
    (run ++ rest).takeWhile p = run := by
  rw [List.takeWhile_append_of_pos h]
  cases rest with
  | nil => exact List.append_nil run
  | cons c rest =>
      rw [List.takeWhile_cons_of_neg (by simp [hrest c rfl]), List.append_nil]

theorem dropWhile_run (h : ∀ c ∈ run, p c = true) (hrest : ∀ c, rest.head? = some c → p c = false) :
    (run ++ rest).dropWhile p = rest := by
  rw [List.dropWhile_append_of_pos h]
  cases rest with
  | nil => rfl
  | cons c rest => exact List.dropWhile_cons_of_neg (by simp [hrest c rfl])

theorem exists_run (p : Char → Bool) (cs : List Char) :
    ∃ run rest, cs = run ++ rest ∧ (∀ c ∈ run, p c = true) ∧
      ∀ c, rest.head? = some c → p c = false := by
  refine ⟨cs.takeWhile p, cs.dropWhile p, List.takeWhile_append_dropWhile.symm,
    fun c => List.mem_takeWhile_imp, fun c hc => ?_⟩
  have hnot := List.head?_dropWhile_not p cs
  rwa [hc] at hnot

end

theorem length_le_length_flatMap {α β : Type} {f : α → List β} {l : List α}
    (h : ∀ a ∈ l, f a ≠ []) : l.length ≤ (l.flatMap f).length := by
  rw [List.length_flatMap, ← List.length_map (f := fun a => (f a).length)]
  refine List.length_le_sum_of_one_le _ fun n hn => ?_
  obtain ⟨a, ha, rfl⟩ := List.mem_map.mp hn
  exact List.length_pos_of_ne_nil (h a ha)

theorem take_drop_flatten {α : Type} {size : ℕ} {parts : List (List α)}
    (h : ∀ part ∈ parts, part.length = size) (i : ℕ) :
    (parts.flatten.drop (i * size)).take size = parts[i]?.getD [] := by
  induction parts generalizing i with
  | nil => simp
  | cons part parts ih =>
      obtain rfl := h part List.mem_cons_self
      have hparts := ih fun other hother => h other (List.mem_cons_of_mem part hother)
      rw [List.flatten_cons]
      cases i with
      | zero => rw [Nat.zero_mul, List.drop_zero, List.take_left]; rfl
      | succ i =>
          rw [Nat.succ_mul, Nat.add_comm, ← List.drop_drop, List.drop_left, hparts]
          rfl

theorem mem_grid {α β : Type} {columns : List α} {rows : List β} {x : α} {y : β} :
    (x, y) ∈ (rows.flatMap fun y => columns.map fun x => (x, y)) ↔ x ∈ columns ∧ y ∈ rows := by
  simp only [List.mem_flatMap, List.mem_map, Prod.mk.injEq]
  constructor
  · rintro ⟨_, hy, _, hx, rfl, rfl⟩
    exact ⟨hx, hy⟩
  · rintro ⟨hx, hy⟩
    exact ⟨y, hy, x, hx, rfl, rfl⟩

end DepthRaster
