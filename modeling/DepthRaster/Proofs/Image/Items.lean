import DepthRaster.Image.Basic
import DepthRaster.Proofs.Lists
/-!
# Items one after the other

What takes one item off the front of a list takes a whole list of them apart. An array is made of
its extracts of one length.
-/

namespace DepthRaster.Image

theorem takeAll_flatMap {α : Type} {take : List UInt8 → Option (α × List UInt8)}
    {toBytes : α → List UInt8} {items : List α}
    (htake : ∀ item ∈ items, ∀ rest, take (toBytes item ++ rest) = some (item, rest))
    (hne : ∀ item ∈ items, toBytes item ≠ []) {fuel : Nat} (hfuel : items.length ≤ fuel) :
    takeAll take fuel (items.flatMap toBytes) = some items := by
  induction items generalizing fuel with
  | nil => rw [List.flatMap_nil, takeAll]
  | cons item items ih =>
      obtain ⟨fuel, rfl⟩ := Nat.exists_eq_add_of_lt (Nat.zero_lt_of_lt hfuel)
      have hitem := htake item List.mem_cons_self (items.flatMap toBytes)
      have hitems := ih (fun other hother => htake other (List.mem_cons_of_mem item hother))
        (fun other hother => hne other (List.mem_cons_of_mem item hother))
        (Nat.le_of_succ_le_succ hfuel)
      obtain ⟨byte, bytes, hbytes⟩ := List.exists_cons_of_ne_nil (hne item List.mem_cons_self)
      rw [hbytes, List.cons_append] at hitem
      rw [List.flatMap_cons, hbytes, List.cons_append, takeAll, hitem]
      simp only [Option.bind_eq_bind, Option.bind_some, hitems]
      rfl

/-! ## Extracts -/

theorem toList_extract_mul (bytes : Array UInt8) (size i : Nat) :
    (bytes.extract (i * size) ((i + 1) * size)).toList =
      (bytes.toList.drop (i * size)).take size := by
  rw [Array.toList_extract, List.extract, Nat.succ_mul, Nat.add_sub_cancel_left]

theorem flatten_extracts (bytes : Array UInt8) (size count : Nat) :
    ((List.range count).map fun i =>
      (bytes.extract (i * size) ((i + 1) * size)).toList).flatten =
        bytes.toList.take (count * size) := by
  induction count with
  | zero => rw [Nat.zero_mul, List.take_zero]; rfl
  | succ count ih =>
      rw [List.range_succ, List.map_append, List.flatten_append, ih, List.map_singleton,
        List.flatten_singleton, toList_extract_mul, Nat.succ_mul, List.take_add]

theorem length_extract_mul {bytes : Array UInt8} {size count i : Nat}
    (hsize : bytes.size = count * size) (hi : i < count) :
    (bytes.extract (i * size) ((i + 1) * size)).toList.length = size := by
  have hend : (i + 1) * size ≤ count * size := Nat.mul_le_mul_right size hi
  rw [Array.length_toList, Array.size_extract, hsize, Nat.min_eq_left hend, Nat.succ_mul,
    Nat.add_sub_cancel_left]

end DepthRaster.Image
