import DepthRaster.Image.Png
import DepthRaster.Proofs.Image.Items
import Mathlib.Tactic.SplitIfs
/-!
# PNG files that read back

Every reader takes off the front of a list what its writer put there, whatever follows. So a file
that was written reads as the size, the format and the rows that it was written from.
-/

namespace DepthRaster.Png

open Checksum (adler32)

/-! ## Numbers -/

theorem takeWord_word {n : Nat} (h : n < 2 ^ 32) (rest : List UInt8) :
    takeWord (word n ++ rest) = some (n, rest) := by
  simp only [word, List.cons_append, List.nil_append, takeWord, UInt8.toNat_ofNat', Nat.reducePow,
    Option.some.injEq, Prod.mk.injEq, and_true]
  omega

theorem takeWord_word_toNat (n : UInt32) (rest : List UInt8) :
    takeWord (word n.toNat ++ rest) = some (n.toNat, rest) :=
  takeWord_word n.toNat_lt rest

theorem toNat_shortWord {n : Nat} (h : n ≤ 65535) :
    (UInt8.ofNat n).toNat + 256 * (UInt8.ofNat (n / 256)).toNat = n := by
  simp only [UInt8.toNat_ofNat', Nat.reducePow]
  omega

/-! ## Pieces -/

theorem flatten_pieces (size count : Nat) (data : List UInt8) :
    (pieces size count data).flatten = data.take (count * size) := by
  induction count generalizing data with
  | zero => rw [pieces, List.flatten_nil, Nat.zero_mul, List.take_zero]
  | succ count ih =>
      rw [pieces, List.flatten_cons, ih, Nat.succ_mul, Nat.add_comm, List.take_add]

theorem length_le_of_mem_pieces {size count : Nat} {data piece : List UInt8}
    (h : piece ∈ pieces size count data) : piece.length ≤ size := by
  induction count generalizing data with
  | zero => exact absurd h List.not_mem_nil
  | succ count ih =>
      rcases List.mem_cons.mp h with rfl | h
      · exact List.length_take_le size data
      · exact ih h

theorem length_of_mem_pieces {size count : Nat} {data piece : List UInt8}
    (hdata : data.length = count * size) (h : piece ∈ pieces size count data) :
    piece.length = size := by
  induction count generalizing data with
  | zero => exact absurd h List.not_mem_nil
  | succ count ih =>
      rw [Nat.succ_mul] at hdata
      rcases List.mem_cons.mp h with rfl | h
      · exact List.length_take_of_le (by omega)
      · exact ih (by rw [List.length_drop]; omega) h

theorem length_pieces (size count : Nat) (data : List UInt8) :
    (pieces size count data).length = count := by
  induction count generalizing data with
  | zero => rfl
  | succ count ih => rw [pieces, List.length_cons, ih]

theorem pieces_flatten {size : Nat} {lists : List (List UInt8)}
    (h : ∀ list ∈ lists, list.length = size) : pieces size lists.length lists.flatten = lists := by
  induction lists with
  | nil => rfl
  | cons list lists ih =>
      obtain rfl := h list List.mem_cons_self
      rw [List.length_cons, pieces, List.flatten_cons, List.take_left, List.drop_left,
        ih fun other hother => h other (List.mem_cons_of_mem list hother)]

theorem flatten_split {size : Nat} (hsize : 0 < size) (data : List UInt8) :
    (split size data).flatten = data := by
  have hpieces := Nat.lt_mul_div_succ (data.length - 1) hsize
  rw [Nat.mul_comm] at hpieces
  rw [split, flatten_pieces, List.take_of_length_le]
  omega

/-! ## Chunks -/

theorem takeChunk_toBytes {chunk : Chunk} (hkind : chunk.kind.length = 4)
    (hdata : chunk.data.length < 2 ^ 32) (rest : List UInt8) :
    takeChunk (chunk.toBytes ++ rest) = some (chunk, rest) := by
  have hlength : (chunk.kind ++ chunk.data).length = 4 + chunk.data.length := by
    rw [List.length_append, hkind]
  simp only [takeChunk, Chunk.toBytes, List.append_assoc, takeWord_word hdata,
    Option.bind_eq_bind, Option.bind_some]
  rw [← List.append_assoc chunk.kind, List.take_left' hlength, List.drop_left' hlength,
    takeWord_word_toNat]
  simp only [Option.bind_some, if_true, List.take_left' hkind, List.drop_left' hkind]

structure Chunk.Fits (chunk : Chunk) : Prop where
  kind : chunk.kind.length = 4
  data : chunk.data.length < 2 ^ 32

theorem takeAll_flatMap_toBytes {chunks : List Chunk} (h : ∀ chunk ∈ chunks, chunk.Fits)
    {fuel : Nat} (hfuel : chunks.length ≤ fuel) :
    Image.takeAll takeChunk fuel (chunks.flatMap Chunk.toBytes) = some chunks :=
  Image.takeAll_flatMap
    (fun chunk hchunk => takeChunk_toBytes (h chunk hchunk).kind (h chunk hchunk).data)
    (fun _ _ => List.cons_ne_nil _ _) hfuel

/-! ## Stored blocks -/

theorem takeBlocks_storedBlocks {blocks : List (List UInt8)} (hne : blocks ≠ [])
    (h : ∀ block ∈ blocks, block.length ≤ maxBlockSize) {fuel : Nat}
    (hfuel : blocks.length ≤ fuel) (rest : List UInt8) :
    takeBlocks fuel (storedBlocks blocks ++ rest) = some (blocks.flatten, rest) := by
  induction blocks generalizing fuel with
  | nil => exact absurd rfl hne
  | cons block blocks ih =>
      obtain ⟨fuel, rfl⟩ := Nat.exists_eq_add_of_lt (Nat.zero_lt_of_lt hfuel)
      have hsize := toNat_shortWord (h block List.mem_cons_self)
      simp only [storedBlocks, shortWord, List.cons_append, List.nil_append, List.append_assoc]
      rw [takeBlocks, hsize, List.take_left, List.drop_left]
      cases blocks with
      | nil =>
          simp only [List.isEmpty_nil, if_true, storedBlocks, List.nil_append,
            List.flatten_cons, List.flatten_nil, List.append_nil]
      | cons next blocks =>
          have hnext := ih (List.cons_ne_nil next blocks)
            (fun other hother => h other (List.mem_cons_of_mem block hother))
            (Nat.le_of_succ_le_succ hfuel)
          simp only [List.isEmpty_cons, hnext, Option.bind_eq_bind, Option.bind_some]
          rfl

theorem length_le_storedBlocks (blocks : List (List UInt8)) :
    blocks.length ≤ (storedBlocks blocks).length := by
  induction blocks with
  | nil => exact Nat.zero_le _
  | cons block blocks ih =>
      simp only [storedBlocks, List.length_cons, List.length_append]
      omega

theorem ofZlibStream_zlibStream (data : List UInt8) :
    ofZlibStream (zlibStream data) = some data := by
  have hne : split maxBlockSize data ≠ [] := List.cons_ne_nil _ _
  have hfuel : (split maxBlockSize data).length ≤ (zlibStream data).length := by
    have hblocks := length_le_storedBlocks (split maxBlockSize data)
    rw [zlibStream, List.length_append, List.length_append]
    omega
  have htake := takeBlocks_storedBlocks hne (fun block => length_le_of_mem_pieces) hfuel
    (word (adler32 data).toNat)
  rw [flatten_split (by decide)] at htake
  have hdrop : (zlibStream data).drop 2 =
      storedBlocks (split maxBlockSize data) ++ word (adler32 data).toNat := rfl
  have hcheck := takeWord_word_toNat (adler32 data) []
  rw [List.append_nil] at hcheck
  simp only [ofZlibStream, hdrop, htake, hcheck, Option.bind_eq_bind, Option.bind_some, if_true]

/-! ## Files -/

theorem mapM_unfiltered? (rows : List (List UInt8)) :
    (rows.map (0 :: ·)).mapM unfiltered? = some rows := by
  induction rows with
  | nil => rfl
  | cons row rows ih =>
      rw [List.map_cons, List.mapM_cons, ih]
      rfl

theorem pieces_unfilteredRows {rowSize height : Nat} {rows : List UInt8}
    (h : rows.length = height * rowSize) :
    pieces (rowSize + 1) height (unfilteredRows rowSize height rows) =
      (pieces rowSize height rows).map (0 :: ·) := by
  have hlines : ∀ line ∈ (pieces rowSize height rows).map (0 :: ·), line.length = rowSize + 1 := by
    intro line hline
    obtain ⟨row, hrow, rfl⟩ := List.mem_map.mp hline
    rw [List.length_cons, length_of_mem_pieces h hrow]
  have hpieces := pieces_flatten hlines
  rw [List.length_map, length_pieces] at hpieces
  rw [unfilteredRows, List.flatMap_def (l := pieces rowSize height rows), hpieces]

theorem formatOf?_pixelData (format : PixelFormat) :
    formatOf? (pixelData format) = some format := by
  cases format <;> rfl

section

variable {width height : Nat} (hwidth : width < 2 ^ 32) (hheight : height < 2 ^ 32)
  {format : PixelFormat} {rows : List UInt8}

theorem fits_chunksOf : ∀ chunk ∈ chunksOf width height format rows, chunk.Fits := by
  have hhead : headKind.length = 4 := by decide +kernel
  have hdata : dataKind.length = 4 := by decide +kernel
  have hend : endKind.length = 4 := by decide +kernel
  intro chunk hchunk
  rcases List.mem_cons.mp hchunk with rfl | hchunk
  · have hpixels : (pixelData format).length = 5 := by cases format <;> rfl
    exact ⟨hhead, by simp [headerData, word, hpixels]⟩
  · rcases List.mem_append.mp hchunk with hchunk | hchunk
    · obtain ⟨piece, hpiece, rfl⟩ := List.mem_map.mp hchunk
      exact ⟨hdata, Nat.lt_of_le_of_lt (length_le_of_mem_pieces hpiece) (by decide)⟩
    · obtain rfl := List.mem_singleton.mp hchunk
      exact ⟨hend, by decide⟩

theorem data_of_chunks (pieces : List (List UInt8)) :
    ((pieces.map (Chunk.mk dataKind) ++ [Chunk.mk endKind []]).filter fun chunk =>
      decide (chunk.kind = dataKind)).flatMap Chunk.data = pieces.flatten := by
  have hend : decide (endKind = dataKind) = false := by decide +kernel
  induction pieces with
  | nil => simp [hend]
  | cons piece pieces ih =>
      rw [List.map_cons, List.cons_append, List.filter_cons_of_pos (by simp),
        List.flatMap_cons, ih, List.flatten_cons]

include hwidth hheight

theorem ofChunks_chunksOf (h : rows.length = height * (width * format.channels)) :
    ofChunks (chunksOf width height format rows) = some ⟨width, height, format, rows.toArray⟩ := by
  have hmax : 0 < maxChunkSize := by decide
  simp only [chunksOf, ofChunks, headerData, List.append_assoc, takeWord_word hwidth,
    takeWord_word hheight, data_of_chunks, flatten_split hmax, ofZlibStream_zlibStream,
    formatOf?_pixelData, pieces_unfilteredRows h, mapM_unfiltered?, flatten_pieces,
    Option.bind_eq_bind, Option.bind_some]
  rw [List.take_of_length_le (Nat.le_of_eq h)]
  simp

theorem decode_encode {rows bytes : Array UInt8}
    (hrows : rows.size = width * height * format.channels)
    (h : encode width height format rows = .ok bytes) :
    decode bytes = some ⟨width, height, format, rows⟩ := by
  have hlength : rows.toList.length = height * (width * format.channels) := by
    rw [Array.length_toList, hrows, Nat.mul_comm width, Nat.mul_assoc]
  unfold encode at h
  split_ifs at h
  obtain rfl := Except.ok.inj h
  have hfuel : (chunksOf width height format rows.toList).length ≤
      (signature ++ (chunksOf width height format rows.toList).flatMap
        Chunk.toBytes).toArray.size := by
    rw [List.size_toArray, List.length_append]
    exact Nat.le_add_left_of_le (length_le_length_flatMap fun _ _ => List.cons_ne_nil _ _)
  have htake := takeAll_flatMap_toBytes fits_chunksOf hfuel
  have hsignature : signature.length = 8 := rfl
  rw [decode, List.toList_toArray, List.take_left' hsignature, List.drop_left' hsignature,
    if_pos rfl, htake, Option.bind_some, ofChunks_chunksOf hwidth hheight hlength,
    Array.toArray_toList]

end

end DepthRaster.Png
