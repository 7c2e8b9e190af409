import DepthRaster.Image.Tga
import DepthRaster.Proofs.Image.Items
import Mathlib.Tactic.SplitIfs
/-!
# TGA files that read back

The packer forgets no pixel: its packets and the packet in the making hold what it took, in order.
Packets are of a length that their heads can say, so they read back one after the other, and with
them the file.
-/

namespace DepthRaster.Tga

/-! ## Packing -/

def Packet.Fits (packet : Packet) : Prop :=
  0 < packet.expand.length ∧ packet.expand.length ≤ maxPacketLength

namespace Packer

/-- The pixels that a packer took. In a run all that are not packed yet are the previous one. -/
structure Holds (s : Packer) (taken : List Pixel) : Prop where
  taken : s.packets.toList.flatMap Packet.expand ++ s.pending.toList = taken
  run : s.inRun = true → ∀ pixel ∈ s.pending.toList, s.previous = some pixel
  packets : ∀ packet ∈ s.packets.toList, packet.Fits

variable {s : Packer} {taken : List Pixel}

theorem Holds.empty : Holds {} [] :=
  ⟨rfl, fun _ => List.forall_mem_nil _, List.forall_mem_nil _⟩

theorem close_of_isEmpty (h : s.pending.isEmpty = true) : s.close = s :=
  if_pos h

def making (s : Packer) : Packet :=
  if s.inRun then .run s.pending.size (s.previous.getD []) else .raw s.pending.toList

theorem close_of_not_isEmpty (h : ¬ s.pending.isEmpty = true) :
    s.close = { s with packets := s.packets.push s.making, pending := #[] } :=
  if_neg h

theorem pending_close (s : Packer) : s.close.pending.toList = [] := by
  by_cases hempty : s.pending.isEmpty = true
  · rw [close_of_isEmpty hempty]
    simpa using hempty
  · rw [close_of_not_isEmpty hempty]

theorem Holds.expand_making (h : s.Holds taken) : s.making.expand = s.pending.toList := by
  rw [making]
  split_ifs with hrun
  · rw [Packet.expand]
    refine (List.eq_replicate_iff.mpr ⟨Array.length_toList, fun pixel hpixel => ?_⟩).symm
    rw [h.run hrun pixel hpixel, Option.getD_some]
  · rfl

theorem Holds.close (h : s.Holds taken) (hroom : s.pending.size ≤ maxPacketLength) (inRun : Bool) :
    Holds { s.close with inRun } taken := by
  have hnone : s.close.pending.toList = [] := pending_close s
  have hrun : ∀ pixel ∈ s.close.pending.toList, s.close.previous = some pixel := by
    rw [hnone]
    exact List.forall_mem_nil _
  by_cases hempty : s.pending.isEmpty = true
  · rw [close_of_isEmpty hempty] at hrun ⊢
    exact ⟨h.taken, fun _ => hrun, h.packets⟩
  · rw [close_of_not_isEmpty hempty] at hrun ⊢
    refine ⟨?_, fun _ => hrun, ?_⟩
    · rw [List.append_nil, Array.toList_push, List.flatMap_append, List.flatMap_singleton,
        h.expand_making]
      exact h.taken
    · rw [Array.toList_push, List.forall_mem_append, List.forall_mem_singleton]
      refine ⟨h.packets, ?_⟩
      rw [Packet.Fits, h.expand_making, Array.length_toList]
      exact ⟨Nat.pos_of_ne_zero fun hsize => hempty (by simpa [Array.isEmpty] using hsize), hroom⟩

theorem Holds.turn (h : s.Holds taken) (hroom : s.pending.size ≤ maxPacketLength) (pixel : Pixel) :
    (s.turn pixel).Holds taken ∧
      ((s.turn pixel).inRun = true → ∀ other ∈ (s.turn pixel).pending.toList, other = pixel) ∧
      (s.turn pixel).pending.size ≤ s.pending.size := by
  have hclosed : s.close.pending.size ≤ s.pending.size := by
    rw [← Array.length_toList, pending_close]
    exact Nat.zero_le _
  unfold Packer.turn
  cases hprevious : s.previous with
  | none =>
      refine ⟨h, fun hrun other hother => ?_, Nat.le_refl _⟩
      exact absurd (hprevious.symm.trans (h.run hrun other hother)) nofun
  | some previous =>
      dsimp only
      split_ifs with hsame hrun hturn
      · refine ⟨⟨h.taken, fun _ => h.run hrun, h.packets⟩, fun _ other hother => ?_, Nat.le_refl _⟩
        exact hsame ▸ (Option.some.inj (hprevious.symm.trans (h.run hrun other hother))).symm
      · refine ⟨h.close hroom true, fun _ => ?_, hclosed⟩
        rw [pending_close]
        exact List.forall_mem_nil _
      · exact ⟨h.close hroom false, nofun, hclosed⟩
      · refine ⟨h, fun hrun => ?_, Nat.le_refl _⟩
        have hempty : s.pending = #[] := by simpa [hrun] using hturn
        rw [hempty]
        exact List.forall_mem_nil _

theorem Holds.push (h : s.Holds taken) (hroom : s.pending.size < maxPacketLength) (pixel : Pixel) :
    (s.push pixel).Holds (taken ++ [pixel]) ∧ (s.push pixel).pending.size < maxPacketLength := by
  obtain ⟨hturn, hrun, hsize⟩ := h.turn (Nat.le_of_lt hroom) pixel
  have htaken : Holds { s.turn pixel with
      pending := (s.turn pixel).pending.push pixel
      previous := some pixel } (taken ++ [pixel]) := by
    refine ⟨?_, fun hin other hother => ?_, hturn.packets⟩
    · rw [Array.toList_push, ← List.append_assoc, hturn.taken]
    · rw [Array.toList_push] at hother
      rcases List.mem_append.mp hother with hother | hother
      · exact congrArg some (hrun hin other hother).symm
      · exact congrArg some (List.mem_singleton.mp hother).symm
  unfold Packer.push
  dsimp only
  split_ifs with hfull
  · refine ⟨htaken.close (Nat.le_of_eq hfull) true, ?_⟩
    rw [← Array.length_toList, pending_close]
    decide
  · refine ⟨htaken, Nat.lt_of_le_of_ne ?_ hfull⟩
    rw [Array.size_push]
    omega

theorem Holds.foldl (h : s.Holds taken) (hroom : s.pending.size < maxPacketLength)
    (pixels : List Pixel) :
    (pixels.foldl Packer.push s).Holds (taken ++ pixels) ∧
      (pixels.foldl Packer.push s).pending.size < maxPacketLength := by
  induction pixels generalizing s taken with
  | nil => exact ⟨by rwa [List.append_nil], hroom⟩
  | cons pixel pixels ih =>
      obtain ⟨hpush, hroom⟩ := h.push hroom pixel
      rw [List.foldl_cons, List.append_cons]
      exact ih hpush hroom

end Packer

theorem packetsOf_spec (pixels : List Pixel) :
    (packetsOf pixels).flatMap Packet.expand = pixels ∧
      ∀ packet ∈ packetsOf pixels, packet.Fits := by
  obtain ⟨hholds, hroom⟩ := Packer.Holds.empty.foldl (by decide) pixels
  have hclose := hholds.close (Nat.le_of_lt hroom) true
  have htaken := hclose.taken
  rw [Packer.pending_close, List.append_nil, List.nil_append] at htaken
  exact ⟨htaken, hclose.packets⟩

/-! ## Packets read back -/

theorem head_of_lt : ∀ n < 128, (UInt8.ofNat n &&& 0x7F).toNat = n ∧ UInt8.ofNat n &&& 0x80 = 0 ∧
    ((0x80 ||| UInt8.ofNat n) &&& 0x7F).toNat = n ∧ (0x80 ||| UInt8.ofNat n) &&& 0x80 ≠ 0 := by
  decide +kernel

section

variable {channels : Nat}

theorem takePixel_reverse {pixel : Pixel} (h : pixel.length = channels) (rest : List UInt8) :
    takePixel channels (pixel.reverse ++ rest) = some (pixel, rest) := by
  have hlength : pixel.reverse.length = channels := List.length_reverse.trans h
  rw [takePixel, if_neg, List.take_left' hlength, List.drop_left' hlength, List.reverse_reverse]
  rw [List.length_append, hlength]
  omega

theorem takePixels_flatMap {pixels : List Pixel} (h : ∀ pixel ∈ pixels, pixel.length = channels)
    (rest : List UInt8) :
    takePixels channels pixels.length (pixels.flatMap List.reverse ++ rest) =
      some (pixels, rest) := by
  induction pixels with
  | nil => rfl
  | cons pixel pixels ih =>
      have hpixel := takePixel_reverse (h pixel List.mem_cons_self)
        (pixels.flatMap List.reverse ++ rest)
      have hpixels := ih fun other hother => h other (List.mem_cons_of_mem pixel hother)
      rw [List.flatMap_cons, List.append_assoc, List.length_cons, takePixels, hpixel]
      simp only [Option.bind_eq_bind, Option.bind_some, hpixels]
      rfl

theorem takePacket_toBytes {packet : Packet} (hfits : packet.Fits)
    (h : ∀ pixel ∈ packet.expand, pixel.length = channels) (rest : List UInt8) :
    takePacket channels (packet.toBytes ++ rest) = some (packet, rest) := by
  obtain ⟨hpos, hmax⟩ := hfits
  cases packet with
  | run length pixel =>
      simp only [Packet.expand, List.length_replicate, maxPacketLength] at hpos hmax
      obtain ⟨-, -, hcount, hmark⟩ := head_of_lt (length - 1) (by omega)
      have hpixel := takePixel_reverse
        (h pixel (List.mem_replicate.mpr ⟨Nat.ne_of_gt hpos, rfl⟩)) rest
      rw [Packet.toBytes, List.cons_append, takePacket, if_neg hmark, hpixel, hcount,
        Nat.sub_add_cancel hpos]
      rfl
  | raw pixels =>
      simp only [Packet.expand, maxPacketLength] at hpos hmax
      obtain ⟨hcount, hmark, -⟩ := head_of_lt (pixels.length - 1) (by omega)
      have hpixels := takePixels_flatMap h rest
      rw [Packet.expand] at hpixels
      rw [Packet.toBytes, List.cons_append, takePacket, if_pos hmark, hcount,
        Nat.sub_add_cancel hpos, hpixels]
      rfl

end

theorem toBytes_ne_nil (packet : Packet) : packet.toBytes ≠ [] := by
  cases packet with
  | run length pixel => exact List.cons_ne_nil _ _
  | raw pixels => exact List.cons_ne_nil _ _

/-! ## Files -/

theorem toNat_word {n : Nat} (h : n < 65536) :
    (UInt8.ofNat n).toNat + 256 * (UInt8.ofNat (n / 256)).toNat = n := by
  simp only [UInt8.toNat_ofNat', Nat.reducePow]
  omega

theorem decode_encode {width height : Nat} {format : PixelFormat} {rows bytes : Array UInt8}
    (hlength : (Image.pixelsOf format rows).length = width * height)
    (hpixels : ∀ pixel ∈ Image.pixelsOf format rows, pixel.length = format.channels)
    (h : encode width height format rows = .ok bytes) :
    decode bytes.toList = some ⟨width, height, format, Image.pixelsOf format rows⟩ := by
  obtain ⟨hexpand, hfits⟩ := packetsOf_spec (Image.pixelsOf format rows)
  unfold encode at h
  split_ifs at h with hempty hwide hhigh
  obtain rfl := Except.ok.inj h
  have hhead : (header width height format).length = 18 := rfl
  have hwidth := toNat_word (Nat.lt_of_not_le hwide)
  have hheight := toNat_word (Nat.lt_of_not_le hhigh)
  have hformat : (if (header width height format).getD 2 0 = 10 then PixelFormat.rgb
      else .gray) = format := by
    cases format <;> rfl
  have hpacket : ∀ packet ∈ packetsOf (Image.pixelsOf format rows), ∀ rest,
      takePacket format.channels (packet.toBytes ++ rest) = some (packet, rest) := by
    intro packet hmem
    refine takePacket_toBytes (hfits packet hmem) fun pixel hpixel => hpixels pixel ?_
    exact hexpand ▸ List.mem_flatMap_of_mem hmem hpixel
  have htake := Image.takeAll_flatMap hpacket (fun packet _ => toBytes_ne_nil packet)
    (length_le_length_flatMap fun packet _ => toBytes_ne_nil packet)
  simp only [decode, List.take_left' hhead, List.drop_left' hhead, hformat]
  have hwidth' : ((header width height format).getD 12 0).toNat +
      256 * ((header width height format).getD (12 + 1) 0).toNat = width := hwidth
  have hheight' : ((header width height format).getD 14 0).toNat +
      256 * ((header width height format).getD (14 + 1) 0).toNat = height := hheight
  rw [hwidth', hheight', if_neg fun hne => hne rfl, htake]
  simp only [Option.bind_eq_bind, Option.bind_some, hexpand]
  rw [if_pos hlength]

end DepthRaster.Tga
