import DepthRaster.Image.Basic
import Mathlib.Data.List.Basic
import Mathlib.Tactic.SplitIfs
/-!
# Pixels of images

Setting a pixel changes the bytes of that pixel and no others. So after a number of settings a pixel
shows what was last set there.
-/

namespace DepthRaster.Image

def Has (image : Image) (x y : Int) : Prop :=
  0 ≤ x ∧ 0 ≤ y ∧ x < image.width ∧ y < image.height

instance (image : Image) (x y : Int) : Decidable (image.Has x y) :=
  inferInstanceAs (Decidable (_ ∧ _))

theorem has_of_lt {image : Image} {x y : Nat} (hx : x < image.width) (hy : y < image.height) :
    image.Has x y :=
  ⟨Int.natCast_nonneg x, Int.natCast_nonneg y, Int.ofNat_lt.mpr hx, Int.ofNat_lt.mpr hy⟩

theorem Has.exists_nat {image : Image} {x y : Int} (h : image.Has x y) :
    ∃ i j : Nat, x = i ∧ y = j ∧ i < image.width ∧ j < image.height := by
  obtain ⟨hx, hy, hxw, hyh⟩ := h
  exact ⟨x.toNat, y.toNat, by omega, by omega, by omega, by omega⟩

def start (image : Image) (x y : Int) : Nat :=
  (y.toNat * image.width + x.toNat) * image.format.channels

theorem offset?_eq_some (image : Image) {x y : Int} (h : image.Has x y) :
    offset? image.width image.height image.format.channels x y = some (image.start x y) :=
  if_pos h

theorem offset?_eq_none (image : Image) {x y : Int} (h : ¬ image.Has x y) :
    offset? image.width image.height image.format.channels x y = none :=
  if_neg h

theorem start_add_le {image : Image} {x y : Int} (h : image.Has x y) :
    image.start x y + image.format.channels ≤ image.bytes.size := by
  obtain ⟨hx, hy, hxw, hyh⟩ := h
  have hrow : y.toNat * image.width + x.toNat + 1 ≤ image.width * image.height := by
    have hcell : y.toNat * image.width + x.toNat < (y.toNat + 1) * image.width := by
      rw [Nat.succ_mul]
      omega
    have hrows : (y.toNat + 1) * image.width ≤ image.height * image.width :=
      Nat.mul_le_mul_right _ (by omega)
    rw [Nat.mul_comm image.width]
    omega
  have hbytes := Nat.mul_le_mul_right image.format.channels hrow
  rw [image.size_bytes, start]
  rw [Nat.succ_mul] at hbytes
  exact hbytes

theorem start_disjoint {image : Image} {x y x' y' : Int} (h : image.Has x y)
    (h' : image.Has x' y') (hne : ¬ (x = x' ∧ y = y')) :
    image.start x y + image.format.channels ≤ image.start x' y' ∨
      image.start x' y' + image.format.channels ≤ image.start x y := by
  obtain ⟨hx, hy, hxw, hyh⟩ := h
  obtain ⟨hx', hy', hxw', hyh'⟩ := h'
  have hcells : y.toNat * image.width + x.toNat < y'.toNat * image.width + x'.toNat ∨
      y'.toNat * image.width + x'.toNat < y.toNat * image.width + x.toNat := by
    rcases Nat.lt_trichotomy y.toNat y'.toNat with hlt | heq | hgt
    · have := Nat.mul_le_mul_right image.width (show y.toNat + 1 ≤ y'.toNat from hlt)
      rw [Nat.succ_mul] at this
      omega
    · rw [heq]
      omega
    · have := Nat.mul_le_mul_right image.width (show y'.toNat + 1 ≤ y.toNat from hgt)
      rw [Nat.succ_mul] at this
      omega
  unfold start
  rcases hcells with hlt | hgt
  · have := Nat.mul_le_mul_right image.format.channels (Nat.succ_le_of_lt hlt)
    rw [Nat.succ_mul] at this
    exact Or.inl this
  · have := Nat.mul_le_mul_right image.format.channels (Nat.succ_le_of_lt hgt)
    rw [Nat.succ_mul] at this
    exact Or.inr this

theorem getElem?_overwrite (values : List UInt8) (bytes : Array UInt8) (start i : Nat)
    (h : start + values.length ≤ bytes.size) :
    (overwrite bytes start values)[i]? =
      if start ≤ i ∧ i < start + values.length then values[i - start]? else bytes[i]? := by
  induction values generalizing bytes start with
  | nil =>
      rw [if_neg (by simp)]
      rfl
  | cons value values ih =>
      rw [List.length_cons] at h
      rw [overwrite, ih _ _ (by rw [Array.size_setIfInBounds]; omega), List.length_cons]
      rcases Nat.lt_trichotomy i start with hlt | heq | hgt
      · rw [if_neg (by omega), if_neg (by omega), Array.getElem?_setIfInBounds_ne (by omega)]
      · subst heq
        rw [if_neg (by omega), if_pos (by omega),
          Array.getElem?_setIfInBounds_self_of_lt (by omega), Nat.sub_self]
        rfl
      · rw [Array.getElem?_setIfInBounds_ne (by omega),
          show i - start = i - (start + 1) + 1 by omega, List.getElem?_cons_succ]
        by_cases hin : i < start + (values.length + 1)
        · rw [if_pos (by omega), if_pos (by omega)]
        · rw [if_neg (by omega), if_neg (by omega)]

theorem setPixel_eq_self {image : Image} {x y : Int} {color : List UInt8}
    (h : ¬ (image.Has x y ∧ image.format.channels ≤ color.length)) :
    image.setPixel x y color = (image, false) := by
  obtain ⟨width, height, format, bytes, size⟩ := image
  simp only [setPixel]
  split_ifs with hshort
  · rfl
  · rw [offset?_eq_none ⟨width, height, format, bytes, size⟩
      (fun hin => h ⟨hin, Nat.le_of_not_lt hshort⟩)]

def overwriteAt (image : Image) (start : Nat) (values : List UInt8) : Image :=
  { image with
    bytes := overwrite image.bytes start values
    size_bytes := (size_overwrite values image.bytes start).trans image.size_bytes }

theorem setPixel_eq_overwriteAt {image : Image} {x y : Int} {color : List UInt8}
    (hin : image.Has x y) (hlong : image.format.channels ≤ color.length) :
    image.setPixel x y color =
      (image.overwriteAt (image.start x y) (color.take image.format.channels), true) := by
  obtain ⟨width, height, format, bytes, size⟩ := image
  simp only [setPixel]
  rw [if_neg (Nat.not_lt.mpr hlong),
    offset?_eq_some ⟨width, height, format, bytes, size⟩ hin]
  rfl

theorem shape_setPixel (image : Image) (x y : Int) (color : List UInt8) :
    (image.setPixel x y color).1.width = image.width ∧
      (image.setPixel x y color).1.height = image.height ∧
      (image.setPixel x y color).1.format = image.format := by
  by_cases h : image.Has x y ∧ image.format.channels ≤ color.length
  · rw [setPixel_eq_overwriteAt h.1 h.2]
    exact ⟨rfl, rfl, rfl⟩
  · rw [setPixel_eq_self h]
    exact ⟨rfl, rfl, rfl⟩

@[simp] theorem width_setPixel (image : Image) (x y : Int) (color : List UInt8) :
    (image.setPixel x y color).1.width = image.width :=
  (shape_setPixel image x y color).1

@[simp] theorem height_setPixel (image : Image) (x y : Int) (color : List UInt8) :
    (image.setPixel x y color).1.height = image.height :=
  (shape_setPixel image x y color).2.1

@[simp] theorem format_setPixel (image : Image) (x y : Int) (color : List UInt8) :
    (image.setPixel x y color).1.format = image.format :=
  (shape_setPixel image x y color).2.2

theorem getPixel_eq_none {image : Image} {x y : Int} (h : ¬ image.Has x y) :
    image.getPixel x y = none := by
  rw [getPixel, offset?_eq_none image h]
  rfl

theorem getPixel_eq_extract {image : Image} {x y : Int} (h : image.Has x y) :
    image.getPixel x y =
      some (image.bytes.extract (image.start x y)
        (image.start x y + image.format.channels)).toList := by
  rw [getPixel, offset?_eq_some image h]
  rfl

theorem getElem?_extract_start {image : Image} {x y : Int} (h : image.Has x y) (i : Nat) :
    (image.bytes.extract (image.start x y)
        (image.start x y + image.format.channels)).toList[i]? =
      if i < image.format.channels then image.bytes[image.start x y + i]? else none := by
  rw [Array.getElem?_toList, Array.getElem?_extract, Nat.min_eq_left (start_add_le h),
    Nat.add_sub_cancel_left]

theorem getPixel_overwriteAt {image : Image} {x y : Int} (hin : image.Has x y) {start : Nat}
    {values color : List UInt8} (hfits : start + values.length ≤ image.bytes.size)
    (hlength : color.length = image.format.channels)
    (hbytes : ∀ i < image.format.channels,
      (if start ≤ image.start x y + i ∧ image.start x y + i < start + values.length
        then values[image.start x y + i - start]?
        else image.bytes[image.start x y + i]?) = color[i]?) :
    (image.overwriteAt start values).getPixel x y = some color := by
  have hin' : (image.overwriteAt start values).Has x y := hin
  rw [getPixel_eq_extract hin']
  congr 1
  apply List.ext_getElem?
  intro i
  rw [getElem?_extract_start hin']
  split_ifs with hi
  · exact (getElem?_overwrite values image.bytes start _ hfits).trans (hbytes i hi)
  · exact (List.getElem?_eq_none (by rw [hlength]; exact Nat.le_of_not_lt hi)).symm

theorem getPixel_setPixel_self {image : Image} {x y : Int} {color : List UInt8}
    (hin : image.Has x y) (hlong : image.format.channels ≤ color.length) :
    (image.setPixel x y color).1.getPixel x y = some (color.take image.format.channels) := by
  have hlength : (color.take image.format.channels).length = image.format.channels :=
    List.length_take_of_le hlong
  rw [setPixel_eq_overwriteAt hin hlong]
  apply getPixel_overwriteAt hin (by rw [hlength]; exact start_add_le hin) hlength
  intro i hi
  rw [if_pos (by omega), Nat.add_sub_cancel_left]

theorem getPixel_setPixel_of_ne (image : Image) {x y x' y' : Int} (color : List UInt8)
    (hne : ¬ (x = x' ∧ y = y')) :
    (image.setPixel x y color).1.getPixel x' y' = image.getPixel x' y' := by
  by_cases h : image.Has x y ∧ image.format.channels ≤ color.length
  · obtain ⟨hin, hlong⟩ := h
    have hlength : (color.take image.format.channels).length = image.format.channels :=
      List.length_take_of_le hlong
    rw [setPixel_eq_overwriteAt hin hlong]
    by_cases hin' : image.Has x' y'
    · have happart := start_disjoint hin hin' hne
      have hfits := start_add_le hin'
      rw [getPixel_eq_extract hin']
      apply getPixel_overwriteAt hin' (by rw [hlength]; exact start_add_le hin)
        (by simp; omega)
      intro i hi
      rw [if_neg (by omega), getElem?_extract_start hin', if_pos hi]
    · rw [getPixel_eq_none hin']
      exact getPixel_eq_none hin'
  · rw [setPixel_eq_self h]

theorem getPixel_blank {width height : Nat} {format : PixelFormat} {x y : Int}
    (h : (blank width height format).Has x y) :
    (blank width height format).getPixel x y = some (List.replicate format.channels 0) := by
  have hfits := start_add_le h
  rw [getPixel_eq_extract h]
  congr 1
  apply List.ext_getElem?
  intro i
  rw [getElem?_extract_start h]
  simp only [blank, Array.size_replicate] at hfits
  simp only [blank, Array.getElem?_replicate, List.getElem?_replicate]
  split_ifs
  · rfl
  · omega
  · rfl

theorem exists_start_add {image : Image} {i : Nat} (hi : i < image.bytes.size) :
    ∃ x y : Int, image.Has x y ∧
      ∃ k < image.format.channels, image.start x y + k = i := by
  have hsize := image.size_bytes ▸ hi
  have hchannels : 0 < image.format.channels := Nat.pos_of_mul_pos_left (Nat.zero_lt_of_lt hsize)
  have hcell : i / image.format.channels < image.width * image.height :=
    Nat.div_lt_of_lt_mul (by rwa [Nat.mul_comm])
  have hwidth : 0 < image.width := Nat.pos_of_mul_pos_right (Nat.zero_lt_of_lt hcell)
  have hx := Nat.mod_lt (i / image.format.channels) hwidth
  have hy : i / image.format.channels / image.width < image.height := Nat.div_lt_of_lt_mul hcell
  refine ⟨(i / image.format.channels % image.width : Nat),
    (i / image.format.channels / image.width : Nat), has_of_lt hx hy, i % image.format.channels,
    Nat.mod_lt i hchannels, ?_⟩
  rw [start, Int.toNat_natCast, Int.toNat_natCast, Nat.div_add_mod', Nat.div_add_mod']

theorem exists_getPixel_of_mem_bytes {image : Image} {byte : UInt8} (h : byte ∈ image.bytes) :
    ∃ x y : Int, image.Has x y ∧ ∃ color, image.getPixel x y = some color ∧ byte ∈ color := by
  obtain ⟨i, hi, hbyte⟩ := Array.mem_iff_getElem.mp h
  obtain ⟨x, y, hin, k, hk, rfl⟩ := exists_start_add hi
  refine ⟨x, y, hin, _, getPixel_eq_extract hin, List.mem_of_getElem? (i := k) ?_⟩
  rw [getElem?_extract_start hin, if_pos hk, Array.getElem?_eq_getElem hi, hbyte]

/-- Images of one shape that show the same at each of their pixels are the same. -/
theorem ext_getPixel {a b : Image} (hwidth : a.width = b.width) (hheight : a.height = b.height)
    (hformat : a.format = b.format) (h : ∀ x y, a.Has x y → a.getPixel x y = b.getPixel x y) :
    a = b := by
  have hbytes : a.bytes = b.bytes := by
    have hsize : a.bytes.size = b.bytes.size := by
      rw [a.size_bytes, b.size_bytes, hwidth, hheight, hformat]
    apply Array.ext_getElem?
    intro i
    by_cases hi : i < a.bytes.size
    · obtain ⟨x, y, hin, k, hk, rfl⟩ := exists_start_add hi
      have hin' : b.Has x y := by rwa [Has, ← hwidth, ← hheight]
      have hstart : b.start x y = a.start x y := by rw [start, start, hwidth, hformat]
      have hpixel := h x y hin
      rw [getPixel_eq_extract hin, getPixel_eq_extract hin', Option.some.injEq] at hpixel
      have hbyte := congrArg (·[k]?) hpixel
      rwa [getElem?_extract_start hin, getElem?_extract_start hin', if_pos hk,
        if_pos (hformat ▸ hk : k < b.format.channels), hstart] at hbyte
    · rw [Array.getElem?_eq_none (Nat.le_of_not_lt hi),
        Array.getElem?_eq_none (hsize ▸ Nat.le_of_not_lt hi)]
  obtain ⟨width, height, format, bytes, size⟩ := a
  obtain ⟨width', height', format', bytes', size'⟩ := b
  obtain rfl : width = width' := hwidth
  obtain rfl : height = height' := hheight
  obtain rfl : format = format' := hformat
  obtain rfl : bytes = bytes' := hbytes
  rfl

/-! ## Runs of settings -/

section

variable {ι : Type} (place : ι → Int × Int) (value : ι → List UInt8)

def setAll (image : Image) (items : List ι) : Image :=
  items.foldl (fun image i => (image.setPixel (place i).1 (place i).2 (value i)).1) image

theorem shape_setAll (image : Image) (items : List ι) :
    (image.setAll place value items).width = image.width ∧
      (image.setAll place value items).height = image.height ∧
      (image.setAll place value items).format = image.format := by
  induction items generalizing image with
  | nil => exact ⟨rfl, rfl, rfl⟩
  | cons i items ih =>
      have h := ih (image.setPixel (place i).1 (place i).2 (value i)).1
      rw [width_setPixel, height_setPixel, format_setPixel] at h
      exact h

theorem getPixel_setAll_of_not_mem (image : Image) (items : List ι) {x y : Int}
    (h : ∀ i ∈ items, place i ≠ (x, y)) :
    (image.setAll place value items).getPixel x y = image.getPixel x y := by
  induction items generalizing image with
  | nil => rfl
  | cons i items ih =>
      have hrest := ih (image.setPixel (place i).1 (place i).2 (value i)).1
        fun j hj => h j (List.mem_cons_of_mem i hj)
      refine hrest.trans (getPixel_setPixel_of_ne image _ ?_)
      intro heq
      exact h i List.mem_cons_self (Prod.ext heq.1 heq.2)

/-- A pixel shows what it showed before, or what some setting about it says. -/
theorem getPixel_setAll_eq_or (image : Image) (items : List ι) {x y : Int} (hin : image.Has x y)
    (hlong : ∀ i, image.format.channels ≤ (value i).length) :
    (image.setAll place value items).getPixel x y = image.getPixel x y ∨
      ∃ i ∈ items, place i = (x, y) ∧ (image.setAll place value items).getPixel x y =
        some ((value i).take image.format.channels) := by
  induction items generalizing image with
  | nil => exact Or.inl rfl
  | cons i items ih =>
      have hrest := ih (image.setPixel (place i).1 (place i).2 (value i)).1
        (by simpa [Has] using hin) (by simpa using hlong)
      rw [format_setPixel] at hrest
      rcases hrest with hbefore | ⟨j, hj, hplace, hvalue⟩
      · by_cases hi : place i = (x, y)
        · refine Or.inr ⟨i, List.mem_cons_self, hi, hbefore.trans ?_⟩
          rw [hi]
          exact getPixel_setPixel_self hin (hlong i)
        · refine Or.inl (hbefore.trans (getPixel_setPixel_of_ne image _ ?_))
          intro heq
          exact hi (Prod.ext heq.1 heq.2)
      · exact Or.inr ⟨j, List.mem_cons_of_mem i hj, hplace, hvalue⟩

/-- A pixel shows what all settings about it say, if they say the same. -/
theorem getPixel_setAll_of_mem (image : Image) (items : List ι) {x y : Int}
    (color : List UInt8) (hin : image.Has x y) (hlong : image.format.channels ≤ color.length)
    (hsome : ∃ i ∈ items, place i = (x, y))
    (hall : ∀ i ∈ items, place i = (x, y) → value i = color) :
    (image.setAll place value items).getPixel x y =
      some (color.take image.format.channels) := by
  induction items generalizing image with
  | nil => simp at hsome
  | cons i items ih =>
      have hall' : ∀ j ∈ items, place j = (x, y) → value j = color :=
        fun j hj => hall j (List.mem_cons_of_mem i hj)
      by_cases hlater : ∃ j ∈ items, place j = (x, y)
      · have hrest := ih (image.setPixel (place i).1 (place i).2 (value i)).1
          (by simpa [Has] using hin) (by simpa using hlong) hlater hall'
        rwa [format_setPixel] at hrest
      · have hi : place i = (x, y) := by
          obtain ⟨j, hj, hplace⟩ := hsome
          rcases List.mem_cons.mp hj with rfl | hj
          · exact hplace
          · exact absurd ⟨j, hj, hplace⟩ hlater
        have hrest := getPixel_setAll_of_not_mem place value
          (image.setPixel (place i).1 (place i).2 (value i)).1 items
          fun j hj hplace => hlater ⟨j, hj, hplace⟩
        refine hrest.trans ?_
        rw [hi, hall i List.mem_cons_self hi]
        exact getPixel_setPixel_self hin hlong

end

end DepthRaster.Image
