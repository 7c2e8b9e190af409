import DepthRaster.Raster.FrameBuffer
import Mathlib.Tactic.Ring
/-!
# The layout of samples

The word of a sample is the number whose digits are its depth, the complement of its order and its
three channels. Every field is read back as it was packed, and comparing ranks compares depths
first, then orders the other way round.
-/

namespace DepthRaster.Raster.Sample

open Color (Rgb)

/-- The standing of an order: the first order stands highest. -/
def standing (order : UInt32) : Nat := 2 ^ 32 - 1 - order.toNat

theorem standing_lt (order : UInt32) : standing order < 2 ^ 32 := by
  unfold standing
  omega

theorem standing_lt_standing {o p : UInt32} : standing o < standing p ↔ p < o := by
  have ho := o.toNat_lt
  have hp := p.toNat_lt
  rw [UInt32.lt_iff_toNat_lt]
  unfold standing
  omega

theorem toNat_complement (order : UInt32) : (0xFFFFFFFF - order).toNat = standing order := by
  have h := order.toNat_lt
  rw [UInt32.toNat_sub_of_le _ _ (by rw [UInt32.le_iff_toNat_le]; simp; omega)]
  rfl

private theorem shiftLeft_or (high low n : Nat) (h : low < 2 ^ n) :
    high * 2 ^ n ||| low = high * 2 ^ n + low := by
  rw [← Nat.shiftLeft_eq, Nat.shiftLeft_add_eq_or_of_lt h]

theorem toNat_bits_pack (d : UInt8) (o : UInt32) (c : Rgb) :
    (pack d o c).bits.toNat =
      d.toNat * 2 ^ 56 + standing o * 2 ^ 24 + c.red.toNat * 2 ^ 16 + c.green.toNat * 2 ^ 8 +
        c.blue.toNat := by
  have hd := d.toNat_lt
  have hr := c.red.toNat_lt
  have hg := c.green.toNat_lt
  have hb := c.blue.toNat_lt
  have hs := standing_lt o
  have word : (pack d o c).bits.toNat =
      d.toNat * 2 ^ 56 ||| standing o * 2 ^ 24 ||| c.red.toNat * 2 ^ 16 |||
        c.green.toNat * 2 ^ 8 ||| c.blue.toNat := by
    simp only [pack, UInt64.toNat_or, UInt64.toNat_shiftLeft, UInt8.toNat_toUInt64,
      UInt32.toNat_toUInt64, toNat_complement, Nat.shiftLeft_eq, UInt64.reduceToNat, Nat.reduceMod]
    rw [Nat.mod_eq_of_lt (by omega), Nat.mod_eq_of_lt (by omega), Nat.mod_eq_of_lt (by omega),
      Nat.mod_eq_of_lt (by omega)]
  rw [word, shiftLeft_or _ _ 56 (by omega),
    show d.toNat * 2 ^ 56 + standing o * 2 ^ 24 = (d.toNat * 2 ^ 32 + standing o) * 2 ^ 24 by ring,
    shiftLeft_or _ _ 24 (by omega),
    show (d.toNat * 2 ^ 32 + standing o) * 2 ^ 24 + c.red.toNat * 2 ^ 16 =
      ((d.toNat * 2 ^ 32 + standing o) * 2 ^ 8 + c.red.toNat) * 2 ^ 16 by ring,
    shiftLeft_or _ _ 16 (by omega),
    show ((d.toNat * 2 ^ 32 + standing o) * 2 ^ 8 + c.red.toNat) * 2 ^ 16 + c.green.toNat * 2 ^ 8 =
      (((d.toNat * 2 ^ 32 + standing o) * 2 ^ 8 + c.red.toNat) * 2 ^ 8 + c.green.toNat) * 2 ^ 8
      by ring,
    shiftLeft_or _ _ 8 (by omega)]

@[simp] theorem depth_pack (d : UInt8) (o : UInt32) (c : Rgb) : (pack d o c).depth = d := by
  apply UInt8.toNat_inj.mp
  have hd := d.toNat_lt
  have hr := c.red.toNat_lt
  have hg := c.green.toNat_lt
  have hb := c.blue.toNat_lt
  have hs := standing_lt o
  simp only [depth, UInt64.toNat_toUInt8, UInt64.toNat_shiftRight, toNat_bits_pack,
    UInt64.reduceToNat, Nat.reduceMod, Nat.shiftRight_eq_div_pow]
  omega

@[simp] theorem color_pack (d : UInt8) (o : UInt32) (c : Rgb) : (pack d o c).color = c := by
  obtain ⟨r, g, b⟩ := c
  have hd := d.toNat_lt
  have hr := r.toNat_lt
  have hg := g.toNat_lt
  have hb := b.toNat_lt
  have hs := standing_lt o
  simp only [color, Rgb.mk.injEq]
  refine ⟨?_, ?_, ?_⟩ <;> apply UInt8.toNat_inj.mp <;>
    simp only [UInt64.toNat_toUInt8, UInt64.toNat_shiftRight, toNat_bits_pack,
      UInt64.reduceToNat, Nat.reduceMod, Nat.shiftRight_eq_div_pow] <;> omega

theorem toNat_rank_pack (d : UInt8) (o : UInt32) (c : Rgb) :
    (pack d o c).rank.toNat = d.toNat * 2 ^ 32 + standing o := by
  have hr := c.red.toNat_lt
  have hg := c.green.toNat_lt
  have hb := c.blue.toNat_lt
  simp only [rank, UInt64.toNat_shiftRight, toNat_bits_pack,
    UInt64.reduceToNat, Nat.reduceMod, Nat.shiftRight_eq_div_pow]
  omega

theorem rank_pack_lt_iff {d e : UInt8} {o p : UInt32} {c k : Rgb} :
    (pack d o c).rank < (pack e p k).rank ↔ d < e ∨ d = e ∧ p < o := by
  have ho := standing_lt o
  have hp := standing_lt p
  rw [← standing_lt_standing, UInt64.lt_iff_toNat_lt, toNat_rank_pack, toNat_rank_pack,
    UInt8.lt_iff_toNat_lt, ← UInt8.toNat_inj]
  omega

theorem rank_pack_inj {d e : UInt8} {o p : UInt32} {c k : Rgb}
    (h : (pack d o c).rank = (pack e p k).rank) : d = e ∧ o = p := by
  have ho := standing_lt o
  have hp := standing_lt p
  have ho' := o.toNat_lt
  have hp' := p.toNat_lt
  have h := congrArg UInt64.toNat h
  rw [toNat_rank_pack, toNat_rank_pack] at h
  rw [← UInt8.toNat_inj, ← UInt32.toNat_inj]
  unfold standing at *
  omega

@[simp] theorem depth_empty : empty.depth = farDepth := rfl

theorem rank_empty : empty.rank = 0 := rfl

/-- Every sample above the far depth ranks above the empty one, that of the last order too. -/
theorem rank_empty_lt {d : UInt8} (o : UInt32) (c : Rgb) (h : d ≠ farDepth) :
    empty.rank < (pack d o c).rank := by
  have hd : d.toNat ≠ 0 := fun h' => h (UInt8.toNat_inj.mp h')
  rw [rank_empty, UInt64.lt_iff_toNat_lt, toNat_rank_pack]
  change 0 < _
  omega

theorem rank_pack_eq_iff {d e : UInt8} {o p : UInt32} {c k : Rgb} :
    (pack d o c).rank = (pack e p k).rank ↔ d = e ∧ o = p := by
  constructor
  · exact rank_pack_inj
  · rintro ⟨rfl, rfl⟩
    apply UInt64.toNat_inj.mp
    rw [toNat_rank_pack, toNat_rank_pack]

theorem pack_inj {d e : UInt8} {o p : UInt32} {c k : Rgb} (h : pack d o c = pack e p k) :
    d = e ∧ o = p ∧ c = k := by
  have hrank := rank_pack_eq_iff.mp (congrArg rank h)
  have hcolor := congrArg color h
  rw [color_pack, color_pack] at hcolor
  exact ⟨hrank.1, hrank.2, hcolor⟩

/-- A sample gives back the depth and the colour it was packed of, and different parts make
different samples. Whatever the colours, it ranks above another just when it is nearer, or as near
and of lower order; and it ranks above the empty sample whenever it is nearer than the far depth. -/
theorem pack_orders (d e : UInt8) (o p : UInt32) (c k : Rgb) :
    ((pack d o c).depth = d ∧ (pack d o c).color = c) ∧
      (pack d o c = pack e p k → d = e ∧ o = p ∧ c = k) ∧
      ((pack e p k).rank < (pack d o c).rank ↔ e < d ∨ d = e ∧ o < p) ∧
      ((pack d o c).rank = (pack e p k).rank ↔ d = e ∧ o = p) ∧
      (farDepth < d → empty.rank < (pack d o c).rank) := by
  refine ⟨⟨depth_pack d o c, color_pack d o c⟩, pack_inj, ?_, rank_pack_eq_iff, fun hnear => ?_⟩
  · rw [rank_pack_lt_iff, eq_comm (a := d)]
  · exact rank_empty_lt o c (UInt8.ne_of_lt hnear).symm

/-- The nearest but one of the first order and the nearest of the last, of opposite colours. -/
theorem pack_orders_of_extremes :
    let near := pack 254 0 .white
    let nearest := pack 255 0xFFFFFFFF .black
    farDepth < 1 ∧ near.rank < nearest.rank ∧ near ≠ nearest ∧
      empty.rank < (pack 1 0xFFFFFFFF .black).rank := by
  intro near nearest
  have hnear : farDepth < 1 := by decide
  obtain ⟨-, hinj, hrank, -, -⟩ := pack_orders 255 254 0xFFFFFFFF 0 .black .white
  obtain ⟨-, -, -, -, hempty⟩ := pack_orders 1 1 0xFFFFFFFF 0xFFFFFFFF .black .black
  refine ⟨hnear, hrank.mpr (.inl (by decide)), fun h => ?_, hempty hnear⟩
  exact absurd (hinj h.symm).1 (by decide)

end DepthRaster.Raster.Sample
