import DepthRaster.Color.Reading
import DepthRaster.Proofs.Numeric.Numerals
/-!
# Which texts are colours

The grammar of a colour in text, said without the reader: what stands between two commas, what is
left of a part without its blanks, and which numbers are channels. The reader takes exactly the
texts of the grammar, and blames the leftmost part outside of it.
-/

namespace DepthRaster

namespace Text

/-! ## Blanks at both ends -/

variable {cs body : List Char}

/-- What is left of characters without the blanks at both ends. -/
structure Trims (cs body : List Char) : Prop where
  split : ∃ before after, cs = before ++ (body ++ after) ∧ (∀ c ∈ before, isBlank c = true) ∧
    ∀ c ∈ after, isBlank c = true
  head : ∀ c, body.head? = some c → isBlank c = false
  last : ∀ c, body.getLast? = some c → isBlank c = false

theorem Trims.trim_eq (h : Trims cs body) : trim cs = body := by
  obtain ⟨before, after, rfl, hbefore, hafter⟩ := h.split
  by_cases hne : body = []
  · subst hne
    have hall : ∀ c ∈ before ++ ([] ++ after), isBlank c = true := fun c hc =>
      (List.mem_append.mp hc).elim (hbefore c) (hafter c)
    rw [trim, List.dropWhile_eq_nil_iff.mpr hall]
    rfl
  · have hhead : ∀ c, (body ++ after).head? = some c → isBlank c = false := by
      rw [List.head?_append_of_ne_nil _ hne]
      exact h.head
    have hlast : ∀ c, body.reverse.head? = some c → isBlank c = false := by
      rw [List.head?_reverse]
      exact h.last
    have hreverse : ∀ c ∈ after.reverse, isBlank c = true := fun c hc =>
      hafter c (List.mem_reverse.mp hc)
    rw [trim, dropWhile_run hbefore hhead, List.reverse_append, dropWhile_run hreverse hlast,
      List.reverse_reverse]

theorem exists_trims (cs : List Char) : ∃ body, Trims cs body := by
  obtain ⟨before, rest, rfl, hbefore, hrest⟩ := exists_run isBlank cs
  obtain ⟨after, body, hsplit, hafter, hbody⟩ := exists_run isBlank rest.reverse
  obtain rfl : rest = body.reverse ++ after.reverse := by
    rw [← List.reverse_append, ← hsplit, List.reverse_reverse]
  refine ⟨body.reverse, ⟨before, after.reverse, rfl, hbefore, fun c hc => ?_⟩, fun c hc => ?_, ?_⟩
  · exact hafter c (List.mem_reverse.mp hc)
  · exact hrest c (by rw [List.head?_append, hc, Option.some_or])
  · rw [List.getLast?_reverse]
    exact hbody

theorem trims_iff : Trims cs body ↔ trim cs = body := by
  refine ⟨Trims.trim_eq, ?_⟩
  rintro rfl
  obtain ⟨body, h⟩ := exists_trims cs
  exact h.trim_eq ▸ h

theorem isBlank_of_isDigit {c : Char} (h : Numeric.Whole.isDigit c = true) :
    isBlank c = false := by
  simp only [Numeric.Whole.isDigit, Bool.and_eq_true, decide_eq_true_eq, Char.le_def,
    UInt32.le_iff_toNat_le] at h
  have hfirst : 48 ≤ c.toNat := h.1
  have hlast : c.toNat ≤ 57 := h.2
  simp [isBlank, Ranges.contains, blankRanges]
  omega

end Text

namespace Color

open Numeric (Whole.Reading Whole.isDigit WholeError)
open Text (Trims)

variable {text : String} {parts : List (List Char)} {part red green blue : List Char}

/-! ## The grammar -/

/-- A text as parts with commas between them. -/
structure Cut (text : String) (parts : List (List Char)) : Prop where
  joined : [','].intercalate parts = text.toList
  free : ∀ part ∈ parts, ',' ∉ part
  ne_nil : parts ≠ []

/-- A part that is a channel: a number up to 255 between blanks. -/
def SaysChannel (part : List Char) (channel : UInt8) : Prop :=
  ∃ body, Trims part body ∧ Whole.Reading 255 body (.ok channel.toNat)

/-- A part that is no channel. -/
def RefusesChannel (part : List Char) (cause : WholeError) : Prop :=
  ∃ body, Trims part body ∧ Whole.Reading 255 body (.error cause)

/-- A text that is a colour: two commas, and a channel for each of the three parts. -/
structure SaysColor (text : String) (color : Rgb) : Prop where
  commas : text.toList.count ',' = 2
  channels : ∃ parts, Cut text parts ∧ List.Forall₂ SaysChannel parts color.toList

/-- What is wrong with a text that is no colour: its parts are not three, or the leftmost bad one
is blamed. -/
inductive Blames (text : String) : ColorError → Prop
  | partCount (h : text.toList.count ',' ≠ 2) : Blames text (.partCount text)
  | badChannel {good bad rest cause} (hcommas : text.toList.count ',' = 2)
      (hcut : Cut text (good ++ bad :: rest)) (hgood : ∀ part ∈ good, ∃ n, SaysChannel part n)
      (hbad : RefusesChannel bad cause) :
      Blames text (.badChannel (String.ofList bad) cause)

/-! ## Parts -/

theorem not_mem_of_mem_splitOn {a : Char} {cs : List Char} (h : part ∈ cs.splitOn a) :
    a ∉ part := by
  induction cs generalizing part with
  | nil =>
      rw [List.splitOn_nil, List.mem_singleton] at h
      simp [h]
  | cons c cs ih =>
      rw [List.splitOn_cons_eq_if_modifyHead] at h
      split at h
      · obtain rfl | h := List.mem_cons.mp h
        · exact List.not_mem_nil
        · exact ih h
      · rename_i hc
        obtain ⟨first, others, hsplit⟩ := List.exists_cons_of_ne_nil (List.splitOn_ne_nil a cs)
        rw [hsplit, List.modifyHead_cons, List.mem_cons] at h
        rw [hsplit] at ih
        obtain rfl | h := h
        · have hca : a ≠ c := fun hac => hc (beq_iff_eq.mpr hac.symm)
          exact List.not_mem_cons_of_ne_of_not_mem hca (ih List.mem_cons_self)
        · exact ih (List.mem_cons_of_mem first h)

theorem cut_splitOn (text : String) : Cut text (text.toList.splitOn ',') where
  joined := List.intercalate_splitOn ','
  free _ := not_mem_of_mem_splitOn
  ne_nil := List.splitOn_ne_nil ',' text.toList

theorem Cut.splitOn_eq (h : Cut text parts) : text.toList.splitOn ',' = parts := by
  rw [← h.joined, List.splitOn_intercalate ',' h.free h.ne_nil]

theorem count_intercalate (hfree : ∀ part ∈ parts, ',' ∉ part) (hne : parts ≠ []) :
    ([','].intercalate parts).count ',' + 1 = parts.length := by
  induction parts with
  | nil => exact absurd rfl hne
  | cons part parts ih =>
      have hpart : part.count ',' = 0 := List.count_eq_zero.mpr (hfree part List.mem_cons_self)
      cases parts with
      | nil => simp [hpart]
      | cons next parts =>
          have hparts := ih (fun other hother => hfree other (List.mem_cons_of_mem part hother))
            (List.cons_ne_nil next parts)
          rw [List.intercalate_cons_cons, List.count_append, List.count_append, hpart,
            List.count_singleton_self, List.length_cons, ← hparts]
          omega

theorem Cut.length_eq (h : Cut text parts) : parts.length = text.toList.count ',' + 1 := by
  rw [← h.joined, count_intercalate h.free h.ne_nil]

theorem readRgb_of_cut (h : Cut text [red, green, blue]) :
    readRgb text = do
      let r ← readChannel red
      let g ← readChannel green
      let b ← readChannel blue
      return ⟨r, g, b⟩ := by
  rw [readRgb, h.splitOn_eq]

theorem readRgb_of_commas (h : text.toList.count ',' ≠ 2) :
    readRgb text = .error (.partCount text) := by
  have hlength := (cut_splitOn text).length_eq
  rw [readRgb]
  split
  · rename_i hparts
    rw [hparts] at hlength
    exact absurd (Nat.succ.inj hlength).symm h
  · rfl

/-! ## Channels -/

theorem readChannel_eq_ok_iff {channel : UInt8} :
    readChannel part = .ok channel ↔ SaysChannel part channel := by
  constructor
  · intro h
    rw [readChannel] at h
    split at h
    · rename_i n hn
      have hread := Numeric.Whole.reading_iff.mpr hn
      obtain rfl := Except.ok.inj h
      have hvalue : (UInt8.ofNat n).toNat = n :=
        UInt8.toNat_ofNat_of_lt (Nat.lt_succ_of_le hread.le_of_ok)
      exact ⟨Text.trim part, Text.trims_iff.mpr rfl, hvalue.symm ▸ hread⟩
    · cases h
  · rintro ⟨body, htrims, hread⟩
    rw [readChannel, htrims.trim_eq, hread.readUnsigned_eq]
    exact congrArg Except.ok UInt8.ofNat_toNat

theorem readChannel_eq_error_iff {e : ColorError} :
    readChannel part = .error e ↔
      ∃ cause, e = .badChannel (String.ofList part) cause ∧ RefusesChannel part cause := by
  constructor
  · intro h
    rw [readChannel] at h
    split at h
    · cases h
    · rename_i cause hcause
      exact ⟨cause, (Except.error.inj h).symm, Text.trim part, Text.trims_iff.mpr rfl,
        Numeric.Whole.reading_iff.mpr hcause⟩
  · rintro ⟨cause, rfl, body, htrims, hread⟩
    rw [readChannel, htrims.trim_eq, hread.readUnsigned_eq]

theorem exists_channels_or_bad (parts : List (List Char)) :
    (∃ channels, List.Forall₂ SaysChannel parts channels) ∨
      ∃ good bad rest cause, parts = good ++ bad :: rest ∧
        (∀ part ∈ good, ∃ n, SaysChannel part n) ∧ RefusesChannel bad cause := by
  induction parts with
  | nil => exact .inl ⟨[], .nil⟩
  | cons part parts ih =>
      cases hread : readChannel part with
      | error e =>
          obtain ⟨cause, -, hbad⟩ := readChannel_eq_error_iff.mp hread
          exact .inr ⟨[], part, parts, cause, rfl, fun _ hmem => absurd hmem List.not_mem_nil, hbad⟩
      | ok channel =>
          have hpart := readChannel_eq_ok_iff.mp hread
          obtain ⟨channels, hall⟩ | ⟨good, bad, rest, cause, rfl, hgood, hbad⟩ := ih
          · exact .inl ⟨channel :: channels, .cons hpart hall⟩
          · refine .inr ⟨part :: good, bad, rest, cause, rfl, ?_, hbad⟩
            exact List.forall_mem_cons.mpr ⟨⟨channel, hpart⟩, hgood⟩

/-! ## Colours -/

theorem SaysColor.readRgb_eq {color : Rgb} (h : SaysColor text color) :
    readRgb text = .ok color := by
  obtain ⟨_, hcut, hparts⟩ := h.channels
  obtain _ | ⟨hred, _ | ⟨hgreen, _ | ⟨hblue, _ | _⟩⟩⟩ := hparts
  rw [readRgb_of_cut hcut, readChannel_eq_ok_iff.mpr hred, readChannel_eq_ok_iff.mpr hgreen,
    readChannel_eq_ok_iff.mpr hblue]
  rfl

theorem Blames.readRgb_eq {e : ColorError} (h : Blames text e) : readRgb text = .error e := by
  cases h with
  | partCount hcommas => exact readRgb_of_commas hcommas
  | @badChannel good bad rest cause hcommas hcut hgood hbad =>
      have hread : readChannel bad = .error (.badChannel (String.ofList bad) cause) :=
        readChannel_eq_error_iff.mpr ⟨cause, rfl, hbad⟩
      have hlength : good.length + (rest.length + 1) = 3 := by
        rw [← List.length_cons (a := bad), ← List.length_append, hcut.length_eq, hcommas]
      -- The bad part is the first, the second or the third one.
      rcases good with _ | ⟨red, _ | ⟨green, _ | ⟨blue, good⟩⟩⟩
      all_goals simp only [List.length_nil, List.length_cons] at hlength
      · obtain ⟨green, blue, rfl⟩ := List.length_eq_two.mp (show rest.length = 2 by omega)
        rw [readRgb_of_cut hcut, hread]
        rfl
      · obtain ⟨blue, rfl⟩ := List.length_eq_one_iff.mp (show rest.length = 1 by omega)
        obtain ⟨r, hred⟩ := hgood red (by simp)
        rw [readRgb_of_cut hcut, readChannel_eq_ok_iff.mpr hred, hread]
        rfl
      · obtain rfl := List.length_eq_zero_iff.mp (show rest.length = 0 by omega)
        obtain ⟨r, hred⟩ := hgood red (by simp)
        obtain ⟨g, hgreen⟩ := hgood green (by simp)
        rw [readRgb_of_cut hcut, readChannel_eq_ok_iff.mpr hred, readChannel_eq_ok_iff.mpr hgreen,
          hread]
        rfl
      · omega

theorem says_or_blames (text : String) :
    (∃ color, SaysColor text color) ∨ ∃ e, Blames text e := by
  by_cases hcommas : text.toList.count ',' = 2
  · have hcut := cut_splitOn text
    obtain ⟨channels, hall⟩ | ⟨good, bad, rest, cause, hparts, hgood, hbad⟩ :=
      exists_channels_or_bad (text.toList.splitOn ',')
    · have hlength := hcut.length_eq
      rw [hcommas, hall.length_eq] at hlength
      obtain ⟨r, g, b, rfl⟩ := List.length_eq_three.mp hlength
      exact .inl ⟨⟨r, g, b⟩, hcommas, _, hcut, hall⟩
    · exact .inr ⟨_, .badChannel hcommas (hparts ▸ hcut) hgood hbad⟩
  · exact .inr ⟨_, .partCount hcommas⟩

theorem readRgb_eq_ok_iff {color : Rgb} : readRgb text = .ok color ↔ SaysColor text color := by
  refine ⟨fun h => ?_, SaysColor.readRgb_eq⟩
  obtain ⟨other, hsaid⟩ | ⟨e, hblames⟩ := says_or_blames text
  · exact Except.ok.inj (hsaid.readRgb_eq.symm.trans h) ▸ hsaid
  · exact absurd (hblames.readRgb_eq.symm.trans h) (by simp)

theorem readRgb_eq_error_iff {e : ColorError} : readRgb text = .error e ↔ Blames text e := by
  refine ⟨fun h => ?_, Blames.readRgb_eq⟩
  obtain ⟨color, hsaid⟩ | ⟨other, hblames⟩ := says_or_blames text
  · exact absurd (hsaid.readRgb_eq.symm.trans h) (by simp)
  · exact Except.error.inj (hblames.readRgb_eq.symm.trans h) ▸ hblames

/-! ## Written colours -/

structure Spacing where
  before : List Char
  zeros : ℕ
  after : List Char
  before_blank : ∀ c ∈ before, Text.isBlank c = true
  after_blank : ∀ c ∈ after, Text.isBlank c = true

namespace Spacing

variable (s : Spacing) (channel : UInt8)

def digits : List Char := List.replicate s.zeros '0' ++ (toString channel).toList

def spread : List Char := s.before ++ (s.digits channel ++ s.after)

theorem digits_eq :
    s.digits channel = List.replicate s.zeros '0' ++ Nat.toDigits 10 channel.toNat := by
  have hdigits : (toString channel).toList = Nat.toDigits 10 channel.toNat := Nat.toList_repr
  rw [digits, hdigits]

theorem isDigit_of_mem_digits {c : Char} (h : c ∈ s.digits channel) :
    Whole.isDigit c = true := by
  rw [digits_eq, List.mem_append] at h
  obtain h | h := h
  · rw [List.eq_of_mem_replicate h]
    rfl
  · exact Numeric.Whole.isDigit_of_mem_toDigits h

theorem digits_ne_nil : s.digits channel ≠ [] := by
  rw [digits_eq]
  exact List.append_ne_nil_of_right_ne_nil _ Nat.toDigits_ne_nil

theorem ofDigits_digits : Numeric.Whole.ofDigits (s.digits channel) = channel.toNat := by
  rw [digits_eq, Numeric.Whole.ofDigits_append, Numeric.Whole.ofDigits_replicate_zero,
    Nat.zero_mul, Nat.zero_add, Numeric.Whole.ofDigits_toDigits]

theorem trims_spread : Trims (s.spread channel) (s.digits channel) where
  split := ⟨s.before, s.after, rfl, s.before_blank, s.after_blank⟩
  head _ hc := Text.isBlank_of_isDigit (s.isDigit_of_mem_digits channel (List.mem_of_head? hc))
  last _ hc :=
    Text.isBlank_of_isDigit (s.isDigit_of_mem_digits channel (List.mem_of_getLast? hc))

theorem saysChannel_spread : SaysChannel (s.spread channel) channel := by
  refine ⟨s.digits channel, s.trims_spread channel, ?_⟩
  have hvalue : Numeric.Whole.ofDigits (s.digits channel) ≤ 255 := by
    rw [ofDigits_digits]
    exact Nat.le_of_lt_succ channel.toNat_lt
  have hread : Whole.Reading 255 ([] ++ s.digits channel) _ :=
    .number (by simp [Numeric.Whole.signs]) (s.digits_ne_nil channel)
      (fun _ => s.isDigit_of_mem_digits channel) hvalue
  rwa [List.nil_append, ofDigits_digits] at hread

theorem not_mem_spread : ',' ∉ s.spread channel := by
  simp only [spread, List.mem_append]
  rintro (h | h | h)
  · exact absurd (s.before_blank _ h) (by decide)
  · exact absurd (s.isDigit_of_mem_digits channel h) (by decide)
  · exact absurd (s.after_blank _ h) (by decide)

end Spacing

def spreadOut (red green blue : Spacing) (color : Rgb) : String :=
  String.ofList ([','].intercalate
    [red.spread color.red, green.spread color.green, blue.spread color.blue])

theorem saysColor_spreadOut (red green blue : Spacing) (color : Rgb) :
    SaysColor (spreadOut red green blue color) color := by
  have hcut : Cut (spreadOut red green blue color)
      [red.spread color.red, green.spread color.green, blue.spread color.blue] := by
    refine ⟨(String.toList_ofList).symm, ?_, by simp⟩
    simp only [List.forall_mem_cons]
    exact ⟨red.not_mem_spread _, green.not_mem_spread _, blue.not_mem_spread _, by simp⟩
  refine ⟨(Nat.succ.inj hcut.length_eq).symm, _, hcut, ?_⟩
  exact .cons (red.saysChannel_spread _) (.cons (green.saysChannel_spread _)
    (.cons (blue.saysChannel_spread _) .nil))

/-- Reading takes exactly the texts of the grammar, for the colour they say, and blames what is
wrong in each other text. Every colour is read back from its text, whatever blanks and zeros are
added to it. -/
theorem readRgb_grammar :
    (∀ text color, readRgb text = .ok color ↔ SaysColor text color) ∧
    (∀ text e, readRgb text = .error e ↔ Blames text e) ∧
    ∀ red green blue color, readRgb (spreadOut red green blue color) = .ok color :=
  ⟨fun _ _ => readRgb_eq_ok_iff, fun _ _ => readRgb_eq_error_iff,
    fun red green blue color => (saysColor_spreadOut red green blue color).readRgb_eq⟩

example : readRgb " +007, 128,0" = .ok ⟨7, 128, 0⟩ := by decide

example : readRgb "1, ,300" = .error (.badChannel " " .empty) := by decide

end Color

end DepthRaster
