import Chip8.Proofs.Unchanged
import Chip8.Screen.Picture
import Mathlib.Data.Finset.Prod

/-!
# The picture tells the screen

A picture has a line for each pair of rows and a glyph for each pair of pixels. So its lines are
found again at the line feeds (`textLines_picture`), their number gives the mode, and each glyph
gives back two pixels:

> `readPixel_picture`: a pixel can be read off the picture.

What the picture does not show is the cells that the mode does not use. They are dark on every
screen that one can come to (`Painted`), since nothing that can be done to a screen lights them.

> `picture_tells`: screens that one can come to have the same picture only if they are the same.
> The number of lit cells in the description of such a screen is that of its lit pixels.
-/

namespace Chip8.Screen

variable {s t : Screen} {x y k : Nat}

/-! ## Lines -/

/-- The lines of a text, each up to a line feed. What comes behind the last line feed is no line. -/
def textLines (text : String) : List (List Char) := (text.toList.splitOn '\n').dropLast

theorem splitOn_lines {lines : List (List Char)} (h : ∀ line ∈ lines, '\n' ∉ line) :
    (lines.flatMap (· ++ ['\n'])).splitOn '\n' = lines ++ [[]] := by
  rw [List.splitOn_eq_splitOnP]
  induction lines with
  | nil => exact List.splitOnP_nil
  | cons line rest ih =>
    obtain ⟨hline, hrest⟩ := List.forall_mem_cons.mp h
    have hone : ∀ c ∈ line, (c == '\n') = false := fun c hc =>
      beq_false_of_ne fun heq => hline (heq ▸ hc)
    rw [List.flatMap_cons, List.append_assoc, List.singleton_append,
      List.splitOnP_append_cons_of_forall_mem hone _ (beq_self_eq_true _), ih hrest,
      List.cons_append]

/-- The glyphs, brightest first. -/
def glyphs : List Char := ['█', '▀', '▄', ' ']

theorem glyph_mem (upper lower : Bool) : glyph upper lower ∈ glyphs := by
  cases upper <;> cases lower <;> decide

theorem mem_textLine {c : Char} (h : c ∈ s.textLine k) : c ∈ glyphs := by
  obtain ⟨x, -, rfl⟩ := List.mem_map.mp h
  exact glyph_mem _ _

theorem length_textLine (s : Screen) (k : Nat) : (s.textLine k).length = s.width := by
  rw [textLine, List.length_map, List.length_range]

theorem toList_picture (s : Screen) :
    s.picture.toList = ((List.range (s.height / 2)).map s.textLine).flatMap (· ++ ['\n']) := by
  rw [picture, String.toList_ofList, List.flatMap_map]

theorem textLines_picture (s : Screen) :
    textLines s.picture = (List.range (s.height / 2)).map s.textLine := by
  rw [textLines, toList_picture, splitOn_lines, List.dropLast_concat]
  intro line hline hfeed
  obtain ⟨k, -, rfl⟩ := List.mem_map.mp hline
  exact absurd (mem_textLine hfeed) (by decide)

/-! ## Reading -/

/-- Whether the upper pixel of a glyph is lit. -/
def upperLit (c : Char) : Bool := c = '█' || c = '▀'

/-- Whether the lower pixel of a glyph is lit. -/
def lowerLit (c : Char) : Bool := c = '█' || c = '▄'

/-- The pixel in column `x` of row `y` that a picture shows, off where it shows none. -/
def readPixel (text : String) (x y : Nat) : Bool :=
  ((textLines text)[y / 2]?.bind fun pairs => pairs[x]?).any
    (if y % 2 = 0 then upperLit else lowerLit)

theorem upperLit_glyph (upper lower : Bool) : upperLit (glyph upper lower) = upper := by
  cases upper <;> cases lower <;> decide

theorem lowerLit_glyph (upper lower : Bool) : lowerLit (glyph upper lower) = lower := by
  cases upper <;> cases lower <;> decide

theorem height_even (s : Screen) : s.height % 2 = 0 := by
  rw [height]
  cases s.mode <;> rfl

theorem readPixel_picture (s : Screen) (x y : Nat) : readPixel s.picture x y = s.get x y := by
  have heven := s.height_even
  rw [readPixel, textLines_picture, List.getElem?_map]
  by_cases hy : y < s.height
  · rw [List.getElem?_range (by omega), Option.map_some, Option.bind_some, textLine,
      List.getElem?_map]
    by_cases hx : x < s.width
    · rw [List.getElem?_range hx, Option.map_some, Option.any_some]
      by_cases hrow : y % 2 = 0
      · rw [if_pos hrow, upperLit_glyph, show 2 * (y / 2) = y by omega]
      · rw [if_neg hrow, lowerLit_glyph, show 2 * (y / 2) + 1 = y by omega]
    · rw [List.getElem?_eq_none (by simpa using hx), get_of_width_le (Nat.not_lt.mp hx)]
      rfl
  · have hnone : (List.range (s.height / 2))[y / 2]? = none :=
      List.getElem?_eq_none (by rw [List.length_range]; omega)
    rw [hnone, get_of_height_le x (Nat.not_lt.mp hy)]
    rfl

/-- The number of lines tells the mode. -/
theorem mode_eq_of_picture_eq (h : s.picture = t.picture) : s.mode = t.mode := by
  have hlines := congrArg (fun text => (textLines text).length) h
  simp only [textLines_picture, List.length_map, List.length_range, height] at hlines
  revert hlines
  cases s.mode <;> cases t.mode <;> decide

/-! ## Lit pixels -/

/-- The places of the lit pixels, column and row. -/
def litPixels (s : Screen) : Finset (Nat × Nat) :=
  (Finset.range s.width ×ˢ Finset.range s.height).filter fun place => s.get place.1 place.2

theorem mem_litPixels : (x, y) ∈ s.litPixels ↔ s.get x y = true := by
  rw [litPixels, Finset.mem_filter, Finset.mem_product, Finset.mem_range, Finset.mem_range]
  exact and_iff_right_of_imp get_lt

theorem card_filter_range (n : Nat) (p : Nat → Bool) :
    ((Finset.range n).filter fun i => p i = true).card = (List.range n).countP p := by
  rw [List.countP_eq_length_filter, ← List.toFinset_card_of_nodup (List.nodup_range.filter _)]
  refine congrArg Finset.card (Finset.ext fun i => ?_)
  rw [List.mem_toFinset, List.mem_filter, List.mem_range, Finset.mem_filter, Finset.mem_range]

theorem litCount_eq_card (s : Screen) :
    s.litCount = ((Finset.range 8192).filter fun i => s.cell i = true).card := by
  have hcells : s.cells.toList = (List.range 8192).map s.cell := by
    refine List.ext_getElem (by simp) fun i hi _ => ?_
    have hlt : i < 8192 := by simpa using hi
    simp [cell, cell?, hlt]
  rw [litCount, hcells, List.countP_map, card_filter_range]
  rfl

/-- Where the unused cells are dark, the lit cells are those of the lit pixels. -/
theorem UnusedDark.litCount_eq (hs : s.UnusedDark) : s.litCount = s.litPixels.card := by
  rw [litCount_eq_card]
  refine Finset.card_nbij' (fun i => (i % s.width, i / s.width))
    (fun place => s.cellNumber place.1 place.2) ?_ ?_ ?_ ?_
  · intro i hi
    obtain ⟨hlt, hlit⟩ := Finset.mem_filter.mp hi
    have harea : i < s.area := by
      by_contra hle
      rw [hs i (Nat.not_lt.mp hle) (Finset.mem_range.mp hlt)] at hlit
      exact nomatch hlit
    obtain ⟨x, hx, y, hy, rfl⟩ := exists_cellNumber harea
    dsimp only
    rw [cellNumber_mod_width hx, cellNumber_div_width hx, Finset.mem_coe, mem_litPixels,
      get_of_lt hx hy, hlit]
  · rintro ⟨x, y⟩ hplace
    have hlit := mem_litPixels.mp hplace
    obtain ⟨hx, hy⟩ := get_lt hlit
    rw [get_of_lt hx hy] at hlit
    have hlt := Nat.lt_of_lt_of_le (cellNumber_lt_area hx hy) s.area_le
    exact Finset.mem_filter.mpr ⟨Finset.mem_range.mpr hlt, hlit⟩
  · intro i _
    exact Nat.div_add_mod' i s.width
  · rintro ⟨x, y⟩ hplace
    obtain ⟨hx, -⟩ := get_lt (mem_litPixels.mp hplace)
    exact Prod.ext (cellNumber_mod_width hx y) (cellNumber_div_width hx y)

/-! ## Screens that one can come to -/

/-- The screens that drawing, anything and anywhere, changes of mode, clearing and scrolling lead to
from a new one. -/
inductive Painted : Screen → Prop where
  | new : Painted (blank .standard)
  | draw {s : Screen} (hs : Painted s) (x y : Nat) (sprite : Sprite) :
    Painted (s.draw x y sprite).1
  | setMode {s : Screen} (hs : Painted s) (mode : ScreenMode) : Painted (s.setMode mode)
  | clear {s : Screen} (hs : Painted s) : Painted s.clear
  | scrollDown {s : Screen} (hs : Painted s) (n : Nat) : Painted (s.scrollDown n)
  | scrollRight {s : Screen} (hs : Painted s) (n : Nat) : Painted (s.scrollRight n)
  | scrollLeft {s : Screen} (hs : Painted s) (n : Nat) : Painted (s.scrollLeft n)

theorem Painted.unusedDark (hs : s.Painted) : s.UnusedDark := by
  induction hs with
  | new | setMode | clear => exact blank_unusedDark _
  | draw _ x y sprite ih => exact ih.draw x y sprite
  | scrollDown _ n ih => exact ih.redrawn (scrollDown_redrawn _ n)
  | scrollRight _ n ih => exact ih.redrawn (scrollRight_redrawn _ n)
  | scrollLeft _ n ih => exact ih.redrawn (scrollLeft_redrawn _ n)

/-- Where the unused cells are dark, the picture tells the screen. -/
theorem UnusedDark.eq_of_picture_eq (hs : s.UnusedDark) (ht : t.UnusedDark)
    (h : s.picture = t.picture) : s = t := by
  have hmode := mode_eq_of_picture_eq h
  refine ext_pixels hmode (fun x _ y _ => ?_) fun i hi hi' => ?_
  · rw [← readPixel_picture s, h, readPixel_picture]
  · rw [ht i hi hi', hs i (area_eq_of_mode hmode ▸ hi) hi']

/-- What the texts of a screen tell, if one can come to it.

* Two such screens have the same picture exactly if they are the same.
* The picture is made of lines, half as many as the screen has rows. Each of them is as long as a
  row and made of glyphs, and every pixel can be read off them.
* The cells that the mode does not use are off, and the description shows the number of pixels that
  are lit. -/
theorem picture_tells (hs : s.Painted) :
    (∀ t, t.Painted → (s.picture = t.picture ↔ s = t)) ∧
    s.picture = String.ofList ((textLines s.picture).flatMap (· ++ ['\n'])) ∧
    (textLines s.picture).length = s.height / 2 ∧
    (∀ line ∈ textLines s.picture, line.length = s.width ∧ ∀ c ∈ line, c ∈ glyphs) ∧
    (∀ x y, readPixel s.picture x y = s.get x y) ∧
    (∀ i, s.area ≤ i → i < 8192 → s.cell i = false) ∧
    (∀ x y, (x, y) ∈ s.litPixels ↔ s.get x y = true) ∧
    s.describe = Text.openRecord "Screen"
      [("mode", s.mode.name), ("lit", Text.decimal s.litPixels.card)] := by
  have hdark := hs.unusedDark
  refine ⟨fun t ht => ⟨hdark.eq_of_picture_eq ht.unusedDark, congrArg picture⟩, ?_, ?_, ?_,
    readPixel_picture s, hdark, fun x y => mem_litPixels, ?_⟩
  · rw [textLines_picture, ← toList_picture, String.ofList_toList]
  · rw [textLines_picture, List.length_map, List.length_range]
  · rw [textLines_picture]
    intro line hline
    obtain ⟨k, -, rfl⟩ := List.mem_map.mp hline
    exact ⟨length_textLine s k, fun c => mem_textLine⟩
  · rw [describe, hdark.litCount_eq]

/-- A screen on which a row of eight pixels was drawn over the right edge has another picture than a
new one, and so has a dark screen of the other mode. -/
theorem pictures_differ :
    let drawn := ((blank .standard).draw 62 3 ⟨[0xff], 1⟩).1
    drawn.Painted ∧ (blank .standard).Painted ∧ (blank .extended).Painted ∧
      drawn.picture ≠ (blank .standard).picture ∧
      (blank .extended).picture ≠ (blank .standard).picture := by
  intro drawn
  have hnew : (blank .standard).Painted := .new
  have hdrawn : drawn.Painted := hnew.draw 62 3 ⟨[0xff], 1⟩
  have hlarge : (blank .extended).Painted := hnew.setMode .extended
  refine ⟨hdrawn, hnew, hlarge, fun h => ?_, fun h => ?_⟩
  · have hempty := (draw_eq_self_iff (by decide) (by decide) 62 3).mp
      (((picture_tells hdrawn).1 _ hnew).mp h)
    exact absurd (hempty 0xff (List.mem_singleton_self _)) (by decide)
  · have hmode := congrArg mode (((picture_tells hlarge).1 _ hnew).mp h)
    exact nomatch hmode

end Chip8.Screen
