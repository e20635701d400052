import ExertGrpc.DotNet
import ExertGrpc.PrefixCut
import Mathlib.Algebra.Order.Ring.Rat
import Mathlib.Algebra.Order.BigOperators.Group.List
import Mathlib.Data.List.Flatten

/-! # Texts and what Skia says about them

The drawing service asks SkiaSharp three things about a text: how much of it
fits a width (`BreakText`), the bounds of its ink (`MeasureText`), and to draw
it.  SkiaSharp is not part of the repository, so `SKPaint` is a parameter: any
way of reading a text glyph by glyph, with any widths and bounds.

`BreakTextSpec` is what the service relies on.  Under it, breaking a text is the
greedy cut of its **glyphs** (`breakText_eq`), whatever the glyphs are.  All
widths are exact rationals.
-/
namespace ExertGrpc

/-- `SKRect`. -/
structure SKRect where
  left : ℚ
  top : ℚ
  right : ℚ
  bottom : ℚ
deriving DecidableEq, Repr

namespace SKRect

/-- `SKRect.Empty`. -/
def empty : SKRect := ⟨0, 0, 0, 0⟩

/-- `SKRect.Height`. -/
def height (r : SKRect) : ℚ := r.bottom - r.top

end SKRect

/-- What the service uses of an `SKPaint`: a font at a size. -/
structure SKPaint where
  /-- How many units the first glyph of a text takes.  Texts are read from left
  to right, so this says where every glyph of every text begins. -/
  glyphUnits : Text → Nat
  glyphUnits_pos : ∀ t, t ≠ [] → 0 < glyphUnits t
  /-- The advance width of a text. -/
  advance : Text → ℚ
  /-- `BreakText(span, maxWidth)`. -/
  breakText : Text → ℚ → Nat
  /-- The bounds `MeasureText(text, ref bound)` stores. -/
  measureText : Text → SKRect

namespace SKPaint
open PrefixCut
variable (paint : SKPaint)

/-- The glyphs of a text, each as the units it takes. -/
def glyphs (t : Text) : List Text := pieces paint.glyphUnits t

theorem glyphs_cuts (t : Text) : Cuts paint.glyphUnits t (paint.glyphs t) :=
  pieces_cuts paint.glyphUnits_pos t

@[simp] theorem glyphs_flatten (t : Text) : (paint.glyphs t).flatten = t :=
  (paint.glyphs_cuts t).flatten_eq

theorem glyphs_ne_nil {t g : Text} (h : g ∈ paint.glyphs t) : g ≠ [] :=
  (paint.glyphs_cuts t).ne_nil g h

theorem glyphs_eq_nil (t : Text) : paint.glyphs t = [] ↔ t = [] := by
  constructor
  · intro h
    rw [← paint.glyphs_flatten t, h, List.flatten_nil]
  · rintro rfl
    exact (paint.glyphs_cuts []).eq_nil

/-- A text from one of its glyph boundaries on has the remaining glyphs. -/
theorem glyphs_drop (t : Text) (k : Nat) :
    paint.glyphs (t.drop ((paint.glyphs t).take k).flatten.length) = (paint.glyphs t).drop k :=
  (paint.glyphs_cuts _).unique ((paint.glyphs_cuts t).drop k)

theorem take_glyphs (t : Text) (k : Nat) :
    t.take ((paint.glyphs t).take k).flatten.length = ((paint.glyphs t).take k).flatten := by
  have hsplit : t = ((paint.glyphs t).take k).flatten ++ ((paint.glyphs t).drop k).flatten := by
    rw [← List.flatten_append, List.take_append_drop, glyphs_flatten]
  conv_lhs => enter [2]; rw [hsplit]
  rw [List.take_left]

/-- **A cut of the units that takes whole glyphs**, the longest run of them that
fits, cuts a text into what the greedy cut makes of its glyphs. -/
theorem cuts_iff_of_longest {fits : List Text → Prop} [DecidablePred fits] {cut : Text → Nat}
    (h : ∀ t, cut t =
      ((paint.glyphs t).take (longest fits (paint.glyphs t))).flatten.length)
    {t : Text} {ps : List Text} :
    Cuts cut t ps ↔ ∃ gss, Cuts (longest fits) (paint.glyphs t) gss ∧ ps = gss.map List.flatten := by
  refine Cuts.transport paint.glyphs_eq_nil (fun s _ => ?_) (fun s _ => ?_)
  · rw [h, paint.take_glyphs]
  · rw [h, paint.glyphs_drop]

/-- A run of glyphs fits a width; nothing fits a width that is not positive. -/
def Fits (w : ℚ) (gs : List Text) : Prop := 0 < w ∧ paint.advance gs.flatten ≤ w

instance (w : ℚ) : DecidablePred (paint.Fits w) := fun _ => inferInstanceAs (Decidable (_ ∧ _))

theorem longest_fits_of_nonpos {w : ℚ} (hw : w ≤ 0) (gs : List Text) :
    longest (paint.Fits w) gs = 0 :=
  Nat.eq_zero_of_not_pos fun hpos => absurd (fits_longest hpos).1 (not_lt.mpr hw)

end SKPaint

/-- What the service relies on of `BreakText`: the number of units it returns is
that of the longest run of whole glyphs, from the start of the span, whose
advance does not exceed the width, and `0` for a width that is not positive. -/
structure BreakTextSpec (paint : SKPaint) : Prop where
  boundary : ∀ t w, ∃ k, paint.breakText t w = ((paint.glyphs t).take k).flatten.length
  fits : ∀ t w, 0 < paint.breakText t w → paint.advance (t.take (paint.breakText t w)) ≤ w
  longest : ∀ t w k, 0 < w → paint.advance ((paint.glyphs t).take k).flatten ≤ w →
    ((paint.glyphs t).take k).flatten.length ≤ paint.breakText t w
  nonpos : ∀ t w, w ≤ 0 → paint.breakText t w = 0

/-- Skia adds advances up: a run of whole glyphs is as wide as its glyphs are
together, and no glyph moves the pen back. -/
structure SumAdvance (paint : SKPaint) : Prop where
  sum : ∀ t gs, gs <:+: paint.glyphs t → paint.advance gs.flatten = (gs.map paint.advance).sum
  nonneg : ∀ t, ∀ g ∈ paint.glyphs t, 0 ≤ paint.advance g

namespace BreakTextSpec
open PrefixCut
variable {paint : SKPaint} (hb : BreakTextSpec paint)
include hb

theorem le_length (t : Text) (w : ℚ) : paint.breakText t w ≤ t.length := by
  obtain ⟨k, hk⟩ := hb.boundary t w
  rw [hk, ← paint.take_glyphs t k, List.length_take]
  exact Nat.min_le_right _ _

/-- **`BreakText` is the greedy cut of the glyphs.** -/
theorem breakText_eq (t : Text) (w : ℚ) : paint.breakText t w =
    ((paint.glyphs t).take (PrefixCut.longest (paint.Fits w) (paint.glyphs t))).flatten.length := by
  rcases le_or_gt w 0 with hw | hw
  · rw [hb.nonpos t w hw, paint.longest_fits_of_nonpos hw]
    rfl
  apply Nat.le_antisymm
  · -- what `BreakText` takes is a run of glyphs that fits, so it is no longer than the longest
    obtain ⟨k, hk⟩ := hb.boundary t w
    rcases Nat.eq_zero_or_pos (paint.breakText t w) with h0 | hpos
    · rw [h0]; exact Nat.zero_le _
    · have hfit := hb.fits t w hpos
      rw [hk, paint.take_glyphs] at hfit
      have hle : min k (paint.glyphs t).length ≤
          PrefixCut.longest (paint.Fits w) (paint.glyphs t) := by
        refine le_longest (Nat.min_le_right _ _) ⟨hw, ?_⟩
        rwa [← List.take_eq_take_min]
      rw [hk, List.take_eq_take_min]
      exact (List.take_sublist_take_left hle).flatten.length_le
  · rcases Nat.eq_zero_or_pos (PrefixCut.longest (paint.Fits w) (paint.glyphs t)) with h0 | hpos
    · rw [h0]; exact Nat.zero_le _
    · exact hb.longest t w _ hw (fits_longest hpos).2

/-- Breaking a text off again and again is the greedy cutting of its glyphs. -/
theorem cuts_iff {t : Text} {w : ℚ} {ps : List Text} :
    Cuts (fun s => paint.breakText s w) t ps ↔
      ∃ gss, Cuts (PrefixCut.longest (paint.Fits w)) (paint.glyphs t) gss ∧
        ps = gss.map List.flatten :=
  paint.cuts_iff_of_longest fun s => hb.breakText_eq s w

end BreakTextSpec

/-- Conversely, a paint that breaks texts by the greedy cut of their glyphs meets
the specification. -/
theorem BreakTextSpec.of_eq {paint : SKPaint} (h : ∀ t w, paint.breakText t w =
    ((paint.glyphs t).take (PrefixCut.longest (paint.Fits w) (paint.glyphs t))).flatten.length) :
    BreakTextSpec paint where
  boundary t w := ⟨_, h t w⟩
  fits t w hpos := by
    have hlong : 0 < PrefixCut.longest (paint.Fits w) (paint.glyphs t) := by
      refine Nat.pos_of_ne_zero fun h0 => ?_
      rw [h, h0] at hpos
      exact Nat.lt_irrefl 0 hpos
    rw [h, paint.take_glyphs]
    exact (PrefixCut.fits_longest hlong).2
  longest t w k hw hk := by
    have hle : min k (paint.glyphs t).length ≤
        PrefixCut.longest (paint.Fits w) (paint.glyphs t) :=
      PrefixCut.le_longest (Nat.min_le_right _ _) ⟨hw, by rwa [← List.take_eq_take_min]⟩
    rw [h, List.take_eq_take_min]
    exact (List.take_sublist_take_left hle).flatten.length_le
  nonpos t w hw := by
    rw [h, paint.longest_fits_of_nonpos hw]
    rfl

/-! ## A font with one glyph for every unit -/

/-- The paint of a font that gives every unit a glyph of its own, `width u` wide,
and measures a text as `bounds` says. -/
def unitPaint (width : UInt16 → ℚ) (bounds : Text → SKRect) : SKPaint where
  glyphUnits _ := 1
  glyphUnits_pos _ _ := Nat.one_pos
  advance t := (t.map width).sum
  breakText t w :=
    let glyphs := PrefixCut.pieces (fun _ => 1) t
    let fits := fun gs : List Text => 0 < w ∧ (gs.flatten.map width).sum ≤ w
    (glyphs.take (PrefixCut.longest fits glyphs)).flatten.length
  measureText := bounds

theorem unitPaint_breakTextSpec (width : UInt16 → ℚ) (bounds : Text → SKRect) :
    BreakTextSpec (unitPaint width bounds) :=
  .of_eq fun _ _ => rfl

theorem unitPaint_sumAdvance {width : UInt16 → ℚ} (h : ∀ u, 0 ≤ width u)
    (bounds : Text → SKRect) : SumAdvance (unitPaint width bounds) where
  sum t gs _ := by
    show (gs.flatten.map width).sum = (gs.map fun g => (g.map width).sum).sum
    rw [List.map_flatten, List.sum_flatten, List.map_map]
    rfl
  nonneg t g _ := List.sum_nonneg (by simpa using fun u _ => h u)

end ExertGrpc
