import ExertGrpc.SkiaWrapping

/-! # The wrap loop makes as few lines as there can be

A text can be cut into lines in many ways.  `BreakText` takes as much as fits each
time, and so the loop is never behind another cutting: after any number of lines it
has at least as much of the text behind it (`PrefixCut.Cuts.length_le_of_covered`).

What is needed of `BreakText` here is stated at one width, and without the case of a
width that is not positive.
-/
namespace ExertGrpc
open PrefixCut

/-- A run of glyphs that is no wider than `w`. -/
def SKPaint.Within (paint : SKPaint) (w : ℚ) (gs : List Text) : Prop :=
  paint.advance gs.flatten ≤ w

instance (paint : SKPaint) (w : ℚ) : DecidablePred (paint.Within w) :=
  fun _ => inferInstanceAs (Decidable (_ ≤ _))

/-- At the width `w`, `BreakText` returns the longest run of whole glyphs that is no
wider. -/
def BreaksLongest (paint : SKPaint) (w : ℚ) : Prop :=
  ∀ t, paint.breakText t w =
    ((paint.glyphs t).take (PrefixCut.longest (paint.Within w) (paint.glyphs t))).flatten.length

/-- Skia does, at every positive width. -/
theorem BreakTextSpec.breaksLongest {paint : SKPaint} (hb : BreakTextSpec paint) {w : ℚ}
    (hw : 0 < w) : BreaksLongest paint w := by
  intro t
  have hsame : ∀ gs, paint.Fits w gs ↔ paint.Within w gs := fun gs => and_iff_right hw
  rw [hb.breakText_eq, longest_congr hsame]

/-- A way of cutting a text into lines: runs of its glyphs, one after another and
nothing left out, none of them wider than the width. -/
structure LineCutting (paint : SKPaint) (maxWidth : Int) (text : Text)
    (pieces : List (List Text)) : Prop where
  flatten : pieces.flatten = paint.glyphs text
  within : ∀ p ∈ pieces, paint.advance p.flatten ≤ maxWidth

section Fewest
variable {paint : SKPaint} {maxWidth : Int} {text : Text}

/-- The end of a run of glyphs is no wider than the run. -/
theorem advance_suffix_le (ha : SumAdvance paint) {p s : List Text}
    (hp : p <:+: paint.glyphs text) (hs : s <:+ p) :
    paint.advance s.flatten ≤ paint.advance p.flatten := by
  rw [ha.sum text s (hs.isInfix.trans hp), ha.sum text p hp]
  obtain ⟨front, rfl⟩ := hs
  rw [List.map_append, List.sum_append, le_add_iff_nonneg_left]
  apply List.sum_nonneg
  intro x hx
  obtain ⟨g, hg, rfl⟩ := List.mem_map.mp hx
  exact ha.nonneg text g (hp.subset (List.mem_append_left s hg))

theorem wrapCut_le_of_breaksLongest (hl : BreaksLongest paint maxWidth) (rest : Text) :
    wrapCut paint maxWidth rest ≤ rest.length := by
  rw [wrapCut, hl rest, ← paint.take_glyphs, List.length_take]
  exact Nat.min_le_right _ _

/-- **`ParseTextWrap` returns the fewest possible lines**: given enough rounds it
returns a cutting of the text into lines that are not too wide, and no other such
cutting has fewer lines. -/
theorem parseTextWrap_fewest (ha : SumAdvance paint) (hl : BreaksLongest paint maxWidth)
    (hfit : ∀ g ∈ paint.glyphs text, paint.advance g ≤ maxWidth) :
    ∃ rounds lines gss, (∀ r, rounds ≤ r → parseTextWrap paint text maxWidth r = .returned lines) ∧
      lines.map SkiaWrapText.content = gss.map List.flatten ∧
      LineCutting paint maxWidth text gss ∧
      ∀ pieces, LineCutting paint maxWidth text pieces → lines.length ≤ pieces.length := by
  obtain ⟨gss, hgss⟩ : ∃ gss, Cuts (PrefixCut.longest (paint.Within maxWidth))
      (paint.glyphs text) gss := by
    refine exists_greedy fun g hg => ?_
    unfold SKPaint.Within
    simpa using hfit g hg
  have hcuts : Cuts (wrapCut paint maxWidth) text (gss.map List.flatten) :=
    (paint.cuts_iff_of_longest hl).mpr ⟨gss, hgss, rfl⟩
  refine ⟨_, _, gss, fun r hr => wrapLoop_of_cuts (wrapCut_le_of_breaksLongest hl)
    (Nat.zero_le _) hcuts hr, ?_, ⟨hgss.flatten_eq, hgss.piece_fits⟩, ?_⟩
  · -- the content of a line is the run of glyphs it was made for
    have hcontent : SkiaWrapText.content ∘ wrapLine paint = id := rfl
    show ((gss.map List.flatten).map (wrapLine paint)).map SkiaWrapText.content = _
    rw [List.map_map, hcontent, List.map_id]
  · intro pieces hpieces
    have hsuffix : ∀ p ∈ pieces, ∀ s, s <:+ p → paint.Within maxWidth s := by
      intro p hp s hs
      have hrun : p <:+: paint.glyphs text :=
        hpieces.flatten ▸ List.infix_of_mem_flatten hp
      exact (advance_suffix_le ha hrun hs).trans (hpieces.within p hp)
    have hle : gss.length ≤ pieces.length :=
      Cuts.length_le_of_covered hsuffix hgss (hpieces.flatten ▸ List.suffix_refl _)
    simpa using hle

end Fewest

theorem parseTextWrap_fewest_demo :
    ∃ rounds lines gss,
      (∀ r, rounds ≤ r → parseTextWrap demoPaint [87, 105, 87] 60 r = .returned lines) ∧
      lines.map SkiaWrapText.content = gss.map List.flatten ∧
      LineCutting demoPaint 60 [87, 105, 87] gss ∧
      ∀ pieces, LineCutting demoPaint 60 [87, 105, 87] pieces → lines.length ≤ pieces.length :=
  parseTextWrap_fewest demoPaint_sumAdvance
    (demoPaint_breakTextSpec.breaksLongest (by norm_num)) (by decide +kernel)

end ExertGrpc
