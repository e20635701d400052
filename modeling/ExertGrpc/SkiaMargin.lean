import ExertGrpc.SkiaReply

/-! # The margins of `DrawBySkia`

The lines are drawn `pad` from the left edge of the canvas, but only `pad / 2` is
taken off the width they are wrapped to.  So a line may use up half of the padding
that it was moved by, and cross the right edge.

Which contents do that depends on where their lines break, and the lines break where
no glyph fits any more.  `KeepsMargin` is the condition on a content: it can be broken
into runs that leave the whole padding free, at places where the next glyph would not
even leave half of it.
-/
namespace ExertGrpc
open PrefixCut

/-- Every text is inside the canvas from left to right. -/
def InsideWidth (paint : SKPaint) (surface : SKSurface) : Prop :=
  ∀ t ∈ surface.texts,
    0 ≤ t.point.x ∧ t.point.x + paint.advance t.content ≤ surface.info.width

/-- A way of breaking a content into lines that keep the margin: runs of glyphs that
leave the whole padding free on the right, and that end only where no longer run would
leave half of it. -/
structure KeepsMargin (paint : SKPaint) (bitmap : SKBitmap) (item : Text)
    (runs : List (List Text)) : Prop where
  flatten : runs.flatten = paint.glyphs item
  nonempty : ∀ r ∈ runs, r ≠ []
  narrow : ∀ r ∈ runs, paint.advance r.flatten ≤ bitmap.width - pad
  full : Unextendable (paint.Fits (wrapWidth bitmap)) runs

section Lines
variable {paint : SKPaint} (hb : BreakTextSpec paint) {maxWidth : Int}
include hb

/-- The lines are the pieces that `BreakText` cuts the contents into. -/
theorem mem_parseTextWrapAll {contents : List Text} {rounds : Nat} {tws : List SkiaWrapText}
    (h : parseTextWrapAll paint contents maxWidth rounds = .returned tws) {l : SkiaWrapText} :
    l ∈ tws ↔ ∃ item ∈ contents, ∃ ps, Cuts (wrapCut paint maxWidth) item ps ∧
      ∃ p ∈ ps, l = wrapLine paint p := by
  obtain ⟨perItem, hper, rfl⟩ := parseTextWrapAll_eq_returned.mp h
  clear h
  induction hper with
  | nil => simp
  | @cons item r contents perItem hr hrest ih =>
    obtain ⟨ps, hps, rfl⟩ := parseTextWrap_eq_returned hb hr
    rw [List.flatten_cons, List.mem_append, ih]
    constructor
    · rintro (hl | ⟨item', hitem', hl⟩)
      · obtain ⟨p, hp, rfl⟩ := List.mem_map.mp hl
        exact ⟨item, List.mem_cons_self .., ps, hps, p, hp, rfl⟩
      · exact ⟨item', List.mem_cons_of_mem _ hitem', hl⟩
    · rintro ⟨item', hitem', qs, hqs, p, hp, rfl⟩
      rcases List.mem_cons.mp hitem' with rfl | hitem'
      · rw [hps.unique hqs]
        exact Or.inl (List.mem_map_of_mem hp)
      · exact Or.inr ⟨item', hitem', qs, hqs, p, hp, rfl⟩

/-- Runs that keep the margin are the lines. -/
theorem KeepsMargin.cuts {bitmap : SKBitmap} {item : Text} {runs : List (List Text)}
    (hfit : GlyphsFit paint (wrapWidth bitmap) item) (h : KeepsMargin paint bitmap item runs) :
    Cuts (wrapCut paint (wrapWidth bitmap)) item (runs.map List.flatten) := by
  refine (wrapCuts_iff hb).mpr ⟨runs, cuts_longest_iff.mpr ⟨h.flatten, fun r hr => ?_, h.full⟩, rfl⟩
  refine ⟨h.nonempty r hr, ?_, ?_⟩
  · obtain ⟨g, hg⟩ := List.exists_mem_of_ne_nil r (h.nonempty r hr)
    have hmem : g ∈ paint.glyphs item := h.flatten ▸ List.mem_flatten.mpr ⟨r, hr, hg⟩
    exact_mod_cast (hfit g hmem).1
  · have hnarrow := h.narrow r hr
    have hwidth : (wrapWidth bitmap : ℚ) = bitmap.width - 4 := by simp [wrapWidth, pad]
    have hpad : (pad : ℚ) = 8 := by norm_num [pad]
    linarith

/-- **A content keeps the margin exactly when no line of it is too wide.** -/
theorem keepsMargin_iff {bitmap : SKBitmap} {item : Text}
    (hfit : GlyphsFit paint (wrapWidth bitmap) item) :
    (∃ runs, KeepsMargin paint bitmap item runs) ↔
      ∀ ps, Cuts (wrapCut paint (wrapWidth bitmap)) item ps →
        ∀ p ∈ ps, paint.advance p ≤ bitmap.width - pad := by
  constructor
  · rintro ⟨runs, h⟩ ps hps p hp
    rw [hps.unique (h.cuts hb hfit)] at hp
    obtain ⟨r, hr, rfl⟩ := List.mem_map.mp hp
    exact h.narrow r hr
  · intro h
    obtain ⟨ps, hps⟩ := exists_wrapCuts hb hfit
    obtain ⟨runs, hruns, rfl⟩ := (wrapCuts_iff hb).mp hps
    obtain ⟨hflat, hpieces, hfull⟩ := cuts_longest_iff.mp hruns
    exact ⟨runs, hflat, fun r hr => (hpieces r hr).1,
      fun r hr => h _ hps _ (List.mem_map_of_mem hr), hfull⟩

end Lines

/-- A line is inside the canvas exactly when it leaves the padding free. -/
theorem insideWidth_draw_iff {paint : SKPaint} {bitmap : SKBitmap} {tws : List SkiaWrapText}
    {height : ℚ} : InsideWidth paint (draw bitmap tws (drawImageInfo bitmap height)) ↔
      ∀ l ∈ tws, paint.advance l.content ≤ bitmap.width - pad := by
  have hpad : (0 : ℚ) ≤ pad := by norm_num [pad]
  constructor
  · intro h l hl
    obtain ⟨pre, post, hsplit⟩ := List.append_of_mem hl
    have hin := (h (placed ⟨pad, pad⟩ pre l) (mem_drawLines.mpr ⟨pre, l, post, hsplit, rfl⟩)).2
    have hwidth : (pad : ℚ) + paint.advance l.content ≤ bitmap.width := by
      exact_mod_cast hin
    linarith
  · intro h t ht
    obtain ⟨pre, l, post, rfl, rfl⟩ := mem_drawLines.mp ht
    have hl := h l (by simp)
    refine ⟨hpad, ?_⟩
    show (pad : ℚ) + paint.advance l.content ≤ ((bitmap.width : Int) : ℚ)
    push_cast
    linarith

/-- **`DrawBySkia` keeps every line inside the canvas exactly when every content keeps
the margin**, for every request whose picture decodes and whose glyphs fit the width
they are wrapped to. -/
theorem drawBySkia_insideWidth_iff {skia : SkiaSharp} {request : DrawBySkiaRequest} {bitmap : SKBitmap}
    (hb : BreakTextSpec skia.paint) (hd : skia.decode request.picture = some bitmap)
    (hfit : ∀ item ∈ request.contents, GlyphsFit skia.paint (wrapWidth bitmap) item) :
    (∀ surface, DrawsSurface skia request surface → InsideWidth skia.paint surface) ↔
      ∀ item ∈ request.contents, ∃ runs, KeepsMargin skia.paint bitmap item runs := by
  constructor
  · intro h item hitem
    refine (keepsMargin_iff hb (hfit item hitem)).mpr fun ps hps p hp => ?_
    -- the lines of all the contents, among them the one for `p`
    obtain ⟨rounds, hends⟩ := (parseTextWrapAll_ends_iff_cuts hb).mpr
      fun item hitem => exists_wrapCuts hb (hfit item hitem)
    obtain ⟨tws, hw⟩ := (parseTextWrapAll_ends hb).mp hends
    have hl : wrapLine skia.paint p ∈ tws :=
      (mem_parseTextWrapAll hb hw).mpr ⟨item, hitem, ps, hps, p, hp, rfl⟩
    have hdraws : DrawsSurface skia request _ :=
      ⟨bitmap, rounds, tws, _, hd, hw, textHeight_eq (List.ne_nil_of_mem hl), rfl⟩
    exact insideWidth_draw_iff.mp (h _ hdraws) _ hl
  · rintro h surface ⟨bitmap', rounds, tws, height, hd', hw, -, rfl⟩
    obtain rfl : bitmap = bitmap' := Option.some.inj (hd.symm.trans hd')
    refine insideWidth_draw_iff.mpr fun l hl => ?_
    obtain ⟨item, hitem, ps, hps, p, hp, rfl⟩ := (mem_parseTextWrapAll hb hw).mp hl
    exact (keepsMargin_iff hb (hfit item hitem)).mp (h item hitem) ps hps p hp

/-- Skia with a font whose glyphs are all 32 units wide; a picture is 100 wide. -/
def wideSkia : SkiaSharp :=
  { demoSkia with paint := unitPaint (fun _ => 32) (fun _ => ⟨0, -30, 32, 10⟩) }

theorem drawBySkia_insideWidth_wide :
    (∀ surface, DrawsSurface wideSkia ⟨[[97, 97]], [1]⟩ surface → InsideWidth wideSkia.paint surface) ↔
      ∀ item ∈ ([[97, 97]] : List Text),
        ∃ runs, KeepsMargin wideSkia.paint ⟨100, 100, [1], by decide, by decide⟩ item runs :=
  drawBySkia_insideWidth_iff (unitPaint_breakTextSpec _ _) rfl (by unfold GlyphsFit; decide +kernel)

/-- **Three glyphs, 96 units wide**: they fit the 96 units that are left, and starting
8 from the left they end at 104 of 100. -/
theorem drawBySkia_not_insideWidth : BreakTextSpec wideSkia.paint ∧
    (∀ item ∈ ([[97, 97, 97]] : List Text), GlyphsFit wideSkia.paint 96 item) ∧
    ∃ surface, DrawsSurface wideSkia ⟨[[97, 97, 97]], [1]⟩ surface ∧
      surface.info.width = 100 ∧ ¬ InsideWidth wideSkia.paint surface := by
  refine ⟨unitPaint_breakTextSpec _ _, by unfold GlyphsFit; decide +kernel, _,
    ⟨⟨100, 100, [1], by decide, by decide⟩, 1, [⟨40, [97, 97, 97]⟩], 56, rfl, ?_, ?_, rfl⟩, rfl, ?_⟩
  · decide +kernel
  · decide +kernel
  · intro hin
    have hline := insideWidth_draw_iff.mp hin ⟨40, [97, 97, 97]⟩ (List.mem_singleton.mpr rfl)
    exact absurd hline (by decide +kernel)

end ExertGrpc
