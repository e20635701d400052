import ExertGrpc.SkiaDemoImplement
import Mathlib.Tactic.NormNum

/-! # What the wrap loop ends with

`SkiaExtentions` reduces the loop to cuttings of the text by `BreakText`, and
`SkiaText` reduces those to greedy cuttings of its glyphs.  Both halves of this
module are read off the greedy cutting:

* it exists exactly when every glyph fits the width by itself (`exists_wrapCuts_iff`),
  so a picture narrower than one glyph of one content keeps the handler busy for
  ever, adding empty lines;
* when it exists, its pieces are the lines, in order, whole glyphs each, as full
  as they can be (`GreedyLines`).
-/
namespace ExertGrpc
open PrefixCut

/-- Every glyph of the text fits the width by itself. -/
def GlyphsFit (paint : SKPaint) (maxWidth : Int) (text : Text) : Prop :=
  ∀ g ∈ paint.glyphs text, 0 < maxWidth ∧ paint.advance g ≤ maxWidth

section Cutting
variable {paint : SKPaint} (hb : BreakTextSpec paint) {maxWidth : Int}
include hb

theorem wrapCuts_iff {text : Text} {ps : List Text} :
    Cuts (wrapCut paint maxWidth) text ps ↔
      ∃ gss, Cuts (PrefixCut.longest (paint.Fits maxWidth)) (paint.glyphs text) gss ∧
        ps = gss.map List.flatten := hb.cuts_iff

theorem exists_wrapCuts {text : Text} (h : GlyphsFit paint maxWidth text) :
    ∃ ps, Cuts (wrapCut paint maxWidth) text ps := by
  obtain ⟨gss, hgss⟩ : ∃ gss, Cuts (PrefixCut.longest (paint.Fits maxWidth))
      (paint.glyphs text) gss :=
    exists_greedy fun g hg => ⟨by exact_mod_cast (h g hg).1, by simpa using (h g hg).2⟩
  exact ⟨_, (wrapCuts_iff hb).mpr ⟨gss, hgss, rfl⟩⟩

/-- **When the loop has a cutting to compute.**  A piece is at least as wide as
each of its glyphs, so a glyph that does not fit is in no piece. -/
theorem exists_wrapCuts_iff (ha : SumAdvance paint) {text : Text} :
    (∃ ps, Cuts (wrapCut paint maxWidth) text ps) ↔ GlyphsFit paint maxWidth text := by
  refine ⟨?_, exists_wrapCuts hb⟩
  rintro ⟨ps, hps⟩ g hg
  obtain ⟨gss, hgss, -⟩ := (wrapCuts_iff hb).mp hps
  have hflat := hgss.flatten_eq
  rw [← hflat] at hg
  obtain ⟨gs, hgs, hggs⟩ := List.mem_flatten.mp hg
  have hrun : gs <:+: paint.glyphs text := hflat ▸ List.infix_of_mem_flatten hgs
  obtain ⟨hpos, hfit⟩ := hgss.piece_fits gs hgs
  rw [ha.sum text gs hrun] at hfit
  refine ⟨by exact_mod_cast hpos, le_trans ?_ hfit⟩
  refine List.single_le_sum (fun x hx => ?_) _ (List.mem_map_of_mem hggs)
  obtain ⟨g', hg', rfl⟩ := List.mem_map.mp hx
  exact ha.nonneg text g' (hrun.subset hg')

theorem parseTextWrap_ends_iff_cuts {text : Text} :
    (∃ rounds, parseTextWrap paint text maxWidth rounds ≠ .unfinished) ↔
      ∃ ps, Cuts (wrapCut paint maxWidth) text ps := by
  constructor
  · rintro ⟨rounds, h⟩
    obtain ⟨lines, hl⟩ := (parseTextWrap_ends hb).mp h
    obtain ⟨ps, hps, -⟩ := parseTextWrap_eq_returned hb hl
    exact ⟨ps, hps⟩
  · rintro ⟨ps, hps⟩
    exact ⟨ps.length, (parseTextWrap_ends hb).mpr ⟨_, parseTextWrap_of_cuts hb hps (Nat.le_refl _)⟩⟩

omit hb in
/-- Choosing for every member of a list is choosing a list. -/
private theorem forall₂_of_forall_exists {α β : Type} {R : α → β → Prop} {l : List α}
    (h : ∀ a ∈ l, ∃ b, R a b) : ∃ l', List.Forall₂ R l l' := by
  induction l with
  | nil => exact ⟨[], .nil⟩
  | cons a l ih =>
    obtain ⟨b, hb⟩ := h a (List.mem_cons_self ..)
    obtain ⟨l', hl'⟩ := ih fun c hc => h c (List.mem_cons_of_mem _ hc)
    exact ⟨b :: l', .cons hb hl'⟩

theorem parseTextWrapAll_ends_iff_cuts {contents : List Text} :
    (∃ rounds, parseTextWrapAll paint contents maxWidth rounds ≠ .unfinished) ↔
      ∀ item ∈ contents, ∃ ps, Cuts (wrapCut paint maxWidth) item ps := by
  constructor
  · rintro ⟨rounds, h⟩
    obtain ⟨lines, hl⟩ := (parseTextWrapAll_ends hb).mp h
    obtain ⟨perItem, hper, -⟩ := parseTextWrapAll_eq_returned.mp hl
    refine ((List.forall₂_and_left _ _).mp (hper.imp fun item r hr => ⟨?_, hr⟩)).1
    obtain ⟨ps, hps, -⟩ := parseTextWrap_eq_returned hb hr
    exact ⟨ps, hps⟩
  · intro h
    obtain ⟨pss, hpss⟩ := forall₂_of_forall_exists h
    exact ⟨_, (parseTextWrapAll_ends hb).mpr ⟨_, parseTextWrapAll_of_cuts hb hpss (Nat.le_refl _)⟩⟩

end Cutting

/-! ## When the loop ends -/

/-- **The wrap loop ends for exactly the texts whose every glyph fits the width
by itself**, and so does the loop over a list of contents: whatever the lengths
of the texts, and for every width, positive or not. -/
theorem parseTextWrap_ends_iff_glyphsFit {paint : SKPaint} (hb : BreakTextSpec paint)
    (ha : SumAdvance paint) (maxWidth : Int) :
    (∀ text, (∃ rounds, parseTextWrap paint text maxWidth rounds ≠ .unfinished) ↔
      GlyphsFit paint maxWidth text) ∧
    (∀ contents, (∃ rounds, parseTextWrapAll paint contents maxWidth rounds ≠ .unfinished) ↔
      ∀ item ∈ contents, GlyphsFit paint maxWidth item) := by
  refine ⟨fun text => ?_, fun contents => ?_⟩
  · rw [parseTextWrap_ends_iff_cuts hb, exists_wrapCuts_iff hb ha]
  · rw [parseTextWrapAll_ends_iff_cuts hb]
    exact forall₂_congr fun item _ => exists_wrapCuts_iff hb ha

/-- A font whose `W` is forty units wide and whose other glyphs are ten. -/
def demoPaint : SKPaint :=
  unitPaint (fun u => if u = 87 then 40 else 10) (fun _ => ⟨0, -30, 40, 10⟩)

theorem demoPaint_breakTextSpec : BreakTextSpec demoPaint := unitPaint_breakTextSpec _ _

theorem demoPaint_sumAdvance : SumAdvance demoPaint :=
  unitPaint_sumAdvance (fun u => by split <;> norm_num) _

theorem parseTextWrap_ends_demo :
    (∃ rounds, parseTextWrap demoPaint [87, 105, 105] 45 rounds ≠ .unfinished) ↔
      GlyphsFit demoPaint 45 [87, 105, 105] :=
  (parseTextWrap_ends_iff_glyphsFit demoPaint_breakTextSpec demoPaint_sumAdvance 45).1 _

/-- **A picture one pixel wide**: the width left after the padding is `-3`, no
glyph fits, and the loop for the text `W` does not end in any number of rounds. -/
theorem parseTextWrap_never_ends : BreakTextSpec demoPaint ∧ SumAdvance demoPaint ∧
    ∀ rounds, parseTextWrap demoPaint [87] (wrapWidth ⟨1, 1, [], Nat.one_pos, Nat.one_pos⟩) rounds =
      .unfinished := by
  refine ⟨demoPaint_breakTextSpec, demoPaint_sumAdvance, fun rounds => ?_⟩
  by_contra h
  obtain ⟨ps, hps⟩ := (parseTextWrap_ends_iff_cuts demoPaint_breakTextSpec).mp ⟨rounds, h⟩
  have hfit := (exists_wrapCuts_iff demoPaint_breakTextSpec demoPaint_sumAdvance).mp ⟨ps, hps⟩
  obtain ⟨hpos, -⟩ := hfit [87] (by decide)
  exact absurd hpos (by decide)

/-! ## What the lines are -/

/-- **The greedy wrapping of one content.**  The lines spell it out in order and
none is empty; each fits, breaks it between two glyphs, and would not fit with
the next glyph; and each carries the height measured for itself. -/
structure GreedyLines (paint : SKPaint) (maxWidth : Int) (item : Text)
    (lines : List SkiaWrapText) : Prop where
  content : (lines.map SkiaWrapText.content).flatten = item
  nonempty : ∀ l ∈ lines, l.content ≠ []
  fits : ∀ l ∈ lines, paint.advance l.content ≤ maxWidth
  maximal : ∀ pre l post, lines = pre ++ l :: post → post ≠ [] →
    ∃ before next after, paint.glyphs item = before ++ next :: after ∧
      before.flatten = ((pre ++ [l]).map SkiaWrapText.content).flatten ∧
      (maxWidth : ℚ) < paint.advance (l.content ++ next)
  height : ∀ l ∈ lines, l.height = (paint.measureText l.content).height

theorem GreedyLines.eq_nil {paint : SKPaint} {maxWidth : Int} {lines : List SkiaWrapText}
    (h : GreedyLines paint maxWidth [] lines) : lines = [] := by
  cases lines with
  | nil => rfl
  | cons l ls =>
    have hc := h.content
    rw [List.map_cons, List.flatten_cons, List.append_eq_nil_iff] at hc
    exact absurd hc.1 (h.nonempty l (List.mem_cons_self ..))

/-- The line recorded for a run of glyphs. -/
def glyphLine (paint : SKPaint) (gs : List Text) : SkiaWrapText := wrapLine paint gs.flatten

theorem glyphLine_contents (paint : SKPaint) (gss : List (List Text)) :
    ((gss.map (glyphLine paint)).map SkiaWrapText.content).flatten = gss.flatten.flatten := by
  rw [List.map_map, List.flatten_flatten]
  rfl

/-- The lines of a greedy cutting of the glyphs are a greedy wrapping. -/
theorem greedyLines_of_cuts {paint : SKPaint} {maxWidth : Int} {item : Text}
    {gss : List (List Text)}
    (h : Cuts (PrefixCut.longest (paint.Fits maxWidth)) (paint.glyphs item) gss) :
    GreedyLines paint maxWidth item (gss.map (glyphLine paint)) := by
  refine ⟨?_, ?_, ?_, ?_, ?_⟩
  · rw [glyphLine_contents, h.flatten_eq, paint.glyphs_flatten]
  · intro l hl hnil
    obtain ⟨gs, hgs, rfl⟩ := List.mem_map.mp hl
    obtain ⟨g, hg⟩ := List.exists_mem_of_ne_nil gs (h.ne_nil gs hgs)
    have hmem : g ∈ paint.glyphs item := h.flatten_eq ▸ List.mem_flatten.mpr ⟨gs, hgs, hg⟩
    exact paint.glyphs_ne_nil hmem (List.flatten_eq_nil_iff.mp hnil g hg)
  · intro l hl
    obtain ⟨gs, hgs, rfl⟩ := List.mem_map.mp hl
    exact (h.piece_fits gs hgs).2
  · intro pre l post hsplit hpost
    obtain ⟨gpre, grest, rfl, rfl, hrest⟩ := List.map_eq_append_iff.mp hsplit
    obtain ⟨gs, gpost, rfl, rfl, rfl⟩ := List.map_eq_cons_iff.mp hrest
    -- the next glyph is the first one of the next piece
    obtain ⟨q, qs, rfl⟩ := List.exists_cons_of_ne_nil
      (fun hnil => hpost (by rw [hnil, List.map_nil]) : gpost ≠ [])
    obtain ⟨next, after, rfl⟩ := List.exists_cons_of_ne_nil (h.ne_nil q (by simp))
    refine ⟨(gpre ++ [gs]).flatten, next, after ++ qs.flatten, ?_, ?_, ?_⟩
    · rw [← h.flatten_eq]
      simp
    · rw [← List.map_singleton, ← List.map_append, glyphLine_contents]
    · have hpos := (h.piece_fits gs (by simp)).1
      have hnot := h.maximal rfl (List.cons_append ▸ List.flatten_cons)
      have hlt := not_le.mp fun hle => hnot ⟨hpos, hle⟩
      simpa [glyphLine, wrapLine] using hlt
  · intro l hl
    obtain ⟨gs, -, rfl⟩ := List.mem_map.mp hl
    rfl

section Contents
variable {paint : SKPaint} {maxWidth : Int} {contents : List Text}
  {perItem : List (List SkiaWrapText)}

theorem greedyLines_contents (h : List.Forall₂ (GreedyLines paint maxWidth) contents perItem) :
    (perItem.flatten.map SkiaWrapText.content).flatten = contents.flatten := by
  induction h with
  | nil => rfl
  | cons hlines hrest ih =>
    rw [List.flatten_cons, List.map_append, List.flatten_append, hlines.content, ih,
      List.flatten_cons]

theorem greedyLines_mem (h : List.Forall₂ (GreedyLines paint maxWidth) contents perItem)
    {l : SkiaWrapText} (hl : l ∈ perItem.flatten) :
    l.content ≠ [] ∧ paint.advance l.content ≤ maxWidth ∧
      l.height = (paint.measureText l.content).height := by
  induction h with
  | nil => cases hl
  | cons hlines hrest ih =>
    rcases List.mem_append.mp hl with hl | hl
    · exact ⟨hlines.nonempty l hl, hlines.fits l hl, hlines.height l hl⟩
    · exact ih hl

/-- Contents whose glyphs all fit have greedy wrappings, and `ParseTextWrap`
returns them one after another, given a round for every unit. -/
theorem exists_greedyLines (hb : BreakTextSpec paint)
    (hfit : ∀ item ∈ contents, GlyphsFit paint maxWidth item) :
    ∃ perItem, List.Forall₂ (GreedyLines paint maxWidth) contents perItem ∧
      ∀ rounds, contents.flatten.length ≤ rounds →
        parseTextWrapAll paint contents maxWidth rounds = .returned perItem.flatten := by
  obtain ⟨gsss, hgsss⟩ : ∃ gsss, List.Forall₂ (fun item gss =>
      Cuts (PrefixCut.longest (paint.Fits maxWidth)) (paint.glyphs item) gss) contents gsss := by
    refine forall₂_of_forall_exists fun item hitem => ?_
    obtain ⟨ps, hps⟩ := exists_wrapCuts hb (hfit item hitem)
    obtain ⟨gss, hgss, -⟩ := (wrapCuts_iff hb).mp hps
    exact ⟨gss, hgss⟩
  refine ⟨gsss.map fun gss => gss.map (glyphLine paint), ?_, fun rounds hr => ?_⟩
  · exact List.forall₂_map_right_iff.mpr (hgsss.imp fun item gss h => greedyLines_of_cuts h)
  · have hcuts : List.Forall₂ (fun item ps => Cuts (wrapCut paint maxWidth) item ps) contents
        (gsss.map fun gss => gss.map List.flatten) :=
      List.forall₂_map_right_iff.mpr
        (hgsss.imp fun item gss h => (wrapCuts_iff hb).mpr ⟨gss, h, rfl⟩)
    have hlines : ∀ gss : List (List Text),
        (gss.map List.flatten).map (wrapLine paint) = gss.map (glyphLine paint) :=
      fun gss => List.map_map
    rw [parseTextWrapAll_of_cuts hb hcuts hr, List.map_map]
    exact congrArg (fun f => Outcome.returned (gsss.map f).flatten) (funext hlines)

end Contents

/-- **`ParseTextWrap` over a list of contents is the greedy wrapping of each of
them, one after another**, whenever every glyph fits the width: given enough
rounds it returns the same lines whatever the budget; they are those of the
first content, then those of the second, and so on; and together they spell the
contents out. -/
theorem parseTextWrapAll_greedy {paint : SKPaint} (hb : BreakTextSpec paint)
    {maxWidth : Int} {contents : List Text}
    (hfit : ∀ item ∈ contents, GlyphsFit paint maxWidth item) :
    ∃ lines perItem rounds,
      (∀ r, rounds ≤ r → parseTextWrapAll paint contents maxWidth r = .returned lines) ∧
      lines = perItem.flatten ∧
      List.Forall₂ (GreedyLines paint maxWidth) contents perItem ∧
      List.Forall₂ (fun item ls => item = [] → ls = []) contents perItem ∧
      (lines.map SkiaWrapText.content).flatten = contents.flatten ∧
      ∀ l ∈ lines, l.content ≠ [] ∧ paint.advance l.content ≤ maxWidth ∧
        l.height = (paint.measureText l.content).height := by
  obtain ⟨perItem, hper, hret⟩ := exists_greedyLines hb hfit
  refine ⟨_, perItem, _, hret, rfl, hper, hper.imp ?_, greedyLines_contents hper,
    fun l hl => greedyLines_mem hper hl⟩
  rintro item ls h rfl
  exact h.eq_nil

/-- `WiW`, which does not fit 60 units, and an empty text. -/
def demoContents : List Text := [[87, 105, 87], []]

theorem demoContents_fit : ∀ item ∈ demoContents, GlyphsFit demoPaint 60 item := by
  unfold GlyphsFit
  decide +kernel

theorem parseTextWrapAll_greedy_demo :
    ∃ lines perItem rounds,
      (∀ r, rounds ≤ r → parseTextWrapAll demoPaint demoContents 60 r = .returned lines) ∧
      lines = perItem.flatten ∧
      List.Forall₂ (GreedyLines demoPaint 60) demoContents perItem ∧
      List.Forall₂ (fun item ls => item = [] → ls = []) demoContents perItem ∧
      (lines.map SkiaWrapText.content).flatten = demoContents.flatten ∧
      ∀ l ∈ lines, l.content ≠ [] ∧ demoPaint.advance l.content ≤ (60 : Int) ∧
        l.height = (demoPaint.measureText l.content).height :=
  parseTextWrapAll_greedy demoPaint_breakTextSpec demoContents_fit

example : parseTextWrapAll demoPaint demoContents 60 2 =
    .returned [⟨40, [87, 105]⟩, ⟨40, [87]⟩] := by decide +kernel

end ExertGrpc
