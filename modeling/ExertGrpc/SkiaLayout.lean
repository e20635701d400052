import ExertGrpc.SkiaDemoImplement
import Mathlib

/-! # Where `DrawBySkia` puts the ink

A line is measured as an ink box around its baseline, from `top` to `bottom`;
`height` is the difference.  The drawing loop moves the point down by the height
of a line and then draws the line **on its baseline**.  So line `l`, after the
lines `pre`, has its ink from `pad + stack pre + descent l` down to `l.height`
below that: every line is displaced by its own descent.

`Visible` is what one expects of the layout, and `DescentsFit` is what it takes:
the descents must not differ by more than the padding that is left for them.
-/
namespace ExertGrpc

/-- The room the lines take up, with the padding under each of them. -/
def stack (tws : List SkiaWrapText) : ℚ := (tws.map fun i => i.height + (pad : ℚ)).sum

@[simp] theorem stack_nil : stack [] = 0 := rfl

@[simp] theorem stack_cons (l : SkiaWrapText) (tws : List SkiaWrapText) :
    stack (l :: tws) = l.height + pad + stack tws := rfl

@[simp] theorem stack_append (pre post : List SkiaWrapText) :
    stack (pre ++ post) = stack pre + stack post := by
  simp [stack]

theorem stack_nonneg {tws : List SkiaWrapText} (h : ∀ l ∈ tws, 0 ≤ l.height) : 0 ≤ stack tws := by
  induction tws with
  | nil => exact le_refl _
  | cons l tws ih =>
    have hl := h l (List.mem_cons_self ..)
    have hrest := ih fun m hm => h m (List.mem_cons_of_mem _ hm)
    have hpad : (0 : ℚ) ≤ pad := by norm_num [pad]
    rw [stack_cons]
    linarith

/-! ## The fold and the loop agree -/

theorem aggregate_eq {hs : List ℚ} (h : hs ≠ []) : aggregate hs = .returned hs.sum := by
  have key : ∀ (hs : List ℚ) (a : ℚ), hs.foldl (fun a b => a + b) a = a + hs.sum := by
    intro hs
    induction hs with
    | nil => intro a; simp
    | cons b hs ih => intro a; rw [List.foldl_cons, ih, List.sum_cons, add_assoc]
  cases hs with
  | nil => exact absurd rfl h
  | cons a hs => rw [aggregate, key, List.sum_cons]

/-- **The height that is folded up before drawing** is the room the lines take
up and the padding above them. -/
theorem textHeight_eq {tws : List SkiaWrapText} (h : tws ≠ []) :
    textHeight tws = .returned (pad + stack tws) := by
  rw [textHeight, aggregate_eq (by simpa using h), Outcome.returned_bind, Outcome.pure_eq, stack,
    add_comm]

/-- **Where the drawing loop ends**: below all the lines. -/
theorem drawLines_point (tws : List SkiaWrapText) (p : SKPoint) :
    (drawLines tws p).2 = { p with y := p.y + stack tws } := by
  induction tws generalizing p with
  | nil => simp [drawLines]
  | cons l tws ih => simp only [drawLines, ih, stack_cons, add_assoc]

/-- The text the loop draws for `l`, after the lines `pre`. -/
def placed (p : SKPoint) (pre : List SkiaWrapText) (l : SkiaWrapText) : DrawnText :=
  { content := l.content, point := { p with y := p.y + stack pre + l.height } }

theorem placed_cons (p : SKPoint) (k : SkiaWrapText) (pre : List SkiaWrapText)
    (l : SkiaWrapText) :
    placed { p with y := p.y + k.height + pad } pre l = placed p (k :: pre) l := by
  simp only [placed, stack_cons, add_assoc]

theorem drawLines_cons (l : SkiaWrapText) (tws : List SkiaWrapText) (p : SKPoint) :
    (drawLines (l :: tws) p).1 =
      placed p [] l :: (drawLines tws { p with y := p.y + l.height + pad }).1 := by
  simp [drawLines, placed]

theorem mem_drawLines {tws : List SkiaWrapText} {p : SKPoint} {t : DrawnText} :
    t ∈ (drawLines tws p).1 ↔ ∃ pre l post, tws = pre ++ l :: post ∧ t = placed p pre l := by
  induction tws generalizing p with
  | nil => simp [drawLines]
  | cons k tws ih =>
    rw [drawLines_cons, List.mem_cons, ih]
    constructor
    · rintro (rfl | ⟨pre, l, post, rfl, rfl⟩)
      · exact ⟨[], k, tws, rfl, rfl⟩
      · exact ⟨k :: pre, l, post, rfl, placed_cons p k pre l⟩
    · rintro ⟨pre, l, post, hsplit, rfl⟩
      cases pre with
      | nil =>
        obtain ⟨rfl, rfl⟩ := List.cons.inj hsplit
        exact Or.inl rfl
      | cons m pre =>
        obtain ⟨rfl, rfl⟩ := List.cons.inj hsplit
        exact Or.inr ⟨pre, l, post, rfl, (placed_cons p k pre l).symm⟩

/-- A relation between every text and every later one, in terms of the lines. -/
theorem pairwise_drawLines {R : DrawnText → DrawnText → Prop} {tws : List SkiaWrapText}
    {p : SKPoint} : (drawLines tws p).1.Pairwise R ↔
      ∀ pre a mid b post, tws = pre ++ a :: (mid ++ b :: post) →
        R (placed p pre a) (placed p (pre ++ a :: mid) b) := by
  induction tws generalizing p with
  | nil => simp [drawLines]
  | cons k tws ih =>
    rw [drawLines_cons, List.pairwise_cons, ih]
    constructor
    · rintro ⟨hfirst, hrest⟩ pre a mid b post hsplit
      cases pre with
      | nil =>
        obtain ⟨rfl, rfl⟩ := List.cons.inj hsplit
        have h := hfirst _ (mem_drawLines.mpr ⟨mid, b, post, rfl, rfl⟩)
        rwa [placed_cons] at h
      | cons m pre =>
        obtain ⟨rfl, rfl⟩ := List.cons.inj hsplit
        have h := hrest pre a mid b post rfl
        rwa [placed_cons, placed_cons] at h
    · intro h
      refine ⟨fun t ht => ?_, fun pre a mid b post hsplit => ?_⟩
      · obtain ⟨mid, b, post, rfl, rfl⟩ := mem_drawLines.mp ht
        rw [placed_cons]
        exact h [] k mid b post rfl
      · rw [placed_cons, placed_cons]
        exact h (k :: pre) a mid b post (by rw [hsplit]; rfl)

/-! ## Truncation -/

theorem truncToInt_of_nonneg {q : ℚ} (h : 0 ≤ q) : truncToInt q = ⌊q⌋ := by
  rw [truncToInt, Rat.floor_def', Int.tdiv_eq_ediv_of_nonneg (Rat.num_nonneg.mpr h)]

/-- A picture's height below a coordinate, truncated, is not above it. -/
theorem le_truncToInt_add {q : ℚ} (h : 0 ≤ q) {n : Nat} (hn : 0 < n) :
    q ≤ truncToInt (q + n) := by
  have hn' : (1 : ℚ) ≤ n := by exact_mod_cast hn
  rw [truncToInt_of_nonneg (by linarith)]
  have := Int.lt_floor_add_one (q + n)
  linarith

/-! ## Ink -/

section Ink
variable (paint : SKPaint)

/-- The top of the ink of a drawn text. -/
def inkTop (t : DrawnText) : ℚ := t.point.y + (paint.measureText t.content).top

/-- The bottom of the ink of a drawn text. -/
def inkBottom (t : DrawnText) : ℚ := t.point.y + (paint.measureText t.content).bottom

/-- What the layout is for: all the ink is on the canvas, no two lines share
any, and the picture covers none of it. -/
structure Visible (s : SKSurface) : Prop where
  inside : ∀ t ∈ s.texts, 0 ≤ inkTop paint t ∧ inkBottom paint t ≤ s.info.height
  apart : s.texts.Pairwise fun a b =>
    Disjoint (Set.Icc (inkTop paint a) (inkBottom paint a))
      (Set.Icc (inkTop paint b) (inkBottom paint b))
  above : ∀ t ∈ s.texts, inkBottom paint t ≤ s.rect.top

/-- How far the ink of a line reaches below its baseline. -/
def descent (l : SkiaWrapText) : ℚ := (paint.measureText l.content).bottom

/-- **The lines whose layout works.**  A line reaches no higher above its
baseline than there is room above it (`room`, left), and no lower than the lines
and the padding below it (`room`, right); and of two lines the upper one reaches
lower than the other by less than what is between them, unless it reaches lower
by so much that its ink lies wholly below that of the other (`apart`). -/
structure DescentsFit (tws : List SkiaWrapText) : Prop where
  room : ∀ pre l post, tws = pre ++ l :: post →
    -(pad + stack pre) ≤ descent paint l ∧ descent paint l ≤ pad + stack post
  apart : ∀ pre a mid b post, tws = pre ++ a :: (mid ++ b :: post) →
    descent paint a - descent paint b < pad + stack mid ∨
      a.height + (pad + stack mid) + b.height < descent paint a - descent paint b

variable {paint} {p : SKPoint} {pre : List SkiaWrapText} {l : SkiaWrapText}

theorem inkBottom_placed : inkBottom paint (placed p pre l) =
    p.y + stack pre + l.height + descent paint l := rfl

theorem inkTop_placed (hm : l.height = (paint.measureText l.content).height) :
    inkTop paint (placed p pre l) = p.y + stack pre + descent paint l := by
  simp only [inkTop, placed, descent, hm, SKRect.height]
  ring

/-- Two inks that are not empty are apart when one ends before the other starts. -/
theorem disjoint_Icc_iff {a b c d : ℚ} (hab : a ≤ b) (hcd : c ≤ d) :
    Disjoint (Set.Icc a b) (Set.Icc c d) ↔ b < c ∨ d < a := by
  rw [Set.disjoint_iff_inter_eq_empty, Set.Icc_inter_Icc, Set.Icc_eq_empty_iff, not_le]
  simp [not_lt.mpr hab, not_lt.mpr hcd, or_comm]

section Draw
variable {tws : List SkiaWrapText} (bitmap : SKBitmap)
  (hm : ∀ l ∈ tws, l.height = (paint.measureText l.content).height)
  (hbox : ∀ l ∈ tws, (paint.measureText l.content).top ≤ (paint.measureText l.content).bottom)
include hm hbox

theorem height_nonneg : ∀ l ∈ tws, 0 ≤ l.height := by
  intro l hl
  rw [hm l hl, SKRect.height]
  exact sub_nonneg.mpr (hbox l hl)

/-- The ink of line `l`, after the lines `pre`, on the canvas. -/
theorem ink_placed (pre : List SkiaWrapText) {l : SkiaWrapText} (h : l ∈ tws) :
    inkTop paint (placed ⟨pad, pad⟩ pre l) = pad + stack pre + descent paint l ∧
      inkTop paint (placed ⟨pad, pad⟩ pre l) ≤ inkBottom paint (placed ⟨pad, pad⟩ pre l) := by
  have htop : inkTop paint (placed ⟨pad, pad⟩ pre l) = _ := inkTop_placed (hm l h)
  refine ⟨htop, ?_⟩
  have hh := height_nonneg hm hbox l h
  rw [htop, inkBottom_placed]
  linarith

/-- The surface as high as the lines and the picture are together. -/
theorem visible_iff_descentsFit :
    Visible paint (draw bitmap tws (drawImageInfo bitmap (pad + stack tws))) ↔
      DescentsFit paint tws := by
  have htop : (draw bitmap tws (drawImageInfo bitmap (pad + stack tws))).rect.top =
      pad + stack tws := by
    simp only [draw, drawLines_point]
  have hbottom : ((pad : ℚ) + stack tws) ≤
      (draw bitmap tws (drawImageInfo bitmap (pad + stack tws))).info.height := by
    refine le_truncToInt_add ?_ bitmap.height_pos
    have := stack_nonneg (height_nonneg hm hbox)
    have hpad : (0 : ℚ) ≤ pad := by norm_num [pad]
    linarith
  constructor
  · intro hv
    refine ⟨fun pre l post hsplit => ?_, fun pre a mid b post hsplit => ?_⟩
    · have hmem : placed ⟨pad, pad⟩ pre l ∈ (drawLines tws ⟨pad, pad⟩).1 :=
        mem_drawLines.mpr ⟨pre, l, post, hsplit, rfl⟩
      have hink := ink_placed hm hbox pre (l := l) (by simp [hsplit])
      have hin := (hv.inside _ hmem).1
      have habove := hv.above _ hmem
      rw [htop, inkBottom_placed, hsplit, stack_append, stack_cons] at habove
      rw [hink.1] at hin
      constructor <;> linarith
    · have hapart := pairwise_drawLines.mp hv.apart pre a mid b post hsplit
      have ha := ink_placed hm hbox pre (l := a) (by simp [hsplit])
      have hb := ink_placed hm hbox (pre ++ a :: mid) (l := b) (by simp [hsplit])
      rw [disjoint_Icc_iff ha.2 hb.2, ha.1, hb.1, inkBottom_placed, inkBottom_placed,
        stack_append, stack_cons] at hapart
      refine hapart.imp (fun h => ?_) (fun h => ?_) <;> linarith
  · intro hd
    have habove : ∀ t ∈ (drawLines tws ⟨pad, pad⟩).1, inkBottom paint t ≤ pad + stack tws := by
      intro t ht
      obtain ⟨pre, l, post, hsplit, rfl⟩ := mem_drawLines.mp ht
      have hroom := (hd.room pre l post hsplit).2
      rw [inkBottom_placed, hsplit, stack_append, stack_cons]
      linarith
    refine ⟨fun t ht => ⟨?_, (habove t ht).trans hbottom⟩, ?_, fun t ht => htop ▸ habove t ht⟩
    · obtain ⟨pre, l, post, hsplit, rfl⟩ := mem_drawLines.mp ht
      have hink := ink_placed hm hbox pre (l := l) (by simp [hsplit])
      have hroom := (hd.room pre l post hsplit).1
      rw [hink.1]
      linarith
    · refine pairwise_drawLines.mpr fun pre a mid b post hsplit => ?_
      have ha := ink_placed hm hbox pre (l := a) (by simp [hsplit])
      have hb := ink_placed hm hbox (pre ++ a :: mid) (l := b) (by simp [hsplit])
      rw [disjoint_Icc_iff ha.2 hb.2, ha.1, hb.1, inkBottom_placed, inkBottom_placed,
        stack_append, stack_cons]
      refine (hd.apart pre a mid b post hsplit).imp (fun h => ?_) (fun h => ?_) <;> linarith

end Draw

end Ink

/-- **`DrawBySkia` keeps everything visible exactly when the descents fit**: for
every non-empty list of lines that carry their measured heights, whatever their
ink boxes, and every picture. -/
theorem draw_visible_iff {paint : SKPaint} {tws : List SkiaWrapText} (bitmap : SKBitmap)
    (hne : tws ≠ []) (hm : ∀ l ∈ tws, l.height = (paint.measureText l.content).height)
    (hbox : ∀ l ∈ tws, (paint.measureText l.content).top ≤ (paint.measureText l.content).bottom) :
    ∃ height, textHeight tws = .returned height ∧
      (Visible paint (draw bitmap tws (drawImageInfo bitmap height)) ↔ DescentsFit paint tws) :=
  ⟨_, textHeight_eq hne, visible_iff_descentsFit bitmap hm hbox⟩

/-- A font whose `g` reaches ten units below the baseline, and nothing else
reaches below it. -/
def descenderPaint : SKPaint :=
  unitPaint (fun _ => 20) (fun t => if t = [103] then ⟨0, -20, 20, 10⟩ else ⟨0, -20, 20, 0⟩)

/-- The lines `g` and `a`, as `ParseTextWrap` measures them. -/
def descenderLines : List SkiaWrapText := [⟨30, [103]⟩, ⟨20, [97]⟩]

theorem draw_visible_descender : ∃ height, textHeight descenderLines = .returned height ∧
    (Visible descenderPaint (draw ⟨100, 100, [], by decide, by decide⟩ descenderLines
      (drawImageInfo ⟨100, 100, [], by decide, by decide⟩ height)) ↔
        DescentsFit descenderPaint descenderLines) :=
  draw_visible_iff _ (by decide) (by decide +kernel) (by decide +kernel)

/-- **A descender over a line without one**: the ink of `g` ends at 48, that of
the `a` below it starts at 46. -/
theorem draw_not_visible :
    parseTextWrapAll descenderPaint [[103], [97]] 96 1 = .returned descenderLines ∧
    textHeight descenderLines = .returned 74 ∧
    ¬ Visible descenderPaint (draw ⟨100, 100, [], by decide, by decide⟩ descenderLines
      (drawImageInfo ⟨100, 100, [], by decide, by decide⟩ 74)) := by
  refine ⟨by decide +kernel, by decide +kernel, fun hv => ?_⟩
  have hheight : (74 : ℚ) = pad + stack descenderLines := by decide +kernel
  have hm : ∀ l ∈ descenderLines, l.height =
      (descenderPaint.measureText l.content).height := by decide +kernel
  have hbox : ∀ l ∈ descenderLines, (descenderPaint.measureText l.content).top ≤
      (descenderPaint.measureText l.content).bottom := by decide +kernel
  rw [hheight] at hv
  have hfit := ((visible_iff_descentsFit _ hm hbox).mp hv).apart
    [] ⟨30, [103]⟩ [] ⟨20, [97]⟩ [] rfl
  exact absurd hfit (by unfold descent; decide +kernel)

end ExertGrpc
