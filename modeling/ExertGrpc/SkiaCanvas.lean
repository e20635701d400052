import ExertGrpc.SkiaLayout
import ExertGrpc.ImageSharpReply

/-! # The canvas is as high as what is drawn on it

Both services compute the height of the canvas before they draw, and the place of the
picture while they draw or after; `DrawBySkia` even folds the heights of the lines up
once and moves a point over them again.  The two have to come out the same, with every
truncation in its place.

Nothing in that depends on the padding the services happen to use, so the layout is
restated here for any padding, and the services' own is a case of it
(`exactCanvas_draw`, `exactDrawing_of_drawing`).
-/
namespace ExertGrpc

/-! ## `DrawBySkia`, for any padding -/

section Skia
variable (padding : ℚ)

/-- `tws.Select(i => i.Height + pad).Aggregate((a, b) => a + b) + pad`. -/
def textHeightWith (tws : List SkiaWrapText) : Outcome Exn ℚ := do
  let sum ← aggregate (tws.map fun i => i.height + padding)
  return sum + padding

/-- The `foreach` over the lines. -/
def drawLinesWith : List SkiaWrapText → SKPoint → List DrawnText × SKPoint
  | [], point => ([], point)
  | tw :: tws, point =>
    let point := { point with y := point.y + tw.height }
    let rest := drawLinesWith tws { point with y := point.y + padding }
    ({ content := tw.content, point := point } :: rest.1, rest.2)

/-- Everything that is drawn on a surface of the given size. -/
def drawWith (bitmap : SKBitmap) (tws : List SkiaWrapText) (info : SKImageInfo) : SKSurface :=
  let lines := drawLinesWith padding tws { x := padding, y := padding }
  { info := info
    texts := lines.1
    bitmap := bitmap
    rect := {
      left := 0
      top := lines.2.y
      right := bitmap.width
      bottom := truncToInt (lines.2.y + bitmap.height) } }

theorem textHeight_eq_with (tws : List SkiaWrapText) :
    textHeight tws = textHeightWith pad tws := rfl

theorem drawLines_eq_with (tws : List SkiaWrapText) (point : SKPoint) :
    drawLines tws point = drawLinesWith pad tws point := by
  induction tws generalizing point with
  | nil => rfl
  | cons tw tws ih => rw [drawLines, drawLinesWith, ih]

theorem draw_eq_with (bitmap : SKBitmap) (tws : List SkiaWrapText) (info : SKImageInfo) :
    draw bitmap tws info = drawWith pad bitmap tws info := by
  simp only [draw, drawWith, drawLines_eq_with]

/-- What a canvas of `DrawBySkia` is to be, `height` being the height of the text and
`point` where the drawing loop ends: the fold and the loop agree, every line is drawn on
its own baseline, the picture is as wide as the canvas, ends with it and is squeezed by
less than one unit, by nothing just when the height is whole, and the text keeps its
distance from it. -/
structure ExactCanvas (bitmap : SKBitmap) (tws : List SkiaWrapText) (height : ℚ) (point : SKPoint)
    (surface : SKSurface) : Prop where
  fold_eq_loop : point.y = height
  lines : surface.texts.length = tws.length
  line_eq : ∀ pre l post, tws = pre ++ l :: post →
    surface.texts[pre.length]? = some ⟨l.content,
      ⟨padding, padding + (pre.map fun i => i.height + padding).sum + l.height⟩⟩
  bitmap_eq : surface.bitmap = bitmap
  width_eq : surface.info.width = bitmap.width
  left_eq : surface.rect.left = 0
  right_eq : surface.rect.right = surface.info.width
  top_eq : surface.rect.top = point.y
  bottom_eq : surface.rect.bottom = surface.info.height
  squeezed : (bitmap.height : ℚ) - 1 < surface.rect.bottom - surface.rect.top
  not_stretched : surface.rect.bottom - surface.rect.top ≤ bitmap.height
  whole : surface.rect.bottom - surface.rect.top = bitmap.height ↔ ∃ n : Int, height = n
  baselines : ∀ t ∈ surface.texts, t.point.y + padding ≤ surface.rect.top

variable {padding}

/-- The loop moves the point by the room of every line. -/
theorem drawLinesWith_y (tws : List SkiaWrapText) (p : SKPoint) :
    (drawLinesWith padding tws p).2.y = p.y + (tws.map fun i => i.height + padding).sum := by
  induction tws generalizing p with
  | nil => simp [drawLinesWith]
  | cons tw tws ih =>
    show (drawLinesWith padding tws _).2.y = _
    rw [ih, List.map_cons, List.sum_cons]
    ring

/-- One text for every line, on the baseline under the room of the lines before it. -/
theorem drawLinesWith_length (tws : List SkiaWrapText) (p : SKPoint) :
    (drawLinesWith padding tws p).1.length = tws.length := by
  induction tws generalizing p with
  | nil => rfl
  | cons tw tws ih => exact congrArg Nat.succ (ih _)

theorem drawLinesWith_getElem? (pre : List SkiaWrapText) (l : SkiaWrapText)
    (post : List SkiaWrapText) (p : SKPoint) :
    (drawLinesWith padding (pre ++ l :: post) p).1[pre.length]? = some ⟨l.content,
      ⟨p.x, p.y + (pre.map fun i => i.height + padding).sum + l.height⟩⟩ := by
  induction pre generalizing p with
  | nil => simp [drawLinesWith]
  | cons k pre ih =>
    show (drawLinesWith padding (pre ++ l :: post) _).1[pre.length]? = _
    rw [ih, List.map_cons, List.sum_cons]
    simp only [add_assoc]

theorem textHeightWith_eq {tws : List SkiaWrapText} (hne : tws ≠ []) :
    textHeightWith padding tws =
      .returned ((tws.map fun i => i.height + padding).sum + padding) := by
  rw [textHeightWith, aggregate_eq (by simpa using hne)]
  rfl

/-- The point only moves down, and leaves the padding below every baseline. -/
theorem drawLinesWith_below (hpad : 0 ≤ padding) {tws : List SkiaWrapText}
    (hh : ∀ l ∈ tws, 0 ≤ l.height) (p : SKPoint) :
    p.y ≤ (drawLinesWith padding tws p).2.y ∧
      ∀ t ∈ (drawLinesWith padding tws p).1,
        t.point.y + padding ≤ (drawLinesWith padding tws p).2.y := by
  induction tws generalizing p with
  | nil => exact ⟨le_refl _, nofun⟩
  | cons tw tws ih =>
    have htw := hh tw (List.mem_cons_self ..)
    obtain ⟨hdown, hbelow⟩ := ih (fun l hl => hh l (List.mem_cons_of_mem _ hl))
      ⟨p.x, p.y + tw.height + padding⟩
    have hdown : p.y + tw.height + padding ≤ (drawLinesWith padding (tw :: tws) p).2.y := hdown
    refine ⟨by linarith, fun t ht => ?_⟩
    rcases List.mem_cons.mp ht with rfl | ht
    · exact hdown
    · exact hbelow t ht

theorem truncToInt_add_nat {q : ℚ} (h : 0 ≤ q) (n : Nat) : truncToInt (q + n) = ⌊q⌋ + n := by
  rw [truncToInt_of_nonneg (by positivity), Int.floor_add_natCast]

theorem exactCanvas_drawWith (hpad : 0 < padding) (bitmap : SKBitmap) {tws : List SkiaWrapText}
    (hh : ∀ l ∈ tws, 0 ≤ l.height) :
    ExactCanvas padding bitmap tws ((tws.map fun i => i.height + padding).sum + padding)
      (drawLinesWith padding tws ⟨padding, padding⟩).2
      (drawWith padding bitmap tws
        (drawImageInfo bitmap ((tws.map fun i => i.height + padding).sum + padding))) := by
  have hpoint : (drawLinesWith padding tws ⟨padding, padding⟩).2.y =
      (tws.map fun i => i.height + padding).sum + padding := by
    rw [drawLinesWith_y, add_comm]
  obtain ⟨hdown, hbelow⟩ := drawLinesWith_below hpad.le hh ⟨padding, padding⟩
  generalize (tws.map fun i => i.height + padding).sum + padding = height at hpoint ⊢
  have hheight : 0 ≤ height := by
    rw [hpoint] at hdown
    exact hpad.le.trans hdown
  -- both heights are truncated from the same number
  have hbottom : (drawWith padding bitmap tws (drawImageInfo bitmap height)).rect.bottom =
      ((⌊height⌋ + bitmap.height : Int) : ℚ) := by
    show ((truncToInt (_ + _) : Int) : ℚ) = _
    rw [hpoint, truncToInt_add_nat hheight]
  have htop : (drawWith padding bitmap tws (drawImageInfo bitmap height)).rect.top = height := hpoint
  have hfloor := Int.floor_le height
  have hlt := Int.lt_floor_add_one height
  refine ⟨hpoint, drawLinesWith_length _ _, ?_, rfl, rfl, rfl, by simp [drawWith, drawImageInfo],
    rfl, ?_, ?_, ?_, ?_, ?_⟩
  · rintro pre l post rfl
    exact drawLinesWith_getElem? pre l post _
  · rw [hbottom]
    show _ = ((truncToInt (height + bitmap.height) : Int) : ℚ)
    rw [truncToInt_add_nat hheight]
  · rw [hbottom, htop]
    push_cast
    show (bitmap.height : ℚ) - 1 < _
    linarith
  · rw [hbottom, htop]
    push_cast
    show _ ≤ (bitmap.height : ℚ)
    linarith
  · rw [hbottom, htop]
    push_cast
    show _ = (bitmap.height : ℚ) ↔ _
    constructor
    · intro h
      exact ⟨⌊height⌋, by linarith⟩
    · rintro ⟨n, rfl⟩
      rw [Int.floor_intCast]
      ring
  · exact hbelow

/-- The service's own canvas is such a one. -/
theorem exactCanvas_draw (bitmap : SKBitmap) {tws : List SkiaWrapText} (hne : tws ≠ [])
    (hh : ∀ l ∈ tws, 0 ≤ l.height) :
    ∃ height, textHeight tws = .returned height ∧
      ExactCanvas pad bitmap tws height (drawLines tws ⟨pad, pad⟩).2
        (draw bitmap tws (drawImageInfo bitmap height)) := by
  have hpad : (0 : ℚ) < pad := by norm_num [pad]
  refine ⟨_, (textHeight_eq_with tws).trans (textHeightWith_eq hne), ?_⟩
  rw [drawLines_eq_with, draw_eq_with]
  exact exactCanvas_drawWith hpad bitmap hh

end Skia

/-! ## `DrawByImageSharp`, for any padding -/

section ImageSharp
variable (pad : Int)

/-- What the canvas of `DrawByImageSharp` is to be: the picture ends with it, and
starts below the measured text. -/
structure HoldsPicture (image : ISImage) (frHeight : ℚ) : Prop where
  ends : (picturePoint pad frHeight).y + image.height = canvasHeight pad image frHeight
  below : ((textOrigin pad).y : ℚ) + frHeight ≤ (picturePoint pad frHeight).y

variable {pad}

theorem holdsPicture (hpad : 0 < pad) (image : ISImage) {frHeight : ℚ} (hfr : 0 ≤ frHeight) :
    HoldsPicture pad image frHeight := by
  have hpad' : (1 : ℚ) ≤ pad := by exact_mod_cast hpad
  have hpos : 0 ≤ frHeight + pad * 2 := by linarith
  constructor
  · have hsum : (image.height : ℚ) + pad * 2 + frHeight = frHeight + pad * 2 + image.height := by ring
    show truncToInt (frHeight + pad * 2) + (image.height : Int) =
      truncToInt (image.height + pad * 2 + frHeight)
    rw [hsum, truncToInt_add_nat hpos, truncToInt_of_nonneg hpos]
  · show (pad : ℚ) + frHeight ≤ ((truncToInt (frHeight + pad * 2) : Int) : ℚ)
    rw [truncToInt_of_nonneg hpos]
    have hlt := Int.lt_floor_add_one (frHeight + pad * 2)
    linarith

/-- What a drawing of `DrawByImageSharp` is to be, `frHeight` being the measured height
of its text: the picture, as wide as the drawing, ends with it and starts below the text
box at the origin, which has the same margin on both sides. -/
structure ExactDrawing (image : ISImage) (contents : List Text) (frHeight : ℚ)
    (dimage : DrawnImage) : Prop where
  picture_eq : dimage.picture = image
  width_eq : dimage.width = image.width
  left_eq : dimage.point.x = 0
  ends : dimage.point.y + image.height = dimage.height
  below : (dimage.options.origin.y : ℚ) + frHeight ≤ dimage.point.y
  margins : dimage.options.origin.x + dimage.options.wrappingLength =
    dimage.width - dimage.options.origin.x
  text_eq : dimage.text = (joinContents contents).take maxTextLength

/-- The service's own drawing is such a one. -/
theorem exactDrawing_of_drawing {lib : ImageSharp} {request : DrawByImageSharpRequest}
    {dimage : DrawnImage} (h : drawing lib request = .returned dimage) :
    ∃ image frHeight, lib.load request.picture = .ok image ∧
      lib.measure (joinContents request.contents) dimage.options = .ok frHeight ∧
      (0 ≤ frHeight → ExactDrawing image request.contents frHeight dimage) := by
  obtain ⟨image, ff, frHeight, hload, -, hmeasure, -, -, -, -, rfl⟩ := drawing_eq_returned.mp h
  refine ⟨image, frHeight, hload, hmeasure, fun hfr => ?_⟩
  have hpad : 0 < imageSharpPad := by decide
  obtain ⟨hends, hbelow⟩ := holdsPicture hpad image hfr
  refine ⟨rfl, rfl, rfl, hends, hbelow, ?_, rfl⟩
  show imageSharpPad + (image.width - imageSharpPad * 2) = image.width - imageSharpPad
  omega

end ImageSharp

/-- **In both services the canvas is exactly large enough and the picture keeps its
place**, for every positive padding, every picture and every text: whatever the heights
of the lines of `DrawBySkia`, and the height `DrawByImageSharp` measured.  What the
services themselves draw, at their own padding, is of that kind. -/
theorem canvas_exact :
    (∀ (padding : ℚ) (bitmap : SKBitmap) (tws : List SkiaWrapText), 0 < padding → tws ≠ [] →
      (∀ l ∈ tws, 0 ≤ l.height) →
      ∃ height, textHeightWith padding tws = .returned height ∧
        ExactCanvas padding bitmap tws height (drawLinesWith padding tws ⟨padding, padding⟩).2
          (drawWith padding bitmap tws (drawImageInfo bitmap height))) ∧
    (∀ (bitmap : SKBitmap) (tws : List SkiaWrapText), tws ≠ [] → (∀ l ∈ tws, 0 ≤ l.height) →
      ∃ height, textHeight tws = .returned height ∧
        ExactCanvas pad bitmap tws height (drawLines tws ⟨pad, pad⟩).2
          (draw bitmap tws (drawImageInfo bitmap height))) ∧
    (∀ (pad : Int) (image : ISImage) (frHeight : ℚ), 0 < pad → 0 ≤ frHeight →
      HoldsPicture pad image frHeight) ∧
    (∀ (lib : ImageSharp) (request : DrawByImageSharpRequest) (dimage : DrawnImage),
      drawing lib request = .returned dimage →
      ∃ image frHeight, lib.load request.picture = .ok image ∧
        lib.measure (joinContents request.contents) dimage.options = .ok frHeight ∧
        (0 ≤ frHeight → ExactDrawing image request.contents frHeight dimage)) :=
  ⟨fun _ bitmap _ hpad hne hh => ⟨_, textHeightWith_eq hne, exactCanvas_drawWith hpad bitmap hh⟩,
    fun bitmap _ hne hh => exactCanvas_draw bitmap hne hh,
    fun _ image _ hpad hfr => holdsPicture hpad image hfr,
    fun _ _ _ h => exactDrawing_of_drawing h⟩

/-- A text that is just long enough. -/
def longRequest : DrawByImageSharpRequest := ⟨[List.replicate maxTextLength 97], [1]⟩

theorem canvas_exact_demo :
    (∃ height, textHeightWith 8 [⟨30, [103]⟩, ⟨41 / 2, [97]⟩] = .returned height ∧
      ExactCanvas 8 ⟨100, 100, [], by decide, by decide⟩ [⟨30, [103]⟩, ⟨41 / 2, [97]⟩] height
        (drawLinesWith 8 [⟨30, [103]⟩, ⟨41 / 2, [97]⟩] ⟨8, 8⟩).2
        (drawWith 8 ⟨100, 100, [], by decide, by decide⟩ [⟨30, [103]⟩, ⟨41 / 2, [97]⟩]
          (drawImageInfo ⟨100, 100, [], by decide, by decide⟩ height))) ∧
    (∃ height, textHeight [⟨30, [103]⟩] = .returned height ∧
      ExactCanvas pad ⟨100, 100, [], by decide, by decide⟩ [⟨30, [103]⟩] height
        (drawLines [⟨30, [103]⟩] ⟨pad, pad⟩).2
        (draw ⟨100, 100, [], by decide, by decide⟩ [⟨30, [103]⟩]
          (drawImageInfo ⟨100, 100, [], by decide, by decide⟩ height))) ∧
    HoldsPicture imageSharpPad ⟨100, 100, [], by decide, by decide⟩ (57 / 2) ∧
    (∃ dimage, drawing demoImageSharp longRequest = .returned dimage ∧
      ∃ image frHeight, demoImageSharp.load [1] = .ok image ∧
        demoImageSharp.measure (joinContents longRequest.contents) dimage.options = .ok frHeight ∧
        (0 ≤ frHeight → ExactDrawing image longRequest.contents frHeight dimage)) :=
  ⟨canvas_exact.1 8 _ _ (by norm_num) (by decide) (by norm_num),
    canvas_exact.2.1 _ _ (by decide) (by norm_num),
    canvas_exact.2.2.1 imageSharpPad _ _ (by decide) (by norm_num),
    _, rfl, canvas_exact.2.2.2 demoImageSharp longRequest _ rfl⟩

end ExertGrpc
