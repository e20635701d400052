import ExertGrpc.SkiaDemoImplement

/-! # `ImageSharpDemoImplement.DrawByImageSharp`

The handler loads the picture, joins the contents to one text, measures it, draws the
beginning of it over the picture and saves the drawing.  Everything it does is in one
`try`; whatever is thrown there becomes a reply with code -1.

What it takes from ImageSharp and its font library is the parameter `ImageSharp`.  A
`Failure` is an exception together with where it was thrown: by a call into the
library, or by the handler's own code.
-/
namespace ExertGrpc

/-- A loaded picture. -/
structure ISImage where
  width : Nat
  height : Nat
  pixels : Bytes
  width_pos : 0 < width
  height_pos : 0 < height

/-- `Point`. -/
structure Point where
  x : Int
  y : Int
deriving DecidableEq, Repr

/-- `FontFamily`. -/
structure FontFamily where
  name : Text
deriving DecidableEq, Repr

/-- `Font`. -/
structure Font where
  family : FontFamily
  size : Nat
deriving DecidableEq, Repr

/-- `TextOptions`: what the handler sets. -/
structure TextOptions where
  font : Font
  origin : Point
  wrappingLength : Int
  fallbackFontFamilies : List FontFamily
deriving DecidableEq, Repr

/-- The image that is drawn on: its size, the text drawn on it and how, and the
picture drawn over that and where. -/
structure DrawnImage where
  width : Int
  height : Int
  options : TextOptions
  text : Text
  picture : ISImage
  point : Point

/-- What the handler takes from ImageSharp. -/
structure ImageSharp where
  /-- `Image.Load(span)`. -/
  load : Bytes → Except Exn ISImage
  /-- The embedded font, added to a collection of the system's fonts. -/
  addFonts : Except Exn FontFamily
  /-- `fonts.TryGet(name, out family)`. -/
  tryGet : Text → Option FontFamily
  /-- The height of `TextMeasurer.Measure(text, options)`. -/
  measure : Text → TextOptions → Except Exn ℚ
  /-- `new Image<Rgba32>(width, height)`. -/
  newImage : Int → Int → Except Exn Unit
  /-- `ctx.DrawText(options, text, brush, pen)`. -/
  drawText : TextOptions → Text → Except Exn Unit
  /-- `ctx.DrawImage(image, point, 1)`. -/
  drawImage : ISImage → Point → Except Exn Unit
  /-- `SaveAsJpegAsync(stream)`. -/
  saveAsJpeg : DrawnImage → Except Exn Bytes
  /-- `e.Message`. -/
  exnMessage : Exn → String

/-- `DrawByImageSharpRequest`: the fields the handler reads. -/
structure DrawByImageSharpRequest where
  contents : List Text
  picture : Bytes

/-- `DrawByImageSharpReply`. -/
structure DrawByImageSharpReply where
  code : Int
  message : String
  result : Bytes
deriving DecidableEq, Repr

/-- An exception in the `try`, thrown by a call into the library or by the handler. -/
inductive Failure where
  | library (e : Exn)
  | handler (e : Exn)
deriving DecidableEq, Repr

/-- The exception itself. -/
def Failure.exn : Failure → Exn
  | library e => e
  | handler e => e

/-- `var pad = 4`. -/
def imageSharpPad : Int := 4

/-- How many units of the text are drawn. -/
def maxTextLength : Nat := 111

/-- `new Point(pad, pad)`. -/
def textOrigin (pad : Int) : Point := { x := pad, y := pad }

/-- `(int)(image.Height + pad * 2 + fr.Height)`. -/
def canvasHeight (pad : Int) (image : ISImage) (frHeight : ℚ) : Int :=
  truncToInt (image.height + pad * 2 + frHeight)

/-- `new Point(0, (int)(fr.Height + pad * 2))`. -/
def picturePoint (pad : Int) (frHeight : ℚ) : Point :=
  { x := 0, y := truncToInt (frHeight + pad * 2) }

/-- `string.Join("\n", contents)`. -/
def joinContents (contents : List Text) : Text := (literal "\n").intercalate contents

/-- The families that stand in for glyphs the font has not. -/
def fallbackFamilies (lib : ImageSharp) : List FontFamily :=
  [literal "微软雅黑", literal "宋体"].filterMap lib.tryGet

/-- `new(f) { … }`. -/
def textOptions (lib : ImageSharp) (image : ISImage) (ff : FontFamily) : TextOptions where
  font := { family := ff, size := 24 }
  origin := textOrigin imageSharpPad
  wrappingLength := image.width - imageSharpPad * 2
  fallbackFontFamilies := fallbackFamilies lib

/-- The `try` block, up to the drawing that is saved. -/
def drawing (lib : ImageSharp) (request : DrawByImageSharpRequest) : Outcome Failure DrawnImage := do
  let image ← .ofExcept .library (lib.load request.picture)
  let ff ← .ofExcept .library lib.addFonts
  let options := textOptions lib image ff
  let text := joinContents request.contents
  let frHeight ← .ofExcept .library (lib.measure text options)
  let height := canvasHeight imageSharpPad image frHeight
  .ofExcept .library (lib.newImage image.width height)
  let drawn ← (substring text 0 maxTextLength).mapThrew .handler
  .ofExcept .library (lib.drawText options drawn)
  let point := picturePoint imageSharpPad frHeight
  .ofExcept .library (lib.drawImage image point)
  return {
    width := image.width, height := height, options := options, text := drawn
    picture := image, point := point }

/-- **What the block comes to**: every call into the library succeeds, the text is long
enough, and the drawing is made of what they gave. -/
theorem drawing_eq_returned {lib : ImageSharp} {request : DrawByImageSharpRequest}
    {dimage : DrawnImage} : drawing lib request = .returned dimage ↔
      ∃ image ff frHeight, lib.load request.picture = .ok image ∧ lib.addFonts = .ok ff ∧
        lib.measure (joinContents request.contents) (textOptions lib image ff) = .ok frHeight ∧
        lib.newImage image.width (canvasHeight imageSharpPad image frHeight) = .ok () ∧
        maxTextLength ≤ (joinContents request.contents).length ∧
        lib.drawText (textOptions lib image ff)
          ((joinContents request.contents).take maxTextLength) = .ok () ∧
        lib.drawImage image (picturePoint imageSharpPad frHeight) = .ok () ∧
        dimage = {
          width := image.width, height := canvasHeight imageSharpPad image frHeight
          options := textOptions lib image ff
          text := (joinContents request.contents).take maxTextLength
          picture := image, point := picturePoint imageSharpPad frHeight } := by
  simp only [drawing, Outcome.bind_eq_returned, Outcome.ofExcept_eq_returned,
    Outcome.mapThrew_eq_returned, substring_eq_returned, Outcome.pure_eq, Outcome.returned.injEq]
  constructor
  · rintro ⟨image, hload, ff, hfonts, frHeight, hmeasure, _, hnew, _, ⟨hlen, rfl⟩, _, htext, _,
      hpicture, rfl⟩
    rw [Nat.zero_add] at hlen
    exact ⟨image, ff, frHeight, hload, hfonts, hmeasure, hnew, hlen, htext, hpicture, rfl⟩
  · rintro ⟨image, ff, frHeight, hload, hfonts, hmeasure, hnew, hlen, htext, hpicture, rfl⟩
    exact ⟨image, hload, ff, hfonts, frHeight, hmeasure, (), hnew, _,
      ⟨(Nat.zero_add _).trans_le hlen, rfl⟩, (), htext, (), hpicture, rfl⟩

/-- The `try` block. -/
def tryDraw (lib : ImageSharp) (request : DrawByImageSharpRequest) :
    Outcome Failure DrawByImageSharpReply := do
  let dimage ← drawing lib request
  let m ← .ofExcept .library (lib.saveAsJpeg dimage)
  return { code := 0, message := "Ok: " ++ toString m.length, result := m }

/-- `DrawByImageSharp`. -/
def drawByImageSharp (lib : ImageSharp) (request : DrawByImageSharpRequest) :
    Outcome Exn DrawByImageSharpReply :=
  (tryDraw lib request).catching fun e =>
    { code := -1, message := lib.exnMessage e.exn, result := [] }

end ExertGrpc
