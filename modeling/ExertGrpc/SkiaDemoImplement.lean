import ExertGrpc.SkiaExtentions

/-! # `SkiaDemoImplement.DrawBySkia`

The handler decodes the picture, wraps the contents to its width, folds the
heights of the lines into the height of a new canvas, draws the lines under one
another from a moving point, and the picture under them.  Nothing in it catches
an exception, so an `Outcome` that `threw` is a request that ended in one.

What it takes from SkiaSharp is the parameter `SkiaSharp`; measures and
coordinates are exact rationals.
-/
namespace ExertGrpc

/-- A decoded picture.  A picture that decodes has at least one pixel. -/
structure SKBitmap where
  width : Nat
  height : Nat
  pixels : Bytes
  width_pos : 0 < width
  height_pos : 0 < height

/-- `SKImageInfo`. -/
structure SKImageInfo where
  width : Int
  height : Int
deriving DecidableEq, Repr

/-- `SKPoint`. -/
structure SKPoint where
  x : ℚ
  y : ℚ
deriving DecidableEq, Repr

/-- One `DrawText(content, point, paint)`: the text is drawn with its baseline
at `point.y`. -/
structure DrawnText where
  content : Text
  point : SKPoint
deriving DecidableEq, Repr

/-- A surface that was drawn on: cleared to white, then the texts in order, then
the bitmap scaled into a rectangle. -/
structure SKSurface where
  info : SKImageInfo
  texts : List DrawnText
  bitmap : SKBitmap
  rect : SKRect

/-- What the handler takes from SkiaSharp. -/
structure SkiaSharp where
  /-- `SKBitmap.Decode`, `none` for `null`. -/
  decode : Bytes → Option SKBitmap
  /-- The paint the handler sets up. -/
  paint : SKPaint
  /-- Whether `SKSurface.Create` returns a surface rather than `null`. -/
  allocates : SKImageInfo → Bool
  /-- `Snapshot().Encode(SKEncodedImageFormat.Jpeg, 90)`, `none` for `null`. -/
  encode : SKSurface → Option Bytes
  /-- How a `float` prints in the reply's message. -/
  showFloat : ℚ → String

/-- `DrawBySkiaRequest`: the fields the handler reads. -/
structure DrawBySkiaRequest where
  contents : List Text
  picture : Bytes

/-- `DrawBySkiaReply`. -/
structure DrawBySkiaReply where
  code : Int
  message : String
  result : Bytes
deriving DecidableEq, Repr

/-- `var pad = 8`. -/
def pad : Int := 8

/-- `bitmap.Width - pad / 2`. -/
def wrapWidth (bitmap : SKBitmap) : Int := bitmap.width - pad / 2

/-- `(int)q`: truncation towards zero. -/
def truncToInt (q : ℚ) : Int := q.num.tdiv q.den

/-- `Aggregate((a, b) => a + b)`, which has no seed. -/
def aggregate : List ℚ → Outcome Exn ℚ
  | [] => .threw .invalidOperation
  | h :: hs => .returned (hs.foldl (fun a b => a + b) h)

/-- `tws.Select(i => i.Height + pad).Aggregate((a, b) => a + b) + pad`. -/
def textHeight (tws : List SkiaWrapText) : Outcome Exn ℚ := do
  let sum ← aggregate (tws.map fun i => i.height + pad)
  return sum + pad

/-- `new SKImageInfo(bitmap.Width, (int)(height + bitmap.Height))`. -/
def drawImageInfo (bitmap : SKBitmap) (height : ℚ) : SKImageInfo :=
  { width := bitmap.width, height := truncToInt (height + bitmap.height) }

/-- The `foreach` over the lines: what it draws, and where it leaves the point. -/
def drawLines : List SkiaWrapText → SKPoint → List DrawnText × SKPoint
  | [], point => ([], point)
  | tw :: tws, point =>
    let point := { point with y := point.y + tw.height }
    let rest := drawLines tws { point with y := point.y + pad }
    ({ content := tw.content, point := point } :: rest.1, rest.2)

/-- Everything that is drawn on a surface of the given size. -/
def draw (bitmap : SKBitmap) (tws : List SkiaWrapText) (info : SKImageInfo) : SKSurface :=
  let lines := drawLines tws { x := pad, y := pad }
  { info := info
    texts := lines.1
    bitmap := bitmap
    rect := {
      left := 0
      top := lines.2.y
      right := bitmap.width
      bottom := truncToInt (lines.2.y + bitmap.height) } }

/-- The message of the reply. -/
def drawMessage (skia : SkiaSharp) (bitmap : SKBitmap) (height : ℚ) : String :=
  "imageSize: " ++ toString bitmap.width ++ " " ++ toString bitmap.height ++
    ", height: " ++ skia.showFloat height

/-- `DrawBySkia`, with `rounds` rounds for the wrap loop of every content.  The
surface the code creates first, of the size of the picture, is never used: it
may be `null`. -/
def drawBySkia (skia : SkiaSharp) (request : DrawBySkiaRequest) (rounds : Nat) :
    Outcome Exn DrawBySkiaReply := do
  let bitmap ← Outcome.ofOption .nullReference (skia.decode request.picture)
  let tws ← parseTextWrapAll skia.paint request.contents (wrapWidth bitmap) rounds
  let height ← textHeight tws
  let info := drawImageInfo bitmap height
  if skia.allocates info then
    let d ← Outcome.ofOption .nullReference (skia.encode (draw bitmap tws info))
    return { code := 0, message := drawMessage skia bitmap height, result := d }
  else .threw .nullReference

end ExertGrpc
