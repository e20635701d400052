import ExertGrpc.ImageSharpDemoImplement

/-! # When `DrawByImageSharp` answers

The library cannot draw long texts, so the handler draws only the first 111 units of
the contents.  It takes them with `Substring(0, 111)`, which throws for a text that is
shorter; the `catch` turns that into the reply of a picture that cannot be loaded.

The whole text is measured all the same.  So a request is answered when its text is at
least 111 units long and can be measured whole.
-/
namespace ExertGrpc

/-- The library does what it is asked for, for every text it is meant to be given. -/
structure LibraryWorks (lib : ImageSharp) : Prop where
  fonts : ∃ ff, lib.addFonts = .ok ff
  measures : ∀ text options, text.length ≤ maxTextLength → ∃ h, lib.measure text options = .ok h
  allocates : ∀ width height, 0 < width → 0 < height → lib.newImage width height = .ok ()
  draws : ∀ options text, text.length ≤ maxTextLength → lib.drawText options text = .ok ()
  drawsImage : ∀ image point, lib.drawImage image point = .ok ()
  saves : ∀ dimage, dimage.text.length ≤ maxTextLength → ∃ m, lib.saveAsJpeg dimage = .ok m

/-- The reply that a request is to get: the drawing of the beginning of its text. -/
structure Answered (lib : ImageSharp) (request : DrawByImageSharpRequest)
    (reply : DrawByImageSharpReply) : Prop where
  code : reply.code = 0
  drawn : ∃ dimage, drawing lib request = .returned dimage ∧
    dimage.text = (joinContents request.contents).take maxTextLength ∧
    lib.saveAsJpeg dimage = .ok reply.result

/-- What ended the `try` was a call into the library. -/
def LibraryFailed (lib : ImageSharp) (request : DrawByImageSharpRequest) : Prop :=
  ∃ e, tryDraw lib request = .threw (.library e)

/-- What is promised to a request: an answer when its picture loads and the library
works, and code -1, without a result, only when a call into the library failed. -/
def KeepsPromise (lib : ImageSharp) (request : DrawByImageSharpRequest) : Prop :=
  ∃ reply, drawByImageSharp lib request = .returned reply ∧
    (LibraryWorks lib → (∃ image, lib.load request.picture = .ok image) →
      Answered lib request reply) ∧
    (reply.code = -1 → reply.result = [] ∧ LibraryFailed lib request)

/-- The handler gets as far as to take the beginning of the text: the picture loads,
the fonts can be set up, the whole text can be measured, and there is an image to draw
on. -/
def ReachesText (lib : ImageSharp) (request : DrawByImageSharpRequest) : Prop :=
  ∃ image ff frHeight, lib.load request.picture = .ok image ∧ lib.addFonts = .ok ff ∧
    lib.measure (joinContents request.contents) (textOptions lib image ff) = .ok frHeight ∧
    lib.newImage image.width (canvasHeight imageSharpPad image frHeight) = .ok ()

section Outcomes
variable {lib : ImageSharp} {request : DrawByImageSharpRequest}

/-- What ends the `try` earlier is a call into the library. -/
theorem tryDraw_of_not_reachesText (h : ¬ ReachesText lib request) : LibraryFailed lib request := by
  unfold LibraryFailed tryDraw drawing
  cases hload : lib.load request.picture with
  | error e => exact ⟨e, rfl⟩
  | ok image =>
    cases hfonts : lib.addFonts with
    | error e => exact ⟨e, rfl⟩
    | ok ff =>
      cases hmeasure : lib.measure (joinContents request.contents) (textOptions lib image ff) with
      | error e => exact ⟨e, by simp [hmeasure]⟩
      | ok frHeight =>
        cases hnew : lib.newImage image.width (canvasHeight imageSharpPad image frHeight) with
        | error e => exact ⟨e, by simp [hmeasure, hnew]⟩
        | ok u => exact absurd ⟨image, ff, frHeight, hload, hfonts, hmeasure, hnew⟩ h

/-- A text that is too short ends the `try` in the handler's own code. -/
theorem tryDraw_of_short (h : ReachesText lib request)
    (hlen : (joinContents request.contents).length < maxTextLength) :
    tryDraw lib request = .threw (.handler .argumentOutOfRange) := by
  obtain ⟨image, ff, frHeight, hload, hfonts, hmeasure, hnew⟩ := h
  have hsub : substring (joinContents request.contents) 0 maxTextLength =
      .threw .argumentOutOfRange := by
    rw [substring, if_neg (by omega)]
  simp [tryDraw, drawing, hload, hfonts, hmeasure, hnew, hsub]

/-- With a text that is long enough the rest is up to the library. -/
theorem tryDraw_of_long (h : ReachesText lib request)
    (hlen : maxTextLength ≤ (joinContents request.contents).length) :
    ∃ dimage : DrawnImage,
      dimage.text = (joinContents request.contents).take maxTextLength ∧
      drawing lib request = (do
        .ofExcept .library (lib.drawText dimage.options dimage.text)
        .ofExcept .library (lib.drawImage dimage.picture dimage.point)
        return dimage) := by
  obtain ⟨image, ff, frHeight, hload, hfonts, hmeasure, hnew⟩ := h
  have hsub : substring (joinContents request.contents) 0 maxTextLength =
      .returned ((joinContents request.contents).take maxTextLength) :=
    substring_eq (by omega)
  refine ⟨{
    width := image.width, height := canvasHeight imageSharpPad image frHeight
    options := textOptions lib image ff
    text := (joinContents request.contents).take maxTextLength
    picture := image, point := picturePoint imageSharpPad frHeight }, rfl, ?_⟩
  simp [drawing, hload, hfonts, hmeasure, hnew, hsub]

/-- A working library draws and saves it. -/
theorem answered_of_long (hw : LibraryWorks lib) (h : ReachesText lib request)
    (hlen : maxTextLength ≤ (joinContents request.contents).length) :
    ∃ reply, tryDraw lib request = .returned reply ∧ Answered lib request reply := by
  obtain ⟨dimage, htext, hdrawing⟩ := tryDraw_of_long h hlen
  have hshort : dimage.text.length ≤ maxTextLength := by
    rw [htext, List.length_take]
    exact Nat.min_le_left _ _
  rw [hw.draws _ _ hshort, hw.drawsImage] at hdrawing
  obtain ⟨m, hm⟩ := hw.saves dimage hshort
  have hdrawing : drawing lib request = .returned dimage := hdrawing
  refine ⟨⟨0, "Ok: " ++ toString m.length, m⟩, ?_, rfl, dimage, hdrawing, htext, hm⟩
  simp [tryDraw, hdrawing, hm]

/-- Past the text, the `try` ends with code 0 or in a call into the library. -/
theorem tryDraw_cases_of_long (h : ReachesText lib request)
    (hlen : maxTextLength ≤ (joinContents request.contents).length) :
    (∃ reply, tryDraw lib request = .returned reply ∧ reply.code = 0) ∨
      LibraryFailed lib request := by
  obtain ⟨dimage, -, hdrawing⟩ := tryDraw_of_long h hlen
  unfold LibraryFailed tryDraw
  rw [hdrawing]
  cases hdraw : lib.drawText dimage.options dimage.text with
  | error e => exact Or.inr ⟨e, rfl⟩
  | ok u =>
    cases himage : lib.drawImage dimage.picture dimage.point with
    | error e => exact Or.inr ⟨e, rfl⟩
    | ok u =>
      cases hsave : lib.saveAsJpeg dimage with
      | error e => exact Or.inr ⟨e, by simp [hsave]⟩
      | ok m => exact Or.inl ⟨⟨0, "Ok: " ++ toString m.length, m⟩, by simp [hsave], rfl⟩

theorem drawByImageSharp_of_returned {reply : DrawByImageSharpReply}
    (h : tryDraw lib request = .returned reply) :
    drawByImageSharp lib request = .returned reply := by
  rw [drawByImageSharp, h]
  rfl

theorem drawByImageSharp_of_threw {e : Failure} (h : tryDraw lib request = .threw e) :
    drawByImageSharp lib request = .returned ⟨-1, lib.exnMessage e.exn, []⟩ := by
  rw [drawByImageSharp, h]
  rfl

/-- **`DrawByImageSharp` keeps its promise exactly when the text is long enough and can
be measured whole**: if the handler gets as far as the text, it has at least 111 units;
and with a picture that loads, a working library lets it get there. -/
theorem drawByImageSharp_keepsPromise_iff : KeepsPromise lib request ↔
    (ReachesText lib request → maxTextLength ≤ (joinContents request.contents).length) ∧
    (LibraryWorks lib → (∃ image, lib.load request.picture = .ok image) →
      ReachesText lib request) := by
  constructor
  · rintro ⟨reply, hreply, hanswered, hfailed⟩
    constructor
    · intro hreach
      by_contra hlen
      have hthrew := tryDraw_of_short hreach (by omega)
      rw [drawByImageSharp_of_threw hthrew] at hreply
      cases hreply
      obtain ⟨e, he⟩ := (hfailed rfl).2
      rw [hthrew] at he
      cases he
    · intro hw hload
      by_contra hreach
      -- the library was asked to measure more than it can
      obtain ⟨e, he⟩ := tryDraw_of_not_reachesText hreach
      rw [drawByImageSharp_of_threw he] at hreply
      cases hreply
      have hcode : (-1 : Int) = 0 := (hanswered hw hload).code
      omega
  · rintro ⟨hlen, hreaches⟩
    by_cases hreach : ReachesText lib request
    · rcases tryDraw_cases_of_long hreach (hlen hreach) with ⟨reply, hreply, hcode⟩ | ⟨e, he⟩
      · refine ⟨reply, drawByImageSharp_of_returned hreply, fun hw _ => ?_, fun h => ?_⟩
        · obtain ⟨reply', hreply', hanswered⟩ := answered_of_long hw hreach (hlen hreach)
          rw [hreply] at hreply'
          cases hreply'
          exact hanswered
        · omega
      · refine ⟨_, drawByImageSharp_of_threw he, fun hw _ => ?_, fun _ => ⟨rfl, e, he⟩⟩
        obtain ⟨reply', hreply', -⟩ := answered_of_long hw hreach (hlen hreach)
        rw [he] at hreply'
        cases hreply'
    · obtain ⟨e, he⟩ := tryDraw_of_not_reachesText hreach
      exact ⟨_, drawByImageSharp_of_threw he, fun hw hload => absurd (hreaches hw hload) hreach,
        fun _ => ⟨rfl, e, he⟩⟩

end Outcomes

/-! ## A request that only says hello -/

/-- An ImageSharp that does everything, and saves a drawing as the bytes of its
picture. -/
def demoImageSharp : ImageSharp where
  load bytes := .ok ⟨1, 1, bytes, Nat.one_pos, Nat.one_pos⟩
  addFonts := .ok ⟨literal "serif"⟩
  tryGet _ := none
  measure text _ := .ok text.length
  newImage _ _ := .ok ()
  drawText _ _ := .ok ()
  drawImage _ _ := .ok ()
  saveAsJpeg dimage := .ok dimage.picture.pixels
  exnMessage _ := "startIndex"

theorem demoImageSharp_works : LibraryWorks demoImageSharp where
  fonts := ⟨_, rfl⟩
  measures _ _ _ := ⟨_, rfl⟩
  allocates _ _ _ _ := rfl
  draws _ _ _ := rfl
  drawsImage _ _ := rfl
  saves _ _ := ⟨_, rfl⟩

/-- **A request with the text `hello`**: the picture loads and the library works, and
the reply is the one for a picture that does not load. -/
theorem drawByImageSharp_not_keepsPromise :
    LibraryWorks demoImageSharp ∧
    (∃ image, demoImageSharp.load [1] = .ok image) ∧
    drawByImageSharp demoImageSharp ⟨[literal "hello"], [1]⟩ =
      .returned ⟨-1, "startIndex", []⟩ ∧
    ¬ LibraryFailed demoImageSharp ⟨[literal "hello"], [1]⟩ ∧
    ¬ KeepsPromise demoImageSharp ⟨[literal "hello"], [1]⟩ := by
  have hreach : ReachesText demoImageSharp ⟨[literal "hello"], [1]⟩ :=
    ⟨_, _, _, rfl, rfl, rfl, rfl⟩
  have hthrew := tryDraw_of_short hreach (by decide)
  have hreply := drawByImageSharp_of_threw hthrew
  have hfailed : ¬ LibraryFailed demoImageSharp ⟨[literal "hello"], [1]⟩ := by
    rintro ⟨e, he⟩
    rw [hthrew] at he
    cases he
  refine ⟨demoImageSharp_works, ⟨_, rfl⟩, hreply, hfailed, ?_⟩
  rintro ⟨reply, hreply', -, hcode⟩
  rw [hreply] at hreply'
  cases hreply'
  exact hfailed (hcode rfl).2

end ExertGrpc
