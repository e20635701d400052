import ExertGrpc.SkiaLayout
import ExertGrpc.SkiaWrapping

/-! # When `DrawBySkia` answers

The handler has no `catch`: it answers a request or ends in an exception.  It
ends in one when the picture does not decode, when no content has a character,
however many empty ones there are (then there is no line, and the fold over the
heights of the lines has no seed), and when Skia's encoder gives `null` for the
drawing, which is the higher the more lines there are.
-/
namespace ExertGrpc
open PrefixCut

section Lines
variable {paint : SKPaint} (hb : BreakTextSpec paint) {maxWidth : Int} {rounds : Nat}
include hb

theorem parseTextWrap_eq_nil {text : Text} {lines : List SkiaWrapText}
    (h : parseTextWrap paint text maxWidth rounds = .returned lines) :
    lines = [] ↔ text = [] := by
  obtain ⟨ps, hps, rfl⟩ := parseTextWrap_eq_returned hb h
  rw [List.map_eq_nil_iff]
  constructor
  · rintro rfl
    exact hps.flatten_eq.symm
  · rintro rfl
    exact hps.eq_nil

/-- There is no line exactly when every content is empty. -/
theorem parseTextWrapAll_eq_nil {contents : List Text} {lines : List SkiaWrapText}
    (h : parseTextWrapAll paint contents maxWidth rounds = .returned lines) :
    lines = [] ↔ ∀ item ∈ contents, item = [] := by
  obtain ⟨perItem, hper, rfl⟩ := parseTextWrapAll_eq_returned.mp h
  clear h
  induction hper with
  | nil => simp
  | cons hr hrest ih =>
    rw [List.flatten_cons, List.append_eq_nil_iff, List.forall_mem_cons, ih,
      parseTextWrap_eq_nil hb hr]

/-- However many rounds it takes, the lines are the same. -/
theorem parseTextWrapAll_unique {contents : List Text} {rounds' : Nat} {lines lines' : List SkiaWrapText}
    (h : parseTextWrapAll paint contents maxWidth rounds = .returned lines)
    (h' : parseTextWrapAll paint contents maxWidth rounds' = .returned lines') : lines = lines' := by
  obtain ⟨perItem, hper, rfl⟩ := parseTextWrapAll_eq_returned.mp h
  obtain ⟨perItem', hper', rfl⟩ := parseTextWrapAll_eq_returned.mp h'
  clear h h'
  induction hper generalizing perItem' with
  | nil =>
    cases hper'
    rfl
  | cons hr hrest ih =>
    cases hper' with
    | cons hr' hrest' =>
      obtain ⟨ps, hps, rfl⟩ := parseTextWrap_eq_returned hb hr
      obtain ⟨qs, hqs, rfl⟩ := parseTextWrap_eq_returned hb hr'
      rw [List.flatten_cons, List.flatten_cons, hps.unique hqs, ih _ hrest']

end Lines

/-- The handler draws `surface` for the request. -/
def DrawsSurface (skia : SkiaSharp) (request : DrawBySkiaRequest) (surface : SKSurface) : Prop :=
  ∃ bitmap rounds tws height, skia.decode request.picture = some bitmap ∧
    parseTextWrapAll skia.paint request.contents (wrapWidth bitmap) rounds = .returned tws ∧
    textHeight tws = .returned height ∧ surface = draw bitmap tws (drawImageInfo bitmap height)

/-- What a reply carries is an encoded drawing for the request. -/
theorem drawsSurface_of_drawBySkia {skia : SkiaSharp} {request : DrawBySkiaRequest} {rounds : Nat}
    {reply : DrawBySkiaReply} (h : drawBySkia skia request rounds = .returned reply) :
    ∃ surface, DrawsSurface skia request surface ∧ skia.encode surface = some reply.result := by
  rw [drawBySkia, Outcome.bind_eq_returned] at h
  obtain ⟨bitmap, hd, h⟩ := h
  rw [Outcome.bind_eq_returned] at h
  obtain ⟨tws, hw, h⟩ := h
  rw [Outcome.bind_eq_returned] at h
  obtain ⟨height, hh, h⟩ := h
  by_cases ha : skia.allocates (drawImageInfo bitmap height) = true
  · simp only [ha, if_true, Outcome.bind_eq_returned] at h
    obtain ⟨d, he, h⟩ := h
    cases h
    exact ⟨_, ⟨bitmap, rounds, tws, height, Outcome.ofOption_eq_returned.mp hd, hw, hh, rfl⟩,
      Outcome.ofOption_eq_returned.mp he⟩
  · simp [ha] at h

/-- A request has one drawing at most. -/
theorem DrawsSurface.unique {skia : SkiaSharp} (hb : BreakTextSpec skia.paint)
    {request : DrawBySkiaRequest} {surface surface' : SKSurface}
    (h : DrawsSurface skia request surface) (h' : DrawsSurface skia request surface') :
    surface = surface' := by
  obtain ⟨bitmap, rounds, tws, height, hd, hw, hh, rfl⟩ := h
  obtain ⟨bitmap', rounds', tws', height', hd', hw', hh', rfl⟩ := h'
  rw [hd] at hd'
  cases hd'
  rw [parseTextWrapAll_unique hb hw hw', hh'] at hh
  cases hh
  rw [parseTextWrapAll_unique hb hw hw']

/-! ## The exceptions -/

section Handler
variable {skia : SkiaSharp} {request : DrawBySkiaRequest}

/-- A picture that does not decode leaves `bitmap` null. -/
theorem drawBySkia_of_not_decoded (h : skia.decode request.picture = none) (rounds : Nat) :
    drawBySkia skia request rounds = .threw .nullReference := by
  rw [drawBySkia, h]
  rfl

/-- Without a line the fold throws. -/
theorem drawBySkia_of_no_lines {bitmap : SKBitmap} {rounds : Nat}
    (hd : skia.decode request.picture = some bitmap)
    (hw : parseTextWrapAll skia.paint request.contents (wrapWidth bitmap) rounds = .returned []) :
    drawBySkia skia request rounds = .threw .invalidOperation := by
  rw [drawBySkia, hd, Outcome.ofOption_some, Outcome.returned_bind, hw]
  rfl

/-- With lines, the handler goes on to the surface and the encoder. -/
theorem drawBySkia_of_lines {bitmap : SKBitmap} {rounds : Nat} {tws : List SkiaWrapText} {d : Bytes}
    (hd : skia.decode request.picture = some bitmap)
    (hw : parseTextWrapAll skia.paint request.contents (wrapWidth bitmap) rounds = .returned tws)
    (hne : tws ≠ []) (ha : skia.allocates (drawImageInfo bitmap (pad + stack tws)) = true)
    (he : skia.encode (draw bitmap tws (drawImageInfo bitmap (pad + stack tws))) = some d) :
    drawBySkia skia request rounds =
      .returned ⟨0, drawMessage skia bitmap (pad + stack tws), d⟩ := by
  simp only [drawBySkia, hd, Outcome.ofOption_some, Outcome.returned_bind, hw, textHeight_eq hne,
    ha, he, if_true]
  rfl

/-! ## The answers -/

/-- The reply that a request is to get: the encoded drawing with code 0 when the
picture decodes, and a code that is not 0, without a result, when it does not. -/
def IsAnswer (skia : SkiaSharp) (request : DrawBySkiaRequest) (reply : DrawBySkiaReply) : Prop :=
  match skia.decode request.picture with
  | some bitmap => reply.code = 0 ∧ ∃ rounds tws height,
      parseTextWrapAll skia.paint request.contents (wrapWidth bitmap) rounds = .returned tws ∧
      textHeight tws = .returned height ∧
      skia.encode (draw bitmap tws (drawImageInfo bitmap height)) = some reply.result
  | none => reply.code ≠ 0 ∧ reply.result = []

/-- What is asked of SkiaSharp for a request: the wrap loop ends, and the surface
that the handler wants can be allocated. -/
structure CanRender (skia : SkiaSharp) (request : DrawBySkiaRequest) : Prop where
  wraps : ∀ bitmap, skia.decode request.picture = some bitmap → ∃ rounds,
    parseTextWrapAll skia.paint request.contents (wrapWidth bitmap) rounds ≠ .unfinished
  allocates : ∀ bitmap rounds tws height, skia.decode request.picture = some bitmap →
    parseTextWrapAll skia.paint request.contents (wrapWidth bitmap) rounds = .returned tws →
    textHeight tws = .returned height → skia.allocates (drawImageInfo bitmap height) = true

/-- **`DrawBySkia` answers exactly the requests whose picture decodes, that have a
content with a character in it, and whose drawing Skia can encode**; every other
request ends in an exception, although the loop ends and the surface is there. -/
theorem drawBySkia_answers_iff (hb : BreakTextSpec skia.paint) (hr : CanRender skia request) :
    (∃ rounds reply, drawBySkia skia request rounds = .returned reply ∧
      IsAnswer skia request reply) ↔
    (∃ bitmap, skia.decode request.picture = some bitmap) ∧
      (∃ item ∈ request.contents, item ≠ []) ∧
      ∀ surface, DrawsSurface skia request surface → ∃ d, skia.encode surface = some d := by
  constructor
  · rintro ⟨rounds, reply, hreply, -⟩
    obtain ⟨surface, hdraws, he⟩ := drawsSurface_of_drawBySkia hreply
    refine ⟨?_, ?_, fun surface' hdraws' => ⟨_, hdraws.unique hb hdraws' ▸ he⟩⟩
    · obtain ⟨bitmap, -, -, -, hd, -⟩ := hdraws
      exact ⟨bitmap, hd⟩
    · obtain ⟨bitmap, _, tws, height, hd, hw, hh, -⟩ := hdraws
      by_contra hnone
      have hall : ∀ item ∈ request.contents, item = [] := fun item hitem =>
        Classical.byContradiction fun hne => hnone ⟨item, hitem, hne⟩
      rw [(parseTextWrapAll_eq_nil hb hw).mpr hall] at hh
      cases hh
  · rintro ⟨⟨bitmap, hd⟩, ⟨item, hitem, hne⟩, hencodes⟩
    obtain ⟨rounds, hends⟩ := hr.wraps bitmap hd
    obtain ⟨tws, hw⟩ := (parseTextWrapAll_ends hb).mp hends
    have htws : tws ≠ [] := fun hnil =>
      hne ((parseTextWrapAll_eq_nil hb hw).mp hnil item hitem)
    have ha := hr.allocates bitmap rounds tws _ hd hw (textHeight_eq htws)
    obtain ⟨d, he⟩ := hencodes _ ⟨bitmap, rounds, tws, _, hd, hw, textHeight_eq htws, rfl⟩
    refine ⟨rounds, _, drawBySkia_of_lines hd hw htws ha he, ?_⟩
    rw [IsAnswer, hd]
    exact ⟨rfl, rounds, tws, _, hw, textHeight_eq htws, he⟩

end Handler

/-! ## Requests without an answer -/

/-- A SkiaSharp that decodes every file but an empty one, and encodes a drawing
as the pixels of its picture. -/
def demoSkia : SkiaSharp where
  decode bytes := if bytes = [] then none else some ⟨100, 100, bytes, by decide, by decide⟩
  paint := demoPaint
  allocates _ := true
  encode s := some s.bitmap.pixels
  showFloat q := toString q

/-- The same for pictures that are 65500 high, with the limit of a JPEG file:
nothing higher than that is encoded. -/
def tallSkia : SkiaSharp :=
  { demoSkia with
    decode := fun bytes =>
      if bytes = [] then none else some ⟨100, 65500, bytes, by decide, by decide⟩
    encode := fun s => if s.info.height ≤ 65500 then some s.bitmap.pixels else none }

/-- What the demos' paint can wrap on pictures 100 wide, whatever else Skia does. -/
theorem canRender_of_demoPaint {skia : SkiaSharp} (hpaint : skia.paint = demoPaint)
    (hwidth : ∀ bytes bitmap, skia.decode bytes = some bitmap → bitmap.width = 100)
    (halloc : ∀ info, skia.allocates info = true) (contents : List Text) (picture : Bytes)
    (hfit : ∀ item ∈ contents, GlyphsFit demoPaint 96 item) :
    CanRender skia ⟨contents, picture⟩ where
  wraps bitmap hd := by
    have hw : wrapWidth bitmap = 96 := by rw [wrapWidth, hwidth _ _ hd]; rfl
    obtain ⟨perItem, -, hret⟩ := exists_greedyLines demoPaint_breakTextSpec hfit
    refine ⟨contents.flatten.length, ?_⟩
    rw [hw, hpaint, hret _ (Nat.le_refl _)]
    simp
  allocates _ _ _ _ _ _ _ := halloc _

theorem demoSkia_canRender (contents : List Text) (picture : Bytes)
    (hfit : ∀ item ∈ contents, GlyphsFit demoPaint 96 item) :
    CanRender demoSkia ⟨contents, picture⟩ := by
  refine canRender_of_demoPaint rfl (fun bytes bitmap hd => ?_) (fun _ => rfl) _ _ hfit
  obtain ⟨-, hbitmap⟩ := Option.ite_none_left_eq_some.mp hd
  cases hbitmap
  rfl

theorem tallSkia_canRender (contents : List Text) (picture : Bytes)
    (hfit : ∀ item ∈ contents, GlyphsFit demoPaint 96 item) :
    CanRender tallSkia ⟨contents, picture⟩ := by
  refine canRender_of_demoPaint rfl (fun bytes bitmap hd => ?_) (fun _ => rfl) _ _ hfit
  obtain ⟨-, hbitmap⟩ := Option.ite_none_left_eq_some.mp hd
  cases hbitmap
  rfl

theorem drawBySkia_answers_demo :
    (∃ rounds reply, drawBySkia demoSkia ⟨[[], [87, 105]], [1]⟩ rounds = .returned reply ∧
      IsAnswer demoSkia ⟨[[], [87, 105]], [1]⟩ reply) ↔
    (∃ bitmap, demoSkia.decode [1] = some bitmap) ∧
      (∃ item ∈ ([[], [87, 105]] : List Text), item ≠ []) ∧
      ∀ surface, DrawsSurface demoSkia ⟨[[], [87, 105]], [1]⟩ surface →
        ∃ d, demoSkia.encode surface = some d :=
  drawBySkia_answers_iff demoPaint_breakTextSpec
    (demoSkia_canRender _ _ (by unfold GlyphsFit; decide +kernel))

/-- **A picture that decodes, with two empty contents**; a file that is not a
picture; and one character on a picture that is as high as a JPEG file can be:
none of the three requests is answered. -/
theorem drawBySkia_no_answer :
    (CanRender demoSkia ⟨[[], []], [1]⟩ ∧
      ∀ rounds, drawBySkia demoSkia ⟨[[], []], [1]⟩ rounds = .threw .invalidOperation) ∧
    (CanRender demoSkia ⟨[[87]], []⟩ ∧
      ∀ rounds, drawBySkia demoSkia ⟨[[87]], []⟩ rounds = .threw .nullReference) ∧
    (CanRender tallSkia ⟨[[87]], [1]⟩ ∧
      drawBySkia tallSkia ⟨[[87]], [1]⟩ 1 = .threw .nullReference ∧
      ∀ rounds reply, drawBySkia tallSkia ⟨[[87]], [1]⟩ rounds ≠ .returned reply) := by
  have hthrew : drawBySkia tallSkia ⟨[[87]], [1]⟩ 1 = .threw .nullReference := by decide +kernel
  refine ⟨⟨demoSkia_canRender _ _ (by unfold GlyphsFit; decide +kernel), fun rounds => ?_⟩,
    ⟨demoSkia_canRender _ _ (by unfold GlyphsFit; decide +kernel), fun rounds => ?_⟩,
    tallSkia_canRender _ _ (by unfold GlyphsFit; decide +kernel), hthrew, fun rounds reply h => ?_⟩
  · refine drawBySkia_of_no_lines rfl ?_
    cases rounds <;> rfl
  · exact drawBySkia_of_not_decoded rfl rounds
  · -- the drawing does not depend on the rounds: it is 56 higher than the picture
    obtain ⟨surface, hdraws, he⟩ := drawsSurface_of_drawBySkia h
    have htall : DrawsSurface tallSkia ⟨[[87]], [1]⟩ _ :=
      ⟨⟨100, 65500, [1], by decide, by decide⟩, 1, [⟨40, [87]⟩], 56, rfl,
        by decide +kernel, by decide +kernel, rfl⟩
    have hnone : tallSkia.encode (draw ⟨100, 65500, [1], by decide, by decide⟩ [⟨40, [87]⟩]
        (drawImageInfo ⟨100, 65500, [1], by decide, by decide⟩ 56)) = none := by decide +kernel
    rw [hdraws.unique demoPaint_breakTextSpec htall, hnone] at he
    cases he

end ExertGrpc
