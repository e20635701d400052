import ExertGrpc.SkiaText
import Mathlib.Data.List.Forall2

/-! # `SkiaExtentions.ParseTextWrap`

The two overloads of `ParseTextWrap`, as the code runs them.  The string overload
is a `while` loop with a head index into the text, so it is given a budget of
rounds and may be `unfinished`; the other one runs it on every content in turn.

The loop only ever looks at the rest of the text.  So whatever it starts from,
it computes a cutting of that rest by `BreakText` (`wrapLoop_of_cuts`,
`cuts_of_wrapLoop`), and ends exactly when there is one.
-/
namespace ExertGrpc
open PrefixCut

/-- `SkiaWrapText`. -/
structure SkiaWrapText where
  height : ℚ
  content : Text
deriving DecidableEq, Repr

/-- The locals of the `while` loop. -/
structure WrapLocals where
  result : List SkiaWrapText
  bound : SKRect
  head : Nat
deriving DecidableEq, Repr

variable (paint : SKPaint)

/-- One round of the `while` loop. -/
def wrapRound (text : Text) (maxWidth : Int) (s : WrapLocals) : Outcome Exn WrapLocals := do
  let span ← asSpan text s.head (text.length - s.head)
  let count := paint.breakText span maxWidth
  let ts ← substring text s.head count
  let bound := paint.measureText ts
  return {
    result := s.result ++ [{ height := bound.height, content := ts }]
    bound := bound
    head := s.head + count }

/-- `while (head < text.Length)`, for at most `rounds` rounds. -/
def wrapLoop (text : Text) (maxWidth : Int) : Nat → WrapLocals → Outcome Exn (List SkiaWrapText)
  | 0, s => if s.head < text.length then .unfinished else .returned s.result
  | rounds + 1, s =>
    if s.head < text.length then do
      let s' ← wrapRound paint text maxWidth s
      wrapLoop text maxWidth rounds s'
    else .returned s.result

/-- `ParseTextWrap(paint, text, maxWidth)`. -/
def parseTextWrap (text : Text) (maxWidth : Int) (rounds : Nat) : Outcome Exn (List SkiaWrapText) :=
  wrapLoop paint text maxWidth rounds { result := [], bound := .empty, head := 0 }

/-- The `foreach` over the contents, each of them given `rounds` rounds. -/
def wrapContents (maxWidth : Int) (rounds : Nat) :
    List Text → List SkiaWrapText → Outcome Exn (List SkiaWrapText)
  | [], result => .returned result
  | item :: contents, result => do
    let r ← parseTextWrap paint item maxWidth rounds
    wrapContents maxWidth rounds contents (result ++ r)

/-- `ParseTextWrap(paint, contents, maxWidth)`. -/
def parseTextWrapAll (contents : List Text) (maxWidth : Int) (rounds : Nat) :
    Outcome Exn (List SkiaWrapText) :=
  wrapContents paint maxWidth rounds contents []

/-! ## The loop is a cutting of the text -/

/-- How many units the loop takes off the rest of a text. -/
def wrapCut (maxWidth : Int) (rest : Text) : Nat := paint.breakText rest maxWidth

/-- The line the loop records for a piece of the text. -/
def wrapLine (ts : Text) : SkiaWrapText :=
  { height := (paint.measureText ts).height, content := ts }

variable {paint} {text : Text} {maxWidth : Int}

theorem BreakTextSpec.wrapCut_le (hb : BreakTextSpec paint) (maxWidth : Int) (rest : Text) :
    wrapCut paint maxWidth rest ≤ rest.length := hb.le_length rest maxWidth

section Loop
-- all the loop needs is that `BreakText` stays within the span it is given
variable (hin : ∀ rest, wrapCut paint maxWidth rest ≤ rest.length)
include hin

/-- The head stays within the text. -/
theorem head_add_wrapCut_le {head : Nat} (h : head ≤ text.length) :
    head + wrapCut paint maxWidth (text.drop head) ≤ text.length := by
  have hcut := hin (text.drop head)
  rw [List.length_drop] at hcut
  omega

theorem wrapRound_eq {s : WrapLocals} (hs : s.head ≤ text.length) :
    wrapRound paint text maxWidth s = .returned
      { result := s.result ++ [wrapLine paint
          ((text.drop s.head).take (wrapCut paint maxWidth (text.drop s.head)))]
        bound := paint.measureText
          ((text.drop s.head).take (wrapCut paint maxWidth (text.drop s.head)))
        head := s.head + wrapCut paint maxWidth (text.drop s.head) } := by
  have hsub : substring text s.head (paint.breakText (text.drop s.head) maxWidth) = .returned _ :=
    substring_eq (head_add_wrapCut_le hin hs)
  simp only [wrapRound, asSpan_rest hs, Outcome.returned_bind, hsub]
  rfl

/-- A cutting of the rest of the text is what the loop appends, given a round
for every piece. -/
theorem wrapLoop_of_cuts {ps : List Text} {s : WrapLocals} {rounds : Nat}
    (hs : s.head ≤ text.length) (h : Cuts (wrapCut paint maxWidth) (text.drop s.head) ps)
    (hr : ps.length ≤ rounds) :
    wrapLoop paint text maxWidth rounds s = .returned (s.result ++ ps.map (wrapLine paint)) := by
  induction rounds generalizing s ps with
  | zero =>
    obtain rfl := List.eq_nil_of_length_eq_zero (Nat.le_zero.mp hr)
    have hnil := h.flatten_eq
    have hend : text.length ≤ s.head := List.drop_eq_nil_iff.mp hnil.symm
    rw [wrapLoop, if_neg (by omega), List.map_nil, List.append_nil]
  | succ rounds ih =>
    by_cases hlt : s.head < text.length
    · have hne : text.drop s.head ≠ [] := fun hd => by
        have := List.drop_eq_nil_iff.mp hd
        omega
      obtain ⟨qs, rfl, hqs⟩ := h.eq_cons hne
      rw [List.drop_drop] at hqs
      rw [wrapLoop, if_pos hlt, wrapRound_eq hin hs, Outcome.returned_bind,
        ih (head_add_wrapCut_le hin hs) hqs (by simpa using hr), List.append_assoc]
      rfl
    · have hnil : text.drop s.head = [] := List.drop_eq_nil_of_le (by omega)
      rw [hnil] at h
      rw [wrapLoop, if_neg hlt, h.eq_nil, List.map_nil, List.append_nil]

/-- What the loop returns is a cutting of the rest of the text. -/
theorem cuts_of_wrapLoop {s : WrapLocals} {rounds : Nat} {lines : List SkiaWrapText}
    (hs : s.head ≤ text.length)
    (h : wrapLoop paint text maxWidth rounds s = .returned lines) :
    ∃ ps, Cuts (wrapCut paint maxWidth) (text.drop s.head) ps ∧
      lines = s.result ++ ps.map (wrapLine paint) := by
  have stop : ∀ {s : WrapLocals}, ¬ s.head < text.length →
      Cuts (wrapCut paint maxWidth) (text.drop s.head) [] := by
    intro s hlt
    rw [List.drop_eq_nil_of_le (by omega)]
    exact .done
  induction rounds generalizing s with
  | zero =>
    rw [wrapLoop] at h
    split at h
    · cases h
    · cases h
      exact ⟨[], stop ‹_›, by simp⟩
  | succ rounds ih =>
    rw [wrapLoop] at h
    split at h
    · rename_i hlt
      rw [wrapRound_eq hin hs, Outcome.returned_bind] at h
      obtain ⟨ps, hps, rfl⟩ := ih (head_add_wrapCut_le hin hs) h
      refine ⟨_, .piece (fun hd => ?_) (by rwa [List.drop_drop]), ?_⟩
      · have := List.drop_eq_nil_iff.mp hd
        omega
      · rw [List.append_assoc]
        rfl
    · cases h
      exact ⟨[], stop ‹_›, by simp⟩

/-- The loop never throws. -/
theorem wrapLoop_ne_threw {s : WrapLocals} {rounds : Nat} (hs : s.head ≤ text.length) (e : Exn) :
    wrapLoop paint text maxWidth rounds s ≠ .threw e := by
  induction rounds generalizing s with
  | zero => rw [wrapLoop]; split <;> simp
  | succ rounds ih =>
    rw [wrapLoop]
    split
    · rw [wrapRound_eq hin hs, Outcome.returned_bind]
      exact ih (head_add_wrapCut_le hin hs)
    · simp

end Loop

/-! ## The two overloads -/

variable (hb : BreakTextSpec paint)
include hb

/-- **What `ParseTextWrap` returns for a text**: the pieces `BreakText` cuts it
into, each with its measured height. -/
theorem parseTextWrap_eq_returned {rounds : Nat} {lines : List SkiaWrapText}
    (h : parseTextWrap paint text maxWidth rounds = .returned lines) :
    ∃ ps, Cuts (wrapCut paint maxWidth) text ps ∧ lines = ps.map (wrapLine paint) := by
  obtain ⟨ps, hps, rfl⟩ := cuts_of_wrapLoop (hb.wrapCut_le maxWidth) (Nat.zero_le _) h
  exact ⟨ps, hps, rfl⟩

theorem parseTextWrap_of_cuts {ps : List Text} (h : Cuts (wrapCut paint maxWidth) text ps)
    {rounds : Nat} (hr : ps.length ≤ rounds) :
    parseTextWrap paint text maxWidth rounds = .returned (ps.map (wrapLine paint)) :=
  wrapLoop_of_cuts (hb.wrapCut_le maxWidth) (Nat.zero_le _) h hr

/-- It ends exactly when it returns: it never throws. -/
theorem parseTextWrap_ends {rounds : Nat} :
    parseTextWrap paint text maxWidth rounds ≠ .unfinished ↔
      ∃ lines, parseTextWrap paint text maxWidth rounds = .returned lines := by
  cases h : parseTextWrap paint text maxWidth rounds with
  | returned lines => simp
  | threw e => exact absurd h (wrapLoop_ne_threw (hb.wrapCut_le maxWidth) (Nat.zero_le _) e)
  | unfinished => simp

omit hb in
/-- What the `foreach` returns: what each content's own wrapping returns, in
order. -/
theorem wrapContents_eq_returned {rounds : Nat} : ∀ {contents : List Text}
    {result lines : List SkiaWrapText},
    wrapContents paint maxWidth rounds contents result = .returned lines ↔
      ∃ perItem, List.Forall₂ (fun item r => parseTextWrap paint item maxWidth rounds = .returned r)
        contents perItem ∧ lines = result ++ perItem.flatten
  | [], result, lines => by
      rw [wrapContents]
      constructor
      · intro h
        cases h
        exact ⟨[], .nil, by simp⟩
      · rintro ⟨perItem, hper, rfl⟩
        cases hper
        simp
  | item :: contents, result, lines => by
      rw [wrapContents, Outcome.bind_eq_returned]
      constructor
      · rintro ⟨r, hr, hrest⟩
        obtain ⟨perItem, hper, rfl⟩ := wrapContents_eq_returned.mp hrest
        exact ⟨r :: perItem, .cons hr hper, by simp⟩
      · rintro ⟨perItem, hper, rfl⟩
        cases hper with
        | cons hr hper =>
          exact ⟨_, hr, wrapContents_eq_returned.mpr ⟨_, hper, by simp⟩⟩

omit hb in
theorem parseTextWrapAll_eq_returned {contents : List Text} {rounds : Nat}
    {lines : List SkiaWrapText} :
    parseTextWrapAll paint contents maxWidth rounds = .returned lines ↔
      ∃ perItem, List.Forall₂ (fun item r => parseTextWrap paint item maxWidth rounds = .returned r)
        contents perItem ∧ lines = perItem.flatten := by
  rw [parseTextWrapAll, wrapContents_eq_returned]
  simp

theorem parseTextWrapAll_ends {contents : List Text} {rounds : Nat} :
    parseTextWrapAll paint contents maxWidth rounds ≠ .unfinished ↔
      ∃ lines, parseTextWrapAll paint contents maxWidth rounds = .returned lines := by
  suffices hne : ∀ (contents : List Text) (result : List SkiaWrapText) (e : Exn),
      wrapContents paint maxWidth rounds contents result ≠ .threw e by
    cases h : parseTextWrapAll paint contents maxWidth rounds with
    | returned lines => simp
    | threw e => exact absurd h (hne contents [] e)
    | unfinished => simp
  intro contents
  induction contents with
  | nil => intro result e; rw [wrapContents]; simp
  | cons item contents ih =>
    intro result e
    rw [wrapContents]
    cases h : parseTextWrap paint item maxWidth rounds with
    | returned r => exact ih (result ++ r) e
    | threw e' => exact absurd h (wrapLoop_ne_threw (hb.wrapCut_le maxWidth) (Nat.zero_le _) e')
    | unfinished => simp

/-- Enough rounds for every content: one for every unit of all of them. -/
theorem parseTextWrapAll_of_cuts {contents : List Text} {pss : List (List Text)}
    (h : List.Forall₂ (fun item ps => Cuts (wrapCut paint maxWidth) item ps) contents pss)
    {rounds : Nat} (hr : contents.flatten.length ≤ rounds) :
    parseTextWrapAll paint contents maxWidth rounds =
      .returned (pss.map fun ps => ps.map (wrapLine paint)).flatten := by
  refine parseTextWrapAll_eq_returned.mpr ⟨_, ?_, rfl⟩
  induction h with
  | nil => exact .nil
  | @cons item ps contents pss hps hrest ih =>
    rw [List.flatten_cons, List.length_append] at hr
    exact .cons (parseTextWrap_of_cuts hb hps (hps.length_le.trans (by omega))) (ih (by omega))

end ExertGrpc
