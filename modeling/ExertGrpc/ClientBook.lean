import Mathlib.Data.List.Chain
import ExertGrpc.DotNet

/-! # The book that `ClientService` sends

In every round the client sends a book with a random number of marks.  The loop that adds
them asks for a new random number whenever it looks whether to go on, so how many marks
there are is not drawn once; but as no such number is over 9, a tenth mark is never added.
The random numbers of a round are its argument `next`, to be read in turn.
-/
namespace ExertGrpc

/-- `BookMark`. -/
structure BookMark where
  index : Nat
  tag : Text
deriving DecidableEq, Repr

/-- `BookRequest`: the fields the client sets. -/
structure BookRequest where
  name : Text
  marks : List BookMark
deriving DecidableEq, Repr

/-- `BookReply`. -/
structure BookReply where
  message : Text
  marksCount : Nat
deriving DecidableEq, Repr

/-- `$"书签 {i}"`. -/
def markTag (i : Nat) : Text := literal ("书签 " ++ toString i)

/-- The rest of the `for` loop from `i` and `bi` on. -/
def addMarks (next : Nat → Fin 10) (i bi : Nat) : List BookMark :=
  -- `i < Random.Shared.Next(0, 10)`
  if i < next 0 then
    let bi := bi + next 1
    { index := bi, tag := markTag i } :: addMarks (fun k => next (k + 2)) (i + 1) bi
  else []
termination_by 10 - i
decreasing_by
  have := (next 0).isLt
  omega

/-- The request of a round. -/
def bookRequest (next : Nat → Fin 10) : BookRequest where
  name := literal "boook"
  marks := addMarks next 0 0

/-- `BookImplement.SayHello`. -/
def bookSayHello (request : BookRequest) : BookReply where
  message := literal "Hello " ++ request.name
  marksCount := request.marks.length

/-- What the loop can add from `i` and `bi` on: at most the marks up to the ninth, tagged in
turn, each by 0 to 9 further than the one before. -/
structure MarksFrom (i bi : Nat) (marks : List BookMark) : Prop where
  length : marks.length ≤ 9 - i
  tags : marks.map BookMark.tag = (List.range' i marks.length).map markTag
  indices : (bi :: marks.map BookMark.index).IsChain fun a b => a ≤ b ∧ b ≤ a + 9

theorem marksFrom_nil (i bi : Nat) : MarksFrom i bi [] := ⟨Nat.zero_le _, rfl, .singleton _⟩

theorem marksFrom_cons {i bi : Nat} {mark : BookMark} {marks : List BookMark} :
    MarksFrom i bi (mark :: marks) ↔
      (i < 9 ∧ mark.tag = markTag i ∧ bi ≤ mark.index ∧ mark.index ≤ bi + 9) ∧
        MarksFrom (i + 1) mark.index marks := by
  constructor
  · rintro ⟨hlength, htags, hindices⟩
    simp only [List.length_cons, List.map_cons, List.range'_succ, List.cons.injEq,
      List.isChain_cons_cons] at hlength htags hindices
    exact ⟨⟨by omega, htags.1, hindices.1⟩, by omega, htags.2, hindices.2⟩
  · rintro ⟨⟨hi, htag, hindex⟩, hlength, htags, hindices⟩
    constructor
    · rw [List.length_cons]
      omega
    · rw [List.map_cons, List.length_cons, List.range'_succ, List.map_cons, htag, htags]
    · exact List.isChain_cons_cons.mpr ⟨hindex, hindices⟩

/-- Marks that stand still, as many as there may be. -/
theorem marksFrom_still {i bi n : Nat} (h : n ≤ 9 - i) :
    MarksFrom i bi ((List.range' i n).map fun k => { index := bi, tag := markTag k }) := by
  induction n generalizing i with
  | zero => exact marksFrom_nil i bi
  | succ n ih =>
    rw [List.range'_succ, List.map_cons, marksFrom_cons]
    exact ⟨⟨by omega, rfl, Nat.le_refl bi, Nat.le_add_right bi 9⟩, ih (by omega)⟩

/-- The draws `go` and `step`, and then those of `next`. -/
def drawFirst (go step : Fin 10) (next : Nat → Fin 10) : Nat → Fin 10
  | 0 => go
  | 1 => step
  | k + 2 => next k

theorem addMarks_drawFirst {go step : Fin 10} {next : Nat → Fin 10} {i bi : Nat} (h : i < go) :
    addMarks (drawFirst go step next) i bi =
      { index := bi + step, tag := markTag i } :: addMarks next (i + 1) (bi + step) := by
  rw [addMarks]
  exact if_pos h

/-- **What the loop adds**, over all random numbers: every such list of marks, and no
other. -/
theorem exists_addMarks_iff {i bi : Nat} {marks : List BookMark} :
    (∃ next, addMarks next i bi = marks) ↔ MarksFrom i bi marks := by
  induction marks generalizing i bi with
  | nil =>
    refine iff_of_true ⟨fun _ => 0, ?_⟩ (marksFrom_nil i bi)
    rw [addMarks, if_neg (by simp)]
  | cons mark marks ih =>
    rw [marksFrom_cons]
    constructor
    · rintro ⟨next, hmarks⟩
      have hdraw := (next 0).isLt
      have hstep := (next 1).isLt
      rw [addMarks] at hmarks
      by_cases hgo : i < next 0
      · rw [if_pos hgo] at hmarks
        obtain ⟨rfl, hrest⟩ := List.cons.inj hmarks
        refine ⟨⟨by omega, rfl, Nat.le_add_right _ _, ?_⟩, ih.mp ⟨_, hrest⟩⟩
        show bi + (next 1 : Nat) ≤ bi + 9
        omega
      · rw [if_neg hgo] at hmarks
        cases hmarks
    · rintro ⟨⟨hi, htag, hle, hlt⟩, hrest⟩
      obtain ⟨next, hnext⟩ := ih.mpr hrest
      refine ⟨drawFirst 9 ⟨mark.index - bi, by omega⟩ next, ?_⟩
      have hindex : bi + (mark.index - bi) = mark.index := by omega
      rw [addMarks_drawFirst (show i < ((9 : Fin 10) : Nat) from hi)]
      dsimp only
      rw [hindex, hnext, ← htag]

/-- **Which books are sent and what is answered**, over all random numbers: the books of at
most nine marks, tagged in turn from 0, with indices that go up by 0 to 9; and every number
of marks from 0 to 9 is answered to some book. -/
theorem book_round_iff :
    (∀ request, (∃ next, bookRequest next = request) ↔
      request.name = literal "boook" ∧ MarksFrom 0 0 request.marks) ∧
    (∀ reply, (∃ next, bookSayHello (bookRequest next) = reply) ↔
      reply.message = literal "Hello boook" ∧ reply.marksCount ≤ 9) := by
  have hrequest : ∀ request, (∃ next, bookRequest next = request) ↔
      request.name = literal "boook" ∧ MarksFrom 0 0 request.marks := by
    intro request
    rw [← exists_addMarks_iff]
    constructor
    · rintro ⟨next, rfl⟩
      exact ⟨rfl, next, rfl⟩
    · rintro ⟨hname, next, hmarks⟩
      exact ⟨next, by rw [bookRequest, hmarks, ← hname]⟩
  refine ⟨hrequest, fun reply => ?_⟩
  constructor
  · rintro ⟨next, rfl⟩
    have hmarks := ((hrequest _).mp ⟨next, rfl⟩).2
    exact ⟨rfl, hmarks.length⟩
  · rintro ⟨hmessage, hcount⟩
    have hstill : MarksFrom 0 0
        ((List.range' 0 reply.marksCount).map fun k => { index := 0, tag := markTag k }) :=
      marksFrom_still hcount
    obtain ⟨next, hnext⟩ := exists_addMarks_iff.mpr hstill
    refine ⟨next, ?_⟩
    rw [bookSayHello, bookRequest, hnext, List.length_map, List.length_range']
    cases reply
    cases hmessage
    rfl

end ExertGrpc
