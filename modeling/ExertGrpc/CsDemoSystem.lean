import ExertGrpc.ClientBook
import ExertGrpc.ClientExecute
import ExertGrpc.ImageSharpReply
import ExertGrpc.SkiaReply

/-! # `CsDemo.CsClient` and `CsDemo.Server` together

The rounds of `ClientService.ExecuteAsync` with the handlers of the server behind its
calls.  What remains open is what neither program decides: whether a call gets through,
what the random numbers are, whether a file can be written, and when the client is told to
stop.

Because each drawing is stored once at most, what the two output files hold after any run
is said by the files as they were before it: a file is as it was, or a drawing of the
server has been written over it, or, if that write was the end of the client, the beginning
of one.
-/
namespace ExertGrpc
open TransitionRun

/-! ## The requests -/

/-- What the two programs are given: the libraries of the server, and the pictures that are
embedded in the client. -/
structure CsDemo where
  skia : SkiaSharp
  imageSharp : ImageSharp
  picture1 : Bytes
  picture2 : Bytes

/-- `(ri == 0) ? Resources.Picture1 : Resources.Picture2`, with `ri` drawn from 0 and 1. -/
def CsDemo.picture (demo : CsDemo) (ri : Fin 2) : Bytes :=
  if ri = 0 then demo.picture1 else demo.picture2

/-- The texts that `DoSkiaAsync` sends. -/
def skiaContents : List Text := [
  literal "测试中文aa啊手动阀手动阀1324657943333333333333333333撒地方",
  literal "冒号中文：阿斯蒂芬撒打发打发打发             4f444444444444444444444444444444444444444444444444444444444444阿三发射点发撒地方444444444444444444",
  literal "dsfdsfsdfsd: sdfsd f sdfs dfsd fsd fsdfsdfsdf"]

/-- The texts that `DoImageSharpAsync` sends. -/
def imageSharpContents : List Text := [
  literal "测试中文aa啊手动阀手动阀1324657943333333333333333333撒地方",
  literal "sadfsdafdsaf",
  literal "冒号中文：阿斯蒂芬撒打发打发打发             4f444444444444444444444444444444444444444444444444444444444441阿三发射点发撒地方444444444444444444",
  literal "dsfdsfsdfsd: sdfsd f sdfs dfsd fsd fsdfsdfsdf"]

/-- They are long enough for the handler of the server. -/
theorem maxTextLength_le_imageSharpContents :
    maxTextLength ≤ (joinContents imageSharpContents).length := by
  decide +kernel

/-- The request of `DoSkiaAsync`. -/
def CsDemo.skiaRequest (demo : CsDemo) (ri : Fin 2) : DrawBySkiaRequest :=
  { contents := skiaContents, picture := demo.picture ri }

/-- The request of `DoImageSharpAsync`. -/
def CsDemo.imageSharpRequest (demo : CsDemo) (ri : Fin 2) : DrawByImageSharpRequest :=
  { contents := imageSharpContents, picture := demo.picture ri }

/-! ## Rounds -/

/-- What the client gets of a call: the reply of the handler, or an `RpcException` if the
handler throws or the call does not get through; nothing as long as the handler runs. -/
def rpc {Reply : Type} (getsThrough : Bool) (handler : Outcome Exn Reply) :
    Option (Except Exn Reply) :=
  if getsThrough then
    match handler with
    | .returned reply => some (.ok reply)
    | .threw _ => some (.error .rpc)
    | .unfinished => none
  else some (.error .rpc)

theorem rpc_eq_ok {Reply : Type} {getsThrough : Bool} {handler : Outcome Exn Reply}
    {reply : Reply} (h : rpc getsThrough handler = some (.ok reply)) :
    handler = .returned reply := by
  unfold rpc at h
  split at h
  · split at h
    · cases h
      rfl
    · cases h
    · cases h
  · cases h

/-- What a round of the two programs meets.  `rounds` is how far the handler of the Skia
drawing is followed in its loop. -/
structure SystemRound where
  cancelled : Bool
  helloGetsThrough : Bool
  bookGetsThrough : Bool
  marks : Nat → Fin 10
  skiaGetsThrough : Bool
  skiaPicture : Fin 2
  rounds : Nat
  skiaFile : FileAccess
  imageSharpGetsThrough : Bool
  imageSharpPicture : Fin 2
  imageSharpFile : FileAccess

/-- What the server makes of the drawing requests of a round. -/
def CsDemo.drawBySkia (demo : CsDemo) (round : SystemRound) : Outcome Exn DrawBySkiaReply :=
  ExertGrpc.drawBySkia demo.skia (demo.skiaRequest round.skiaPicture) round.rounds

def CsDemo.drawByImageSharp (demo : CsDemo) (round : SystemRound) :
    Outcome Exn DrawByImageSharpReply :=
  ExertGrpc.drawByImageSharp demo.imageSharp (demo.imageSharpRequest round.imageSharpPicture)

/-- The round as the client meets it, `none` while it waits for a drawing that it has asked
for.  A call to which the round does not come may be taken not to get through. -/
def CsDemo.clientRound (demo : CsDemo) (s : ClientState) (round : SystemRound) :
    Option Round := do
  let skia ← (if s.skiaOnce then some (.error .rpc)
    else rpc round.skiaGetsThrough (demo.drawBySkia round))
  let imageSharp ← (if s.imageSharpOnce then some (.error .rpc)
    else rpc round.imageSharpGetsThrough (demo.drawByImageSharp round))
  let book ← rpc round.bookGetsThrough (.returned (bookSayHello (bookRequest round.marks)))
  return {
    cancelled := round.cancelled
    hello := if round.helloGetsThrough then .ok () else .error .rpc
    book := book.map fun _ => ()
    skia := skia
    skiaFile := round.skiaFile
    imageSharp := imageSharp
    imageSharpFile := round.imageSharpFile }

/-- One step of the client against the server. -/
def CsDemo.step (demo : CsDemo) (s : ClientState) (round : SystemRound) : Option ClientState :=
  (demo.clientRound s round).bind (executeStep s)

/-! ## A file over a whole run -/

/-- What a file holds that held `old` before the run, once `done` says that its drawing has
been made and `threw` that the client has ended in an exception: `Drawn` are the drawings
that the server makes, and `Refuses` says that it answers without one. -/
inductive FileKept (Drawn : Bytes → Prop) (Refuses : Prop) (old : Option Bytes) :
    (now : Option Bytes) → (done threw : Bool) → Prop
  /-- Nothing has been written. -/
  | untouched (threw : Bool) : FileKept Drawn Refuses old old false threw
  /-- The server has answered without a drawing. -/
  | refused (threw : Bool) (h : Refuses) : FileKept Drawn Refuses old old true threw
  /-- A drawing has been written over what was there. -/
  | drawn (threw : Bool) (d : Bytes) (h : Drawn d) :
    FileKept Drawn Refuses old (some (writeOver (openOrCreate old) d)) true threw
  /-- The write of a drawing has failed. -/
  | cut (d : Bytes) (n : Nat) (h : Drawn d) :
    FileKept Drawn Refuses old (some (writeOver (openOrCreate old) (d.take n))) false true

namespace FileKept
variable {Drawn : Bytes → Prop} {Refuses : Prop} {old now : Option Bytes} {done : Bool}

/-- An exception of another call leaves the file as it is. -/
theorem throws (h : FileKept Drawn Refuses old now done false) :
    FileKept Drawn Refuses old now done true := by
  cases h with
  | untouched => exact .untouched true
  | refused _ h => exact .refused true h
  | drawn _ d h => exact .drawn true d h

/-- A client that has not drawn, and goes on, has not touched the file. -/
theorem eq_old (h : FileKept Drawn Refuses old now false false) : now = old := by
  cases h with
  | untouched => rfl

variable {Reply : Type} {code : Reply → Int} {result : Reply → Bytes} {p : Output}
  {rpc : Except Exn Reply} {access : FileAccess} {files files' : OutputFiles}

/-- A drawing request that completes, when the reply is one of the server. -/
theorem completed (hk : FileKept Drawn Refuses old (files p) false false)
    (hreply : ∀ r, rpc = .ok r → (code r = 0 → Drawn (result r)) ∧ (code r ≠ 0 → Refuses))
    (h : requestDrawing code result p rpc access files = (.ok (), files')) :
    (∀ q, q ≠ p → files' q = files q) ∧ FileKept Drawn Refuses old (files' p) true false := by
  have hold := hk.eq_old
  unfold requestDrawing storeReply at h
  cases rpc with
  | error e => cases h
  | ok r =>
    by_cases hcode : code r = 0
    · simp only [if_pos hcode] at h
      cases access with
      | succeeds =>
        cases h
        simp only [saveReply, if_pos hcode]
        refine ⟨fun q hq => Function.update_of_ne hq .., ?_⟩
        rw [Function.update_self, hold]
        exact .drawn false (result r) ((hreply r rfl).1 hcode)
      | openThrows e => cases h
      | writeThrows e written => cases h
    · simp only [if_neg hcode] at h
      cases h
      refine ⟨fun _ _ => rfl, ?_⟩
      rw [hold]
      exact .refused false ((hreply r rfl).2 hcode)

/-- A drawing request that ends in an exception has left the file alone, or failed to write
a drawing to it. -/
theorem failed {e : Exn} (hk : FileKept Drawn Refuses old (files p) false false)
    (hreply : ∀ r, rpc = .ok r → (code r = 0 → Drawn (result r)) ∧ (code r ≠ 0 → Refuses))
    (h : requestDrawing code result p rpc access files = (.error e, files')) :
    (∀ q, q ≠ p → files' q = files q) ∧ FileKept Drawn Refuses old (files' p) false true := by
  have hold := hk.eq_old
  unfold requestDrawing storeReply at h
  cases rpc with
  | error e =>
    cases h
    exact ⟨fun _ _ => rfl, hk.throws⟩
  | ok r =>
    by_cases hcode : code r = 0
    · simp only [if_pos hcode] at h
      cases access with
      | succeeds => cases h
      | openThrows e =>
        cases h
        exact ⟨fun _ _ => rfl, hk.throws⟩
      | writeThrows e written =>
        cases h
        refine ⟨fun q hq => Function.update_of_ne hq .., ?_⟩
        rw [Function.update_self, hold]
        exact .cut (result r) written ((hreply r rfl).1 hcode)
    · simp only [if_neg hcode] at h
      cases h

end FileKept

/-! ## What the server replies -/

section Server
variable {demo : CsDemo} {round : SystemRound}

/-- The drawings of the texts of the client under a line of text after the other, over one
of its pictures. -/
def CsDemo.SkiaDrawing (demo : CsDemo) (d : Bytes) : Prop :=
  ∃ ri reply, IsAnswer demo.skia (demo.skiaRequest ri) reply ∧ reply.code = 0 ∧
    reply.result = d

/-- The drawings of the first 111 units of its texts, likewise. -/
def CsDemo.ImageSharpDrawing (demo : CsDemo) (d : Bytes) : Prop :=
  ∃ ri reply, Answered demo.imageSharp (demo.imageSharpRequest ri) reply ∧ reply.result = d

/-- A call into ImageSharp fails for a picture of the client. -/
def CsDemo.ImageSharpFails (demo : CsDemo) : Prop :=
  ∃ ri, LibraryFailed demo.imageSharp (demo.imageSharpRequest ri)

/-- A reply of `DrawBySkia` is an answer, as a handler that cannot answer throws. -/
theorem isAnswer_of_returned {skia : SkiaSharp} {request : DrawBySkiaRequest} {rounds : Nat}
    {reply : DrawBySkiaReply} (h : ExertGrpc.drawBySkia skia request rounds = .returned reply) :
    IsAnswer skia request reply ∧ reply.code = 0 := by
  obtain ⟨bitmap, hbitmap, h⟩ := Outcome.bind_eq_returned.mp h
  obtain ⟨tws, htws, h⟩ := Outcome.bind_eq_returned.mp h
  obtain ⟨height, hheight, h⟩ := Outcome.bind_eq_returned.mp h
  rw [Outcome.ofOption_eq_returned] at hbitmap
  by_cases ha : skia.allocates (drawImageInfo bitmap height) = true
  · rw [if_pos ha] at h
    obtain ⟨d, hd, h⟩ := Outcome.bind_eq_returned.mp h
    rw [Outcome.ofOption_eq_returned] at hd
    cases h
    refine ⟨?_, rfl⟩
    rw [IsAnswer, hbitmap]
    exact ⟨rfl, rounds, tws, height, htws, hheight, hd⟩
  · rw [if_neg ha] at h
    cases h

/-- The Skia handler never replies without a drawing. -/
theorem skia_reply {reply : DrawBySkiaReply} (h : demo.drawBySkia round = .returned reply) :
    (reply.code = 0 → demo.SkiaDrawing reply.result) ∧ (reply.code ≠ 0 → False) := by
  obtain ⟨hanswer, hcode⟩ := isAnswer_of_returned h
  exact ⟨fun _ => ⟨round.skiaPicture, reply, hanswer, hcode, rfl⟩, fun hne => hne hcode⟩

/-- A reply that the `try` of the ImageSharp handler makes is the answer to its request. -/
theorem answered_of_returned {lib : ImageSharp} {request : DrawByImageSharpRequest}
    {reply : DrawByImageSharpReply} (hlen : maxTextLength ≤ (joinContents request.contents).length)
    (h : tryDraw lib request = .returned reply) : Answered lib request reply := by
  by_cases hreach : ReachesText lib request
  · obtain ⟨dimage, htext, hlong⟩ := tryDraw_of_long hreach hlen
    obtain ⟨dimage', hdrawing, h⟩ := Outcome.bind_eq_returned.mp h
    obtain ⟨m, hsave, h⟩ := Outcome.bind_eq_returned.mp h
    -- what is drawn on is decided before the drawing
    have hsame : dimage' = dimage := by
      rw [hlong, Outcome.bind_eq_returned] at hdrawing
      obtain ⟨-, -, hdrawing⟩ := hdrawing
      obtain ⟨-, -, hdrawing⟩ := Outcome.bind_eq_returned.mp hdrawing
      cases hdrawing
      rfl
    subst hsame
    cases h
    exact ⟨rfl, dimage', hdrawing, htext, Outcome.ofExcept_eq_returned.mp hsave⟩
  · obtain ⟨e, he⟩ := tryDraw_of_not_reachesText hreach
    rw [he] at h
    cases h

/-- The ImageSharp handler replies without a drawing only when a call into ImageSharp
fails. -/
theorem imageSharp_reply {reply : DrawByImageSharpReply}
    (h : demo.drawByImageSharp round = .returned reply) :
    (reply.code = 0 → demo.ImageSharpDrawing reply.result) ∧
      (reply.code ≠ 0 → demo.ImageSharpFails) := by
  have hlen := maxTextLength_le_imageSharpContents
  by_cases hfails : LibraryFailed demo.imageSharp (demo.imageSharpRequest round.imageSharpPicture)
  · obtain ⟨e, he⟩ := hfails
    have hreply := drawByImageSharp_of_threw he
    rw [CsDemo.drawByImageSharp, hreply] at h
    cases h
    have hcode : (-1 : Int) ≠ 0 := by omega
    exact ⟨fun h => absurd h hcode, fun _ => ⟨round.imageSharpPicture, e, he⟩⟩
  · have hreach : ReachesText demo.imageSharp (demo.imageSharpRequest round.imageSharpPicture) :=
      Classical.byContradiction fun hn => hfails (tryDraw_of_not_reachesText hn)
    rcases tryDraw_cases_of_long hreach hlen with ⟨reply', hreply', -⟩ | hfailed
    · have hanswered := answered_of_returned hlen hreply'
      rw [CsDemo.drawByImageSharp, drawByImageSharp_of_returned hreply'] at h
      cases h
      exact ⟨fun _ => ⟨round.imageSharpPicture, reply, hanswered, rfl⟩,
        fun hne => absurd hanswered.code hne⟩
    · exact absurd hfailed hfails

end Server

/-! ## One step -/

/-- The client has ended in an exception. -/
def ClientState.threw (s : ClientState) : Bool :=
  match s.ending with
  | some (.threw _) => true
  | _ => false

/-- What both files hold that held `files` before the run. -/
structure CsDemo.Keeps (demo : CsDemo) (files : OutputFiles) (threw : Bool) (s : ClientState) :
    Prop where
  result : FileKept demo.SkiaDrawing False (files .result) (s.files .result) s.skiaOnce threw
  isresult : FileKept demo.ImageSharpDrawing demo.ImageSharpFails (files .isresult)
    (s.files .isresult) s.imageSharpOnce threw

/-- The drawings a round has for the client, as far as it asks for them, are replies of the
server. -/
structure CsDemo.Serves (demo : CsDemo) (r : Round) : Prop where
  skia : ∀ reply, r.skia = .ok reply →
    (reply.code = 0 → demo.SkiaDrawing reply.result) ∧ (reply.code ≠ 0 → False)
  imageSharp : ∀ reply, r.imageSharp = .ok reply →
    (reply.code = 0 → demo.ImageSharpDrawing reply.result) ∧
      (reply.code ≠ 0 → demo.ImageSharpFails)

section Step
variable {demo : CsDemo} {files : OutputFiles} {s t : ClientState} {r : Round}

/-- What the client gets of a drawing request that it may have made. -/
theorem served_reply {Reply : Type} {once getsThrough : Bool} {handler : Outcome Exn Reply}
    {res : Except Exn Reply} {reply : Reply}
    (h : (if once then some (.error .rpc) else rpc getsThrough handler) = some res)
    (hreply : res = .ok reply) : handler = .returned reply := by
  subst hreply
  by_cases honce : once = true
  · rw [if_pos honce] at h
    cases h
  · rw [if_neg honce] at h
    exact rpc_eq_ok h

theorem clientRound_serves {round : SystemRound} (h : demo.clientRound s round = some r) :
    demo.Serves r := by
  obtain ⟨skia, hskia, h⟩ := Option.bind_eq_some_iff.mp h
  obtain ⟨imageSharp, himage, h⟩ := Option.bind_eq_some_iff.mp h
  obtain ⟨book, -, h⟩ := Option.bind_eq_some_iff.mp h
  cases h
  exact ⟨fun reply hreply => skia_reply (served_reply hskia hreply),
    fun reply hreply => imageSharp_reply (served_reply himage hreply)⟩

/-- A drawing request that has completed did so in the state before it. -/
theorem awaitDrawing_ok_files {request : OutputFiles → Except Exn Unit × OutputFiles}
    {count : ClientState → ClientState} (h : awaitDrawing request count s = .ok () t) :
    ∃ files', request s.files = (.ok (), files') ∧ t = count { s with files := files' } := by
  unfold awaitDrawing at h
  split at h
  · rename_i files' hrequest
    cases h
    exact ⟨files', hrequest, rfl⟩
  · cases h

theorem awaitDrawing_error_files {request : OutputFiles → Except Exn Unit × OutputFiles}
    {count : ClientState → ClientState} {e : Exn} (h : awaitDrawing request count s = .error e t) :
    ∃ files', request s.files = (.error e, files') ∧ t = { s with files := files' } := by
  unfold awaitDrawing at h
  split at h
  · cases h
  · rename_i files' hrequest
    cases h
    exact ⟨files', hrequest, rfl⟩

/-- The block of the Skia request keeps both files. -/
theorem skiaRound_keeps_ok (hr : demo.Serves r) (hk : demo.Keeps files false s)
    (h : skiaRound r s = .ok () t) : demo.Keeps files false t := by
  rcases unlessOnce_eq_ok.mp h with ⟨-, rfl⟩ | ⟨honce, u, hrequest, rfl⟩
  · exact hk
  · obtain ⟨files', hfiles', rfl⟩ := awaitDrawing_ok_files hrequest
    have hresult := hk.result
    rw [honce] at hresult
    obtain ⟨hother, hdone⟩ := hresult.completed hr.skia hfiles'
    refine ⟨hdone, ?_⟩
    show FileKept _ _ _ (files' .isresult) s.imageSharpOnce false
    rw [hother .isresult (by decide)]
    exact hk.isresult

theorem skiaRound_keeps_error {e : Exn} (hr : demo.Serves r) (hk : demo.Keeps files false s)
    (h : skiaRound r s = .error e t) : demo.Keeps files true t := by
  obtain ⟨honce, hrequest⟩ := unlessOnce_eq_error.mp h
  obtain ⟨files', hfiles', rfl⟩ := awaitDrawing_error_files hrequest
  have hresult := hk.result
  rw [honce] at hresult
  obtain ⟨hother, hfailed⟩ := hresult.failed hr.skia hfiles'
  constructor
  · show FileKept _ _ _ (files' .result) s.skiaOnce true
    rw [honce]
    exact hfailed
  · show FileKept _ _ _ (files' .isresult) s.imageSharpOnce true
    rw [hother .isresult (by decide)]
    exact hk.isresult.throws

/-- The block of the ImageSharp request, likewise. -/
theorem imageSharpRound_keeps_ok (hr : demo.Serves r) (hk : demo.Keeps files false s)
    (h : imageSharpRound r s = .ok () t) : demo.Keeps files false t := by
  rcases unlessOnce_eq_ok.mp h with ⟨-, rfl⟩ | ⟨honce, u, hrequest, rfl⟩
  · exact hk
  · obtain ⟨files', hfiles', rfl⟩ := awaitDrawing_ok_files hrequest
    have hisresult := hk.isresult
    rw [honce] at hisresult
    obtain ⟨hother, hdone⟩ := hisresult.completed hr.imageSharp hfiles'
    refine ⟨?_, hdone⟩
    show FileKept _ _ _ (files' .result) s.skiaOnce false
    rw [hother .result (by decide)]
    exact hk.result

theorem imageSharpRound_keeps_error {e : Exn} (hr : demo.Serves r) (hk : demo.Keeps files false s)
    (h : imageSharpRound r s = .error e t) : demo.Keeps files true t := by
  obtain ⟨honce, hrequest⟩ := unlessOnce_eq_error.mp h
  obtain ⟨files', hfiles', rfl⟩ := awaitDrawing_error_files hrequest
  have hisresult := hk.isresult
  rw [honce] at hisresult
  obtain ⟨hother, hfailed⟩ := hisresult.failed hr.imageSharp hfiles'
  constructor
  · show FileKept _ _ _ (files' .result) s.skiaOnce true
    rw [hother .result (by decide)]
    exact hk.result.throws
  · show FileKept _ _ _ (files' .isresult) s.imageSharpOnce true
    rw [honce]
    exact hfailed

theorem CsDemo.Keeps.throws (hk : demo.Keeps files false s) : demo.Keeps files true s :=
  ⟨hk.result.throws, hk.isresult.throws⟩

/-- A whole round keeps them. -/
theorem executeRound_keeps_ok (hr : demo.Serves r) (hk : demo.Keeps files false s)
    (h : executeRound r s = .ok () t) : demo.Keeps files false t := by
  obtain ⟨_, s₁, hhello, h₁⟩ := EStateM.bind_eq_ok.mp h
  obtain ⟨-, hs₁⟩ := EStateM.ofExcept_eq_ok.mp hhello
  obtain ⟨_, s₂, hbook, h₂⟩ := EStateM.bind_eq_ok.mp h₁
  obtain ⟨-, hs₂⟩ := EStateM.ofExcept_eq_ok.mp hbook
  obtain ⟨_, s₃, hskia, himage⟩ := EStateM.bind_eq_ok.mp h₂
  subst hs₂ hs₁
  exact imageSharpRound_keeps_ok hr (skiaRound_keeps_ok hr hk hskia) himage

theorem executeRound_keeps_error {e : Exn} (hr : demo.Serves r) (hk : demo.Keeps files false s)
    (h : executeRound r s = .error e t) : demo.Keeps files true t := by
  rcases EStateM.bind_eq_error.mp h with hhello | ⟨_, s₁, hhello, h₁⟩
  · obtain ⟨-, rfl⟩ := EStateM.ofExcept_eq_error.mp hhello
    exact hk.throws
  obtain ⟨-, hs₁⟩ := EStateM.ofExcept_eq_ok.mp hhello
  subst hs₁
  rcases EStateM.bind_eq_error.mp h₁ with hbook | ⟨_, s₂, hbook, h₂⟩
  · obtain ⟨-, rfl⟩ := EStateM.ofExcept_eq_error.mp hbook
    exact hk.throws
  obtain ⟨-, hs₂⟩ := EStateM.ofExcept_eq_ok.mp hbook
  subst hs₂
  rcases EStateM.bind_eq_error.mp h₂ with hskia | ⟨_, s₃, hskia, himage⟩
  · exact skiaRound_keeps_error hr hk hskia
  · exact imageSharpRound_keeps_error hr (skiaRound_keeps_ok hr hk hskia) himage

/-- **What a step of the client does to its files**, when the replies are those of the
server. -/
theorem executeStep_keeps (hr : demo.Serves r) (hk : demo.Keeps files s.threw s)
    (h : executeStep s r = some t) : demo.Keeps files t.threw t := by
  unfold executeStep at h
  by_cases hend : s.ending.isSome = true
  · rw [if_pos hend] at h
    cases h
  rw [if_neg hend] at h
  have hnone : s.ending = none := Option.not_isSome_iff_eq_none.mp hend
  have hrunning : s.threw = false := by rw [ClientState.threw, hnone]
  rw [hrunning] at hk
  by_cases hc : r.cancelled = true
  · rw [if_pos hc] at h
    cases h
    exact ⟨hk.result, hk.isresult⟩
  rw [if_neg hc] at h
  split at h
  · rename_i u t' hround
    cases h
    have hgoes : t.threw = false := by
      rw [ClientState.threw, (executeRound_eq_ok hround).1.ending, hnone]
    rw [hgoes]
    exact executeRound_keeps_ok hr hk hround
  · rename_i e u hround
    cases h
    have hthrown := executeRound_keeps_error hr hk hround
    exact ⟨hthrown.result, hthrown.isresult⟩

end Step

/-! ## Runs -/

/-- Every step of the two programs is a step of the client. -/
theorem CsDemo.step_executeStep {demo : CsDemo} {s t : ClientState} {round : SystemRound}
    (h : demo.step s round = some t) : ∃ r, demo.Serves r ∧ executeStep s r = some t := by
  obtain ⟨r, hr, hstep⟩ := Option.bind_eq_some_iff.mp h
  exact ⟨r, clientRound_serves hr, hstep⟩

/-- **The two programs together**, over every run: whatever gets through, whatever is drawn
at random and wherever it is stopped, the run is one of the client alone, and each file is
as it was, or a drawing of the server has been written over it, or the client ended in the
write of one.  The Skia file is never left out: only ImageSharp, by failing, keeps a
drawing from its file. -/
theorem csDemo_run {demo : CsDemo} {files : OutputFiles} {rounds : List SystemRound}
    {s : ClientState} (h : run demo.step (.initial files) rounds = some s) :
    (∃ rs, run executeStep (.initial files) rs = some s) ∧ Latched s ∧
      FileKept demo.SkiaDrawing False (files .result) (s.files .result) s.skiaOnce s.threw ∧
      FileKept demo.ImageSharpDrawing demo.ImageSharpFails (files .isresult)
        (s.files .isresult) s.imageSharpOnce s.threw := by
  have hclient : ∃ rs t, run executeStep (.initial files) rs = some t ∧ s = t := by
    refine run_simulates (fun s a t s' hs hstep => ?_) rfl h
    obtain ⟨r, -, hr⟩ := CsDemo.step_executeStep hstep
    exact ⟨r, t, hs ▸ hr, rfl⟩
  obtain ⟨rs, t, hrs, rfl⟩ := hclient
  have hkeeps : demo.Keeps files s.threw s := by
    refine run_keeps (I := fun u => demo.Keeps files u.threw u) (fun u a v hu hstep => ?_) ?_ h
    · obtain ⟨r, hserves, hr⟩ := CsDemo.step_executeStep hstep
      exact executeStep_keeps hserves hu hr
    · exact ⟨.untouched false, .untouched false⟩
  exact ⟨⟨rs, hrs⟩, run_keeps executeStep_latched (initial_latched files) hrs, hkeeps.result,
    hkeeps.isresult⟩

/-- A server whose font fits every text into one line. -/
def demoCsDemo : CsDemo where
  skia := { demoSkia with paint := { demoPaint with breakText := fun span _ => span.length } }
  imageSharp := demoImageSharp
  picture1 := [1]
  picture2 := [2, 3]

/-- A round in which everything gets through and the second picture is drawn. -/
def demoSystemRound (cancelled : Bool) : SystemRound where
  cancelled := cancelled
  helloGetsThrough := true
  bookGetsThrough := true
  marks _ := 4
  skiaGetsThrough := true
  skiaPicture := 1
  rounds := 1
  skiaFile := .succeeds
  imageSharpGetsThrough := true
  imageSharpPicture := 1
  imageSharpFile := .openThrows .ioException

/-- Two files from before: one of them gets a drawing, the other cannot be opened. -/
def demoFiles : OutputFiles := fun _ => some [7, 8, 9]

theorem csDemo_run_demo : ∃ s,
    run demoCsDemo.step (.initial demoFiles) [demoSystemRound false] = some s ∧
      s.files .result = some [2, 3, 9] ∧ s.files .isresult = some [7, 8, 9] ∧
      s.skiaOnce = true ∧ s.imageSharpOnce = false ∧ s.threw = true ∧
      ((∃ rs, run executeStep (.initial demoFiles) rs = some s) ∧ Latched s ∧
        FileKept demoCsDemo.SkiaDrawing False (demoFiles .result) (s.files .result) s.skiaOnce
          s.threw ∧
        FileKept demoCsDemo.ImageSharpDrawing demoCsDemo.ImageSharpFails (demoFiles .isresult)
          (s.files .isresult) s.imageSharpOnce s.threw) := by
  have hend : (run demoCsDemo.step (.initial demoFiles) [demoSystemRound false]).map
      (fun s => (s.files .result, s.files .isresult, s.skiaOnce, s.imageSharpOnce, s.threw)) =
        some (some [2, 3, 9], some [7, 8, 9], true, false, true) := by
    decide +kernel
  obtain ⟨s, hs, heq⟩ := Option.map_eq_some_iff.mp hend
  simp only [Prod.mk.injEq] at heq
  obtain ⟨hresult, hisresult, hskia, himage, hthrew⟩ := heq
  exact ⟨s, hs, hresult, hisresult, hskia, himage, hthrew, csDemo_run hs⟩

end ExertGrpc
