import ExertGrpc.ClientService
import ExertGrpc.TransitionRun

/-! # `ClientService.ExecuteAsync`

The service calls the server over and over until it is told to stop: two greetings in
every round, and each of the two drawings until it has been made once.  After the loop it
shuts the channel down.

A step is one look at the cancellation token and, unless it is cancelled, the round that
follows; what the calls of the round come to is the action of the step.  The requests
themselves and the delays between them, which do not look at the token, are left out.
The line that shuts the channel down is only reached from the head of the loop, so a call
that throws leaves it out (`executeStep_throw`).
-/
namespace ExertGrpc
open TransitionRun

/-- What opening and writing an output file come to.  A write that fails has written some
of its bytes. -/
inductive FileAccess where
  | succeeds
  | openThrows (e : Exn)
  | writeThrows (e : Exn) (written : Nat)
deriving DecidableEq, Repr

/-- What both methods do with a reply, with a file that may fail. -/
def storeReply (p : Output) (code : Int) (result : Bytes) (access : FileAccess)
    (files : OutputFiles) : Except Exn Unit × OutputFiles :=
  if code = 0 then
    match access with
    | .succeeds => (.ok (), saveReply p code result files)
    | .openThrows e => (.error e, files)
    | .writeThrows e written => (.error e,
        Function.update files p (some (writeOver (openOrCreate (files p)) (result.take written))))
  else (.ok (), files)

/-- What both methods do, given what the RPC and the file come to. -/
def requestDrawing {Reply : Type} (code : Reply → Int) (result : Reply → Bytes) (p : Output)
    (rpc : Except Exn Reply) (access : FileAccess) (files : OutputFiles) :
    Except Exn Unit × OutputFiles :=
  match rpc with
  | .error e => (.error e, files)
  | .ok reply => storeReply p (code reply) (result reply) access files

/-- `DoSkiaAsync`. -/
def requestSkia (rpc : Except Exn DrawBySkiaReply) (access : FileAccess) (files : OutputFiles) :
    Except Exn Unit × OutputFiles :=
  requestDrawing DrawBySkiaReply.code DrawBySkiaReply.result .result rpc access files

/-- `DoImageSharpAsync`. -/
def requestImageSharp (rpc : Except Exn DrawByImageSharpReply) (access : FileAccess)
    (files : OutputFiles) : Except Exn Unit × OutputFiles :=
  requestDrawing DrawByImageSharpReply.code DrawByImageSharpReply.result .isresult rpc access files

/-- What a round meets: whether the token is cancelled at the head of the loop, and what
each of its calls would come to. -/
structure Round where
  cancelled : Bool
  hello : Except Exn Unit
  book : Except Exn Unit
  skia : Except Exn DrawBySkiaReply
  skiaFile : FileAccess
  imageSharp : Except Exn DrawByImageSharpReply
  imageSharpFile : FileAccess

/-- How `ExecuteAsync` ended. -/
inductive Ending where
  | stopped
  | threw (e : Exn)
deriving DecidableEq, Repr

/-- The locals of `ExecuteAsync`, and what it has done: the files, how often each drawing
request has completed and the channel has been shut down, and how it ended. -/
structure ClientState where
  skiaOnce : Bool
  imageSharpOnce : Bool
  files : OutputFiles
  skiaCompleted : Nat
  imageSharpCompleted : Nat
  shutdowns : Nat
  ending : Option Ending

/-- At the start of `ExecuteAsync`. -/
def ClientState.initial (files : OutputFiles) : ClientState where
  skiaOnce := false
  imageSharpOnce := false
  files := files
  skiaCompleted := 0
  imageSharpCompleted := 0
  shutdowns := 0
  ending := none

/-- Code of the service.  An exception leaves the state as it was then. -/
abbrev ClientM := EStateM Exn ClientState

/-- `await` of a drawing request, which is counted when it completes. -/
def awaitDrawing (request : OutputFiles → Except Exn Unit × OutputFiles)
    (count : ClientState → ClientState) : ClientM Unit := fun s =>
  match request s.files with
  | (.ok _, files) => .ok () (count { s with files := files })
  | (.error e, files) => .error e { s with files := files }

/-- `await DoSkiaAsync()`. -/
def doSkia (round : Round) : ClientM Unit :=
  awaitDrawing (requestSkia round.skia round.skiaFile) fun s =>
    { s with skiaCompleted := s.skiaCompleted + 1 }

/-- `await DoImageSharpAsync()`. -/
def doImageSharp (round : Round) : ClientM Unit :=
  awaitDrawing (requestImageSharp round.imageSharp round.imageSharpFile) fun s =>
    { s with imageSharpCompleted := s.imageSharpCompleted + 1 }

/-- `if (!once) { await request(); once = true; }`. -/
def unlessOnce (once : ClientState → Bool) (request : ClientM Unit)
    (latch : ClientState → ClientState) : ClientM Unit := fun s =>
  if !once s then
    match request s with
    | .ok _ t => .ok () (latch t)
    | .error e t => .error e t
  else .ok () s

/-- The block of the Skia request. -/
def skiaRound (round : Round) : ClientM Unit :=
  unlessOnce ClientState.skiaOnce (doSkia round) fun s => { s with skiaOnce := true }

/-- The block of the ImageSharp request. -/
def imageSharpRound (round : Round) : ClientM Unit :=
  unlessOnce ClientState.imageSharpOnce (doImageSharp round) fun s =>
    { s with imageSharpOnce := true }

/-- The body of the loop. -/
def executeRound (round : Round) : ClientM Unit := do
  MonadExcept.ofExcept round.hello
  MonadExcept.ofExcept round.book
  skiaRound round
  imageSharpRound round

/-- One step of `ExecuteAsync`: the head of the loop and what follows.  Once it has ended
there is no step. -/
def executeStep (s : ClientState) (round : Round) : Option ClientState :=
  if s.ending.isSome then none
  else if round.cancelled then
    some { s with shutdowns := s.shutdowns + 1, ending := some .stopped }
  else
    match executeRound round s with
    | .ok _ t => some t
    | .error e t => some { t with ending := some (.threw e) }

/-- A drawing request completes: the RPC has a reply, and if that is to be saved the file
lets it. -/
def Completes {Reply : Type} (code : Reply → Int) (rpc : Except Exn Reply) (access : FileAccess) :
    Prop :=
  ∃ reply, rpc = .ok reply ∧ (code reply = 0 → access = .succeeds)

/-- No call of the round throws: the token is cancelled before there is one, or both
greetings are answered and each drawing that is still to be made completes. -/
def NoThrow (s : ClientState) (round : Round) : Prop :=
  round.cancelled = true ∨
    round.hello = .ok () ∧ round.book = .ok () ∧
    (s.skiaOnce = false → Completes DrawBySkiaReply.code round.skia round.skiaFile) ∧
    (s.imageSharpOnce = false →
      Completes DrawByImageSharpReply.code round.imageSharp round.imageSharpFile)

/-- What is promised of a state of the service. -/
structure KeepsOrder (s : ClientState) : Prop where
  skia : s.skiaCompleted ≤ 1
  imageSharp : s.imageSharpCompleted ≤ 1
  shutdown : s.ending ≠ none → s.shutdowns = 1

/-! ## The drawing requests -/

/-- With a file that does not fail, these are the methods of `ClientService`. -/
theorem requestSkia_succeeds (rpc : Except Exn DrawBySkiaReply) (files : OutputFiles) :
    requestSkia rpc .succeeds files = doSkiaAsync rpc files := by
  cases rpc with
  | error e => rfl
  | ok sreply => by_cases h : sreply.code = 0 <;> simp [requestSkia, requestDrawing, storeReply,
      doSkiaAsync, saveReply, h]

theorem requestImageSharp_succeeds (rpc : Except Exn DrawByImageSharpReply) (files : OutputFiles) :
    requestImageSharp rpc .succeeds files = doImageSharpAsync rpc files := by
  cases rpc with
  | error e => rfl
  | ok isreply => by_cases h : isreply.code = 0 <;> simp [requestImageSharp, requestDrawing,
      storeReply, doImageSharpAsync, saveReply, h]

theorem storeReply_eq_ok {p : Output} {code : Int} {result : Bytes} {access : FileAccess}
    {files : OutputFiles} :
    (storeReply p code result access files).1 = .ok () ↔ (code = 0 → access = .succeeds) := by
  unfold storeReply
  by_cases h : code = 0
  · cases access <;> simp [h]
  · simp [h]

theorem requestDrawing_eq_ok {Reply : Type} {code : Reply → Int} {result : Reply → Bytes}
    {p : Output} {rpc : Except Exn Reply} {access : FileAccess} {files : OutputFiles} :
    (requestDrawing code result p rpc access files).1 = .ok () ↔ Completes code rpc access := by
  unfold requestDrawing Completes
  cases rpc with
  | error e => simp
  | ok reply => simp [storeReply_eq_ok]

/-! ## One round -/

/-- The counts follow the latches, and only the end of the loop shuts the channel down. -/
structure Latched (s : ClientState) : Prop where
  skia : s.skiaCompleted = s.skiaOnce.toNat
  imageSharp : s.imageSharpCompleted = s.imageSharpOnce.toNat
  shutdown : s.shutdowns = if s.ending = some .stopped then 1 else 0

/-- What the code of a round leaves alone, and what it keeps. -/
structure Moves (s t : ClientState) : Prop where
  ending : t.ending = s.ending
  shutdowns : t.shutdowns = s.shutdowns
  latched : Latched s → Latched t

theorem Moves.refl (s : ClientState) : Moves s s := ⟨rfl, rfl, id⟩

theorem Moves.trans {s t u : ClientState} (h : Moves s t) (h' : Moves t u) : Moves s u :=
  ⟨h'.ending.trans h.ending, h'.shutdowns.trans h.shutdowns, h'.latched ∘ h.latched⟩

/-- While the loop runs the channel is open. -/
theorem Moves.stillOpen {s t : ClientState} (h : Moves s t) (hl : Latched s) (hend : s.ending = none) :
    t.shutdowns = 0 := by
  rw [h.shutdowns, hl.shutdown, hend]
  rfl

section Round
variable {round : Round} {s t : ClientState} {e : Exn}

theorem unlessOnce_eq_ok {once : ClientState → Bool} {request : ClientM Unit}
    {latch : ClientState → ClientState} : unlessOnce once request latch s = .ok () t ↔
      (once s = true ∧ t = s) ∨ (once s = false ∧ ∃ u, request s = .ok () u ∧ t = latch u) := by
  unfold unlessOnce
  cases honce : once s with
  | true => simp [eq_comm]
  | false => cases hrequest : request s <;> simp [eq_comm]

theorem unlessOnce_eq_error {once : ClientState → Bool} {request : ClientM Unit}
    {latch : ClientState → ClientState} : unlessOnce once request latch s = .error e t ↔
      once s = false ∧ request s = .error e t := by
  unfold unlessOnce
  cases honce : once s with
  | true => simp
  | false => cases hrequest : request s <;> simp

theorem awaitDrawing_eq_ok {request : OutputFiles → Except Exn Unit × OutputFiles}
    {count : ClientState → ClientState} (h : awaitDrawing request count s = .ok () t) :
    (request s.files).1 = .ok () ∧ ∃ files, t = count { s with files := files } := by
  unfold awaitDrawing at h
  split at h
  · rename_i u files hrequest
    cases h
    exact ⟨congrArg Prod.fst hrequest, files, rfl⟩
  · cases h

theorem awaitDrawing_eq_error {request : OutputFiles → Except Exn Unit × OutputFiles}
    {count : ClientState → ClientState} (h : awaitDrawing request count s = .error e t) :
    (request s.files).1 ≠ .ok () ∧ ∃ files, t = { s with files := files } := by
  unfold awaitDrawing at h
  split at h
  · cases h
  · rename_i e' files hrequest
    cases h
    refine ⟨fun hok => ?_, files, rfl⟩
    rw [hrequest] at hok
    cases hok

/-- The Skia block went through: it was skipped, or its request has completed. -/
theorem skiaRound_eq_ok (h : skiaRound round s = .ok () t) : Moves s t ∧
    t.imageSharpOnce = s.imageSharpOnce ∧
    (s.skiaOnce = false → Completes DrawBySkiaReply.code round.skia round.skiaFile) := by
  rcases unlessOnce_eq_ok.mp h with ⟨honce, rfl⟩ | ⟨honce, u, hrequest, rfl⟩
  · exact ⟨.refl t, rfl, fun hfalse => by rw [honce] at hfalse; cases hfalse⟩
  · obtain ⟨hok, files, rfl⟩ := awaitDrawing_eq_ok hrequest
    refine ⟨⟨rfl, rfl, fun hl => ⟨?_, hl.imageSharp, hl.shutdown⟩⟩, rfl,
      fun _ => requestDrawing_eq_ok.mp hok⟩
    show s.skiaCompleted + 1 = 1
    rw [hl.skia, honce]
    rfl

theorem skiaRound_eq_error (h : skiaRound round s = .error e t) : Moves s t ∧
    s.skiaOnce = false ∧ ¬ Completes DrawBySkiaReply.code round.skia round.skiaFile := by
  obtain ⟨honce, hrequest⟩ := unlessOnce_eq_error.mp h
  obtain ⟨hfails, files, rfl⟩ := awaitDrawing_eq_error hrequest
  exact ⟨⟨rfl, rfl, fun hl => ⟨hl.skia, hl.imageSharp, hl.shutdown⟩⟩, honce,
    fun hc => hfails (requestDrawing_eq_ok.mpr hc)⟩

/-- The ImageSharp block, likewise. -/
theorem imageSharpRound_eq_ok (h : imageSharpRound round s = .ok () t) : Moves s t ∧
    (s.imageSharpOnce = false →
      Completes DrawByImageSharpReply.code round.imageSharp round.imageSharpFile) := by
  rcases unlessOnce_eq_ok.mp h with ⟨honce, rfl⟩ | ⟨honce, u, hrequest, rfl⟩
  · exact ⟨.refl t, fun hfalse => by rw [honce] at hfalse; cases hfalse⟩
  · obtain ⟨hok, files, rfl⟩ := awaitDrawing_eq_ok hrequest
    refine ⟨⟨rfl, rfl, fun hl => ⟨hl.skia, ?_, hl.shutdown⟩⟩,
      fun _ => requestDrawing_eq_ok.mp hok⟩
    show s.imageSharpCompleted + 1 = 1
    rw [hl.imageSharp, honce]
    rfl

theorem imageSharpRound_eq_error (h : imageSharpRound round s = .error e t) : Moves s t ∧
    s.imageSharpOnce = false ∧
    ¬ Completes DrawByImageSharpReply.code round.imageSharp round.imageSharpFile := by
  obtain ⟨honce, hrequest⟩ := unlessOnce_eq_error.mp h
  obtain ⟨hfails, files, rfl⟩ := awaitDrawing_eq_error hrequest
  exact ⟨⟨rfl, rfl, fun hl => ⟨hl.skia, hl.imageSharp, hl.shutdown⟩⟩, honce,
    fun hc => hfails (requestDrawing_eq_ok.mpr hc)⟩

/-- **A round goes through only when none of its calls throws.** -/
theorem executeRound_eq_ok (h : executeRound round s = .ok () t) :
    Moves s t ∧ NoThrow s round := by
  obtain ⟨_, s₁, hhello, h₁⟩ := EStateM.bind_eq_ok.mp h
  obtain ⟨hanswer, hs₁⟩ := EStateM.ofExcept_eq_ok.mp hhello
  obtain ⟨_, s₂, hbook, h₂⟩ := EStateM.bind_eq_ok.mp h₁
  obtain ⟨hanswer', hs₂⟩ := EStateM.ofExcept_eq_ok.mp hbook
  obtain ⟨_, s₃, hskia, himage⟩ := EStateM.bind_eq_ok.mp h₂
  subst hs₂ hs₁
  obtain ⟨hmoves, hsame, hcompletes⟩ := skiaRound_eq_ok hskia
  obtain ⟨hmoves', hcompletes'⟩ := imageSharpRound_eq_ok himage
  rw [hsame] at hcompletes'
  exact ⟨hmoves.trans hmoves', Or.inr ⟨hanswer, hanswer', hcompletes, hcompletes'⟩⟩

/-- **A round that ends in an exception has a call that throws.** -/
theorem executeRound_eq_error (hnot : ¬ round.cancelled = true)
    (h : executeRound round s = .error e t) : Moves s t ∧ ¬ NoThrow s round := by
  rcases EStateM.bind_eq_error.mp h with h₀ | ⟨_, s₁, hhello, h₁⟩
  · obtain ⟨hthrows, rfl⟩ := EStateM.ofExcept_eq_error.mp h₀
    refine ⟨.refl t, ?_⟩
    rintro (hcancel | ⟨hanswer, -⟩)
    · exact hnot hcancel
    · rw [hthrows] at hanswer
      cases hanswer
  obtain ⟨-, hs₁⟩ := EStateM.ofExcept_eq_ok.mp hhello
  subst hs₁
  rcases EStateM.bind_eq_error.mp h₁ with h₁ | ⟨_, s₂, hbook, h₂⟩
  · obtain ⟨hthrows, rfl⟩ := EStateM.ofExcept_eq_error.mp h₁
    refine ⟨.refl t, ?_⟩
    rintro (hcancel | ⟨-, hanswer, -⟩)
    · exact hnot hcancel
    · rw [hthrows] at hanswer
      cases hanswer
  obtain ⟨-, hs₂⟩ := EStateM.ofExcept_eq_ok.mp hbook
  subst hs₂
  rcases EStateM.bind_eq_error.mp h₂ with h₂ | ⟨_, s₃, hskia, h₃⟩
  · obtain ⟨hmoves, honce, hfails⟩ := skiaRound_eq_error h₂
    refine ⟨hmoves, ?_⟩
    rintro (hcancel | ⟨-, -, hcompletes, -⟩)
    · exact hnot hcancel
    · exact hfails (hcompletes honce)
  · obtain ⟨hmoves, hsame, -⟩ := skiaRound_eq_ok hskia
    obtain ⟨hmoves', honce, hfails⟩ := imageSharpRound_eq_error h₃
    refine ⟨hmoves.trans hmoves', ?_⟩
    rintro (hcancel | ⟨-, -, -, hcompletes⟩)
    · exact hnot hcancel
    · exact hfails (hcompletes (hsame ▸ honce))

/-! ## Steps and runs -/

/-- **What a step can do**: stop at the head of the loop, go through a round, or end in an
exception of one. -/
theorem executeStep_cases (h : executeStep s round = some t) : s.ending = none ∧
    ((round.cancelled = true ∧
        t = { s with shutdowns := s.shutdowns + 1, ending := some .stopped }) ∨
      (Moves s t ∧ NoThrow s round) ∨
      (∃ e u, Moves s u ∧ ¬ NoThrow s round ∧ t = { u with ending := some (.threw e) })) := by
  unfold executeStep at h
  by_cases hend : s.ending.isSome = true
  · rw [if_pos hend] at h
    cases h
  rw [if_neg hend] at h
  refine ⟨Option.not_isSome_iff_eq_none.mp hend, ?_⟩
  by_cases hc : round.cancelled = true
  · rw [if_pos hc] at h
    exact Or.inl ⟨hc, (Option.some.inj h).symm⟩
  rw [if_neg hc] at h
  split at h
  · rename_i hround
    cases h
    exact Or.inr (Or.inl (executeRound_eq_ok hround))
  · rename_i e u hround
    cases h
    obtain ⟨hmoves, hthrow⟩ := executeRound_eq_error hc hround
    exact Or.inr (Or.inr ⟨e, u, hmoves, hthrow, rfl⟩)

/-- The latches count right in every state that is reached. -/
theorem executeStep_latched (s : ClientState) (round : Round) (t : ClientState)
    (hl : Latched s) (h : executeStep s round = some t) : Latched t := by
  obtain ⟨hend, ⟨-, rfl⟩ | ⟨hmoves, -⟩ | ⟨e, u, hmoves, -, rfl⟩⟩ := executeStep_cases h
  · refine ⟨hl.skia, hl.imageSharp, ?_⟩
    show s.shutdowns + 1 = 1
    rw [(Moves.refl s).stillOpen hl hend]
  · exact hmoves.latched hl
  · have hu := hmoves.latched hl
    exact ⟨hu.skia, hu.imageSharp, hmoves.stillOpen hl hend⟩

theorem initial_latched (files : OutputFiles) : Latched (.initial files) := ⟨rfl, rfl, rfl⟩

/-- The method is running, or it was stopped. -/
def NotThrown (s : ClientState) : Prop := s.ending = none ∨ s.ending = some .stopped

/-- Without a throwing call the loop only ends by being stopped. -/
theorem executeStep_noThrow (s : ClientState) (round : Round) (t : ClientState)
    (_ : NotThrown s) (hn : NoThrow s round) (h : executeStep s round = some t) :
    NotThrown t := by
  obtain ⟨hend, ⟨-, rfl⟩ | ⟨hmoves, -⟩ | ⟨e, u, -, hthrow, -⟩⟩ := executeStep_cases h
  · exact Or.inr rfl
  · exact Or.inl (hmoves.ending.trans hend)
  · exact absurd hn hthrow

/-- A throwing call ends it with the channel open. -/
def LeftOpen (s : ClientState) : Prop := s.ending ≠ none ∧ s.shutdowns = 0

theorem executeStep_throw (s : ClientState) (round : Round) (t : ClientState)
    (hl : Latched s) (hn : ¬ NoThrow s round) (h : executeStep s round = some t) :
    LeftOpen t := by
  obtain ⟨hend, ⟨hc, rfl⟩ | ⟨-, hno⟩ | ⟨e, u, hmoves, -, rfl⟩⟩ := executeStep_cases h
  · exact absurd (Or.inl hc) hn
  · exact absurd hno hn
  · exact ⟨nofun, hmoves.stillOpen hl hend⟩

theorem executeStep_leftOpen (s : ClientState) (round : Round) (t : ClientState)
    (_ : Latched s) (hs : LeftOpen s) (h : executeStep s round = some t) : LeftOpen t :=
  absurd (executeStep_cases h).1 hs.1

end Round

/-- **Each drawing request completes at most once in every run, and the run keeps its
promise exactly when no call of it throws**: of any number of rounds, whatever its calls
come to, and wherever it is cancelled.  Until then, and in particular when it has been
stopped, all is well; a throwing call leaves the channel open for good. -/
theorem executeAsync_keepsOrder_iff {files : OutputFiles} {rounds : List Round} {s : ClientState}
    (h : run executeStep (.initial files) rounds = some s) :
    s.skiaCompleted ≤ 1 ∧ s.imageSharpCompleted ≤ 1 ∧
      (KeepsOrder s ↔ Along executeStep NoThrow (.initial files) rounds) := by
  have hl : Latched s := run_keeps executeStep_latched (initial_latched files) h
  have hskia : s.skiaCompleted ≤ 1 := hl.skia ▸ Bool.toNat_le _
  have himage : s.imageSharpCompleted ≤ 1 := hl.imageSharp ▸ Bool.toNat_le _
  refine ⟨hskia, himage, fun hk => ?_, fun hal => ⟨hskia, himage, fun hend => ?_⟩⟩
  · by_contra hn
    have hopen : LeftOpen s := run_of_not_along executeStep_latched executeStep_throw
      executeStep_leftOpen (initial_latched files) hn h
    have hone := hk.shutdown hopen.1
    rw [hopen.2] at hone
    omega
  · have hnot : NotThrown s := run_invariant executeStep_noThrow (Or.inl rfl) hal h
    rcases hnot with hnone | hstopped
    · exact absurd hnone hend
    · rw [hl.shutdown, if_pos hstopped]

/-- A round in which everything is answered. -/
def demoRound (cancelled : Bool) : Round where
  cancelled := cancelled
  hello := .ok ()
  book := .ok ()
  skia := .ok ⟨0, "", [1]⟩
  skiaFile := .succeeds
  imageSharp := .ok ⟨-1, "", []⟩
  imageSharpFile := .succeeds

/-- A round in which the server is not there. -/
def demoDownRound : Round := { demoRound false with hello := .error .rpc }

theorem executeAsync_keepsOrder_demo :
    ∃ s, run executeStep (.initial fun _ => none) [demoRound false, demoRound true] = some s ∧
      s.ending = some .stopped ∧ s.shutdowns = 1 ∧
      s.skiaCompleted ≤ 1 ∧ s.imageSharpCompleted ≤ 1 ∧
      (KeepsOrder s ↔
        Along executeStep NoThrow (.initial fun _ => none) [demoRound false, demoRound true]) :=
  ⟨_, rfl, rfl, rfl, executeAsync_keepsOrder_iff rfl⟩

/-- **The first greeting throws**: the method ends and the channel is never shut
down. -/
theorem executeAsync_not_keepsOrder :
    ∃ s, run executeStep (.initial fun _ => none) [demoDownRound] = some s ∧
      s.ending = some (.threw .rpc) ∧ s.shutdowns = 0 ∧ ¬ KeepsOrder s := by
  refine ⟨_, rfl, rfl, rfl, fun hk => ?_⟩
  have hone : 0 = 1 := hk.shutdown nofun
  omega

end ExertGrpc
