import Mathlib.Data.List.Chain
import ExertGrpc.ImageSharpDemoImplement

/-! # The files that `ClientService` writes

`DoSkiaAsync` and `DoImageSharpAsync` each ask for a drawing and, if the reply has
code 0, write its result to a file of their own.  They open the file with
`FileMode.OpenOrCreate`, which does not empty it: what is written replaces the
beginning, and the end of a longer file stays.

So over a history of calls a file is always as long as the longest result it has
been given, and it holds the last result just when no result is shorter than what
was there.
-/
namespace ExertGrpc

/-- The output files: `result.jpg` and `isresult.jpg`, in the directory of the
program. -/
inductive Output where
  | result
  | isresult
deriving DecidableEq, Repr

/-- The bytes of each file, `none` while there is no such file. -/
abbrev OutputFiles := Output → Option Bytes

/-- `File.Open(p, FileMode.OpenOrCreate)`: the bytes the stream starts at. -/
def openOrCreate (file : Option Bytes) : Bytes := file.getD []

/-- `f.Write(bytes)` at the start of a stream over `old`. -/
def writeOver (old bytes : Bytes) : Bytes := bytes ++ old.drop bytes.length

/-- What both methods do with a reply. -/
def saveReply (p : Output) (code : Int) (result : Bytes) (files : OutputFiles) : OutputFiles :=
  -- the stream is closed without cutting the file to what was written
  if code = 0 then Function.update files p (some (writeOver (openOrCreate (files p)) result))
  else files

/-- `DoSkiaAsync`, given what the RPC comes to. -/
def doSkiaAsync (rpc : Except Exn DrawBySkiaReply) (files : OutputFiles) :
    Except Exn Unit × OutputFiles :=
  match rpc with
  | .error e => (.error e, files)
  | .ok sreply => (.ok (), saveReply .result sreply.code sreply.result files)

/-- `DoImageSharpAsync`, given what the RPC comes to. -/
def doImageSharpAsync (rpc : Except Exn DrawByImageSharpReply) (files : OutputFiles) :
    Except Exn Unit × OutputFiles :=
  match rpc with
  | .error e => (.error e, files)
  | .ok isreply => (.ok (), saveReply .isresult isreply.code isreply.result files)

/-- A call of one of the two methods. -/
inductive ClientCall where
  | doSkia (rpc : Except Exn DrawBySkiaReply)
  | doImageSharp (rpc : Except Exn DrawByImageSharpReply)

namespace ClientCall

/-- The files after the call. -/
def run : ClientCall → OutputFiles → OutputFiles
  | doSkia rpc, files => (doSkiaAsync rpc files).2
  | doImageSharp rpc, files => (doImageSharpAsync rpc files).2

/-- The file that the call writes and the result it writes there. -/
def written : ClientCall → Option (Output × Bytes)
  | doSkia (.ok sreply) => if sreply.code = 0 then some (.result, sreply.result) else none
  | doImageSharp (.ok isreply) =>
    if isreply.code = 0 then some (.isresult, isreply.result) else none
  | _ => none

/-- The result that the call writes to `p`. -/
def writtenTo (call : ClientCall) (p : Output) : Option Bytes :=
  call.written.bind fun w => if w.1 = p then some w.2 else none

/-- What the call is to achieve: a reply with code 0 is what its file holds, and
with any other code the file is as it was. -/
def Saved (before after : OutputFiles) : ClientCall → Prop
  | doSkia (.ok sreply) =>
    (sreply.code = 0 → after .result = some sreply.result) ∧
      (sreply.code ≠ 0 → after .result = before .result)
  | doImageSharp (.ok isreply) =>
    (isreply.code = 0 → after .isresult = some isreply.result) ∧
      (isreply.code ≠ 0 → after .isresult = before .isresult)
  | _ => True

end ClientCall

/-- The files after a history of calls. -/
def OutputFiles.after (files : OutputFiles) (calls : List ClientCall) : OutputFiles :=
  calls.foldl (fun files call => call.run files) files

/-- The sizes that file `p` is to have in turn: the one it starts with, and that of
every result written to it. -/
def sizes (p : Output) (files : OutputFiles) (calls : List ClientCall) : List Nat :=
  (openOrCreate (files p)).length ::
    (calls.filterMap fun call => call.writtenTo p).map List.length

/-! ## One call -/

/-- What is written is all there is exactly when it is not shorter than what was
there. -/
theorem writeOver_eq_iff {old bytes : Bytes} :
    writeOver old bytes = bytes ↔ old.length ≤ bytes.length := by
  rw [writeOver, List.append_right_eq_self, List.drop_eq_nil_iff]

theorem writeOver_length (old bytes : Bytes) :
    (writeOver old bytes).length = max old.length bytes.length := by
  rw [writeOver, List.length_append, List.length_drop]
  omega

section Call
variable (call : ClientCall) (files : OutputFiles) (p : Output)

/-- What a call makes of a file. -/
theorem run_apply : call.run files p =
    match call.writtenTo p with
    | some bytes => some (writeOver (openOrCreate (files p)) bytes)
    | none => files p := by
  cases call with
  | doSkia rpc =>
    cases rpc with
    | error e => rfl
    | ok sreply =>
      by_cases h : sreply.code = 0 <;> cases p <;>
        simp [ClientCall.run, doSkiaAsync, saveReply, ClientCall.writtenTo, ClientCall.written, h]
  | doImageSharp rpc =>
    cases rpc with
    | error e => rfl
    | ok isreply =>
      by_cases h : isreply.code = 0 <;> cases p <;>
        simp [ClientCall.run, doImageSharpAsync, saveReply, ClientCall.writtenTo,
          ClientCall.written, h]

/-- A call saves its reply exactly when its file is not longer than the result it
writes there. -/
theorem saved_run_iff : call.Saved files (call.run files) ↔
    ∀ p bytes, call.writtenTo p = some bytes →
      (openOrCreate (files p)).length ≤ bytes.length := by
  cases call with
  | doSkia rpc =>
    cases rpc with
    | error e => simp [ClientCall.Saved, ClientCall.writtenTo, ClientCall.written]
    | ok sreply =>
      by_cases h : sreply.code = 0 <;>
        simp [ClientCall.Saved, ClientCall.writtenTo, ClientCall.written, run_apply, h,
          writeOver_eq_iff]
  | doImageSharp rpc =>
    cases rpc with
    | error e => simp [ClientCall.Saved, ClientCall.writtenTo, ClientCall.written]
    | ok isreply =>
      by_cases h : isreply.code = 0 <;>
        simp [ClientCall.Saved, ClientCall.writtenTo, ClientCall.written, run_apply, h,
          writeOver_eq_iff]

/-- The size of a file after a call. -/
theorem run_size : (openOrCreate (call.run files p)).length =
    match call.writtenTo p with
    | some bytes => max (openOrCreate (files p)).length bytes.length
    | none => (openOrCreate (files p)).length := by
  rw [run_apply]
  cases call.writtenTo p with
  | none => rfl
  | some bytes => exact writeOver_length _ bytes

/-- A call keeps the sizes from going down exactly when its file is not longer than
its result, and then the history goes on from the size of that result. -/
theorem sizes_cons_isChain (calls : List ClientCall) :
    (sizes p files (call :: calls)).IsChain (· ≤ ·) ↔
      (∀ bytes, call.writtenTo p = some bytes →
        (openOrCreate (files p)).length ≤ bytes.length) ∧
      (sizes p (call.run files) calls).IsChain (· ≤ ·) := by
  have hsize := run_size call files p
  cases hw : call.writtenTo p with
  | none =>
    rw [hw] at hsize
    simp [sizes, hw, hsize]
  | some bytes =>
    rw [hw] at hsize
    -- if the file is longer than the result, both sides are false
    by_cases hle : (openOrCreate (files p)).length ≤ bytes.length
    · simp [sizes, hw, hsize, hle]
    · simp [sizes, hw, hle]

end Call

/-! ## Every history -/

/-- **Every call of a history saves its reply exactly when the sizes of the results
never go down**, for each of the two files, starting from the size the file has at
first. -/
theorem saved_iff_sizes (files : OutputFiles) (calls : List ClientCall) :
    (∀ before call after, calls = before ++ call :: after →
      call.Saved (files.after before) (files.after (before ++ [call]))) ↔
    ∀ p, (sizes p files calls).IsChain (· ≤ ·) := by
  induction calls generalizing files with
  | nil => simp [sizes]
  | cons call calls ih =>
    simp only [sizes_cons_isChain, forall_and, ← ih, ← saved_run_iff]
    constructor
    · intro h
      refine ⟨h [] call calls rfl, fun before c after heq => ?_⟩
      exact h (call :: before) c after (by rw [heq, List.cons_append])
    · rintro ⟨hfirst, hrest⟩ before c after heq
      cases before with
      | nil =>
        obtain ⟨rfl, rfl⟩ := List.cons.inj heq
        exact hfirst
      | cons b before =>
        obtain ⟨rfl, htail⟩ := List.cons.inj heq
        exact hrest before c after htail

/-- **A short result after a long one**, in a directory that is empty at first. -/
theorem doSkia_not_saved :
    let long : DrawBySkiaReply := ⟨0, "", [1, 2, 3]⟩
    let short : DrawBySkiaReply := ⟨0, "", [9]⟩
    OutputFiles.after (fun _ => none) [.doSkia (.ok long), .doSkia (.ok short)] .result =
        some [9, 2, 3] ∧
      ¬ ClientCall.Saved (OutputFiles.after (fun _ => none) [.doSkia (.ok long)])
        (OutputFiles.after (fun _ => none) [.doSkia (.ok long), .doSkia (.ok short)])
        (.doSkia (.ok short)) := by
  refine ⟨by decide, fun h => ?_⟩
  exact absurd (h.1 rfl) (by decide)

end ExertGrpc
