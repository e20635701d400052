import ExertGrpc.CertsMakeService
import ExertGrpc.ExclusiveFile
import ExertGrpc.TransitionRun

/-! # `CertsMakeService.EnsureRootCert`

The call looks whether there is a file at the path.  If so, it loads the root
certificate from it; if not, it makes one, writes it there and returns it.

Any number of calls share the path.  A step is one step of one call: the check,
the making of the root, the opening of the file, one write, the closing, a
failure of the write at any point, or the reading of the file.  Nothing holds the
steps of a call together.
-/
namespace ExertGrpc

/-- Where a call of `EnsureRootCert` is. -/
inductive EnsureCall where
  | start
  /-- `File.Exists` has answered `true`. -/
  | found
  /-- `File.Exists` has answered `false`. -/
  | missing
  /-- `MakeRootCert` has returned. -/
  | made (rootca : X509Certificate2)
  /-- In `File.WriteAllBytes`, with bytes still to write. -/
  | writing (rootca : X509Certificate2) (rest : Bytes)
  | returned (rootca : X509Certificate2)
  | threw (e : Exn)
deriving DecidableEq, Repr

/-- One step of call `i`. -/
inductive EnsureStep (ι : Type) where
  | check (i : ι)
  | makeRoot (i : ι)
  | openFile (i : ι)
  | write (i : ι) (n : Nat)
  | close (i : ι)
  | fail (i : ι)
  | read (i : ι)
deriving DecidableEq, Repr

/-- The call that takes a step. -/
def EnsureStep.actor {ι : Type} : EnsureStep ι → ι
  | .check i | .makeRoot i | .openFile i | .write i _ | .close i | .fail i | .read i => i

/-- The file at the path, and the calls. -/
structure RootPath (ι : Type) where
  file : ExclusiveFile ι UInt8
  call : ι → EnsureCall

namespace RootPath
variable {ι : Type} [DecidableEq ι]

/-- Move call `i`. -/
def move (s : RootPath ι) (i : ι) (p : EnsureCall) : RootPath ι :=
  { s with call := Function.update s.call i p }

/-- What reading the file comes to. -/
def readRoot (x509 : X509) : Option Bytes → EnsureCall
  | none => .threw .ioException
  | some rawData =>
    match x509.load rawData (literal "1234") with
    | .ok rootca => .returned rootca
    | .error e => .threw e

/-- What making a root comes to. -/
def makeRoot (x509 : X509) (draws : Draws) : EnsureCall :=
  match makeRootCert x509 draws with
  | .ok rootca => .made rootca
  | .error e => .threw e

/-- One step, where `draws i` is what call `i` draws if it makes a root.  Opening
the file while another call writes it throws an `IOException`. -/
def step (x509 : X509) (draws : ι → Draws) (s : RootPath ι) : EnsureStep ι → Option (RootPath ι)
  | .check i =>
    match s.call i with
    -- the file is there from the moment it is opened, complete or not
    | .start => some (s.move i (if s.file.content.isSome then .found else .missing))
    | _ => none
  | .makeRoot i =>
    match s.call i with
    | .missing => some (s.move i (makeRoot x509 (draws i)))
    | _ => none
  | .openFile i =>
    match s.call i, s.file.openEmpty i with
    | .made rootca, some file =>
      some ({ s with file := file }.move i (.writing rootca (exportCertPfx x509 rootca)))
    | .made _, none => some (s.move i (.threw .ioException))
    | _, _ => none
  | .write i n =>
    match s.call i with
    | .writing rootca rest =>
      if 0 < n ∧ rest ≠ [] then
        some ({ s with file := s.file.append (rest.take n) }.move i (.writing rootca (rest.drop n)))
      else none
    | _ => none
  | .close i =>
    match s.call i with
    | .writing rootca [] => some ({ s with file := s.file.close }.move i (.returned rootca))
    | _ => none
  | .fail i =>
    match s.call i with
    | .made _ => some (s.move i (.threw .ioException))
    -- what was written stays, and the file is closed
    | .writing _ _ => some ({ s with file := s.file.close }.move i (.threw .ioException))
    | _ => none
  | .read i =>
    match s.call i with
    | .found => some (s.move i (readRoot x509 s.file.content))
    | _ => none

/-- There is no file, and no call has begun. -/
def initial : RootPath ι where
  file := { content := none, writer := none }
  call _ := .start

/-! ## What a step does -/

variable {x509 : X509} {draws : ι → Draws} {s t : RootPath ι} {i j : ι} {n : Nat}

@[simp] theorem move_file (p : EnsureCall) : (s.move i p).file = s.file := rfl

@[simp] theorem move_self (p : EnsureCall) : (s.move i p).call i = p := Function.update_self ..

theorem move_of_ne (h : j ≠ i) (p : EnsureCall) : (s.move i p).call j = s.call j :=
  Function.update_of_ne h ..

theorem check_eq_some (h : s.step x509 draws (.check i) = some t) :
    s.call i = .start ∧
      t = s.move i (if s.file.content.isSome then .found else .missing) := by
  simp only [step] at h
  split at h
  · exact ⟨‹_›, (Option.some.inj h).symm⟩
  · cases h

theorem makeRoot_eq_some (h : s.step x509 draws (.makeRoot i) = some t) :
    s.call i = .missing ∧ t = s.move i (makeRoot x509 (draws i)) := by
  simp only [step] at h
  split at h
  · exact ⟨‹_›, (Option.some.inj h).symm⟩
  · cases h

theorem openFile_eq_some (h : s.step x509 draws (.openFile i) = some t) :
    ∃ rootca, s.call i = .made rootca ∧
      ((∃ file, s.file.openEmpty i = some file ∧ t = { s with file := file }.move i
          (.writing rootca (exportCertPfx x509 rootca))) ∨
        (s.file.openEmpty i = none ∧ t = s.move i (.threw .ioException))) := by
  simp only [step] at h
  split at h
  · exact ⟨_, ‹_›, .inl ⟨_, ‹_›, (Option.some.inj h).symm⟩⟩
  · exact ⟨_, ‹_›, .inr ⟨‹_›, (Option.some.inj h).symm⟩⟩
  · cases h

theorem write_eq_some (h : s.step x509 draws (.write i n) = some t) :
    ∃ rootca rest, s.call i = .writing rootca rest ∧ rest ≠ [] ∧
      t = { s with file := s.file.append (rest.take n) }.move i
        (.writing rootca (rest.drop n)) := by
  simp only [step] at h
  split at h
  · split at h
    · next hn => exact ⟨_, _, ‹_›, hn.2, (Option.some.inj h).symm⟩
    · cases h
  · cases h

theorem close_eq_some (h : s.step x509 draws (.close i) = some t) :
    ∃ rootca, s.call i = .writing rootca [] ∧
      t = { s with file := s.file.close }.move i (.returned rootca) := by
  simp only [step] at h
  split at h
  · exact ⟨_, ‹_›, (Option.some.inj h).symm⟩
  · cases h

theorem fail_eq_some (h : s.step x509 draws (.fail i) = some t) :
    ((∃ rootca, s.call i = .made rootca) ∧ t = s.move i (.threw .ioException)) ∨
      ((∃ rootca rest, s.call i = .writing rootca rest) ∧
        t = { s with file := s.file.close }.move i (.threw .ioException)) := by
  simp only [step] at h
  split at h
  · exact .inl ⟨⟨_, ‹_›⟩, (Option.some.inj h).symm⟩
  · exact .inr ⟨⟨_, _, ‹_›⟩, (Option.some.inj h).symm⟩
  · cases h

theorem read_eq_some (h : s.step x509 draws (.read i) = some t) :
    s.call i = .found ∧ t = s.move i (readRoot x509 s.file.content) := by
  simp only [step] at h
  split at h
  · exact ⟨‹_›, (Option.some.inj h).symm⟩
  · cases h

theorem readRoot_eq_returned {content : Option Bytes} {rootca : X509Certificate2} :
    readRoot x509 content = .returned rootca ↔
      ∃ w, content = some w ∧ x509.importPfx w (literal "1234") = some rootca := by
  cases content with
  | none => simp [readRoot]
  | some w =>
    simp only [readRoot, Option.some.injEq, exists_eq_left', ← X509.load_eq_ok]
    cases x509.load w (literal "1234") <;> simp

theorem makeRoot_cases (x509 : X509) (draws : Draws) :
    (∃ rootca, makeRootCert x509 draws = .ok rootca ∧ makeRoot x509 draws = .made rootca) ∨
      ∃ e, makeRoot x509 draws = .threw e := by
  cases h : makeRootCert x509 draws with
  | ok rootca => exact .inl ⟨rootca, rfl, by rw [makeRoot, h]⟩
  | error e => exact .inr ⟨e, by rw [makeRoot, h]⟩

end RootPath
end ExertGrpc
