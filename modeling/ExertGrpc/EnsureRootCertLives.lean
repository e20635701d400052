import ExertGrpc.EnsureRootCertRuns
import ExertGrpc.TransitionVariant

/-! # The path of the root, from one start of the service to the next

The calls of `EnsureRootCert` come to an end, whoever moves when, and if no write
fails, one of them returns the root that is in the file.

A service that is started again begins all its calls anew, with the file as it was
left: nothing is kept but its bytes.  `Settled` says what that comes to.  A file that
is there is never written again, so the first life that leaves one decides for all
later lives: if it is complete, every call returns its root, and if its write was cut
short, every call throws.
-/
namespace ExertGrpc
open TransitionRun

/-! ## The calls of one life come to an end -/

/-- The steps that a call has left at most once it has made its root. -/
def stepsAfterMaking (x509 : X509) (draws : Draws) : Nat :=
  match makeRootCert x509 draws with
  | .ok rootca => (exportCertPfx x509 rootca).length + 2
  | .error _ => 0

/-- The steps that a call has left at most. -/
def EnsureCall.rank (x509 : X509) (draws : Draws) : EnsureCall → Nat
  | .start => stepsAfterMaking x509 draws + 2
  | .missing => stepsAfterMaking x509 draws + 1
  | .found => 1
  | .made rootca => (exportCertPfx x509 rootca).length + 2
  | .writing _ rest => rest.length + 1
  | .returned _ | .threw _ => 0

/-- The call has neither found the file nor opened it. -/
def EnsureCall.Early : EnsureCall → Prop
  | .start | .missing | .made _ => True
  | _ => False

theorem EnsureCall.Early.not_ended {p : EnsureCall} (h : p.Early) : ¬ p.Ended := by
  cases p <;> first | exact id | cases h

theorem EnsureCall.Ended.rank_eq_zero {x509 : X509} {draws : Draws} {p : EnsureCall}
    (h : p.Ended) : p.rank x509 draws = 0 := by
  cases p <;> first | rfl | cases h

theorem rank_makeRoot (x509 : X509) (draws : Draws) :
    (RootPath.makeRoot x509 draws).rank x509 draws = stepsAfterMaking x509 draws := by
  unfold RootPath.makeRoot stepsAfterMaking
  cases makeRootCert x509 draws <;> rfl

namespace RootPath
variable {ι : Type} [DecidableEq ι] {x509 : X509} {draws : ι → Draws}
variable {s t : RootPath ι} {i j : ι} {n : Nat}

section Ends
variable [Fintype ι]

variable (x509 draws) in
/-- The steps that all calls have left at most. -/
def stepsLeft (s : RootPath ι) : Nat := ∑ i, (s.call i).rank x509 (draws i)

theorem stepsLeft_move_lt {p : EnsureCall} {file : ExclusiveFile ι UInt8}
    (h : p.rank x509 (draws i) < (s.call i).rank x509 (draws i)) :
    ({ s with file := file }.move i p).stepsLeft x509 draws < s.stepsLeft x509 draws :=
  sum_rank_update_lt (fun j => EnsureCall.rank x509 (draws j)) h

omit [Fintype ι] in
/-- A write writes something. -/
theorem write_pos {a : EnsureStep ι} (ha : a = .write i n)
    (h : s.step x509 draws a = some t) : 0 < n := by
  subst ha
  simp only [step] at h
  split at h
  · split at h
    · next hn => exact hn.1
    · cases h
  · cases h

theorem step_stepsLeft_lt (s : RootPath ι) (a : EnsureStep ι) (t : RootPath ι)
    (h : s.step x509 draws a = some t) : t.stepsLeft x509 draws < s.stepsLeft x509 draws := by
  cases a with
  | check i =>
    obtain ⟨hi, rfl⟩ := check_eq_some h
    apply stepsLeft_move_lt
    rw [hi]
    split <;> simp only [EnsureCall.rank] <;> omega
  | makeRoot i =>
    obtain ⟨hi, rfl⟩ := makeRoot_eq_some h
    apply stepsLeft_move_lt
    rw [hi, rank_makeRoot, EnsureCall.rank]
    omega
  | openFile i =>
    obtain ⟨rootca, hi, ⟨file, -, rfl⟩ | ⟨-, rfl⟩⟩ := openFile_eq_some h
    · apply stepsLeft_move_lt
      simp only [hi, EnsureCall.rank]
      omega
    · apply stepsLeft_move_lt
      simp only [hi, EnsureCall.rank]
      omega
  | write i n =>
    have hn := write_pos rfl h
    obtain ⟨rootca, rest, hi, hrest, rfl⟩ := write_eq_some h
    apply stepsLeft_move_lt
    have hpos := List.length_pos_iff.mpr hrest
    simp only [hi, EnsureCall.rank, List.length_drop]
    omega
  | close i =>
    obtain ⟨rootca, hi, rfl⟩ := close_eq_some h
    apply stepsLeft_move_lt
    simp only [hi, EnsureCall.rank]
    omega
  | fail i =>
    rcases fail_eq_some h with ⟨⟨rootca, hi⟩, rfl⟩ | ⟨⟨rootca, rest, hi⟩, rfl⟩
    · apply stepsLeft_move_lt
      simp only [hi, EnsureCall.rank]
      omega
    · apply stepsLeft_move_lt
      simp only [hi, EnsureCall.rank]
      omega
  | read i =>
    obtain ⟨hi, rfl⟩ := read_eq_some h
    apply stepsLeft_move_lt
    rw [hi, (EnsureCall.readRoot_ended x509 _).rank_eq_zero, EnsureCall.rank]
    omega

end Ends

/-- The step is no failure of a write. -/
def NoFailure (_ : RootPath ι) : EnsureStep ι → Prop
  | .fail _ => False
  | _ => True

instance (s : RootPath ι) (a : EnsureStep ι) : Decidable (NoFailure s a) :=
  match a with
  | .fail _ => isFalse id
  | .check _ | .makeRoot _ | .openFile _ | .write _ _ | .close _ | .read _ => isTrue trivial

variable (x509 draws) in
/-- A call that has not ended has a step to take that is no failure, whatever the others
do. -/
theorem exists_step (i : ι) (h : ¬ (s.call i).Ended) :
    ∃ a t, NoFailure s a ∧ s.step x509 draws a = some t := by
  cases hi : s.call i with
  | start =>
    refine ⟨.check i, ?_⟩
    simp only [step, hi]
    exact ⟨_, trivial, rfl⟩
  | found =>
    refine ⟨.read i, ?_⟩
    simp only [step, hi]
    exact ⟨_, trivial, rfl⟩
  | missing =>
    refine ⟨.makeRoot i, ?_⟩
    simp only [step, hi]
    exact ⟨_, trivial, rfl⟩
  | made rootca =>
    refine ⟨.openFile i, ?_⟩
    simp only [step, hi]
    cases s.file.openEmpty i <;> exact ⟨_, trivial, rfl⟩
  | writing rootca rest =>
    by_cases hrest : rest = []
    · refine ⟨.close i, ?_⟩
      simp only [step, hi, hrest]
      exact ⟨_, trivial, rfl⟩
    · refine ⟨.write i 1, ?_⟩
      simp only [step, hi, Nat.one_pos, ne_eq, hrest, not_false_eq_true, and_self, if_true]
      exact ⟨_, trivial, rfl⟩
  | returned rootca | threw e =>
    rw [hi] at h
    exact absurd trivial h

/-- Every call has returned or thrown. -/
def Ended (s : RootPath ι) : Prop := ∀ i, (s.call i).Ended

variable (x509) in
/-- How far the calls of a life are in which no write fails and every call can make a
root. -/
inductive Progress (s : RootPath ι) : Prop
  /-- No call has opened the file. -/
  | before (file : s.file.content = none) (writer : s.file.writer = none)
      (calls : ∀ i, (s.call i).Early)
  | writing (i : ι) (c : X509Certificate2) (rest : Bytes) (call : s.call i = .writing c rest)
  /-- A call has returned the root that is in the file. -/
  | stored (i : ι) (c : X509Certificate2) (call : s.call i = .returned c)
      (file : s.file.content = some (exportCertPfx x509 c))

/-- A call that does not open the file leaves the others where they are. -/
theorem Progress.move (hs : s.Progress x509) {p : EnsureCall}
    (hidle : ∀ c rest, s.call i ≠ .writing c rest) (hgoing : ¬ (s.call i).Ended)
    (hp : s.file.content = none → s.file.writer = none → (s.call i).Early → p.Early) :
    (s.move i p).Progress x509 := by
  cases hs with
  | before file writer calls =>
    refine .before file writer fun j => ?_
    by_cases hji : j = i
    · subst hji
      rw [move_self]
      exact hp file writer (calls j)
    · rw [move_of_ne hji]
      exact calls j
  | writing j c rest call =>
    have hji : j ≠ i := by
      rintro rfl
      exact hidle c rest call
    exact .writing j c rest (by rw [move_of_ne hji, call])
  | stored j c call file =>
    have hji : j ≠ i := by
      rintro rfl
      rw [call] at hgoing
      exact hgoing trivial
    exact .stored j c (by rw [move_of_ne hji, call]) file

theorem step_progress (hx : ReadsAsWritten x509 draws)
    (hmake : ∀ i, ∃ c, makeRootCert x509 (draws i) = .ok c) (s : RootPath ι) (a : EnsureStep ι)
    (t : RootPath ι) (hs : Consistent x509 draws s ∧ s.Progress x509) (ha : NoFailure s a)
    (h : s.step x509 draws a = some t) : Consistent x509 draws t ∧ t.Progress x509 := by
  refine ⟨step_consistent hx s a t hs.1 h, ?_⟩
  cases a with
  | check i =>
    obtain ⟨hi, rfl⟩ := check_eq_some h
    apply hs.2.move
    · simp [hi]
    · rw [hi]
      exact id
    · intro hfile _ _
      rw [hfile]
      trivial
  | makeRoot i =>
    obtain ⟨hi, rfl⟩ := makeRoot_eq_some h
    obtain ⟨c, hc⟩ := hmake i
    apply hs.2.move
    · simp [hi]
    · rw [hi]
      exact id
    · intro _ _ _
      rw [makeRoot, hc]
      trivial
  | openFile i =>
    obtain ⟨rootca, hi, ⟨file, -, rfl⟩ | ⟨hopen, rfl⟩⟩ := openFile_eq_some h
    · exact .writing i rootca _ (move_self _)
    · apply hs.2.move
      · simp [hi]
      · rw [hi]
        exact id
      · intro _ hwriter _
        exact absurd hwriter (ExclusiveFile.openEmpty_eq_none.mp hopen)
  | write i n =>
    obtain ⟨rootca, rest, -, -, rfl⟩ := write_eq_some h
    exact .writing i rootca _ (move_self _)
  | close i =>
    obtain ⟨rootca, hi, rfl⟩ := close_eq_some h
    have hw := hs.1.tracks.writing i (exportCertPfx x509 rootca) [] (by rw [session, hi]; rfl)
    exact .stored i rootca (move_self _) hw.content_of_nil
  | fail i => exact ha.elim
  | read i =>
    obtain ⟨hi, rfl⟩ := read_eq_some h
    apply hs.2.move
    · simp [hi]
    · rw [hi]
      exact id
    · intro _ _ hearly
      rw [hi] at hearly
      exact hearly.elim

omit [DecidableEq ι] in
theorem Progress.returned [Nonempty ι] (hs : s.Progress x509) (hended : s.Ended) :
    ∃ i c, s.call i = .returned c ∧ s.file.content = some (exportCertPfx x509 c) := by
  cases hs with
  | before file writer calls =>
    exact absurd (hended (Classical.arbitrary ι)) (calls (Classical.arbitrary ι)).not_ended
  | writing i c rest call =>
    have hend := hended i
    rw [call] at hend
    exact hend.elim
  | stored i c call file => exact ⟨i, c, call, file⟩

/-- **The calls of finitely many callers come to an end, whoever moves when**: a run has a
bounded number of steps and can be continued, without a failure, until all have ended;
and if no write fails and every caller can make a root, then one of them has returned the
root that is in the file. -/
theorem run_calls_end [Fintype ι] [Nonempty ι] (hx : ReadsAsWritten x509 draws)
    {as : List (EnsureStep ι)} (hrun : run (step x509 draws) initial as = some t) :
    as.length ≤ ∑ i, (stepsAfterMaking x509 (draws i) + 2) ∧
    (∃ bs u, run (step x509 draws) t bs = some u ∧ Along (step x509 draws) NoFailure t bs ∧
      u.Ended) ∧
    ((∀ i, ∃ c, makeRootCert x509 (draws i) = .ok c) →
      Along (step x509 draws) NoFailure initial as → t.Ended →
      ∃ i c, t.call i = .returned c ∧ t.file.content = some (exportCertPfx x509 c)) := by
  have hkeep : ∀ (s : RootPath ι) a t, True → s.step x509 draws a = some t → True :=
    fun _ _ _ _ _ => trivial
  have hlt : ∀ (s : RootPath ι) a t, True → s.step x509 draws a = some t →
      t.stepsLeft x509 draws < s.stepsLeft x509 draws :=
    fun s a t _ h => step_stepsLeft_lt s a t h
  have hlength : as.length ≤ (initial : RootPath ι).stepsLeft x509 draws :=
    run_length_le (P := fun _ _ => True) hkeep (fun s a t hs _ => hlt s a t hs) trivial
      (along_of_forall fun _ _ => trivial) hrun
  refine ⟨hlength, ?_, fun hmake halong hended => ?_⟩
  · refine exists_run_of_progress hkeep (fun s a t hs _ => hlt s a t hs) (fun s _ hnot => ?_)
      (trivial : (fun _ => True) t)
    unfold Ended at hnot
    push Not at hnot
    obtain ⟨i, hi⟩ := hnot
    exact exists_step x509 draws i hi
  · have hbefore : (initial : RootPath ι).Progress x509 := .before rfl rfl fun _ => trivial
    exact (run_invariant (step_progress hx hmake) ⟨initial_consistent, hbefore⟩ halong
      hrun).2.returned hended

theorem run_calls_end_demo :
    ∃ t, run (step demoRootX509 demoCallDraws) initial demoTurns = some t ∧
      ∃ i c, t.call i = .returned c ∧
        t.file.content = some (exportCertPfx demoRootX509 c) := by
  have halong : Along (step demoRootX509 demoCallDraws) NoFailure initial demoTurns := by
    decide +kernel
  obtain ⟨-, -, hreturned⟩ := run_calls_end demoRootX509_faithful.toReadsAsWritten
    (show run (step demoRootX509 demoCallDraws) initial demoTurns = some _ from rfl)
  refine ⟨_, rfl, hreturned (fun i => exists_makeRootCert ?_) halong fun i => ?_⟩
  · exact Nat.le_refl _
  · cases i <;> trivial

/-! ## A file that was there before -/

variable (x509) in
/-- The file holds `w`, nobody writes it, and the calls do what a call does that finds
it. -/
structure Settled (w : Bytes) (s : RootPath ι) : Prop where
  content : s.file.content = some w
  writer : s.file.writer = none
  calls : ∀ i, s.call i = .start ∨ s.call i = .found ∨ s.call i = readRoot x509 (some w)

theorem Settled.move {w : Bytes} (hs : s.Settled x509 w) {p : EnsureCall}
    (hp : p = .start ∨ p = .found ∨ p = readRoot x509 (some w)) :
    (s.move i p).Settled x509 w where
  content := hs.content
  writer := hs.writer
  calls j := by
    by_cases hji : j = i
    · subst hji
      rw [move_self]
      exact hp
    · rw [move_of_ne hji]
      exact hs.calls j

omit [DecidableEq ι] in
/-- No call of a settled path has made a root or wants to make one. -/
theorem Settled.not_making {w : Bytes} (hs : s.Settled x509 w) (i : ι) :
    s.call i ≠ .missing ∧ (s.call i).root = none := by
  have hended := EnsureCall.readRoot_ended x509 (some w)
  rcases hs.calls i with hi | hi | hi
  · rw [hi]
    exact ⟨nofun, rfl⟩
  · rw [hi]
    exact ⟨nofun, rfl⟩
  · rw [hi]
    refine ⟨fun hmissing => ?_, hended.root_eq_none⟩
    rw [hmissing] at hended
    exact hended

theorem step_settled {w : Bytes} (s : RootPath ι) (a : EnsureStep ι) (t : RootPath ι)
    (hs : s.Settled x509 w) (h : s.step x509 draws a = some t) : t.Settled x509 w := by
  cases a with
  | check i =>
    obtain ⟨-, rfl⟩ := check_eq_some h
    apply hs.move
    rw [hs.content]
    exact .inr (.inl rfl)
  | read i =>
    obtain ⟨-, rfl⟩ := read_eq_some h
    apply hs.move
    rw [hs.content]
    exact .inr (.inr rfl)
  | makeRoot i => exact absurd (makeRoot_eq_some h).1 (hs.not_making i).1
  -- every other step is one of a call that has made a root
  | openFile i =>
    obtain ⟨rootca, hi, -⟩ := openFile_eq_some h
    have hnone := (hs.not_making i).2
    rw [hi] at hnone
    cases hnone
  | write i n =>
    obtain ⟨rootca, rest, hi, -⟩ := write_eq_some h
    have hnone := (hs.not_making i).2
    rw [hi] at hnone
    cases hnone
  | close i =>
    obtain ⟨rootca, hi, -⟩ := close_eq_some h
    have hnone := (hs.not_making i).2
    rw [hi] at hnone
    cases hnone
  | fail i =>
    have hnone := (hs.not_making i).2
    rcases fail_eq_some h with ⟨⟨rootca, hi⟩, -⟩ | ⟨⟨rootca, rest, hi⟩, -⟩ <;> rw [hi] at hnone <;>
      cases hnone

/-- The path as the next life finds it: the file is closed with the bytes it had, and
every call begins anew. -/
def restart (s : RootPath ι) : RootPath ι where
  file := { s.file with writer := none }
  call _ := .start

omit [DecidableEq ι] in
theorem restart_settled {w : Bytes} (h : s.file.content = some w) : s.restart.Settled x509 w where
  content := h
  writer := rfl
  calls _ := .inl rfl

end RootPath

/-! ## One life after another -/

/-- The path, and how many lives came before. -/
structure RootLives (ι : Type) where
  life : Nat
  path : RootPath ι

/-- A step of a call, or the end of a life, at whatever moment it comes. -/
inductive LifeStep (ι : Type) where
  | call (a : EnsureStep ι)
  | restart
deriving DecidableEq, Repr

namespace RootLives
variable {ι : Type} [DecidableEq ι] {x509 : X509} {draws : Nat → ι → Draws}
variable {s t u : RootLives ι} {w : Bytes}

/-- One step, where `draws k i` is what call `i` draws in life `k`. -/
def step (x509 : X509) (draws : Nat → ι → Draws) (s : RootLives ι) :
    LifeStep ι → Option (RootLives ι)
  | .call a => (s.path.step x509 (draws s.life) a).map fun path => { s with path := path }
  | .restart => some { life := s.life + 1, path := s.path.restart }

/-- The first life, with no file. -/
def initial : RootLives ι where
  life := 0
  path := RootPath.initial

theorem call_eq_some {a : EnsureStep ι} (h : s.step x509 draws (.call a) = some t) :
    ∃ path, s.path.step x509 (draws s.life) a = some path ∧ t = { s with path := path } := by
  obtain ⟨path, hpath, rfl⟩ := Option.map_eq_some_iff.mp h
  exact ⟨path, hpath, rfl⟩

variable (x509 draws) in
/-- `w` is the beginning of the file of a root that a call has made in some life. -/
def Began (w : Bytes) : Prop :=
  ∃ k i c, makeRootCert x509 (draws k i) = .ok c ∧ w <+: exportCertPfx x509 c

variable (x509 draws) in
/-- The invariant of the lives: this life is the first that comes to a file, or it found
one and settles on it. -/
inductive Lived (s : RootLives ι) : Prop
  | first (consistent : s.path.Consistent x509 (draws s.life))
  | settled (w : Bytes) (began : Began x509 draws w) (settled : s.path.Settled x509 w)

omit [DecidableEq ι] in
theorem Lived.began (hs : s.Lived x509 draws) (hw : s.path.file.content = some w) :
    Began x509 draws w := by
  cases hs with
  | first consistent =>
    obtain ⟨i, c, hsource, hprefix⟩ := consistent.stored w hw
    exact ⟨s.life, i, c, hsource.1, hprefix⟩
  | settled v began settled =>
    obtain rfl : v = w := Option.some.inj (settled.content.symm.trans hw)
    exact began

theorem step_lived (hx : ∀ k, ReadsAsWritten x509 (draws k)) (s : RootLives ι) (a : LifeStep ι)
    (t : RootLives ι) (hs : s.Lived x509 draws) (h : s.step x509 draws a = some t) :
    t.Lived x509 draws := by
  cases a with
  | call a =>
    obtain ⟨path, hpath, rfl⟩ := call_eq_some h
    cases hs with
    | first consistent => exact .first (RootPath.step_consistent (hx s.life) _ a _ consistent hpath)
    | settled w began settled => exact .settled w began (RootPath.step_settled _ a _ settled hpath)
  | restart =>
    cases h
    cases hw : s.path.file.content with
    | none =>
      -- the next life begins as the first one did
      have hinitial : s.path.restart = RootPath.initial := by
        simp only [RootPath.restart, RootPath.initial, hw]
      refine .first ?_
      rw [hinitial]
      exact RootPath.initial_consistent
    | some w => exact .settled w (hs.began hw) (RootPath.restart_settled hw)

theorem step_settled (s : RootLives ι) (a : LifeStep ι) (t : RootLives ι)
    (hs : s.path.Settled x509 w) (h : s.step x509 draws a = some t) :
    t.path.Settled x509 w := by
  cases a with
  | call a =>
    obtain ⟨path, hpath, rfl⟩ := call_eq_some h
    exact RootPath.step_settled _ a _ hs hpath
  | restart =>
    cases h
    exact RootPath.restart_settled hs.content

omit [DecidableEq ι] in
/-- What every call comes to that finds the file `w`, the beginning of that of `c`. -/
theorem readRoot_of_prefix {k : Nat} {i : ι} {c : X509Certificate2}
    (hx : ReadsAsWritten x509 (draws k)) (hc : makeRootCert x509 (draws k i) = .ok c)
    (hw : w <+: exportCertPfx x509 c) : RootPath.readRoot x509 (some w) =
      if w = exportCertPfx x509 c then .returned c else .threw .cryptographic := by
  split
  · next hall => exact RootPath.readRoot_eq_returned.mpr ⟨w, rfl, hall ▸ hx.roundTrip i c hc⟩
  · next hcut => simp only [RootPath.readRoot, X509.load, hx.cutShort i c w hc hw hcut]

/-- **The first life that leaves a file decides for all lives after it**, however its
calls took turns, whenever it ended, and however many lives follow: the file stays as it
is, and every call that ends later returns the root of that file, or, if the write was
cut short, throws. -/
theorem run_lives_settled (hx : ∀ k, ReadsAsWritten x509 (draws k)) {as bs : List (LifeStep ι)}
    (hu : run (step x509 draws) initial as = some u) (hw : u.path.file.content = some w)
    (ht : run (step x509 draws) u (.restart :: bs) = some t) :
    t.path.file.content = some w ∧
    ∃ k i c, makeRootCert x509 (draws k i) = .ok c ∧ w <+: exportCertPfx x509 c ∧
      ∀ j, (t.path.call j).Ended → t.path.call j =
        if w = exportCertPfx x509 c then .returned c else .threw .cryptographic := by
  have hlived : u.Lived x509 draws :=
    run_keeps (step_lived hx) (.first RootPath.initial_consistent) hu
  obtain ⟨k, i, c, hc, hprefix⟩ := hlived.began hw
  -- the life after `u` finds the file, and from there on nothing changes it
  obtain ⟨v, hv, hrest⟩ := run_cons.mp ht
  cases hv
  have hrestart : u.path.restart.Settled x509 w := RootPath.restart_settled hw
  have hsettled := run_keeps step_settled hrestart hrest
  refine ⟨hsettled.content, k, i, c, hc, hprefix, fun j hj => ?_⟩
  rw [← readRoot_of_prefix (hx k) hc hprefix]
  rcases hsettled.calls j with hstart | hfound | hread
  · rw [hstart] at hj
    exact hj.elim
  · rw [hfound] at hj
    exact hj.elim
  · exact hread

/-- The first life ends in the middle of the write, and two more follow. -/
def demoCutShort : List (LifeStep Bool) :=
  [.call (.check false), .call (.makeRoot false), .call (.openFile false), .call (.write false 2)]

def demoLives : List (LifeStep Bool) :=
  [.restart, .call (.check false), .call (.read false), .restart, .call (.check true),
    .call (.read true)]

theorem run_lives_settled_demo :
    ∃ u t w, run (step RootPath.demoRootX509 fun _ => RootPath.demoCallDraws) initial
        demoCutShort = some u ∧ u.path.file.content = some w ∧
      run (step RootPath.demoRootX509 fun _ => RootPath.demoCallDraws) u demoLives = some t ∧
      t.path.file.content = some w ∧
      ∃ c, w <+: exportCertPfx RootPath.demoRootX509 c ∧ t.path.call true =
        if w = exportCertPfx RootPath.demoRootX509 c then .returned c else .threw .cryptographic := by
  refine ⟨_, _, _, rfl, rfl, rfl, ?_⟩
  obtain ⟨hcontent, k, i, c, -, hprefix, hcalls⟩ :=
    run_lives_settled (fun _ => RootPath.demoRootX509_faithful.toReadsAsWritten)
      (show run (step RootPath.demoRootX509 fun _ => RootPath.demoCallDraws) initial
        demoCutShort = some _ from rfl) rfl
      (show run (step RootPath.demoRootX509 fun _ => RootPath.demoCallDraws) _ demoLives = some _
        from rfl)
  exact ⟨hcontent, c, hprefix, hcalls true trivial⟩

end RootLives
end ExertGrpc
