import ExertGrpc.CertificateEvents

/-! # Requests that are authenticated at the same time

The callbacks of all requests write `ccc.pfx` before they reach `Success`, and a
callback that cannot open the file has its request denied.  A run denies nobody
exactly when no callback opens the file while another one has it open.
-/
namespace ExertGrpc
open TransitionRun

/-- The session of a callback with the file `ccc.pfx`, to which it writes `whole`. -/
def Callback.session (whole : Bytes) : Callback → Option (Bytes × Bytes)
  | .writing rest => some (whole, rest)
  | _ => none

theorem Callback.session_eq_none {whole : Bytes} {p : Callback} :
    p.session whole = none ↔ ∀ rest, p ≠ .writing rest := by
  cases p <;> simp [session]

namespace Server
variable {ι : Type} [DecidableEq ι] {x509 : X509} {context : ι → CertificateValidatedContext}
variable {s t : Server ι} {i : ι} {n : Nat}

@[simp] theorem move_file (p : Callback) : (s.move i p).file = s.file := rfl

@[simp] theorem move_self (p : Callback) : (s.move i p).callback i = p :=
  Function.update_self ..

theorem move_of_ne {j : ι} (h : j ≠ i) (p : Callback) : (s.move i p).callback j = s.callback j :=
  Function.update_of_ne h ..

/-! ## What a step does -/

theorem openFile_eq_some (h : s.step x509 context (.openFile i) = some t) :
    s.callback i = .validated ∧
      ((∃ file, s.file.openEmpty i = some file ∧ t = { s with file := file }.move i
          (.writing (exportCertPfx x509 (context i).clientCertificate))) ∨
        (s.file.openEmpty i = none ∧ t = s.move i (.ended onAuthenticationFailed))) := by
  simp only [step] at h
  split at h
  · exact ⟨‹_›, .inl ⟨_, ‹_›, (Option.some.inj h).symm⟩⟩
  · exact ⟨‹_›, .inr ⟨‹_›, (Option.some.inj h).symm⟩⟩
  · cases h

theorem write_eq_some (h : s.step x509 context (.write i n) = some t) :
    ∃ rest, s.callback i = .writing rest ∧
      t = { s with file := s.file.append (rest.take n) }.move i (.writing (rest.drop n)) := by
  simp only [step] at h
  split at h
  · split at h
    · exact ⟨_, ‹_›, (Option.some.inj h).symm⟩
    · cases h
  · cases h

theorem close_eq_some (h : s.step x509 context (.close i) = some t) :
    s.callback i = .writing [] ∧ t = { s with file := s.file.close }.move i .exported := by
  simp only [step] at h
  split at h
  · exact ⟨‹_›, (Option.some.inj h).symm⟩
  · cases h

theorem finish_eq_some (h : s.step x509 context (.finish i) = some t) :
    s.callback i = .exported ∧
      t = s.move i (.ended (.success (validatedPrincipal (context i)))) := by
  simp only [step] at h
  split at h
  · exact ⟨‹_›, (Option.some.inj h).symm⟩
  · cases h

/-! ## The file is held by the callback that writes it -/

variable (x509 context) in
/-- The sessions of all callbacks. -/
def session (s : Server ι) (j : ι) : Option (Bytes × Bytes) :=
  (s.callback j).session (exportCertPfx x509 (context j).clientCertificate)

theorem session_move (p : Callback) : (s.move i p).session x509 context =
    Function.update (s.session x509 context) i
      (p.session (exportCertPfx x509 (context i).clientCertificate)) :=
  funext fun j => Function.apply_update
    (fun k => Callback.session (exportCertPfx x509 (context k).clientCertificate)) s.callback i p j

variable (x509 context) in
/-- The invariant of every run: the file belongs to the callback that writes it,
and a request that has ended was denied, or has its own principal. -/
structure Consistent (s : Server ι) : Prop where
  tracks : s.file.Tracks (s.session x509 context)
  ended : ∀ i result, s.callback i = .ended result →
    result = onAuthenticationFailed ∨ result = .success (validatedPrincipal (context i))

omit [DecidableEq ι] in
theorem initial_consistent (content : Option Bytes) :
    Consistent x509 context (initial content) where
  tracks := .free rfl fun _ => rfl
  ended _ _ h := by cases h

/-- A callback that moves to `p`, where the file follows, leaves a consistent server. -/
theorem Consistent.move (hs : Consistent x509 context s) {file : ExclusiveFile ι UInt8}
    {p : Callback} (hfile : file.Tracks (Function.update (s.session x509 context) i
      (p.session (exportCertPfx x509 (context i).clientCertificate))))
    (hp : ∀ result, p = .ended result →
      result = onAuthenticationFailed ∨ result = .success (validatedPrincipal (context i))) :
    Consistent x509 context ({ s with file := file }.move i p) := by
  refine ⟨?_, fun j result hj => ?_⟩
  · rw [session_move]
    exact hfile
  · by_cases hji : j = i
    · subst hji
      rw [move_self] at hj
      exact hp result hj
    · rw [move_of_ne hji] at hj
      exact hs.ended j result hj

theorem step_consistent (s : Server ι) (a : CallbackStep ι) (t : Server ι)
    (hs : Consistent x509 context s) (h : s.step x509 context a = some t) :
    Consistent x509 context t := by
  cases a with
  | openFile i =>
    rcases openFile_eq_some h with ⟨hi, ⟨file, hopen, rfl⟩ | ⟨-, rfl⟩⟩
    · exact hs.move (hs.tracks.opened hopen _) nofun
    · have hidle : s.session x509 context i = none := by simp [session, hi, Callback.session]
      exact hs.move (hs.tracks.idle hidle) fun _ hp => by cases hp; exact .inl rfl
  | write i n =>
    obtain ⟨rest, hi, rfl⟩ := write_eq_some h
    have hwriting : s.session x509 context i =
        some (exportCertPfx x509 (context i).clientCertificate, rest) := by
      rw [session, hi, Callback.session]
    exact hs.move (hs.tracks.appended hwriting n) nofun
  | close i =>
    obtain ⟨hi, rfl⟩ := close_eq_some h
    have hwriting : s.session x509 context i ≠ none := by simp [session, hi, Callback.session]
    exact hs.move (hs.tracks.closed hwriting) nofun
  | finish i =>
    obtain ⟨hi, rfl⟩ := finish_eq_some h
    have hidle : s.session x509 context i = none := by simp [session, hi, Callback.session]
    exact hs.move (hs.tracks.idle hidle) fun _ hp => by cases hp; exact .inr rfl

/-! ## Who is denied -/

/-- Whoever opens the file opens it while no callback has it open. -/
def Apart (s : Server ι) : CallbackStep ι → Prop
  | .openFile _ => ∀ j rest, s.callback j ≠ .writing rest
  | _ => True

/-- Request `i` has been denied. -/
def Denied (s : Server ι) (i : ι) : Prop := s.callback i = .ended onAuthenticationFailed

/-- Request `i` has been authenticated, with the principal of its certificate. -/
def Authenticated (context : ι → CertificateValidatedContext) (s : Server ι) (i : ι) : Prop :=
  s.callback i = .ended (.success (validatedPrincipal (context i)))

instance : Decidable (s.Denied i) :=
  inferInstanceAs (Decidable (s.callback i = .ended onAuthenticationFailed))

instance : Decidable (Authenticated context s i) :=
  inferInstanceAs (Decidable (s.callback i = .ended (.success (validatedPrincipal (context i)))))

omit [DecidableEq ι] in
theorem Denied.not_authenticated (h : s.Denied i) : ¬ Authenticated context s i := by
  intro ha
  rw [Denied] at h
  rw [Authenticated, h] at ha
  cases ha

omit [DecidableEq ι] in
/-- The file can be opened exactly when no callback has it open. -/
theorem Consistent.openEmpty_ne_none (hs : Consistent x509 context s) :
    s.file.openEmpty i ≠ none ↔ ∀ j rest, s.callback j ≠ .writing rest := by
  rw [ne_eq, ExclusiveFile.openEmpty_eq_none, not_not, hs.tracks.writer_eq_none]
  exact forall_congr' fun j => Callback.session_eq_none

/-- A step of callback `i` that does not deny it denies nobody. -/
theorem not_denied_move (hs : ∀ j, ¬ s.Denied j) {file : ExclusiveFile ι UInt8} {p : Callback}
    (hp : p ≠ .ended onAuthenticationFailed) (j : ι) :
    ¬ ({ s with file := file }.move i p).Denied j := by
  intro hj
  by_cases hji : j = i
  · subst hji
    rw [Denied, move_self] at hj
    exact hp hj
  · rw [Denied, move_of_ne hji] at hj
    exact hs j hj

/-- A step that keeps callbacks apart denies nobody. -/
theorem step_not_denied (s : Server ι) (a : CallbackStep ι) (t : Server ι)
    (hs : Consistent x509 context s ∧ ∀ i, ¬ s.Denied i) (hapart : Apart s a)
    (h : s.step x509 context a = some t) :
    Consistent x509 context t ∧ ∀ i, ¬ t.Denied i := by
  refine ⟨step_consistent s a t hs.1 h, ?_⟩
  cases a with
  | openFile i =>
    rcases openFile_eq_some h with ⟨-, ⟨file, -, rfl⟩ | ⟨hnone, -⟩⟩
    · exact not_denied_move hs.2 (by simp)
    · -- nobody has the file open, so the opening cannot have failed
      exact absurd hnone (hs.1.openEmpty_ne_none.mpr hapart)
  | write i n =>
    obtain ⟨rest, -, rfl⟩ := write_eq_some h
    exact not_denied_move hs.2 (by simp)
  | close i =>
    obtain ⟨-, rfl⟩ := close_eq_some h
    exact not_denied_move hs.2 (by simp)
  | finish i =>
    obtain ⟨-, rfl⟩ := finish_eq_some h
    exact not_denied_move hs.2 (by simp [onAuthenticationFailed])

/-- A step that does not keep callbacks apart denies the request that takes it. -/
theorem step_denied (s : Server ι) (a : CallbackStep ι) (t : Server ι)
    (hs : Consistent x509 context s) (hapart : ¬ Apart s a)
    (h : s.step x509 context a = some t) : ∃ i, t.Denied i := by
  cases a with
  | openFile i =>
    rcases openFile_eq_some h with ⟨-, ⟨file, hopen, -⟩ | ⟨-, rfl⟩⟩
    · have hne : s.file.openEmpty i ≠ none := by rw [hopen]; exact Option.some_ne_none _
      exact absurd (hs.openEmpty_ne_none.mp hne) hapart
    · exact ⟨i, move_self _⟩
  | write | close | finish => exact absurd trivial hapart

/-- A step of a callback that has not been denied leaves the denied requests denied. -/
theorem Denied.move {j : ι} (hj : s.Denied j) (hi : ¬ s.Denied i)
    (file : ExclusiveFile ι UInt8) (p : Callback) :
    ({ s with file := file }.move i p).Denied j := by
  have hji : j ≠ i := by
    rintro rfl
    exact hi hj
  rw [Denied, move_of_ne hji]
  exact hj

/-- A request that has been denied stays denied. -/
theorem step_keeps_denied (s : Server ι) (a : CallbackStep ι) (t : Server ι)
    (hs : ∃ i, s.Denied i) (h : s.step x509 context a = some t) : ∃ i, t.Denied i := by
  obtain ⟨j, hj⟩ := hs
  -- whoever steps has not ended, so it is another request than `j`
  cases a with
  | openFile i =>
    obtain ⟨hi, hfile⟩ := openFile_eq_some h
    have hgoing : ¬ s.Denied i := by rw [Denied, hi]; exact nofun
    rcases hfile with ⟨file, -, rfl⟩ | ⟨-, rfl⟩
    · exact ⟨j, hj.move hgoing file _⟩
    · exact ⟨j, hj.move hgoing s.file _⟩
  | write i n =>
    obtain ⟨rest, hi, rfl⟩ := write_eq_some h
    exact ⟨j, hj.move (by rw [Denied, hi]; exact nofun) _ _⟩
  | close i =>
    obtain ⟨hi, rfl⟩ := close_eq_some h
    exact ⟨j, hj.move (by rw [Denied, hi]; exact nofun) _ _⟩
  | finish i =>
    obtain ⟨hi, rfl⟩ := finish_eq_some h
    exact ⟨j, hj.move (by rw [Denied, hi]; exact nofun) s.file _⟩

/-! ## Every run -/

variable (x509 context) in
/-- A request that has not ended has a step to take. -/
theorem exists_step (i : ι) (h : ∀ result, s.callback i ≠ .ended result) :
    ∃ a t, s.step x509 context a = some t := by
  cases hi : s.callback i with
  | validated =>
    refine ⟨.openFile i, ?_⟩
    simp only [step, hi]
    cases s.file.openEmpty i <;> exact ⟨_, rfl⟩
  | writing rest =>
    cases rest with
    | nil =>
      refine ⟨.close i, ?_⟩
      simp only [step, hi]
      exact ⟨_, rfl⟩
    | cons b rest =>
      refine ⟨.write i 1, ?_⟩
      simp [step, hi]
  | exported =>
    refine ⟨.finish i, ?_⟩
    simp only [step, hi]
    exact ⟨_, rfl⟩
  | ended result => exact absurd hi (h result)

/-- **A run denies nobody exactly when its callbacks are kept apart**, and of the
runs that leave no step to take, these are the ones in which every request ends
authenticated. -/
theorem authenticated_iff_apart {content : Option Bytes} {as : List (CallbackStep ι)}
    (hrun : run (step x509 context) (initial content) as = some t) :
    ((∀ i, ¬ t.Denied i) ↔ Along (step x509 context) Apart (initial content) as) ∧
    ((∀ a, t.step x509 context a = none) →
      ((∀ i, Authenticated context t i) ↔
        Along (step x509 context) Apart (initial content) as)) := by
  have hcons : Consistent x509 context t :=
    run_keeps step_consistent (initial_consistent content) hrun
  have hdenied : (∀ i, ¬ t.Denied i) ↔
      Along (step x509 context) Apart (initial content) as := by
    constructor
    · intro hnone
      by_contra hn
      obtain ⟨i, hi⟩ := run_of_not_along step_consistent
        step_denied (fun s a t _ => step_keeps_denied s a t) (initial_consistent content) hn hrun
      exact hnone i hi
    · intro hal
      exact (run_invariant step_not_denied
        ⟨initial_consistent content, fun i hi => by cases hi⟩ hal hrun).2
  refine ⟨hdenied, fun hstuck => ?_⟩
  rw [← hdenied]
  refine forall_congr' fun i => ⟨fun ha hd => hd.not_authenticated ha, fun hd => ?_⟩
  -- no step is left to take, so request `i` has ended
  have hended : ∃ result, t.callback i = .ended result := by
    by_contra hgoing
    obtain ⟨a, u, hu⟩ := exists_step x509 context i
      fun result hresult => hgoing ⟨result, hresult⟩
    rw [hstuck a] at hu
    cases hu
  obtain ⟨result, hresult⟩ := hended
  rcases hcons.ended i result hresult with rfl | rfl
  · exact absurd hresult hd
  · exact hresult

/-! ## Two clients -/

/-- The two services of a client that call the server, each with a certificate of
its own. -/
def demoContext (i : Bool) : CertificateValidatedContext where
  clientCertificate := demoCertificate (literal "CN=MyCARoot") (if i then 2 else 3)
  claimsIssuer := []
  schemeName := literal "Certificate"

/-- The steps of a request that opens the file, writes six bytes and ends. -/
def demoSteps (i : Bool) : List (CallbackStep Bool) :=
  [.openFile i, .write i 6, .close i, .finish i]

theorem authenticated_iff_apart_demo :
    ∃ t, run (step (demoX509 []) demoContext) (initial none) (demoSteps false ++ demoSteps true) =
        some t ∧ (∀ i, Authenticated demoContext t i) ∧
      Along (step (demoX509 []) demoContext) Apart (initial none)
        (demoSteps false ++ demoSteps true) := by
  have hauth : ∀ i : Bool, Authenticated demoContext
      ((run (step (demoX509 []) demoContext) (initial none)
        (demoSteps false ++ demoSteps true)).get (by decide)) i := by decide
  refine ⟨_, rfl, hauth, (authenticated_iff_apart rfl).1.mp fun i hi => ?_⟩
  exact hi.not_authenticated (hauth i)

/-- **The second client opens the file while the first one writes it**: both
certificates were validated, and its request is denied. -/
theorem authenticated_not_always :
    ∃ t, run (step (demoX509 []) demoContext) (initial none)
        [.openFile false, .openFile true, .write false 6, .close false, .finish false] = some t ∧
      (∀ a, t.step (demoX509 []) demoContext a = none) ∧
      Authenticated demoContext t false ∧ t.Denied true ∧ ¬ Authenticated demoContext t true := by
  refine ⟨_, rfl, ?_, by decide, by decide, by decide⟩
  rintro (i | ⟨i, n⟩ | i | i) <;> cases i <;> rfl

end Server
end ExertGrpc
