import ExertGrpc.CertificateEventRuns
import ExertGrpc.TransitionVariant

/-! # What is left in `ccc.pfx`

Every request writes its certificate to the same file, and nothing puts the writes in
an order.  Because the file has one writer at a time, its bytes are never those of two
certificates (`FileHolds`).  No callback waits for another one, so the callbacks of
finitely many requests come to an end, and then at least one request is authenticated
and the file holds the certificate of such a request.
-/
namespace ExertGrpc
open TransitionRun

/-- The steps that a callback has left at most, when it writes `whole`. -/
def Callback.rank (whole : Bytes) : Callback → Nat
  | .validated => whole.length + 3
  | .writing rest => rest.length + 2
  | .exported => 1
  | .ended _ => 0

namespace Server
variable {ι : Type} {x509 : X509} {context : ι → CertificateValidatedContext}
variable {s t : Server ι} {i : ι} {n : Nat} {content : Option Bytes}

/-! ## The bytes of the file -/

variable (x509 context) in
/-- Where the bytes of the file come from, when they were `content` at first. -/
inductive FileHolds (content : Option Bytes) (s : Server ι) : Prop
  /-- No callback has begun. -/
  | untouched (callbacks : ∀ i, s.callback i = .validated) (file : s.file.content = content)
  /-- One request writes: the file holds what it has written of its certificate. -/
  | partly (i : ι) (done rest : Bytes) (writing : s.callback i = .writing rest)
      (file : s.file.content = some done)
      (whole : done ++ rest = exportCertPfx x509 (context i).clientCertificate)
  /-- Nobody writes: the file holds the certificate of a request that has written it. -/
  | whole (i : ι) (closed : ∀ j rest, s.callback j ≠ .writing rest)
      (written : s.callback i = .exported ∨ Authenticated context s i)
      (file : s.file.content = some (exportCertPfx x509 (context i).clientCertificate))

variable [DecidableEq ι]

omit [DecidableEq ι] in
/-- The file follows whoever writes it. -/
theorem Consistent.fileHolds_of_writing (hs : Consistent x509 context s) {rest : Bytes}
    (hi : s.callback i = .writing rest) : s.FileHolds x509 context content := by
  have hsession : s.session x509 context i =
      some (exportCertPfx x509 (context i).clientCertificate, rest) := by
    rw [session, hi, Callback.session]
  obtain ⟨done, hdone, hwhole⟩ := (hs.tracks.writing i _ rest hsession).content
  exact .partly i done rest hi hdone hwhole

omit [DecidableEq ι] in
/-- Nobody else writes while request `i` does. -/
theorem Consistent.writing_unique (hs : Consistent x509 context s) {rest rest' : Bytes} {j : ι}
    (hi : s.callback i = .writing rest) (hj : s.callback j = .writing rest') : j = i := by
  apply hs.tracks.unique
  · simp [session, hj, Callback.session]
  · simp [session, hi, Callback.session]

/-- What is written stays where it is when another callback moves on to `p`. -/
theorem FileHolds.move (hs : s.FileHolds x509 context content) (hi : s.callback i ≠ .validated)
    (hidle : ∀ rest, s.callback i ≠ .writing rest) {p : Callback} (hp : ∀ rest, p ≠ .writing rest)
    (hwritten : s.callback i = .exported → p = .exported ∨
      p = .ended (.success (validatedPrincipal (context i))))
    (hended : Authenticated context s i → p = s.callback i) :
    (s.move i p).FileHolds x509 context content := by
  cases hs with
  | untouched callbacks file => exact absurd (callbacks i) hi
  | partly j done rest writing file whole =>
    have hji : j ≠ i := by
      rintro rfl
      exact hidle rest writing
    exact .partly j done rest (by rw [move_of_ne hji, writing]) file whole
  | whole j closed written file =>
    refine .whole j (fun k rest hk => ?_) ?_ file
    · by_cases hki : k = i
      · subst hki
        rw [move_self] at hk
        exact hp rest hk
      · rw [move_of_ne hki] at hk
        exact closed k rest hk
    · by_cases hji : j = i
      · subst hji
        rw [Authenticated, move_self]
        rcases written with hexported | hauth
        · exact hwritten hexported
        · exact .inr ((hended hauth).trans hauth)
      · rw [Authenticated, move_of_ne hji]
        exact written

/-- A request that cannot open the file leaves it to the one that writes it. -/
theorem FileHolds.denied (hs : s.FileHolds x509 context content)
    (hcons : Consistent x509 context s) (hi : s.callback i = .validated)
    (hopen : s.file.openEmpty i = none) :
    (s.move i (.ended onAuthenticationFailed)).FileHolds x509 context content := by
  have hwriter : ¬ ∀ j rest, s.callback j ≠ .writing rest := by
    rw [← hcons.openEmpty_ne_none (i := i), hopen]
    exact fun h => h rfl
  cases hs with
  | untouched callbacks file =>
    refine absurd (fun j rest => ?_) hwriter
    simp [callbacks j]
  | partly j done rest writing file whole =>
    have hji : j ≠ i := by
      rintro rfl
      rw [hi] at writing
      cases writing
    exact .partly j done rest (by rw [move_of_ne hji, writing]) file whole
  | whole j closed written file => exact absurd closed hwriter

theorem step_fileHolds (s : Server ι) (a : CallbackStep ι) (t : Server ι)
    (hs : Consistent x509 context s ∧ s.FileHolds x509 context content)
    (h : s.step x509 context a = some t) :
    Consistent x509 context t ∧ t.FileHolds x509 context content := by
  have ht := step_consistent s a t hs.1 h
  refine ⟨ht, ?_⟩
  cases a with
  | openFile i =>
    rcases openFile_eq_some h with ⟨hi, ⟨file, -, rfl⟩ | ⟨hopen, rfl⟩⟩
    · exact ht.fileHolds_of_writing (move_self _)
    · exact hs.2.denied hs.1 hi hopen
  | write i n =>
    obtain ⟨rest, -, rfl⟩ := write_eq_some h
    exact ht.fileHolds_of_writing (move_self _)
  | close i =>
    obtain ⟨hi, rfl⟩ := close_eq_some h
    have hsession : s.session x509 context i =
        some (exportCertPfx x509 (context i).clientCertificate, []) := by
      rw [session, hi, Callback.session]
    -- the file is complete, and the writer was the only one
    refine .whole i (fun j rest hj => ?_) (.inl (move_self _))
      (hs.1.tracks.writing i _ _ hsession).content_of_nil
    by_cases hji : j = i
    · subst hji
      rw [move_self] at hj
      cases hj
    · rw [move_of_ne hji] at hj
      exact hji (hs.1.writing_unique hi hj)
  | finish i =>
    obtain ⟨hi, rfl⟩ := finish_eq_some h
    apply hs.2.move
    · simp [hi]
    · simp [hi]
    · simp
    · exact fun _ => .inr rfl
    · intro hauth
      rw [Authenticated, hi] at hauth
      cases hauth

/-- What every run keeps. -/
theorem run_consistent_fileHolds {as : List (CallbackStep ι)}
    (hrun : run (step x509 context) (initial content) as = some t) :
    Consistent x509 context t ∧ t.FileHolds x509 context content := by
  have hinitial : Consistent x509 context (initial content : Server ι) ∧
      (initial content : Server ι).FileHolds x509 context content :=
    ⟨initial_consistent content, .untouched (fun _ => rfl) rfl⟩
  exact run_keeps (I := fun s => Consistent x509 context s ∧ s.FileHolds x509 context content)
    step_fileHolds hinitial hrun

/-- **The file never holds bytes of two certificates**: however the callbacks take
turns, it is as it was before the first of them, or it holds what the request that is
writing has written of its certificate, or the whole certificate of a request that is
through. -/
theorem run_fileHolds {as : List (CallbackStep ι)}
    (hrun : run (step x509 context) (initial content) as = some t) :
    t.FileHolds x509 context content :=
  (run_consistent_fileHolds hrun).2

/-- Two requests, of which one opens the file while the other one writes it. -/
def demoCollision : List (CallbackStep Bool) := [.openFile false, .openFile true, .write false 2]

theorem run_fileHolds_demo :
    ∃ t, run (step (demoX509 []) demoContext) (initial none) demoCollision = some t ∧
      t.FileHolds (demoX509 []) demoContext none := by
  exact ⟨_, rfl, run_fileHolds (show run _ _ demoCollision = some _ from rfl)⟩

/-! ## The end of every run -/

section Ends
variable [Fintype ι]

variable (x509 context) in
/-- The steps that all callbacks have left at most. -/
def stepsLeft (s : Server ι) : Nat :=
  ∑ i, (s.callback i).rank (exportCertPfx x509 (context i).clientCertificate)

/-- A callback that moves to a smaller rank brings the end nearer. -/
theorem stepsLeft_move_lt {p : Callback} {file : ExclusiveFile ι UInt8}
    (h : p.rank (exportCertPfx x509 (context i).clientCertificate) <
      (s.callback i).rank (exportCertPfx x509 (context i).clientCertificate)) :
    ({ s with file := file }.move i p).stepsLeft x509 context < s.stepsLeft x509 context :=
  sum_rank_update_lt
    (fun j => Callback.rank (exportCertPfx x509 (context j).clientCertificate)) h

omit [Fintype ι] in
/-- A write writes something. -/
theorem write_pos {rest : Bytes} (hi : s.callback i = .writing rest)
    (h : s.step x509 context (.write i n) = some t) : 0 < n ∧ rest ≠ [] := by
  simp only [step, hi, Option.ite_none_right_eq_some] at h
  exact h.1

/-- Every step brings the end nearer, whether or not its callback is let through. -/
theorem step_stepsLeft_lt (s : Server ι) (a : CallbackStep ι) (t : Server ι)
    (h : s.step x509 context a = some t) : t.stepsLeft x509 context < s.stepsLeft x509 context := by
  cases a with
  | openFile i =>
    rcases openFile_eq_some h with ⟨hi, ⟨file, -, rfl⟩ | ⟨-, rfl⟩⟩
    · apply stepsLeft_move_lt
      simp only [hi, Callback.rank]
      omega
    · apply stepsLeft_move_lt
      simp only [hi, Callback.rank]
      omega
  | write i n =>
    obtain ⟨rest, hi, rfl⟩ := write_eq_some h
    obtain ⟨hn, hrest⟩ := write_pos hi h
    apply stepsLeft_move_lt
    have hpos := List.length_pos_iff.mpr hrest
    simp only [hi, Callback.rank, List.length_drop]
    omega
  | close i =>
    obtain ⟨hi, rfl⟩ := close_eq_some h
    apply stepsLeft_move_lt
    simp only [hi, Callback.rank, List.length_nil]
    omega
  | finish i =>
    obtain ⟨hi, rfl⟩ := finish_eq_some h
    apply stepsLeft_move_lt
    simp only [hi, Callback.rank]
    omega

/-- Every callback has come to its end. -/
def Ended (s : Server ι) : Prop := ∀ i, ∃ result, s.callback i = .ended result

omit [Fintype ι] in
variable (x509 context) in
/-- As long as a callback has not ended, there is a step to take. -/
theorem exists_step_of_not_ended (h : ¬ s.Ended) :
    ∃ a t, True ∧ s.step x509 context a = some t := by
  unfold Ended at h
  push Not at h
  obtain ⟨i, hi⟩ := h
  obtain ⟨a, t, ht⟩ := exists_step x509 context i hi
  exact ⟨a, t, trivial, ht⟩

omit [Fintype ι] [DecidableEq ι] in
/-- Where all have ended, one of them was let through, and wrote the file. -/
theorem FileHolds.authenticated [Nonempty ι] (hs : s.FileHolds x509 context content)
    (hended : s.Ended) : ∃ i, Authenticated context s i ∧
      s.file.content = some (exportCertPfx x509 (context i).clientCertificate) := by
  cases hs with
  | untouched callbacks file =>
    obtain ⟨result, hresult⟩ := hended (Classical.arbitrary ι)
    rw [callbacks] at hresult
    cases hresult
  | partly i done rest writing file whole =>
    obtain ⟨result, hresult⟩ := hended i
    rw [writing] at hresult
    cases hresult
  | whole i closed written file =>
    obtain ⟨result, hresult⟩ := hended i
    rw [hresult] at written
    exact ⟨i, written.resolve_left nofun, file⟩

/-- **The callbacks of finitely many requests come to an end, whoever moves when**: a
run has at most as many steps as there are bytes to write, and three for each request;
it can be continued until all have ended; and then at least one request has been
authenticated, and the file holds the certificate of such a request. -/
theorem run_callbacks_end [Nonempty ι] {as : List (CallbackStep ι)}
    (hrun : run (step x509 context) (initial content) as = some t) :
    as.length ≤ ∑ i, ((exportCertPfx x509 (context i).clientCertificate).length + 3) ∧
    (∃ bs u, run (step x509 context) t bs = some u ∧ u.Ended) ∧
    (t.Ended → ∃ i, Authenticated context t i ∧
      t.file.content = some (exportCertPfx x509 (context i).clientCertificate)) := by
  have hkeep : ∀ (s : Server ι) a t, True → s.step x509 context a = some t → True :=
    fun _ _ _ _ _ => trivial
  have hlt : ∀ (s : Server ι) a t, True → True → s.step x509 context a = some t →
      t.stepsLeft x509 context < s.stepsLeft x509 context :=
    fun s a t _ _ h => step_stepsLeft_lt s a t h
  have halways : ∀ (s : Server ι) (a : CallbackStep ι), (fun _ _ => True : _ → _ → Prop) s a :=
    fun _ _ => trivial
  have hlength : as.length ≤ (initial content).stepsLeft x509 context :=
    run_length_le hkeep hlt trivial (along_of_forall halways) hrun
  refine ⟨hlength, ?_, (run_consistent_fileHolds hrun).2.authenticated⟩
  obtain ⟨bs, u, hu, -, hended⟩ := exists_run_of_progress hkeep hlt
    (fun s _ hnot => exists_step_of_not_ended x509 context hnot) (trivial : (fun _ => True) t)
  exact ⟨bs, u, hu, hended⟩

end Ends

theorem run_callbacks_end_demo :
    ∃ t i, run (step (demoX509 []) demoContext) (initial none)
        (demoSteps false ++ demoSteps true) = some t ∧
      Authenticated demoContext t i ∧
      t.file.content = some (exportCertPfx (demoX509 []) (demoContext i).clientCertificate) := by
  obtain ⟨-, -, hended⟩ := run_callbacks_end
    (show run (step (demoX509 []) demoContext) (initial none)
      (demoSteps false ++ demoSteps true) = some _ from rfl)
  obtain ⟨i, hauth, hfile⟩ := hended fun i => by cases i <;> exact ⟨_, rfl⟩
  exact ⟨_, i, rfl, hauth, hfile⟩

end Server
end ExertGrpc
