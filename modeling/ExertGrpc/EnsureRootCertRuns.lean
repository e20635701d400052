import Mathlib.Data.List.Infix
import Mathlib.Data.Fintype.Basic
import ExertGrpc.EnsureRootCert

/-! # One root for a path

Two calls of `EnsureRootCert` that both find no file both make a root, and the
second write of the file destroys the first root.  The calls of a run agree on one
root exactly when no call opens the file to write it after another call has
returned.

Along such a run whoever has returned holds the root that is in the file
(`Kept`).  A call that opens the file later empties it; what it or any other call
writes from then on is a prefix of another root's export, so the root that was
returned is not in the file again (`Lost`).
-/
namespace ExertGrpc
open TransitionRun

/-- The root that a call has made and not yet written to its end. -/
def EnsureCall.root : EnsureCall → Option X509Certificate2
  | .made rootca | .writing rootca _ => some rootca
  | _ => none

/-- The root that a call has returned. -/
def EnsureCall.result : EnsureCall → Option X509Certificate2
  | .returned rootca => some rootca
  | _ => none

/-- A call that will not write to the file any more. -/
def EnsureCall.Ended : EnsureCall → Prop
  | .returned _ | .threw _ => True
  | _ => False

/-- A call that will not open the file any more. -/
def EnsureCall.Opened : EnsureCall → Prop
  | .writing _ _ | .returned _ | .threw _ => True
  | _ => False

/-- The session of a call with the file. -/
def EnsureCall.session (x509 : X509) : EnsureCall → Option (Bytes × Bytes)
  | .writing rootca rest => some (exportCertPfx x509 rootca, rest)
  | _ => none

namespace EnsureCall
variable {p : EnsureCall} (x509 : X509)

theorem Ended.opened (h : p.Ended) : p.Opened := by
  cases p <;> trivial

theorem Ended.session_eq_none (h : p.Ended) : p.session x509 = none := by
  cases p <;> first | rfl | cases h

theorem Ended.root_eq_none (h : p.Ended) : p.root = none := by
  cases p <;> first | rfl | cases h

variable {x509} in
theorem Opened.ended (h : p.Opened) (hs : p.session x509 = none) : p.Ended := by
  cases p <;> trivial

theorem readRoot_ended (content : Option Bytes) : (RootPath.readRoot x509 content).Ended := by
  cases content with
  | none => trivial
  | some w =>
    rw [RootPath.readRoot]
    split <;> trivial

end EnsureCall

/-- What is known of the files: one that was completely written reads as the certificate
it was written for, and one that was cut short does not read. -/
structure ReadsAsWritten {ι : Type} (x509 : X509) (draws : ι → Draws) : Prop where
  roundTrip : ∀ i rootca, makeRootCert x509 (draws i) = .ok rootca →
    x509.importPfx (exportCertPfx x509 rootca) (literal "1234") = some rootca
  cutShort : ∀ i rootca w, makeRootCert x509 (draws i) = .ok rootca →
    w <+: exportCertPfx x509 rootca → w ≠ exportCertPfx x509 rootca →
      x509.importPfx w (literal "1234") = none

/-- And of the drawn keys: no two calls draw the same one. -/
structure FaithfulPfx {ι : Type} (x509 : X509) (draws : ι → Draws) : Prop
    extends ReadsAsWritten x509 draws where
  fresh : ∀ i j, (draws i).rsa.publicKey = (draws j).rsa.publicKey → i = j

section Pfx
variable {ι : Type} {x509 : X509} {draws : ι → Draws} {i j : ι} {c d : X509Certificate2}
  {w : Bytes}

/-- What reads from the beginning of a root's file is that root, and the file is
complete. -/
theorem ReadsAsWritten.import_eq_some (hx : ReadsAsWritten x509 draws)
    (hc : makeRootCert x509 (draws i) = .ok c) (hw : w <+: exportCertPfx x509 c)
    (hd : x509.importPfx w (literal "1234") = some d) : d = c ∧ w = exportCertPfx x509 c := by
  by_cases hall : w = exportCertPfx x509 c
  · rw [hall, hx.roundTrip i c hc] at hd
    exact ⟨(Option.some.inj hd).symm, hall⟩
  · rw [hx.cutShort i c w hc hw hall] at hd
    cases hd

end Pfx

namespace RootPath
variable {ι : Type} [DecidableEq ι] {x509 : X509} {draws : ι → Draws}
variable {s t : RootPath ι} {i j : ι} {n : Nat} {c : X509Certificate2}

/-! ## What is true along every run -/

variable (x509) in
/-- The sessions of all calls. -/
def session (s : RootPath ι) (j : ι) : Option (Bytes × Bytes) := (s.call j).session x509

theorem session_move (p : EnsureCall) : (s.move i p).session x509 =
    Function.update (s.session x509) i (p.session x509) :=
  funext fun j => Function.apply_update (fun _ => EnsureCall.session x509) s.call i p j

variable (x509 draws) in
/-- The root that call `k` made is `c`, and the call is past the opening. -/
def Source (s : RootPath ι) (k : ι) (c : X509Certificate2) : Prop :=
  makeRootCert x509 (draws k) = .ok c ∧ (s.call k).Opened

variable (x509 draws) in
/-- The invariant of every run. -/
structure Consistent (s : RootPath ι) : Prop where
  tracks : s.file.Tracks (s.session x509)
  own : ∀ i c, (s.call i).root = some c → makeRootCert x509 (draws i) = .ok c
  stored : ∀ w, s.file.content = some w →
    ∃ k c, s.Source x509 draws k c ∧ w <+: exportCertPfx x509 c
  returned : ∀ i c, s.call i = .returned c → ∃ k, s.Source x509 draws k c

omit [DecidableEq ι] in
theorem initial_consistent : Consistent x509 draws (initial : RootPath ι) where
  tracks := .free rfl fun _ => rfl
  own _ _ h := by cases h
  stored _ h := by cases h
  returned _ _ h := by cases h

/-- What a step can make of the file: nothing, or the beginning of the export of the
root of the call that takes it. -/
theorem step_content (hs : Consistent x509 draws s) {a : EnsureStep ι}
    (h : s.step x509 draws a = some t) : t.file.content = s.file.content ∨
      ∃ c w, makeRootCert x509 (draws a.actor) = .ok c ∧ t.file.content = some w ∧
        w <+: exportCertPfx x509 c := by
  cases a with
  | check i => rw [(check_eq_some h).2]; exact .inl rfl
  | makeRoot i => rw [(makeRoot_eq_some h).2]; exact .inl rfl
  | openFile i =>
    rcases openFile_eq_some h with ⟨rootca, hi, ⟨file, hopen, rfl⟩ | ⟨-, rfl⟩⟩
    · obtain ⟨-, rfl⟩ := ExclusiveFile.openEmpty_eq_some.mp hopen
      exact .inr ⟨rootca, [], hs.own i rootca (by rw [hi]; rfl), rfl, List.nil_prefix⟩
    · exact .inl rfl
  | write i n =>
    obtain ⟨rootca, rest, hi, -, rfl⟩ := write_eq_some h
    have hsession : s.session x509 i = some (exportCertPfx x509 rootca, rest) := by
      rw [session, hi]; rfl
    have hw := (hs.tracks.appended hsession n).writing i _ _ (Function.update_self ..)
    obtain ⟨done, hdone, hprefix⟩ := hw.begins
    exact .inr ⟨rootca, done, hs.own i rootca (by rw [hi]; rfl), hdone, hprefix⟩
  | close i =>
    obtain ⟨rootca, -, rfl⟩ := close_eq_some h
    exact .inl rfl
  | fail i => obtain ⟨-, rfl⟩ | ⟨-, rfl⟩ := fail_eq_some h <;> exact .inl rfl
  | read i => rw [(read_eq_some h).2]; exact .inl rfl

theorem Source.move {k : ι} (h : s.Source x509 draws k c) {file : ExclusiveFile ι UInt8}
    {p : EnsureCall} (hp : (s.call i).Opened → p.Opened) :
    ({ s with file := file }.move i p).Source x509 draws k c := by
  refine ⟨h.1, ?_⟩
  by_cases hki : k = i
  · subst hki
    rw [move_self]
    exact hp h.2
  · rw [move_of_ne hki]
    exact h.2

/-- A call that moves to `p`, where the file follows, keeps the invariant. -/
theorem Consistent.move (hs : Consistent x509 draws s) {file : ExclusiveFile ι UInt8}
    {p : EnsureCall}
    (hfile : file.Tracks (Function.update (s.session x509) i (p.session x509)))
    (hown : ∀ c, p.root = some c → makeRootCert x509 (draws i) = .ok c)
    (hopened : (s.call i).Opened → p.Opened)
    (hcontent : file.content = s.file.content ∨ p.Opened ∧
      ∃ c w, makeRootCert x509 (draws i) = .ok c ∧ file.content = some w ∧
        w <+: exportCertPfx x509 c)
    (hreturned : ∀ c, p = .returned c →
      (∃ k, s.Source x509 draws k c) ∨ makeRootCert x509 (draws i) = .ok c) :
    Consistent x509 draws ({ s with file := file }.move i p) where
  tracks := by
    rw [session_move]
    exact hfile
  own j d hj := by
    by_cases hji : j = i
    · subst hji
      rw [move_self] at hj
      exact hown d hj
    · rw [move_of_ne hji] at hj
      exact hs.own j d hj
  stored w hw := by
    rcases hcontent with hsame | ⟨hp, d, v, hd, hv, hprefix⟩
    · obtain ⟨k, d, hsource, hprefix⟩ := hs.stored w (hsame.symm.trans hw)
      exact ⟨k, d, hsource.move hopened, hprefix⟩
    · obtain rfl : v = w := Option.some.inj (hv.symm.trans hw)
      exact ⟨i, d, ⟨hd, by rw [move_self]; exact hp⟩, hprefix⟩
  returned j d hj := by
    by_cases hji : j = i
    · subst hji
      rw [move_self] at hj
      rcases hreturned d hj with ⟨k, hsource⟩ | hd
      · exact ⟨k, hsource.move hopened⟩
      · exact ⟨j, hd, by rw [move_self, hj]; trivial⟩
    · rw [move_of_ne hji] at hj
      obtain ⟨k, hsource⟩ := hs.returned j d hj
      exact ⟨k, hsource.move hopened⟩

/-- A step that leaves the file alone and does not put the call into a session. -/
theorem Consistent.stay (hs : Consistent x509 draws s) {p : EnsureCall}
    (hi : s.session x509 i = none) (hp : p.session x509 = none)
    (hown : ∀ c, p.root = some c → makeRootCert x509 (draws i) = .ok c)
    (hopened : (s.call i).Opened → p.Opened)
    (hreturned : ∀ c, p = .returned c →
      (∃ k, s.Source x509 draws k c) ∨ makeRootCert x509 (draws i) = .ok c) :
    Consistent x509 draws (s.move i p) :=
  hs.move (by rw [hp]; exact hs.tracks.idle hi) hown hopened (.inl rfl) hreturned

theorem step_consistent (hx : ReadsAsWritten x509 draws) (s : RootPath ι) (a : EnsureStep ι)
    (t : RootPath ι) (hs : Consistent x509 draws s) (h : s.step x509 draws a = some t) :
    Consistent x509 draws t := by
  cases a with
  | check i =>
    obtain ⟨hi, rfl⟩ := check_eq_some h
    have hidle : s.session x509 i = none := by rw [session, hi]; rfl
    have hstart : ¬ (s.call i).Opened := by rw [hi]; exact id
    split
    · exact hs.stay hidle rfl nofun (absurd · hstart) nofun
    · exact hs.stay hidle rfl nofun (absurd · hstart) nofun
  | makeRoot i =>
    obtain ⟨hi, rfl⟩ := makeRoot_eq_some h
    have hidle : s.session x509 i = none := by rw [session, hi]; rfl
    have hmissing : ¬ (s.call i).Opened := by rw [hi]; exact id
    rcases makeRoot_cases x509 (draws i) with ⟨rootca, hroot, hmade⟩ | ⟨e, hthrew⟩
    · rw [hmade]
      exact hs.stay hidle rfl (fun _ hc => by cases hc; exact hroot) (absurd · hmissing)
        nofun
    · rw [hthrew]
      exact hs.stay hidle rfl nofun (absurd · hmissing) nofun
  | openFile i =>
    rcases openFile_eq_some h with ⟨rootca, hi, ⟨file, hopen, rfl⟩ | ⟨-, rfl⟩⟩
    · have hroot := hs.own i rootca (by rw [hi]; rfl)
      exact hs.move (hs.tracks.opened hopen _) (fun _ hc => by cases hc; exact hroot)
        (fun _ => trivial) ((step_content hs h).imp_right fun hnew => ⟨trivial, hnew⟩)
        nofun
    · have hidle : s.session x509 i = none := by rw [session, hi]; rfl
      exact hs.stay hidle rfl nofun (fun _ => trivial) nofun
  | write i n =>
    obtain ⟨rootca, rest, hi, -, rfl⟩ := write_eq_some h
    have hroot := hs.own i rootca (by rw [hi]; rfl)
    have hsession : s.session x509 i = some (exportCertPfx x509 rootca, rest) := by
      rw [session, hi]; rfl
    exact hs.move (hs.tracks.appended hsession n) (fun _ hc => by cases hc; exact hroot)
      (fun _ => trivial) ((step_content hs h).imp_right fun hnew => ⟨trivial, hnew⟩)
      nofun
  | close i =>
    obtain ⟨rootca, hi, rfl⟩ := close_eq_some h
    have hroot := hs.own i rootca (by rw [hi]; rfl)
    have hsession : s.session x509 i ≠ none := by rw [session, hi]; exact Option.some_ne_none _
    exact hs.move (hs.tracks.closed hsession) nofun (fun _ => trivial)
      (.inl rfl) fun _ hc => by cases hc; exact .inr hroot
  | fail i =>
    rcases fail_eq_some h with ⟨⟨rootca, hi⟩, rfl⟩ | ⟨⟨rootca, rest, hi⟩, rfl⟩
    · have hidle : s.session x509 i = none := by rw [session, hi]; rfl
      exact hs.stay hidle rfl nofun (fun _ => trivial) nofun
    · have hsession : s.session x509 i ≠ none := by rw [session, hi]; exact Option.some_ne_none _
      exact hs.move (hs.tracks.closed hsession) nofun (fun _ => trivial)
        (.inl rfl) nofun
  | read i =>
    obtain ⟨hi, rfl⟩ := read_eq_some h
    have hidle : s.session x509 i = none := by rw [session, hi]; rfl
    have hended := EnsureCall.readRoot_ended x509 s.file.content
    refine hs.stay hidle (hended.session_eq_none x509)
      (fun _ hc => by rw [hended.root_eq_none] at hc; cases hc) (fun _ => hended.opened)
      fun d hd => .inl ?_
    obtain ⟨w, hw, himport⟩ := readRoot_eq_returned.mp hd
    obtain ⟨k, c, hsource, hprefix⟩ := hs.stored w hw
    obtain ⟨rfl, -⟩ := hx.import_eq_some hsource.1 hprefix himport
    exact ⟨k, hsource⟩

/-! ## Runs that keep the root -/

/-- Every call that has returned holds the root that is in the file. -/
def Kept (x509 : X509) (s : RootPath ι) : Prop :=
  ∀ i c, s.call i = .returned c → s.file.content = some (exportCertPfx x509 c)

/-- Whoever opens the file to write it does so before any call has returned; an
opening that fails, because another call is writing, does no harm. -/
def OpensInTime (s : RootPath ι) : EnsureStep ι → Prop
  | .openFile _ => s.file.writer = none → ∀ j c, s.call j ≠ .returned c
  | _ => True

instance [Fintype ι] (s : RootPath ι) (a : EnsureStep ι) : Decidable (OpensInTime s a) :=
  match a with
  | .openFile _ =>
    decidable_of_iff (s.file.writer = none → ∀ j, (s.call j).result = none) <| by
      refine imp_congr_right fun _ => forall_congr' fun j => ?_
      cases s.call j <;> simp [EnsureCall.result]
  | .check _ | .makeRoot _ | .write _ _ | .close _ | .fail _ | .read _ => isTrue trivial

theorem Kept.move (hs : Kept x509 s) {file : ExclusiveFile ι UInt8} {p : EnsureCall}
    (hfile : ∀ j c, s.call j = .returned c → file.content = s.file.content)
    (hp : ∀ c, p = .returned c → file.content = some (exportCertPfx x509 c)) :
    Kept x509 ({ s with file := file }.move i p) := by
  intro j c hj
  by_cases hji : j = i
  · subst hji
    rw [move_self] at hj
    exact hp c hj
  · rw [move_of_ne hji] at hj
    exact (hfile j c hj).trans (hs j c hj)

omit [DecidableEq ι] in
/-- While a call has bytes to write, the file is not the export of a root that a
call has returned. -/
theorem Consistent.not_returned_of_writing (hx : ReadsAsWritten x509 draws)
    (hs : Consistent x509 draws s) (hkept : Kept x509 s) {rest : Bytes}
    (hi : s.call i = .writing c rest) (hrest : rest ≠ []) (j : ι) (d : X509Certificate2) :
    s.call j ≠ .returned d := by
  intro hj
  have hc := hs.own i c (by rw [hi]; rfl)
  obtain ⟨k, hd, -⟩ := hs.returned j d hj
  have hw := hs.tracks.writing i _ rest (by rw [session, hi]; rfl)
  -- the file holds all of `d`'s export and only a beginning of `c`'s
  obtain ⟨done, hdone, hall⟩ := hw.content
  rw [hkept j d hj] at hdone
  cases hdone
  obtain ⟨-, hcomplete⟩ := hx.import_eq_some hc ⟨rest, hall⟩ (hx.roundTrip k d hd)
  exact hrest (List.append_right_eq_self.mp (hall.trans hcomplete.symm))

theorem step_kept (hx : ReadsAsWritten x509 draws) (s : RootPath ι) (a : EnsureStep ι)
    (t : RootPath ι) (hs : Consistent x509 draws s ∧ Kept x509 s) (hopens : OpensInTime s a)
    (h : s.step x509 draws a = some t) : Consistent x509 draws t ∧ Kept x509 t := by
  refine ⟨step_consistent hx s a t hs.1 h, ?_⟩
  obtain ⟨hs, hkept⟩ := hs
  cases a with
  | check i =>
    obtain ⟨-, rfl⟩ := check_eq_some h
    refine hkept.move (fun _ _ _ => rfl) fun d hd => ?_
    split at hd <;> cases hd
  | makeRoot i =>
    obtain ⟨-, rfl⟩ := makeRoot_eq_some h
    refine hkept.move (fun _ _ _ => rfl) fun d hd => ?_
    rcases makeRoot_cases x509 (draws i) with ⟨rootca, -, hp⟩ | ⟨e, hp⟩ <;> rw [hp] at hd <;> cases hd
  | openFile i =>
    rcases openFile_eq_some h with ⟨rootca, -, ⟨file, hopen, rfl⟩ | ⟨-, rfl⟩⟩
    · have hnone := hopens (ExclusiveFile.openEmpty_eq_some.mp hopen).1
      exact hkept.move (fun j d hj => absurd hj (hnone j d)) nofun
    · exact hkept.move (fun _ _ _ => rfl) nofun
  | write i n =>
    obtain ⟨rootca, rest, hi, hrest, rfl⟩ := write_eq_some h
    exact hkept.move
      (fun j d hj => absurd hj (hs.not_returned_of_writing hx hkept hi hrest j d))
      nofun
  | close i =>
    obtain ⟨rootca, hi, rfl⟩ := close_eq_some h
    have hw := hs.tracks.writing i (exportCertPfx x509 rootca) [] (by rw [session, hi]; rfl)
    refine hkept.move (fun _ _ _ => rfl) fun d hd => ?_
    cases hd
    exact hw.content_of_nil
  | fail i =>
    rcases fail_eq_some h with ⟨-, rfl⟩ | ⟨-, rfl⟩
    · exact hkept.move (fun _ _ _ => rfl) nofun
    · exact hkept.move (fun _ _ _ => rfl) nofun
  | read i =>
    obtain ⟨-, rfl⟩ := read_eq_some h
    refine hkept.move (fun _ _ _ => rfl) fun d hd => ?_
    obtain ⟨w, hw, himport⟩ := readRoot_eq_returned.mp hd
    obtain ⟨k, c, hsource, hprefix⟩ := hs.stored w hw
    obtain ⟨rfl, rfl⟩ := hx.import_eq_some hsource.1 hprefix himport
    exact hw

omit [DecidableEq ι] in
/-- What reading the file comes to once a call has returned `c`. -/
theorem Kept.readRoot (hx : ReadsAsWritten x509 draws) (hs : Consistent x509 draws s)
    (hkept : Kept x509 s) (hi : s.call i = .returned c) :
    readRoot x509 s.file.content = .returned c := by
  obtain ⟨k, hc, -⟩ := hs.returned i c hi
  exact readRoot_eq_returned.mpr ⟨_, hkept i c hi, hx.roundTrip k c hc⟩

/-- The two calls draw different keys on the same day. -/
def demoCallDraws (i : Bool) : Draws := demoDraws (if i then 2 else 1)

/-- The codec for the roots that the two calls can make. -/
def demoRootX509 : X509 :=
  demoX509 ([false, true].filterMap fun i => (makeRootCert (demoX509 []) (demoCallDraws i)).toOption)

theorem demoRootX509_faithful : FaithfulPfx demoRootX509 demoCallDraws where
  roundTrip i rootca h := by
    have hall : ∀ i, ∀ c ∈ (makeRootCert demoRootX509 (demoCallDraws i)).toOption,
        demoRootX509.importPfx (exportCertPfx demoRootX509 c) (literal "1234") = some c := by
      decide +kernel
    exact hall i rootca (by rw [h]; rfl)
  cutShort i rootca w h hw := by
    have hall : ∀ i, ∀ c ∈ (makeRootCert demoRootX509 (demoCallDraws i)).toOption,
        ∀ w ∈ (exportCertPfx demoRootX509 c).inits, w ≠ exportCertPfx demoRootX509 c →
          demoRootX509.importPfx w (literal "1234") = none := by
      decide +kernel
    exact hall i rootca (by rw [h]; rfl) w ((List.mem_inits ..).mpr hw)
  fresh := by decide

/-- One call after the other. -/
def demoTurns : List (EnsureStep Bool) :=
  [.check false, .makeRoot false, .openFile false, .write false 6, .close false,
    .check true, .read true]

end RootPath
end ExertGrpc
