import ExertGrpc.CertificationPath
import ExertGrpc.CertsAuthService
import ExertGrpc.ClientCertWindow
import ExertGrpc.EnsureRootCertLives

/-! # What the issued certificates are worth

A certificate helps its owner if a path leads from it to a root.  All three functions
sign with the key of the certificate they are given, but `MakeClientCertRsa2` and
`MakeClientCertChain` name as issuer the issuer of that certificate, and `MakeClientCert`
its subject.  For a root these are the same; under an intermediate certificate only
`MakeClientCert` makes a certificate that any path leads from.

Whether that certificate may issue is checked by `MakeClientCert` only; on a path it is
asked of an intermediate certificate, and not of the root at its end.

The roots of `MakeRootCert` name themselves and may issue, so under every root that
`EnsureRootCert` ever returns the paths are valid; `Issues` says when each
function issues, and at what times the path is valid.
-/
namespace ExertGrpc
open TransitionRun

/-- The rules for the certificates of the services. -/
def certificationRules : CertificationPath X509Certificate2 DateTimeOffset where
  issued := IssuedUnder
  mayIssue c := c.mayIssue = true
  notBefore c := c.notBefore
  notAfter c := c.notAfter

theorem path_cons_cons {c d : X509Certificate2} {path : List X509Certificate2}
    {time : DateTimeOffset} : certificationRules.Valid (c :: d :: path) time ↔
      (IssuedUnder c d ∧ (path ≠ [] → d.mayIssue = true)) ∧
        (c.notBefore ≤ time ∧ time ≤ c.notAfter) ∧
        certificationRules.Valid (d :: path) time := CertificationPath.valid_cons_cons

section Issued
variable {x509 : X509} {addDnsName : Text → Except Exn Text} {rootca cert : X509Certificate2}
  {draws : Draws} {rest : List X509Certificate2} {time : DateTimeOffset}

/-! ## What the functions put into a certificate -/

theorem makeClientCertChain_names
    (h : makeClientCertChain x509 addDnsName rootca draws = .ok cert) :
    cert.issuer = rootca.issuer ∧ cert.signedWith = rootca.publicKey := by
  obtain ⟨req, signer, created, -, hkey, hcreate, rfl⟩ := makeClientCertChain_eq_ok.mp h
  obtain ⟨-, rfl⟩ := CertificateRequest.create_eq_ok.mp hcreate
  obtain ⟨key, -, rfl⟩ := Option.map_eq_some_iff.mp hkey
  exact ⟨rfl, rfl⟩

/-- What an issuer that is itself a certificate makes, and when. -/
theorem createUnder_eq_ok {req : CertificateRequest} {notBefore notAfter : DateTimeOffset}
    {serialNumber : Bytes} :
    req.createUnder rootca notBefore notAfter serialNumber = .ok cert ↔
      ∃ key, rootca.getRSAPrivateKey = some key ∧ rootca.notBefore ≤ notBefore ∧
        notAfter ≤ rootca.notAfter ∧ rootca.mayIssue = true ∧
        req.create rootca.subject key notBefore notAfter serialNumber = .ok cert := by
  unfold CertificateRequest.createUnder
  cases hkey : rootca.getRSAPrivateKey with
  | none => simp
  | some key =>
    simp only [Option.some.injEq, exists_eq_left']
    by_cases hdates : notAfter < notBefore ∨ notBefore < rootca.notBefore ∨
        rootca.notAfter < notAfter ∨ !rootca.mayIssue
    · rw [if_pos hdates]
      refine iff_of_false nofun fun h => ?_
      obtain ⟨hstart, hend, hmay, hcreate⟩ := h
      have hordered := (CertificateRequest.create_eq_ok.mp hcreate).1
      rcases hdates with hlt | hlt | hlt | hnot
      · exact hordered hlt
      · exact DateTimeOffset.not_lt.mpr hstart hlt
      · exact DateTimeOffset.not_lt.mpr hend hlt
      · simp [hmay] at hnot
    · rw [if_neg hdates]
      simp only [not_or, DateTimeOffset.not_lt, Bool.not_eq_true', Bool.not_eq_false] at hdates
      obtain ⟨-, hstart, hend, hmay⟩ := hdates
      simp [hstart, hend, hmay]

theorem makeClientCert_eq_ok : makeClientCert x509 rootca draws = .ok cert →
    rootca.notBefore ≤ draws.now ∧ draws.now ≤ draws.later.addYears 1 ∧
      draws.later.addYears 1 ≤ rootca.notAfter ∧ rootca.mayIssue = true ∧
      IssuedUnder cert rootca ∧ cert.notBefore = draws.now ∧
      cert.notAfter = draws.later.addYears 1 := by
  intro h
  obtain ⟨signer, -, hrest⟩ := Except.bind_eq_ok.mp h
  obtain ⟨created, hcreate, hcopy⟩ := Except.bind_eq_ok.mp hrest
  obtain ⟨key, hkey, hstart, hend, hmay, hcreated⟩ := createUnder_eq_ok.mp hcreate
  obtain ⟨hordered, rfl⟩ := CertificateRequest.create_eq_ok.mp hcreated
  cases hcopy
  obtain ⟨key, -, rfl⟩ := Option.map_eq_some_iff.mp hkey
  exact ⟨hstart, DateTimeOffset.not_lt.mp hordered, hend, hmay, ⟨rfl, rfl⟩, rfl, rfl⟩

/-- `MakeClientCert` issues exactly when its year is inside the dates of an issuer that may
issue and has its key. -/
theorem exists_makeClientCert_iff : (∃ cert, makeClientCert x509 rootca draws = .ok cert) ↔
    rootca.privateKey ≠ none ∧ rootca.mayIssue = true ∧ rootca.notBefore ≤ draws.now ∧
      draws.now ≤ draws.later.addYears 1 ∧ draws.later.addYears 1 ≤ rootca.notAfter := by
  rw [← getRSAPrivateKey_eq_some]
  constructor
  · rintro ⟨cert, h⟩
    obtain ⟨hstart, hordered, hend, hmay, -⟩ := makeClientCert_eq_ok h
    obtain ⟨signer, hsigner, -⟩ := Except.bind_eq_ok.mp h
    exact ⟨⟨signer, createForRSA_eq_ok.mp hsigner⟩, hmay, hstart, hordered, hend⟩
  · rintro ⟨⟨signer, hsigner⟩, hmay, hstart, hordered, hend⟩
    exact ⟨_, Except.bind_eq_ok.mpr ⟨signer, createForRSA_eq_ok.mpr hsigner,
      Except.bind_eq_ok.mpr ⟨_, createUnder_eq_ok.mpr ⟨signer, hsigner, hstart, hend, hmay,
        CertificateRequest.create_eq_ok.mpr ⟨DateTimeOffset.not_lt.mpr hordered, rfl⟩⟩, rfl⟩⟩⟩

/-! ## Paths under any issuer -/

/-- A certificate from now on that is made out by the issuer of its issuer. -/
theorem FromNow.path_iff (hfrom : FromNow rootca draws cert)
    (hnames : cert.issuer = rootca.issuer ∧ cert.signedWith = rootca.publicKey) :
    certificationRules.Valid (cert :: rootca :: rest) time ↔
      rootca.issuer = rootca.subject ∧ (rest ≠ [] → rootca.mayIssue = true) ∧
        draws.now ≤ time ∧ certificationRules.Valid (rootca :: rest) time := by
  obtain ⟨hstart, hend, -⟩ := hfrom
  rw [path_cons_cons, hstart, hend, IssuedUnder, hnames.1]
  constructor
  · rintro ⟨⟨⟨hself, -⟩, hmay⟩, ⟨hnow, -⟩, hrest⟩
    exact ⟨hself, hmay, hnow, hrest⟩
  · rintro ⟨hself, hmay, hnow, hrest⟩
    have hover : time ≤ rootca.notAfter := (hrest.dates rootca List.mem_cons_self).2
    exact ⟨⟨⟨hself, hnames.2⟩, hmay⟩, ⟨hnow, hover⟩, hrest⟩

theorem makeClientCert_path_iff (h : makeClientCert x509 rootca draws = .ok cert) :
    certificationRules.Valid (cert :: rootca :: rest) time ↔
      draws.now ≤ time ∧ time ≤ draws.later.addYears 1 ∧
        certificationRules.Valid (rootca :: rest) time := by
  obtain ⟨-, -, -, hmay, hissued, hstart, hend⟩ := makeClientCert_eq_ok h
  rw [path_cons_cons, hstart, hend]
  constructor
  · rintro ⟨-, ⟨hnow, hover⟩, hrest⟩
    exact ⟨hnow, hover, hrest⟩
  · rintro ⟨hnow, hover, hrest⟩
    exact ⟨⟨hissued, fun _ => hmay⟩, ⟨hnow, hover⟩, hrest⟩

theorem makeRootCert_eq_ok (h : makeRootCert x509 draws = .ok cert) :
    cert.subject = literal "CN=MyCARootSelfSigned" ∧ IssuedUnder cert cert ∧
      cert.mayIssue = true ∧ cert.privateKey = some draws.rsa.privateKey ∧
      cert.notBefore = draws.now ∧ cert.notAfter = draws.later.addYears 20 ∧
      cert.subjectKeyIdentifier = some (x509.keyIdentifier draws.rsa.publicKey) := by
  obtain ⟨created, hcreate, hcopy⟩ := Except.bind_eq_ok.mp h
  obtain ⟨-, rfl⟩ := CertificateRequest.create_eq_ok.mp hcreate
  cases hcopy
  exact ⟨rfl, ⟨rfl, rfl⟩, rfl, rfl, rfl, rfl, rfl⟩

/-- What the root that is made with the draws `root` is good for when a call draws `client`
and takes names to DNS names by `addDnsName`. -/
structure Issues (x509 : X509) (addDnsName : Text → Except Exn Text) (rootca : X509Certificate2)
    (root client : Draws) : Prop where
  rsa2 : (∃ cert, makeClientCertRsa2 x509 rootca client = .ok cert) ↔
    client.now ≤ root.later.addYears 20
  rsa2_path : ∀ cert, makeClientCertRsa2 x509 rootca client = .ok cert → ∀ time,
    (certificationRules.Valid [cert, rootca] time ↔
      client.now ≤ time ∧ root.now ≤ time ∧ time ≤ root.later.addYears 20)
  chain : (∃ cert, makeClientCertChain x509 addDnsName rootca client = .ok cert) ↔
    (∃ dnsName, addDnsName (literal "CN=MyCARootSelfSigned") = .ok dnsName) ∧
      client.now ≤ root.later.addYears 20
  chain_path : ∀ cert, makeClientCertChain x509 addDnsName rootca client = .ok cert → ∀ time,
    (certificationRules.Valid [cert, rootca] time ↔
      client.now ≤ time ∧ root.now ≤ time ∧ time ≤ root.later.addYears 20)
  /-- The bytes by which the certificate names the key of the root. -/
  chain_keyIdentifier : ∀ cert, makeClientCertChain x509 addDnsName rootca client = .ok cert →
    ∃ bytes, authorityKeyIdentifier cert.extensions = some bytes ∧
      (KeyIdentifierOnly bytes (x509.keyIdentifier root.rsa.publicKey) ↔
        (x509.keyIdentifier root.rsa.publicKey).length = 20)
  clientCert : (∃ cert, makeClientCert x509 rootca client = .ok cert) ↔
    root.now ≤ client.now ∧ client.now ≤ client.later.addYears 1 ∧
      client.later.addYears 1 ≤ root.later.addYears 20
  clientCert_path : ∀ cert, makeClientCert x509 rootca client = .ok cert → ∀ time,
    (certificationRules.Valid [cert, rootca] time ↔
      client.now ≤ time ∧ time ≤ client.later.addYears 1)

theorem issues_of_makeRootCert {root : Draws} (h : makeRootCert x509 root = .ok rootca)
    (client : Draws) : Issues x509 addDnsName rootca root client := by
  obtain ⟨hsubject, hself, hmay, hkey, hstart, hend, hski⟩ := makeRootCert_eq_ok h
  have hhas : rootca.privateKey ≠ none := by rw [hkey]; exact Option.some_ne_none _
  have hanchor : ([] : List X509Certificate2) ≠ [] → rootca.mayIssue = true := fun _ => hmay
  have halone (time : DateTimeOffset) : certificationRules.Valid [rootca] time ↔
      root.now ≤ time ∧ time ≤ root.later.addYears 20 := by
    rw [← hstart, ← hend]
    exact CertificationPath.valid_singleton
  constructor
  case rsa2 => rw [exists_makeClientCertRsa2, hend, and_iff_right hhas]
  case rsa2_path =>
    intro cert hcert time
    rw [(makeClientCertRsa2_fromNow hcert).path_iff (makeClientCertRsa2_names hcert).2, halone,
      and_iff_right hself.1, and_iff_right hanchor]
  case chain =>
    rw [exists_makeClientCertChain_iff, hsubject, hend, hski, and_iff_right hhas,
      and_iff_right (Option.some_ne_none _)]
  case chain_path =>
    intro cert hcert time
    rw [(makeClientCertChain_fromNow hcert).path_iff (makeClientCertChain_names hcert), halone,
      and_iff_right hself.1, and_iff_right hanchor]
  case chain_keyIdentifier =>
    intro cert hcert
    exact ⟨_, authorityKeyIdentifier_cert hski hcert, keyIdentifierOnly_chain_iff _⟩
  case clientCert =>
    rw [exists_makeClientCert_iff, hstart, hend, and_iff_right hhas, and_iff_right hmay]
  case clientCert_path =>
    intro cert hcert time
    obtain ⟨hafter, -, hbefore, -⟩ := makeClientCert_eq_ok hcert
    rw [makeClientCert_path_iff hcert, halone]
    constructor
    · rintro ⟨hnow, hover, -⟩
      exact ⟨hnow, hover⟩
    · rintro ⟨hnow, hover⟩
      -- the year of the certificate is inside the dates of the root
      rw [hstart] at hafter
      rw [hend] at hbefore
      exact ⟨hnow, hover, DateTimeOffset.le_trans hafter hnow, DateTimeOffset.le_trans hover hbefore⟩

end Issued

/-! ## Roots of `EnsureRootCert` -/

namespace RootLives
variable {ι : Type} {x509 : X509} {draws : Nat → ι → Draws} {s t : RootLives ι}

/-- Whatever life a call is in, the root it has returned was made in one. -/
theorem Lived.made (hx : ∀ k, ReadsAsWritten x509 (draws k)) (hs : s.Lived x509 draws) {j : ι}
    {rootca : X509Certificate2} (hj : s.path.call j = .returned rootca) :
    ∃ k i, makeRootCert x509 (draws k i) = .ok rootca := by
  cases hs with
  | first consistent =>
    obtain ⟨i, hmade, -⟩ := consistent.returned j rootca hj
    exact ⟨s.life, i, hmade⟩
  | settled w began settled =>
    obtain ⟨k, i, c, hmade, hprefix⟩ := began
    have hread : RootPath.readRoot x509 (some w) = .returned rootca := by
      rcases settled.calls j with hstart | hfound | hread
      · rw [hj] at hstart
        cases hstart
      · rw [hj] at hfound
        cases hfound
      · exact hread.symm.trans hj
    obtain ⟨v, hv, himport⟩ := RootPath.readRoot_eq_returned.mp hread
    cases hv
    obtain ⟨rfl, -⟩ := (hx k).import_eq_some hmade hprefix himport
    exact ⟨k, i, hmade⟩

/-- **Every root that `EnsureRootCert` ever returns, in any life and by any turn of its
calls, is one that was made by `MakeRootCert` in some life, and issues**: each of the
three functions makes a certificate under it at the stated times, and the path from the
certificate to the root is valid at exactly the stated moments. -/
theorem issues_of_returned [DecidableEq ι] (hx : ∀ k, ReadsAsWritten x509 (draws k))
    {as : List (LifeStep ι)} (hrun : run (step x509 draws) initial as = some t) {j : ι}
    {rootca : X509Certificate2} (hj : t.path.call j = .returned rootca)
    (addDnsName : Text → Except Exn Text) (client : Draws) :
    ∃ k i, makeRootCert x509 (draws k i) = .ok rootca ∧
      Issues x509 addDnsName rootca (draws k i) client := by
  have hlived : t.Lived x509 draws :=
    run_keeps (step_lived hx) (.first RootPath.initial_consistent) hrun
  obtain ⟨k, i, hmade⟩ := hlived.made hx hj
  exact ⟨k, i, hmade, issues_of_makeRootCert hmade client⟩

/-- A life in which a root is made, and one in which it is read. -/
def demoTwoLives : List (LifeStep Bool) :=
  RootPath.demoTurns.map .call ++ [.restart, .call (.check true), .call (.read true)]

theorem issues_of_returned_demo :
    ∃ t rootca k i, run (step RootPath.demoRootX509 fun _ => RootPath.demoCallDraws) initial
        demoTwoLives = some t ∧ t.path.call true = .returned rootca ∧
      Issues RootPath.demoRootX509 .ok rootca (RootPath.demoCallDraws i) (demoDraws k) := by
  obtain ⟨k, i, hmade, hissues⟩ := issues_of_returned
      (fun _ => RootPath.demoRootX509_faithful.toReadsAsWritten)
    (show run (step RootPath.demoRootX509 fun _ => RootPath.demoCallDraws) initial
      demoTwoLives = some _ from rfl) (j := true) rfl .ok (demoDraws 5)
  exact ⟨_, _, 5, i, rfl, rfl, hissues⟩

end RootLives
end ExertGrpc
