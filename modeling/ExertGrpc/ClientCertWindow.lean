import ExertGrpc.AuthorityKeyIdentifier

/-! # When a client certificate is valid

All three functions start a certificate at the moment of the call.  `MakeClientCertRsa2`
and `MakeClientCertChain` end it with the root and create it with a signature generator,
which only sees to it that it does not end before it starts; on a clock that is behind
the start of the root it starts before the root does.  `MakeClientCert` gives it a year
and creates it under the root itself, which refuses what is not inside.
-/
namespace ExertGrpc

/-- The dates of the certificate are inside those of the root. -/
structure WindowInside (rootca cert : X509Certificate2) : Prop where
  starts : rootca.notBefore ≤ cert.notBefore
  ordered : cert.notBefore ≤ cert.notAfter
  ends : cert.notAfter ≤ rootca.notAfter

theorem DateTimeOffset.not_lt {a b : DateTimeOffset} : ¬ a < b ↔ b ≤ a := Nat.not_lt

theorem DateTimeOffset.le_trans {a b c : DateTimeOffset} (hab : a ≤ b) (hbc : b ≤ c) : a ≤ c :=
  Nat.le_trans hab hbc

theorem getRSAPrivateKey_eq_some {cert : X509Certificate2} :
    (∃ signer, cert.getRSAPrivateKey = some signer) ↔ cert.privateKey ≠ none := by
  unfold X509Certificate2.getRSAPrivateKey
  cases cert.privateKey <;> simp

section Window
variable {x509 : X509} {addDnsName : Text → Except Exn Text} {rootca cert : X509Certificate2}
  {draws : Draws}

/-- A certificate from now to the end of the root. -/
def FromNow (rootca : X509Certificate2) (draws : Draws) (cert : X509Certificate2) : Prop :=
  cert.notBefore = draws.now ∧ cert.notAfter = rootca.notAfter ∧ draws.now ≤ rootca.notAfter

/-- It is inside exactly when the root has started by now. -/
theorem FromNow.windowInside_iff (h : FromNow rootca draws cert) :
    WindowInside rootca cert ↔ rootca.notBefore ≤ draws.now := by
  obtain ⟨hstart, hend, hle⟩ := h
  constructor
  · intro hw
    rw [← hstart]
    exact hw.starts
  · intro hnow
    exact ⟨hstart ▸ hnow, hstart ▸ hend ▸ hle, hend ▸ Nat.le_refl _⟩

/-- What a function that makes certificates from now on is promised to do: it only ever
makes one when `Makes` holds, and then it does. -/
theorem windowInside_iff_of_fromNow {make : Except Exn X509Certificate2} {Makes : Prop}
    (hmakes : (∃ cert, make = .ok cert) ↔ Makes)
    (hfrom : ∀ cert, make = .ok cert → FromNow rootca draws cert) :
    (∀ cert, make = .ok cert → WindowInside rootca cert) ↔
      (Makes → rootca.notBefore ≤ draws.now) := by
  constructor
  · intro h hm
    obtain ⟨cert, hcert⟩ := hmakes.mpr hm
    exact (hfrom cert hcert).windowInside_iff.mp (h cert hcert)
  · intro h cert hcert
    exact (hfrom cert hcert).windowInside_iff.mpr (h (hmakes.mp ⟨cert, hcert⟩))

/-! ## The three functions -/

theorem makeClientCertRsa2_fromNow (h : makeClientCertRsa2 x509 rootca draws = .ok cert) :
    FromNow rootca draws cert := by
  obtain ⟨signer, -, hrest⟩ := Except.bind_eq_ok.mp h
  obtain ⟨created, hcreate, hcopy⟩ := Except.bind_eq_ok.mp hrest
  obtain ⟨hdates, rfl⟩ := CertificateRequest.create_eq_ok.mp hcreate
  cases hcopy
  exact ⟨rfl, rfl, DateTimeOffset.not_lt.mp hdates⟩

theorem exists_makeClientCertRsa2 :
    (∃ cert, makeClientCertRsa2 x509 rootca draws = .ok cert) ↔
      rootca.privateKey ≠ none ∧ draws.now ≤ rootca.notAfter := by
  rw [← getRSAPrivateKey_eq_some]
  constructor
  · rintro ⟨cert, h⟩
    obtain ⟨-, -, hdates⟩ := makeClientCertRsa2_fromNow h
    obtain ⟨signer, hsigner, -⟩ := Except.bind_eq_ok.mp h
    exact ⟨⟨signer, createForRSA_eq_ok.mp hsigner⟩, hdates⟩
  · rintro ⟨⟨signer, hsigner⟩, hdates⟩
    exact ⟨_, Except.bind_eq_ok.mpr ⟨signer, createForRSA_eq_ok.mpr hsigner,
      Except.bind_eq_ok.mpr ⟨_, CertificateRequest.create_eq_ok.mpr
        ⟨DateTimeOffset.not_lt.mpr hdates, rfl⟩, rfl⟩⟩⟩

theorem makeClientCertChain_fromNow
    (h : makeClientCertChain x509 addDnsName rootca draws = .ok cert) :
    FromNow rootca draws cert := by
  obtain ⟨req, signer, created, -, -, hcreate, rfl⟩ := makeClientCertChain_eq_ok.mp h
  obtain ⟨hdates, rfl⟩ := CertificateRequest.create_eq_ok.mp hcreate
  exact ⟨rfl, rfl, DateTimeOffset.not_lt.mp hdates⟩

/-- Without a key identifier the request is not set up. -/
theorem makeClientCertChain_of_none (hski : rootca.subjectKeyIdentifier = none) :
    makeClientCertChain x509 addDnsName rootca draws = .error .nullReference := by
  rw [makeClientCertChain, clientCertChainRequest, hski]
  rfl

theorem exists_makeClientCertChain_iff :
    (∃ cert, makeClientCertChain x509 addDnsName rootca draws = .ok cert) ↔
      rootca.subjectKeyIdentifier ≠ none ∧ (∃ dnsName, addDnsName rootca.subject = .ok dnsName) ∧
        rootca.privateKey ≠ none ∧ draws.now ≤ rootca.notAfter := by
  cases hski : rootca.subjectKeyIdentifier with
  | none => simp [makeClientCertChain_of_none hski]
  | some keyIdentifier =>
    rw [exists_makeClientCertChain hski, getRSAPrivateKey_eq_some, DateTimeOffset.not_lt]
    simp

/-- **Creating under the root keeps inside it.** -/
theorem createUnder_windowInside {req : CertificateRequest} {notBefore notAfter : DateTimeOffset}
    {serialNumber : Bytes}
    (h : req.createUnder rootca notBefore notAfter serialNumber = .ok cert) :
    WindowInside rootca cert := by
  unfold CertificateRequest.createUnder at h
  cases hkey : rootca.getRSAPrivateKey with
  | none =>
    rw [hkey] at h
    cases h
  | some key =>
    rw [hkey] at h
    dsimp only at h
    split at h
    · cases h
    · rename_i hdates
      simp only [not_or, DateTimeOffset.not_lt] at hdates
      obtain ⟨-, rfl⟩ := CertificateRequest.create_eq_ok.mp h
      exact ⟨hdates.2.1, hdates.1, hdates.2.2.1⟩

theorem makeClientCert_windowInside (h : makeClientCert x509 rootca draws = .ok cert) :
    WindowInside rootca cert := by
  obtain ⟨signer, -, hrest⟩ := Except.bind_eq_ok.mp h
  obtain ⟨created, hcreate, hcopy⟩ := Except.bind_eq_ok.mp hrest
  have hinside := createUnder_windowInside hcreate
  cases hcopy
  exact ⟨hinside.starts, hinside.ordered, hinside.ends⟩

/-- **When a certificate is inside its root**, for every root and every reading of the
clock.  `MakeClientCertRsa2` and `MakeClientCertChain` fail or keep inside exactly when a
root for which they do not fail has started by now; `MakeClientCert` always does. -/
theorem clientCert_windowInside_iff :
    ((∀ cert, makeClientCertRsa2 x509 rootca draws = .ok cert → WindowInside rootca cert) ↔
      (rootca.privateKey ≠ none ∧ draws.now ≤ rootca.notAfter → rootca.notBefore ≤ draws.now)) ∧
    ((∀ cert, makeClientCertChain x509 addDnsName rootca draws = .ok cert →
        WindowInside rootca cert) ↔
      (rootca.subjectKeyIdentifier ≠ none ∧
          (∃ dnsName, addDnsName rootca.subject = .ok dnsName) ∧
          rootca.privateKey ≠ none ∧ draws.now ≤ rootca.notAfter →
        rootca.notBefore ≤ draws.now)) ∧
    (∀ cert, makeClientCert x509 rootca draws = .ok cert → WindowInside rootca cert) :=
  ⟨windowInside_iff_of_fromNow exists_makeClientCertRsa2 fun _ => makeClientCertRsa2_fromNow,
    windowInside_iff_of_fromNow exists_makeClientCertChain_iff fun _ => makeClientCertChain_fromNow,
    fun _ => makeClientCert_windowInside⟩

end Window

/-- The draws of a call in the given year. -/
def demoDrawsIn (year : Nat) : Draws :=
  { demoDraws 2 with now := demoDay year, later := demoDay year }

/-- **A clock one year behind the start of the root**: the root of the demonstration is
valid from 2022 to 2042, and both functions make a certificate that is valid from 2021. -/
theorem clientCert_not_windowInside :
    (∃ cert, makeClientCertRsa2 (demoX509 []) (demoChainRoot [7]) (demoDrawsIn 2021) = .ok cert ∧
      cert.notBefore = demoDay 2021 ∧ ¬ WindowInside (demoChainRoot [7]) cert) ∧
    (∃ cert, makeClientCertChain (demoX509 []) .ok (demoChainRoot [7]) (demoDrawsIn 2021) =
        .ok cert ∧
      cert.notBefore = demoDay 2021 ∧ ¬ WindowInside (demoChainRoot [7]) cert) := by
  have hkey : (demoChainRoot [7]).privateKey ≠ none := nofun
  have hdates : (demoDrawsIn 2021).now ≤ (demoChainRoot [7]).notAfter :=
    show demoDay 2021 ≤ demoDay 2042 by decide
  have hstart : ¬ (demoChainRoot [7]).notBefore ≤ (demoDrawsIn 2021).now :=
    show ¬ demoDay 2022 ≤ demoDay 2021 by decide
  have hrsa2 : ∃ cert, makeClientCertRsa2 (demoX509 []) (demoChainRoot [7]) (demoDrawsIn 2021) =
      .ok cert := exists_makeClientCertRsa2.mpr ⟨hkey, hdates⟩
  have hchain : ∃ cert, makeClientCertChain (demoX509 []) .ok (demoChainRoot [7])
      (demoDrawsIn 2021) = .ok cert :=
    exists_makeClientCertChain_iff.mpr ⟨nofun, ⟨_, rfl⟩, hkey, hdates⟩
  obtain ⟨cert, hcert⟩ := hrsa2
  obtain ⟨cert', hcert'⟩ := hchain
  have hfrom := makeClientCertRsa2_fromNow hcert
  have hfrom' := makeClientCertChain_fromNow hcert'
  exact ⟨⟨cert, hcert, hfrom.1, fun hw => hstart (hfrom.windowInside_iff.mp hw)⟩,
    cert', hcert', hfrom'.1, fun hw => hstart (hfrom'.windowInside_iff.mp hw)⟩

end ExertGrpc
