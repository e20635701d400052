import ExertGrpc.X509

/-! # `CertsMakeService`

The service that makes certificates: `MakeRootCert` a self-signed root,
`MakeClientCertRsa2`, `MakeClientCertChain` and `MakeClientCert` a client certificate
under a given root, and the RPC `MakeCert`, which signs with the root that is embedded
in the program.

What a call takes from outside, the drawn key, the drawn serial number and the
clock, is its argument `Draws`.
-/
namespace ExertGrpc

/-- What a call that makes a certificate draws, and what it reads on the clock.
`later` is a second reading, where the code makes one. -/
structure Draws where
  rsa : RSA
  serialNumber : Bytes
  now : DateTimeOffset
  later : DateTimeOffset
deriving DecidableEq, Repr

/-- `MakeRootCert()`. -/
def makeRootCert (x509 : X509) (draws : Draws) : Except Exn X509Certificate2 :=
  let req : CertificateRequest := {
    subjectName := literal "CN=MyCARootSelfSigned"
    key := draws.rsa
    certificateExtensions := [
      .basicConstraints true false 0 true,
      .subjectKeyIdentifier (x509.keyIdentifier draws.rsa.publicKey) false] }
  req.createSelfSigned draws.now (draws.later.addYears 20) draws.serialNumber

/-- The bytes that `ExportCertPfxTo(cert, path)` writes to the path, with the
default password. -/
def exportCertPfx (x509 : X509) (cert : X509Certificate2) : Bytes :=
  x509.exportPfx cert (literal "1234")

/-- `MakeClientCertRsa2(rootca)`. -/
def makeClientCertRsa2 (x509 : X509) (rootca : X509Certificate2) (draws : Draws) :
    Except Exn X509Certificate2 := do
  let req : CertificateRequest := {
    -- the name of the root, whoever the certificate is for
    subjectName := rootca.issuer
    key := draws.rsa
    certificateExtensions := [
      .basicConstraints false false 0 false,
      .keyUsage [.digitalSignature, .nonRepudiation] false,
      .subjectKeyIdentifier (x509.keyIdentifier draws.rsa.publicKey) false] }
  let signer ← createForRSA rootca.getRSAPrivateKey
  let cert ← req.create rootca.issuer signer draws.now rootca.notAfter draws.serialNumber
  return cert.copyWithPrivateKey draws.rsa

/-- The bytes of the Authority Key Identifier: those of the issuer's Subject Key
Identifier behind its tag and its length, under a header for twenty of them. -/
def authorityKeyIdentifer (issuerSubjectKey : Bytes) : Except Exn Bytes :=
  -- `new ArraySegment<byte>(issuerSubjectKey, 2, issuerSubjectKey.Length - 2)`
  if issuerSubjectKey.length < 2 then .error .argumentOutOfRange
  else .ok ([0x30, 0x16, 0x80, 0x14] ++ issuerSubjectKey.drop 2)

/-- The request that `MakeClientCertChain(rootca)` sets up.  `addDnsName` is
`sanBuilder.AddDnsName`: the name as it is written, or its exception. -/
def clientCertChainRequest (x509 : X509) (addDnsName : Text → Except Exn Text)
    (rootca : X509Certificate2) (draws : Draws) : Except Exn CertificateRequest := do
  let keyIdentifier ← match rootca.subjectKeyIdentifier with
    | some keyIdentifier => Except.ok keyIdentifier
    | none => Except.error Exn.nullReference
  let authorityKeyIdentifer ← authorityKeyIdentifer (subjectKeyIdentifierRawData keyIdentifier)
  let dnsName ← addDnsName rootca.subject
  return {
    subjectName := rootca.issuer
    key := draws.rsa
    certificateExtensions := [
      .basicConstraints false false 0 true,
      .keyUsage [.digitalSignature, .keyEncipherment] true,
      .other (literal "2.5.29.35") authorityKeyIdentifer false,
      .subjectAlternativeName [dnsName],
      .enhancedKeyUsage [literal "1.3.6.1.5.5.7.3.2", literal "1.3.6.1.5.5.7.3.1"] false,
      .subjectKeyIdentifier (x509.keyIdentifier draws.rsa.publicKey) false] }

/-- `MakeClientCertChain(rootca)`. -/
def makeClientCertChain (x509 : X509) (addDnsName : Text → Except Exn Text)
    (rootca : X509Certificate2) (draws : Draws) : Except Exn X509Certificate2 := do
  let req ← clientCertChainRequest x509 addDnsName rootca draws
  let signer ← createForRSA rootca.getRSAPrivateKey
  let cert ← req.create rootca.issuer signer draws.now rootca.notAfter draws.serialNumber
  return cert.copyWithPrivateKey draws.rsa

/-- `MakeClientCert(root)`. -/
def makeClientCert (x509 : X509) (root : X509Certificate2) (draws : Draws) :
    Except Exn X509Certificate2 := do
  let req : CertificateRequest := {
    subjectName := root.issuer
    key := draws.rsa
    certificateExtensions := [
      .basicConstraints false false 0 false,
      .keyUsage [.digitalSignature, .nonRepudiation] false,
      .enhancedKeyUsage [literal "1.3.6.1.5.5.7.3.8"] true,
      .subjectKeyIdentifier (x509.keyIdentifier draws.rsa.publicKey) false] }
  -- the generator is made, and not used
  let _signer ← createForRSA root.getRSAPrivateKey
  let cert ← req.createUnder root draws.now (draws.later.addYears 1) draws.serialNumber
  return cert.copyWithPrivateKey draws.rsa

/-- `MakeCertRequest`. -/
structure MakeCertRequest where
  account : Text
deriving DecidableEq, Repr

/-- `MakeCertReply`. -/
structure MakeCertReply where
  code : Int
  cert : Option Bytes
  tip : Option Text
  pem : Option Text
  ca : Option Text
  cap : Option Bytes
deriving DecidableEq, Repr

/-- `MakeCert`, with the bytes of the embedded root certificate.  The request is
not read. -/
def makeCert (x509 : X509) (rootca_pfx : Bytes) (_request : MakeCertRequest) (draws : Draws) :
    Except Exn MakeCertReply := do
  let rootca ← x509.load rootca_pfx (literal "1234")
  let cert ← makeClientCertRsa2 x509 rootca draws
  return {
    code := 0
    tip := some (x509.showSerialNumber cert.serialNumber)
    cert := some (x509.exportPfx cert (literal "123456"))
    pem := some (x509.exportPem cert)
    ca := none
    cap := some (x509.exportSubjectPublicKeyInfo rootca.publicKey) }

/-! ## What the calls return -/

variable {x509 : X509} {rootca cert : X509Certificate2} {draws : Draws}

/-- While the clock does not run backwards, a root can be made. -/
theorem exists_makeRootCert (h : draws.now ≤ draws.later) :
    ∃ cert, makeRootCert x509 draws = .ok cert := by
  have hdates : ¬ draws.later.addYears 20 < draws.now := by
    have hadd := DateTimeOffset.not_addYears_lt draws.later (show 0 < 20 by omega)
    rw [DateTimeOffset.lt_iff] at hadd ⊢
    exact fun hlt => hadd (Nat.lt_of_lt_of_le hlt h)
  exact ⟨_, Except.bind_eq_ok.mpr
    ⟨_, CertificateRequest.create_eq_ok.mpr ⟨hdates, rfl⟩, rfl⟩⟩

/-- The client certificate is made out to the issuer of the root and by the issuer of
the root, and signed with the root's key. -/
theorem makeClientCertRsa2_names (h : makeClientCertRsa2 x509 rootca draws = .ok cert) :
    cert.subject = rootca.issuer ∧ cert.issuer = rootca.issuer ∧
      cert.signedWith = rootca.publicKey := by
  obtain ⟨signer, hsigner, hrest⟩ := Except.bind_eq_ok.mp h
  obtain ⟨created, hcreate, hcopy⟩ := Except.bind_eq_ok.mp hrest
  obtain ⟨-, rfl⟩ := CertificateRequest.create_eq_ok.mp hcreate
  cases hcopy
  have hkey := createForRSA_eq_ok.mp hsigner
  obtain ⟨key, -, rfl⟩ := Option.map_eq_some_iff.mp hkey
  exact ⟨rfl, rfl, rfl⟩

/-- The draws of a call with the given key. -/
def demoDraws (key : UInt8) : Draws where
  rsa := { publicKey := [key], privateKey := [key] }
  serialNumber := [key]
  now := demoDay 2023
  later := demoDay 2023

end ExertGrpc
