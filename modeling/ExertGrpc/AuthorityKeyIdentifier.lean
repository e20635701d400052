import ExertGrpc.CertsMakeService

/-! # The Authority Key Identifier of `MakeClientCertChain`

The function takes the Subject Key Identifier of the issuer, drops the two octets of
its tag and its length, and puts the rest behind four octets of its own: a SEQUENCE of
22 octets, and in it a `[0]` of 20.  Both lengths are literals, so they are those of the
identifier just when it has the 20 octets of a SHA-1 hash; and the two octets that are
dropped are all of the old header just when the identifier is short.
-/
namespace ExertGrpc

/-- The bytes of the Authority Key Identifier among the extensions. -/
def authorityKeyIdentifier (extensions : List X509Extension) : Option Bytes :=
  extensions.findSome? fun
    | .other oid rawData _ => if oid = literal "2.5.29.35" then some rawData else none
    | _ => none

/-- The bytes are a SEQUENCE that holds the key identifier as its `[0]`, with nothing left
over. -/
def KeyIdentifierOnly (bytes keyIdentifier : Bytes) : Prop :=
  ∃ contents, Der.decode bytes = some (0x30, contents, []) ∧
    Der.decode contents = some (0x80, keyIdentifier, [])

/-- They are what is written for it, and nothing else is. -/
theorem keyIdentifierOnly_iff {bytes keyIdentifier : Bytes} :
    KeyIdentifierOnly bytes keyIdentifier ↔ keyIdentifier.length < Der.lengthLimit ∧
      (Der.encode 0x80 keyIdentifier).length < Der.lengthLimit ∧
      bytes = Der.encode 0x30 (Der.encode 0x80 keyIdentifier) := by
  unfold KeyIdentifierOnly
  simp only [Der.decode_eq_some, List.append_nil]
  constructor
  · rintro ⟨contents, ⟨hcontents, rfl⟩, hidentifier, rfl⟩
    exact ⟨hidentifier, hcontents, rfl⟩
  · rintro ⟨hidentifier, hcontents, rfl⟩
    exact ⟨_, ⟨hcontents, rfl⟩, hidentifier, rfl⟩

/-- **The four octets fit exactly twenty others.** -/
theorem keyIdentifierOnly_header {segment keyIdentifier : Bytes} :
    KeyIdentifierOnly ([0x30, 0x16, 0x80, 0x14] ++ segment) keyIdentifier ↔
      segment.length = 20 ∧ keyIdentifier = segment := by
  rw [keyIdentifierOnly_iff]
  show _ ∧ _ ∧ 0x30 :: 0x16 :: 0x80 :: 0x14 :: segment = _ ↔ _
  constructor
  · rintro ⟨hidentifier, hcontents, hbytes⟩
    obtain ⟨-, -, hinner⟩ := (Der.encode_eq_short_iff hcontents (by decide)).mp hbytes
    obtain ⟨-, hlen, rfl⟩ := (Der.encode_eq_short_iff hidentifier (by decide)).mp hinner.symm
    exact ⟨hlen, rfl⟩
  · rintro ⟨hlen, rfl⟩
    have hidentifier : keyIdentifier.length < Der.lengthLimit := Der.lt_lengthLimit (by omega)
    have hinner : 0x80 :: 0x14 :: keyIdentifier = Der.encode 0x80 keyIdentifier :=
      (Der.encode_eq_short_iff hidentifier (by decide)).mpr ⟨rfl, hlen, rfl⟩
    have hcontents : (Der.encode 0x80 keyIdentifier).length = 22 := by
      rw [← hinner, List.length_cons, List.length_cons, hlen]
    have hlimit : (Der.encode 0x80 keyIdentifier).length < Der.lengthLimit :=
      Der.lt_lengthLimit (by omega)
    exact ⟨hidentifier, hlimit,
      (Der.encode_eq_short_iff hlimit (by decide)).mpr ⟨rfl, hcontents, hinner.symm⟩⟩

/-- The bytes that are put there for a given key identifier. -/
def chainKeyIdentifier (keyIdentifier : Bytes) : Bytes :=
  [0x30, 0x16, 0x80, 0x14] ++ (subjectKeyIdentifierRawData keyIdentifier).drop 2

theorem authorityKeyIdentifer_eq (keyIdentifier : Bytes) :
    authorityKeyIdentifer (subjectKeyIdentifierRawData keyIdentifier) =
      .ok (chainKeyIdentifier keyIdentifier) := by
  have htwo : 2 ≤ (subjectKeyIdentifierRawData keyIdentifier).length :=
    Der.two_le_length_encode 0x04 keyIdentifier
  rw [authorityKeyIdentifer, if_neg (by omega)]
  rfl

theorem keyIdentifierOnly_chain_iff (keyIdentifier : Bytes) :
    KeyIdentifierOnly (chainKeyIdentifier keyIdentifier) keyIdentifier ↔
      keyIdentifier.length = 20 := by
  rw [chainKeyIdentifier, keyIdentifierOnly_header]
  constructor
  · rintro ⟨hlen, hsegment⟩
    rw [hsegment]
    exact hlen
  · intro hlen
    have hsegment : (subjectKeyIdentifierRawData keyIdentifier).drop 2 = keyIdentifier := by
      rw [subjectKeyIdentifierRawData, Der.encode_eq_of_short _ (by omega)]
      rfl
    rw [hsegment]
    exact ⟨hlen, rfl⟩

section Chain
variable {x509 : X509} {addDnsName : Text → Except Exn Text} {rootca cert : X509Certificate2}
  {draws : Draws} {req : CertificateRequest} {keyIdentifier : Bytes}

/-- What the request for a root with a key identifier holds. -/
theorem clientCertChainRequest_eq_ok (hski : rootca.subjectKeyIdentifier = some keyIdentifier) :
    clientCertChainRequest x509 addDnsName rootca draws = .ok req ↔
      ∃ dnsName, addDnsName rootca.subject = .ok dnsName ∧ req = {
        subjectName := rootca.issuer
        key := draws.rsa
        certificateExtensions := [
          .basicConstraints false false 0 true,
          .keyUsage [.digitalSignature, .keyEncipherment] true,
          .other (literal "2.5.29.35") (chainKeyIdentifier keyIdentifier) false,
          .subjectAlternativeName [dnsName],
          .enhancedKeyUsage [literal "1.3.6.1.5.5.7.3.2", literal "1.3.6.1.5.5.7.3.1"] false,
          .subjectKeyIdentifier (x509.keyIdentifier draws.rsa.publicKey) false] } := by
  rw [clientCertChainRequest, hski]
  show (authorityKeyIdentifer (subjectKeyIdentifierRawData keyIdentifier) >>= _) = _ ↔ _
  rw [authorityKeyIdentifer_eq]
  show (addDnsName rootca.subject >>= _) = _ ↔ _
  rw [Except.bind_eq_ok]
  refine exists_congr fun dnsName => and_congr_right fun _ => ?_
  constructor
  · intro h
    cases h
    rfl
  · rintro rfl
    rfl

theorem makeClientCertChain_eq_ok :
    makeClientCertChain x509 addDnsName rootca draws = .ok cert ↔
      ∃ req signer created, clientCertChainRequest x509 addDnsName rootca draws = .ok req ∧
        rootca.getRSAPrivateKey = some signer ∧
        req.create rootca.issuer signer draws.now rootca.notAfter draws.serialNumber = .ok created ∧
        cert = created.copyWithPrivateKey draws.rsa := by
  rw [makeClientCertChain, Except.bind_eq_ok]
  simp only [Except.bind_eq_ok, createForRSA_eq_ok]
  constructor
  · rintro ⟨req, hreq, signer, hsigner, created, hcreate, hcopy⟩
    cases hcopy
    exact ⟨req, signer, created, hreq, hsigner, hcreate, rfl⟩
  · rintro ⟨req, signer, created, hreq, hsigner, hcreate, rfl⟩
    exact ⟨req, hreq, signer, hsigner, created, hcreate, rfl⟩

/-- A certificate is made unless the root has no key, or its name is not a DNS name, or
it is over. -/
theorem exists_makeClientCertChain (hski : rootca.subjectKeyIdentifier = some keyIdentifier) :
    (∃ cert, makeClientCertChain x509 addDnsName rootca draws = .ok cert) ↔
      (∃ dnsName, addDnsName rootca.subject = .ok dnsName) ∧
        (∃ signer, rootca.getRSAPrivateKey = some signer) ∧ ¬ rootca.notAfter < draws.now := by
  constructor
  · rintro ⟨cert, hcert⟩
    obtain ⟨req, signer, created, hreq, hsigner, hcreate, -⟩ := makeClientCertChain_eq_ok.mp hcert
    obtain ⟨dnsName, hdns, -⟩ := (clientCertChainRequest_eq_ok hski).mp hreq
    exact ⟨⟨dnsName, hdns⟩, ⟨signer, hsigner⟩, (CertificateRequest.create_eq_ok.mp hcreate).1⟩
  · rintro ⟨⟨dnsName, hdns⟩, ⟨signer, hsigner⟩, hdates⟩
    exact ⟨_, makeClientCertChain_eq_ok.mpr ⟨_, signer, _,
      (clientCertChainRequest_eq_ok hski).mpr ⟨dnsName, hdns, rfl⟩, hsigner,
      CertificateRequest.create_eq_ok.mpr ⟨hdates, rfl⟩, rfl⟩⟩

theorem authorityKeyIdentifier_request (hski : rootca.subjectKeyIdentifier = some keyIdentifier)
    (h : clientCertChainRequest x509 addDnsName rootca draws = .ok req) :
    authorityKeyIdentifier req.certificateExtensions = some (chainKeyIdentifier keyIdentifier) := by
  obtain ⟨dnsName, -, rfl⟩ := (clientCertChainRequest_eq_ok hski).mp h
  simp [authorityKeyIdentifier]

theorem authorityKeyIdentifier_cert (hski : rootca.subjectKeyIdentifier = some keyIdentifier)
    (h : makeClientCertChain x509 addDnsName rootca draws = .ok cert) :
    authorityKeyIdentifier cert.extensions = some (chainKeyIdentifier keyIdentifier) := by
  obtain ⟨req, signer, created, hreq, -, hcreate, rfl⟩ := makeClientCertChain_eq_ok.mp h
  obtain ⟨-, rfl⟩ := CertificateRequest.create_eq_ok.mp hcreate
  exact authorityKeyIdentifier_request hski hreq

/-- **The Authority Key Identifier is a well-formed encoding of the root's key identifier
exactly when that has twenty octets**, for every root with a key identifier of any
length: its bytes are in the request, and in every certificate that is made of it. -/
theorem makeClientCertChain_keyIdentifier_iff
    (hski : rootca.subjectKeyIdentifier = some keyIdentifier) :
    (∀ req, clientCertChainRequest x509 addDnsName rootca draws = .ok req →
      authorityKeyIdentifier req.certificateExtensions = some (chainKeyIdentifier keyIdentifier)) ∧
    (∀ cert, makeClientCertChain x509 addDnsName rootca draws = .ok cert →
      authorityKeyIdentifier cert.extensions = some (chainKeyIdentifier keyIdentifier)) ∧
    (KeyIdentifierOnly (chainKeyIdentifier keyIdentifier) keyIdentifier ↔
      keyIdentifier.length = 20) :=
  ⟨fun _ => authorityKeyIdentifier_request hski, fun _ => authorityKeyIdentifier_cert hski,
    keyIdentifierOnly_chain_iff keyIdentifier⟩

end Chain

/-- A root with the given key identifier. -/
def demoChainRoot (keyIdentifier : Bytes) : X509Certificate2 :=
  { demoCertificate (literal "CN=MyCARoot") 1 with
    extensions := [.basicConstraints true false 0 true, .subjectKeyIdentifier keyIdentifier false] }

theorem makeClientCertChain_keyIdentifier_demo :
    (∀ req, clientCertChainRequest (demoX509 []) .ok (demoChainRoot (List.replicate 20 7))
        (demoDraws 2) = .ok req → authorityKeyIdentifier req.certificateExtensions =
          some (chainKeyIdentifier (List.replicate 20 7))) ∧
    (∀ cert, makeClientCertChain (demoX509 []) .ok (demoChainRoot (List.replicate 20 7))
        (demoDraws 2) = .ok cert → authorityKeyIdentifier cert.extensions =
          some (chainKeyIdentifier (List.replicate 20 7))) ∧
    (KeyIdentifierOnly (chainKeyIdentifier (List.replicate 20 7)) (List.replicate 20 7) ↔
      (List.replicate 20 7 : Bytes).length = 20) :=
  makeClientCertChain_keyIdentifier_iff rfl

/-- **A key identifier of four octets**: a certificate is made, and its Authority Key
Identifier announces twenty. -/
theorem makeClientCertChain_not_keyIdentifier :
    ∃ cert, makeClientCertChain (demoX509 []) .ok (demoChainRoot [1, 2, 3, 4]) (demoDraws 2) =
        .ok cert ∧
      authorityKeyIdentifier cert.extensions = some [0x30, 0x16, 0x80, 0x14, 1, 2, 3, 4] ∧
      ¬ KeyIdentifierOnly [0x30, 0x16, 0x80, 0x14, 1, 2, 3, 4] [1, 2, 3, 4] := by
  have hski : (demoChainRoot [1, 2, 3, 4]).subjectKeyIdentifier = some [1, 2, 3, 4] := rfl
  have hdates : ¬ demoDay 2042 < demoDay 2023 := by decide
  have hmade : ∃ cert, makeClientCertChain (demoX509 []) .ok (demoChainRoot [1, 2, 3, 4])
      (demoDraws 2) = .ok cert := by
    rw [exists_makeClientCertChain hski]
    exact ⟨⟨_, rfl⟩, ⟨_, rfl⟩, hdates⟩
  obtain ⟨cert, hcert⟩ := hmade
  have honly : ¬ KeyIdentifierOnly (chainKeyIdentifier [1, 2, 3, 4]) [1, 2, 3, 4] := by
    rw [keyIdentifierOnly_chain_iff]
    decide
  exact ⟨cert, hcert, authorityKeyIdentifier_cert hski hcert, honly⟩

end ExertGrpc
