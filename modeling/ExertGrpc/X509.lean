import ExertGrpc.DotNet
import ExertGrpc.Der

/-! # Certificates, as `System.Security.Cryptography.X509Certificates` makes them

A certificate is the record of what the services read of it.  Signatures are
symbolic: a certificate carries the public key under which its signature
verifies.  What depends on encodings, on hashes or on a password is the parameter
`X509`; random keys, serial numbers and clock readings are arguments.

The hash and the padding of a request are the same everywhere in the services and
are left out.
-/
namespace ExertGrpc

/-! ## Dates -/

/-- A date with a time of day in seconds, the resolution of a certificate. -/
structure DateTimeOffset where
  year : Nat
  month : Nat
  day : Nat
  second : Nat
  month_lt : month < 13
  day_lt : day < 32
  second_lt : second < 86400
deriving DecidableEq, Repr

namespace DateTimeOffset

/-- A number that orders dates as they follow one another. -/
def stamp (d : DateTimeOffset) : Nat := ((d.year * 13 + d.month) * 32 + d.day) * 86400 + d.second

instance : LT DateTimeOffset := ⟨fun a b => a.stamp < b.stamp⟩
instance : LE DateTimeOffset := ⟨fun a b => a.stamp ≤ b.stamp⟩
instance (a b : DateTimeOffset) : Decidable (a < b) := inferInstanceAs (Decidable (a.stamp < b.stamp))
instance (a b : DateTimeOffset) : Decidable (a ≤ b) := inferInstanceAs (Decidable (a.stamp ≤ b.stamp))

theorem lt_iff {a b : DateTimeOffset} : a < b ↔ a.stamp < b.stamp := Iff.rfl

def isLeapYear (year : Nat) : Bool := year % 4 == 0 && (year % 100 != 0 || year % 400 == 0)

/-- `AddYears(n)`: the same day, except that 29 February becomes 28 February in a
year that has none. -/
def addYears (d : DateTimeOffset) (n : Nat) : DateTimeOffset :=
  { d with
    year := d.year + n
    day := if d.month = 2 ∧ d.day = 29 ∧ !isLeapYear (d.year + n) then 28 else d.day
    day_lt := by
      split
      · omega
      · exact d.day_lt }

/-- Adding years never leads back before the date. -/
theorem not_addYears_lt (d : DateTimeOffset) {n : Nat} (hn : 0 < n) : ¬ d.addYears n < d := by
  have hs := (d.addYears n).second_lt
  have hd := d.day_lt
  simp only [lt_iff, stamp, addYears]
  split <;> omega

end DateTimeOffset

/-! ## Certificates -/

/-- An RSA key pair, as `RSA.Create` draws it. -/
structure RSA where
  publicKey : Bytes
  privateKey : Bytes
deriving DecidableEq, Repr

inductive X509KeyUsageFlags where
  | digitalSignature
  | nonRepudiation
  | keyEncipherment
  | keyCertSign
deriving DecidableEq, Repr

/-- The extensions the services add. -/
inductive X509Extension where
  | basicConstraints (certificateAuthority hasPathLengthConstraint : Bool)
      (pathLengthConstraint : Nat) (critical : Bool)
  | keyUsage (flags : List X509KeyUsageFlags) (critical : Bool)
  | subjectKeyIdentifier (keyIdentifier : Bytes) (critical : Bool)
  | enhancedKeyUsage (oids : List Text) (critical : Bool)
  | subjectAlternativeName (dnsNames : List Text)
  /-- `new X509Extension(oid, rawData, critical)`. -/
  | other (oid : Text) (rawData : Bytes) (critical : Bool)
deriving DecidableEq, Repr

structure X509Certificate2 where
  subject : Text
  issuer : Text
  serialNumber : Bytes
  notBefore : DateTimeOffset
  notAfter : DateTimeOffset
  publicKey : Bytes
  privateKey : Option Bytes
  extensions : List X509Extension
  /-- The public key under which the signature of the certificate verifies. -/
  signedWith : Bytes
deriving DecidableEq, Repr

namespace X509Certificate2

/-- `GetRSAPrivateKey()`, `none` for `null`. -/
def getRSAPrivateKey (cert : X509Certificate2) : Option RSA :=
  cert.privateKey.map fun key => { publicKey := cert.publicKey, privateKey := key }

/-- `CopyWithPrivateKey(rsa)`. -/
def copyWithPrivateKey (cert : X509Certificate2) (rsa : RSA) : X509Certificate2 :=
  { cert with privateKey := some rsa.privateKey }

/-- `Extensions["Subject Key Identifier"]`, the key identifier in it; `none` for
`null`. -/
def subjectKeyIdentifier (cert : X509Certificate2) : Option Bytes :=
  cert.extensions.findSome? fun
    | .subjectKeyIdentifier keyIdentifier _ => some keyIdentifier
    | _ => none

/-- What `Create` asks of the extensions of an issuer: that it may issue, and, where it
limits the use of its key, that it may sign certificates. -/
def mayIssue (cert : X509Certificate2) : Bool :=
  (cert.extensions.any fun
    | .basicConstraints certificateAuthority _ _ _ => certificateAuthority
    | _ => false) &&
  cert.extensions.all fun
    | .keyUsage flags _ => flags.contains .keyCertSign
    | _ => true

end X509Certificate2

/-- The `RawData` of a Subject Key Identifier extension: an OCTET STRING. -/
def subjectKeyIdentifierRawData (keyIdentifier : Bytes) : Bytes := Der.encode 0x04 keyIdentifier

/-- `X509SignatureGenerator.CreateForRSA(key, padding)`: the generator signs with
`key`, which must not be `null`. -/
def createForRSA : Option RSA → Except Exn RSA
  | some key => .ok key
  | none => .error .argumentNull

theorem createForRSA_eq_ok {key : Option RSA} {signer : RSA} :
    createForRSA key = .ok signer ↔ key = some signer := by
  cases key <;> simp [createForRSA]

/-- What depends on encodings, hashes and passwords. -/
structure X509 where
  /-- `cert.Export(X509ContentType.Pfx, password)`. -/
  exportPfx : X509Certificate2 → Text → Bytes
  /-- `new X509Certificate2(rawData, password)`, `none` when it throws. -/
  importPfx : Bytes → Text → Option X509Certificate2
  /-- `ExportCertificatePem()`. -/
  exportPem : X509Certificate2 → Text
  /-- `PublicKey.ExportSubjectPublicKeyInfo()`. -/
  exportSubjectPublicKeyInfo : Bytes → Bytes
  /-- `Thumbprint`. -/
  thumbprint : X509Certificate2 → Text
  /-- How `SerialNumber` prints a serial number. -/
  showSerialNumber : Bytes → Text
  /-- The key identifier that `X509SubjectKeyIdentifierExtension` computes of a
  public key. -/
  keyIdentifier : Bytes → Bytes

/-- `new X509Certificate2(rawData, password)`. -/
def X509.load (x509 : X509) (rawData : Bytes) (password : Text) : Except Exn X509Certificate2 :=
  match x509.importPfx rawData password with
  | some cert => .ok cert
  | none => .error .cryptographic

theorem X509.load_eq_ok {x509 : X509} {rawData : Bytes} {password : Text}
    {cert : X509Certificate2} :
    x509.load rawData password = .ok cert ↔ x509.importPfx rawData password = some cert := by
  cases h : x509.importPfx rawData password <;> simp [load, h]

/-! ## Certificate requests -/

/-- `CertificateRequest`. -/
structure CertificateRequest where
  subjectName : Text
  key : RSA
  certificateExtensions : List X509Extension

namespace CertificateRequest

/-- `Create(issuerName, generator, notBefore, notAfter, serialNumber)`, where the
generator signs with the key pair `signer`. -/
def create (req : CertificateRequest) (issuerName : Text) (signer : RSA)
    (notBefore notAfter : DateTimeOffset) (serialNumber : Bytes) : Except Exn X509Certificate2 :=
  if notAfter < notBefore then .error .argument
  else .ok {
    subject := req.subjectName
    issuer := issuerName
    serialNumber := serialNumber
    notBefore := notBefore
    notAfter := notAfter
    publicKey := req.key.publicKey
    privateKey := none
    extensions := req.certificateExtensions
    signedWith := signer.publicKey }

/-- `Create(issuerCertificate, notBefore, notAfter, serialNumber)`, which refuses an issuer
that may not issue and dates that are not inside the issuer's. -/
def createUnder (req : CertificateRequest) (issuerCertificate : X509Certificate2)
    (notBefore notAfter : DateTimeOffset) (serialNumber : Bytes) : Except Exn X509Certificate2 :=
  match issuerCertificate.getRSAPrivateKey with
  | none => .error .argument
  | some key =>
    if notAfter < notBefore ∨ notBefore < issuerCertificate.notBefore ∨
        issuerCertificate.notAfter < notAfter ∨ !issuerCertificate.mayIssue then
      .error .argument
    else req.create issuerCertificate.subject key notBefore notAfter serialNumber

/-- `CreateSelfSigned(notBefore, notAfter)`, which draws the serial number itself. -/
def createSelfSigned (req : CertificateRequest) (notBefore notAfter : DateTimeOffset)
    (serialNumber : Bytes) : Except Exn X509Certificate2 := do
  let cert ← req.create req.subjectName req.key notBefore notAfter serialNumber
  return cert.copyWithPrivateKey req.key

variable {req : CertificateRequest} {issuerName : Text} {signer : RSA}
  {notBefore notAfter : DateTimeOffset} {serialNumber : Bytes} {cert : X509Certificate2}

/-- A created certificate has the names, the key and the dates it was asked for,
and no private key. -/
theorem create_eq_ok :
    req.create issuerName signer notBefore notAfter serialNumber = .ok cert ↔
      ¬ notAfter < notBefore ∧ cert = {
        subject := req.subjectName
        issuer := issuerName
        serialNumber := serialNumber
        notBefore := notBefore
        notAfter := notAfter
        publicKey := req.key.publicKey
        privateKey := none
        extensions := req.certificateExtensions
        signedWith := signer.publicKey } := by
  rw [create]
  split <;> simp_all [eq_comm]

end CertificateRequest

/-! ## A small codec -/

/-- A PFX file that holds a public key and the password, for a world with the
given certificates. -/
def demoX509 (certs : List X509Certificate2) : X509 :=
  let exportPfx (cert : X509Certificate2) (password : Text) : Bytes :=
    cert.publicKey ++ password.map UInt16.toUInt8 ++ [0]
  { exportPfx := exportPfx
    importPfx := fun rawData password => certs.find? fun cert => exportPfx cert password = rawData
    exportPem := fun cert => cert.subject
    exportSubjectPublicKeyInfo := fun key => key
    thumbprint := fun cert => cert.publicKey.map UInt8.toUInt16
    showSerialNumber := fun serialNumber => serialNumber.map UInt8.toUInt16
    keyIdentifier := fun key => key }

theorem demoX509_mem {certs : List X509Certificate2} {rawData : Bytes} {password : Text}
    {cert : X509Certificate2} (h : (demoX509 certs).importPfx rawData password = some cert) :
    cert ∈ certs := by
  simp only [demoX509] at h
  exact List.mem_of_find?_eq_some h

def demoDay (year : Nat) : DateTimeOffset where
  year := year
  month := 12
  day := 2
  second := 0
  month_lt := by omega
  day_lt := by omega
  second_lt := by omega

/-- A certificate of the given subject and key, under `CN=MyCARoot`. -/
def demoCertificate (subject : Text) (key : UInt8) : X509Certificate2 where
  subject := subject
  issuer := literal "CN=MyCARoot"
  serialNumber := [key]
  notBefore := demoDay 2022
  notAfter := demoDay 2042
  publicKey := [key]
  privateKey := some [key]
  extensions := []
  signedWith := [1]

end ExertGrpc
