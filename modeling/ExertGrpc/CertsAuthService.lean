import ExertGrpc.CertsIdentity

/-! # Who reaches `CertsAuthService`

A request passes three places before a method of the service runs: the TLS layer,
which requires a client certificate on every HTTPS connection and accepts what the
operating system accepts; the certificate handler, which runs the callbacks of
`CertificateEvents`; and the `[Authorize]` attribute of the service, which asks for
`Success`.  None of them looks at the embedded root: the trust in it, as in every
other root, is the operating system's.

What the framework and the operating system decide is the parameter `Framework`.
-/
namespace ExertGrpc

/-! ## Settings -/

inductive ClientCertificateMode where
  | noCertificate
  | allowCertificate
  | requireCertificate
  | delayCertificate
deriving DecidableEq, Repr

inductive CertificateTypes where
  | chained
  | selfSigned
  | all
deriving DecidableEq, Repr

inductive X509RevocationMode where
  | noCheck
  | online
  | offline
deriving DecidableEq, Repr

/-- `CertificateAuthenticationOptions`: what the program sets of it. -/
structure CertificateAuthenticationOptions where
  allowedCertificateTypes : CertificateTypes
  revocationMode : X509RevocationMode
deriving DecidableEq, Repr

/-- The setting of `ConfigureHttpsDefaults`. -/
def clientCertificateMode : ClientCertificateMode := .requireCertificate

/-- The settings of `AddCertificate`. -/
def certificateOptions : CertificateAuthenticationOptions where
  allowedCertificateTypes := .all
  revocationMode := .noCheck

/-- The services that are mapped, and which of them has `[Authorize]`. -/
inductive GrpcService where
  | greeter
  | certsAuth
  | certsMake
deriving DecidableEq, Repr

def GrpcService.authorize : GrpcService → Bool
  | .certsAuth => true
  | .greeter | .certsMake => false

/-! ## Connections -/

/-- Certificate `c` was issued under `d`. -/
def IssuedUnder (c d : X509Certificate2) : Prop :=
  c.issuer = d.subject ∧ c.signedWith = d.publicKey

/-- A client certificate with its chain: each certificate is issued under the next
one, and the last one, the root, under itself. -/
structure CertificateChain where
  leaf : X509Certificate2
  issuers : List X509Certificate2
  linked : (leaf :: issuers).IsChain IssuedUnder
  selfSigned : IssuedUnder ((leaf :: issuers).getLast (List.cons_ne_nil _ _))
    ((leaf :: issuers).getLast (List.cons_ne_nil _ _))

/-- The certificate in which the chain ends. -/
def CertificateChain.root (chain : CertificateChain) : X509Certificate2 :=
  (chain.leaf :: chain.issuers).getLast (List.cons_ne_nil _ _)

/-- A connection to the server, over HTTPS with or without a client certificate. -/
inductive Connection where
  | http
  | https (certificate : Option CertificateChain)

/-- What the framework and the operating system decide. -/
structure Framework where
  /-- Whether the operating system, which trusts the given roots, accepts the chain. -/
  osChainCheck : List X509Certificate2 → CertificateChain → Bool
  /-- Whether the certificate handler validates the certificate. -/
  validates : CertificateAuthenticationOptions → List X509Certificate2 → CertificateChain → Bool
  claimsIssuer : Text
  schemeName : Text

/-! ## The way of a request -/

/-- Whether the TLS layer lets the connection through. -/
def accepts (framework : Framework) (trusted : List X509Certificate2) : Connection → Bool
  | .http => true
  | .https none => clientCertificateMode ≠ .requireCertificate
  -- no validation callback is set: the operating system decides
  | .https (some chain) => framework.osChainCheck trusted chain

/-- What the certificate handler comes to, `none` for no result. -/
def handleAuthenticate (framework : Framework) (trusted : List X509Certificate2)
    (exportCertPfxTo : Except Exn Unit) : Connection → Option AuthenticateResult
  | .https (some chain) =>
    if framework.validates certificateOptions trusted chain then
      some (authenticate exportCertPfxTo {
        clientCertificate := { chain.leaf with privateKey := none }
        claimsIssuer := framework.claimsIssuer
        schemeName := framework.schemeName })
    else some onAuthenticationFailed
  | .https none | .http => none

/-- Whether `[Authorize]` lets the request pass. -/
def authorized : Option AuthenticateResult → Bool
  | some (.success _) => true
  | some (.fail _) | none => false

/-- Whether the body of a method of the service runs. -/
def reaches (framework : Framework) (trusted : List X509Certificate2)
    (exportCertPfxTo : Except Exn Unit) (connection : Connection) (service : GrpcService) : Bool :=
  accepts framework trusted connection &&
    (!service.authorize || authorized (handleAuthenticate framework trusted exportCertPfxTo connection))

structure HelloRequest where
  name : Text

structure HelloReply where
  message : Text
deriving DecidableEq, Repr

/-- `"Hello" + request.Name + " By Certs"`. -/
def helloByCerts (request : HelloRequest) : HelloReply where
  message := literal "Hello" ++ request.name ++ literal " By Certs"

/-- The methods of `CertsAuthService`. -/
inductive CertsAuthMethod where
  | sayHello
  | setAuth
deriving DecidableEq, Repr

def CertsAuthMethod.body : CertsAuthMethod → HelloRequest → HelloReply
  | .sayHello => helloByCerts
  | .setAuth => helloByCerts

/-- A call of `CertsAuthService`: its reply, or `none` if the method does not run. -/
def callCertsAuth (framework : Framework) (trusted : List X509Certificate2)
    (exportCertPfxTo : Except Exn Unit) (connection : Connection) (method : CertsAuthMethod)
    (request : HelloRequest) : Option HelloReply :=
  if reaches framework trusted exportCertPfxTo connection .certsAuth then
    some (method.body request)
  else none

/-! ## Who gets a reply -/

/-- What is known of the framework: the operating system accepts no chain whose root
it does not trust, and the handler validates what the operating system accepts. -/
structure Framework.Documented (framework : Framework) : Prop where
  trusts : ∀ trusted chain, framework.osChainCheck trusted chain = true → chain.root ∈ trusted
  validates : ∀ trusted chain, framework.osChainCheck trusted chain = true →
    framework.validates certificateOptions trusted chain = true

section
variable {framework : Framework} {trusted : List X509Certificate2}
  {exportCertPfxTo : Except Exn Unit} {connection : Connection} {method : CertsAuthMethod}
  {request : HelloRequest} {reply : HelloReply}

theorem authorized_handleAuthenticate :
    authorized (handleAuthenticate framework trusted exportCertPfxTo connection) = true ↔
      ∃ chain, connection = .https (some chain) ∧
        framework.validates certificateOptions trusted chain = true ∧
        exportCertPfxTo = .ok () := by
  cases connection with
  | http => simp [handleAuthenticate, authorized]
  | https certificate =>
    cases certificate with
    | none => simp [handleAuthenticate, authorized]
    | some chain =>
      by_cases hv : framework.validates certificateOptions trusted chain = true
      · cases exportCertPfxTo <;> simp [handleAuthenticate, authorized, hv, onAuthenticationFailed]
      · simp [handleAuthenticate, authorized, hv, onAuthenticationFailed]

/-- Over HTTP, without a certificate, exactly the services without `[Authorize]` are
reached. -/
theorem reaches_http (service : GrpcService) :
    reaches framework trusted exportCertPfxTo .http service = !service.authorize := by
  cases service <;> rfl

/-- A method runs exactly for a caller whose certificate the operating system
accepts, and for whom `OnCertificateValidated` comes to `Success`. -/
theorem callCertsAuth_eq_some (hf : framework.Documented) :
    callCertsAuth framework trusted exportCertPfxTo connection method request = some reply ↔
      reply = method.body request ∧ exportCertPfxTo = .ok () ∧
      ∃ chain, connection = .https (some chain) ∧
        framework.osChainCheck trusted chain = true := by
  rw [callCertsAuth, Option.ite_none_right_eq_some, reaches, GrpcService.authorize, Bool.not_true,
    Bool.false_or, Bool.and_eq_true, authorized_handleAuthenticate]
  constructor
  · rintro ⟨⟨haccepts, chain, rfl, -, hexport⟩, hreply⟩
    exact ⟨(Option.some.inj hreply).symm, hexport, chain, rfl, haccepts⟩
  · rintro ⟨rfl, hexport, chain, rfl, hcheck⟩
    exact ⟨⟨hcheck, chain, rfl, hf.validates trusted chain hcheck, hexport⟩, rfl⟩

/-- **A method of `CertsAuthService` runs only for a caller whose certificate ends in
a root that the operating system trusts.** -/
theorem callCertsAuth_trusted (hf : framework.Documented)
    (h : callCertsAuth framework trusted exportCertPfxTo connection method request = some reply) :
    ∃ chain, connection = .https (some chain) ∧ chain.root ∈ trusted := by
  obtain ⟨-, -, chain, hconnection, hcheck⟩ := (callCertsAuth_eq_some hf).mp h
  exact ⟨chain, hconnection, hf.trusts trusted chain hcheck⟩

end

/-! ## Certificates from `MakeCert`, and others -/

/-- A certificate that `MakeClientCertRsa2` issues under a self-signed root, with its
chain. -/
def issuedChain {x509 : X509} {rootca cert : X509Certificate2} {draws : Draws}
    (hroot : IssuedUnder rootca rootca) (h : makeClientCertRsa2 x509 rootca draws = .ok cert) :
    CertificateChain where
  leaf := cert
  issuers := [rootca]
  linked := .cons_cons
    ⟨(makeClientCertRsa2_names h).2.1.trans hroot.1, (makeClientCertRsa2_names h).2.2⟩
    (.singleton _)
  selfSigned := hroot

/-- An operating system and a framework that look at the root only. -/
def demoFramework : Framework where
  osChainCheck trusted chain := chain.root ∈ trusted
  validates _ trusted chain := chain.root ∈ trusted
  claimsIssuer := []
  schemeName := literal "Certificate"

theorem demoFramework_osChainCheck {trusted : List X509Certificate2} {chain : CertificateChain}
    (h : chain.root ∈ trusted) : demoFramework.osChainCheck trusted chain = true :=
  decide_eq_true h

theorem demoFramework_documented : demoFramework.Documented where
  trusts _ _ h := of_decide_eq_true h
  validates _ _ h := h

theorem callCertsAuth_trusted_demo :
    ∃ (cert : X509Certificate2) (chain : CertificateChain),
      makeClientCertRsa2 (demoX509 []) demoRootCert (demoDraws 2) = .ok cert ∧
      chain.leaf = cert ∧ chain.root ∈ [demoRootCert] := by
  have hsome : (makeClientCertRsa2 (demoX509 []) demoRootCert
      (demoDraws 2)).toOption.isSome := by decide +kernel
  cases hcert : makeClientCertRsa2 (demoX509 []) demoRootCert (demoDraws 2) with
  | error e =>
    rw [hcert] at hsome
    cases hsome
  | ok cert =>
    have hself : IssuedUnder demoRootCert demoRootCert := ⟨rfl, rfl⟩
    have hreply : callCertsAuth demoFramework [demoRootCert] (.ok ())
        (.https (some (issuedChain hself hcert))) .setAuth ⟨[]⟩ = some (helloByCerts ⟨[]⟩) :=
      (callCertsAuth_eq_some demoFramework_documented).mpr
        ⟨rfl, rfl, _, rfl, demoFramework_osChainCheck (List.mem_singleton.mpr rfl)⟩
    obtain ⟨chain, hchain, htrusted⟩ := callCertsAuth_trusted demoFramework_documented hreply
    cases hchain
    exact ⟨cert, _, rfl, rfl, htrusted⟩

/-- A root of somebody else's, and a client certificate under it. -/
def otherRoot : X509Certificate2 :=
  { demoCertificate (literal "CN=Other") 7 with issuer := literal "CN=Other", signedWith := [7] }

def otherChain : CertificateChain where
  leaf := { demoCertificate (literal "CN=you") 8 with
    issuer := literal "CN=Other", signedWith := [7] }
  issuers := [otherRoot]
  linked := .cons_cons ⟨rfl, rfl⟩ (.singleton _)
  selfSigned := ⟨rfl, rfl⟩

/-- **A client of another root that the operating system trusts** gets its reply, too. -/
theorem callCertsAuth_other_root :
    (demoX509 demoIssued).load demoRootPfx (literal "1234") = .ok demoRootCert ∧
    otherChain.root ≠ demoRootCert ∧
    callCertsAuth demoFramework [demoRootCert, otherRoot] (.ok ()) (.https (some otherChain))
      .sayHello ⟨literal "you"⟩ = some (helloByCerts ⟨literal "you"⟩) := by
  refine ⟨demoRootPfx_load, by decide +kernel, ?_⟩
  exact (callCertsAuth_eq_some demoFramework_documented).mpr
    ⟨rfl, rfl, _, rfl,
      demoFramework_osChainCheck (List.mem_cons_of_mem _ (List.mem_singleton.mpr rfl))⟩

end ExertGrpc
