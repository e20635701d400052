import ExertGrpc.CertificateEvents

/-! # Whom a certificate from `MakeCert` logs in

The identity of a client goes from the request of `MakeCert` through the subject of
the certificate it issues to the claims that `OnCertificateValidated` builds from
that subject.  `MakeCert` keeps nothing between requests, so what happens in between,
and when, is covered by the draws of each request.

The certificates are made out to the issuer of the root, as the rules for client
certificates ask, so every one of them logs in the name of the CA.
-/
namespace ExertGrpc

/-- What the server sees of the certificate in a reply: the client loads it with the
password of `MakeCert` and presents it without its private key. -/
def presentCert (x509 : X509) (reply : MakeCertReply) : Except Exn X509Certificate2 := do
  let cert ← x509.load (reply.cert.getD []) (literal "123456")
  return { cert with privateKey := none }

/-- `principal` is whom the server takes a client for that presents the certificate
which `MakeCert` issued for `request`. -/
def LoggedIn (x509 : X509) (rootca_pfx : Bytes) (request : MakeCertRequest) (draws : Draws)
    (principal : ClaimsPrincipal) : Prop :=
  ∃ reply context exportCertPfxTo, makeCert x509 rootca_pfx request draws = .ok reply ∧
    presentCert x509 reply = .ok context.clientCertificate ∧
    authenticate exportCertPfxTo context = .success principal

/-- Whenever the PFX file of an issued certificate can be loaded, what is loaded has
the subject that the certificate was made out to. -/
def KeepsSubject (x509 : X509) (rootca : X509Certificate2) : Prop :=
  ∀ draws cert loaded, makeClientCertRsa2 x509 rootca draws = .ok cert →
    x509.importPfx (x509.exportPfx cert (literal "123456")) (literal "123456") = some loaded →
      loaded.subject = cert.subject

variable {x509 : X509} {rootca_pfx : Bytes} {rootca : X509Certificate2}
  {request : MakeCertRequest} {draws : Draws} {reply : MakeCertReply}

/-- A reply holds a certificate that was made out under the embedded root. -/
theorem makeCert_eq_ok (hroot : x509.load rootca_pfx (literal "1234") = .ok rootca)
    (h : makeCert x509 rootca_pfx request draws = .ok reply) :
    ∃ cert, makeClientCertRsa2 x509 rootca draws = .ok cert ∧
      reply.cert = some (x509.exportPfx cert (literal "123456")) := by
  obtain ⟨root, hload, hrest⟩ := Except.bind_eq_ok.mp h
  obtain rfl : rootca = root := Except.ok.inj (hroot.symm.trans hload)
  obtain ⟨cert, hcert, hreply⟩ := Except.bind_eq_ok.mp hrest
  cases hreply
  exact ⟨cert, hcert, rfl⟩

/-- Whoever logs in with an issued certificate does so under the issuer of the root. -/
theorem LoggedIn.valuesOf (hx : KeepsSubject x509 rootca)
    (hroot : x509.load rootca_pfx (literal "1234") = .ok rootca) {principal : ClaimsPrincipal}
    (h : LoggedIn x509 rootca_pfx request draws principal) (type : ClaimTypes) :
    principal.valuesOf type = [rootca.issuer] := by
  obtain ⟨reply, context, exportCertPfxTo, hreply, hpresent, hauth⟩ := h
  obtain ⟨cert, hcert, hpfx⟩ := makeCert_eq_ok hroot hreply
  obtain ⟨loaded, hload, hcontext⟩ := Except.bind_eq_ok.mp hpresent
  rw [hpfx, Option.getD_some, X509.load_eq_ok] at hload
  have hsubject : context.clientCertificate.subject = rootca.issuer := calc
    context.clientCertificate.subject = loaded.subject := by rw [← Except.ok.inj hcontext]
    _ = cert.subject := hx draws cert loaded hcert hload
    _ = rootca.issuer := (makeClientCertRsa2_names hcert).1
  rw [(authenticate_eq_success.mp hauth).2, validatedPrincipal_valuesOf, hsubject]

/-- **Any two requests of `MakeCert`, whatever their accounts, log in under one
name**, the issuer of the embedded root. -/
theorem loggedIn_issuer (hx : KeepsSubject x509 rootca)
    (hroot : x509.load rootca_pfx (literal "1234") = .ok rootca)
    (request₁ request₂ : MakeCertRequest) (draws₁ draws₂ : Draws)
    (principal₁ principal₂ : ClaimsPrincipal)
    (h₁ : LoggedIn x509 rootca_pfx request₁ draws₁ principal₁)
    (h₂ : LoggedIn x509 rootca_pfx request₂ draws₂ principal₂) (type : ClaimTypes) :
    principal₁.valuesOf type = [rootca.issuer] ∧ principal₂.valuesOf type = [rootca.issuer] :=
  ⟨h₁.valuesOf hx hroot type, h₂.valuesOf hx hroot type⟩

/-! ## Two accounts -/

/-- The embedded root: self-signed, with its key. -/
def demoRootCert : X509Certificate2 := demoCertificate (literal "CN=MyCARoot") 1

/-- The root and two certificates under it. -/
def demoIssued : List X509Certificate2 :=
  demoRootCert :: [2, 3].filterMap fun key =>
    (makeClientCertRsa2 (demoX509 []) demoRootCert (demoDraws key)).toOption

def demoRootPfx : Bytes := (demoX509 demoIssued).exportPfx demoRootCert (literal "1234")

theorem demoRootPfx_load :
    (demoX509 demoIssued).load demoRootPfx (literal "1234") = .ok demoRootCert :=
  X509.load_eq_ok.mpr (by decide +kernel)

theorem demoIssued_keepsSubject : KeepsSubject (demoX509 demoIssued) demoRootCert := by
  intro draws cert loaded hcert hload
  have hall : ∀ c ∈ demoIssued, c.subject = demoRootCert.issuer := by decide +kernel
  rw [hall loaded (demoX509_mem hload), (makeClientCertRsa2_names hcert).1]

/-- A client that got the certificate of either key logs in. -/
theorem demo_loggedIn (account : Text) (key : UInt8) (hkey : key ∈ [2, 3]) :
    ∃ principal, LoggedIn (demoX509 demoIssued) demoRootPfx ⟨account⟩ (demoDraws key)
      principal := by
  have hall : ∀ key ∈ ([2, 3] : List UInt8),
      ((makeCert (demoX509 demoIssued) demoRootPfx ⟨[]⟩ (demoDraws key) >>=
        presentCert (demoX509 demoIssued)).toOption).isSome := by decide +kernel
  have hsome := hall key hkey
  cases hpresent : makeCert (demoX509 demoIssued) demoRootPfx ⟨[]⟩ (demoDraws key) >>=
      presentCert (demoX509 demoIssued) with
  | error e =>
    rw [hpresent] at hsome
    cases hsome
  | ok cert =>
    obtain ⟨reply, hreply, hcert⟩ := Except.bind_eq_ok.mp hpresent
    exact ⟨_, reply, ⟨cert, [], literal "Certificate"⟩, .ok (), hreply, hcert, rfl⟩

theorem loggedIn_issuer_demo :
    ∃ principal₁ principal₂,
      LoggedIn (demoX509 demoIssued) demoRootPfx ⟨literal "alice"⟩ (demoDraws 2) principal₁ ∧
      LoggedIn (demoX509 demoIssued) demoRootPfx ⟨literal "bob"⟩ (demoDraws 3) principal₂ ∧
      ∀ type, principal₁.valuesOf type = [demoRootCert.issuer] ∧
        principal₂.valuesOf type = [demoRootCert.issuer] := by
  obtain ⟨principal₁, h₁⟩ := demo_loggedIn (literal "alice") 2 (by decide)
  obtain ⟨principal₂, h₂⟩ := demo_loggedIn (literal "bob") 3 (by decide)
  exact ⟨principal₁, principal₂, h₁, h₂, fun type => loggedIn_issuer demoIssued_keepsSubject
    demoRootPfx_load ⟨literal "alice"⟩ ⟨literal "bob"⟩ (demoDraws 2) (demoDraws 3)
    principal₁ principal₂ h₁ h₂ type⟩

/-- **Two accounts, one identity**: the two clients have the same name identifier and
the same name, and it is the name of the CA. -/
theorem loggedIn_same_identity :
    literal "alice" ≠ literal "bob" ∧
    ∃ principal₁ principal₂,
      LoggedIn (demoX509 demoIssued) demoRootPfx ⟨literal "alice"⟩ (demoDraws 2) principal₁ ∧
      LoggedIn (demoX509 demoIssued) demoRootPfx ⟨literal "bob"⟩ (demoDraws 3) principal₂ ∧
      principal₁.valuesOf .nameIdentifier = principal₂.valuesOf .nameIdentifier ∧
      principal₁.valuesOf .name = principal₂.valuesOf .name ∧
      principal₁.valuesOf .nameIdentifier = [demoRootCert.subject] := by
  obtain ⟨principal₁, h₁⟩ := demo_loggedIn (literal "alice") 2 (by decide)
  obtain ⟨principal₂, h₂⟩ := demo_loggedIn (literal "bob") 3 (by decide)
  have hv₁ := h₁.valuesOf demoIssued_keepsSubject demoRootPfx_load
  have hv₂ := h₂.valuesOf demoIssued_keepsSubject demoRootPfx_load
  refine ⟨by decide +kernel, principal₁, principal₂, h₁, h₂, ?_, ?_, hv₁ _⟩
  · rw [hv₁, hv₂]
  · rw [hv₁, hv₂]

end ExertGrpc
