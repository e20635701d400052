import Mathlib.Logic.Equiv.List
import ExertGrpc.CertsAuthService
import ExertGrpc.ClientCertWindow
import ExertGrpc.TransitionRun

/-! # The callers of the certificate server

`MakeCert` asks its callers for nothing: over HTTP it sends everybody a certificate with its
key, and such a certificate is what `CertsAuthService` asks for.

A run is any sequence of calls, by whatever callers, while time passes: calls of `MakeCert`,
whose reply the caller loads as the HTTP client does, and calls of `CertsAuthService` with a
chain from a certificate that a caller holds.  What callers hold is never lost.

So who starts without a certificate is greeted exactly when the operating system accepts
what `MakeCert` issues, and then under the name of the issuer of the embedded root.  Where
that root is trusted, as the Readme has it, that is until the root ends; one round of the
HTTP client is all it takes.
-/
namespace ExertGrpc
open TransitionRun

/-- The server, and what it runs on: the framework and the operating system decide at every
moment. -/
structure AspCerts where
  x509 : X509
  rootca_pfx : Bytes
  framework : DateTimeOffset → Framework
  trusted : List X509Certificate2

/-- A call of `CertsAuthService` that got its reply. -/
structure Greeting where
  time : DateTimeOffset
  chain : CertificateChain
  principal : ClaimsPrincipal
  reply : HelloReply

/-- The clock, the certificates that callers hold, with their keys, and the calls that were
answered, the last one first. -/
structure Callers where
  now : DateTimeOffset
  held : List X509Certificate2
  greeted : List Greeting

/-- Callers with the certificates `held`. -/
def Callers.initial (now : DateTimeOffset) (held : List X509Certificate2) : Callers where
  now := now
  held := held
  greeted := []

inductive CallerStep where
  | wait (time : DateTimeOffset)
  | makeCert (request : MakeCertRequest) (rsa : RSA) (serialNumber : Bytes)
  | callCertsAuth (chain : CertificateChain) (exportCertPfxTo : Except Exn Unit)
    (method : CertsAuthMethod) (request : HelloRequest)

namespace AspCerts
variable (demo : AspCerts)

/-- What `MakeCert` draws at a moment. -/
def drawsAt (now : DateTimeOffset) (rsa : RSA) (serialNumber : Bytes) : Draws where
  rsa := rsa
  serialNumber := serialNumber
  now := now
  later := now

/-- A call of `MakeCert` over HTTP, and what the caller loads of its reply. -/
def getCert (now : DateTimeOffset) (request : MakeCertRequest) (rsa : RSA)
    (serialNumber : Bytes) : Except Exn X509Certificate2 :=
  if reaches (demo.framework now) demo.trusted (.ok ()) .http .certsMake then do
    let reply ← makeCert demo.x509 demo.rootca_pfx request (drawsAt now rsa serialNumber)
    demo.x509.load (reply.cert.getD []) (literal "123456")
  else .error .rpc

/-- A call of `CertsAuthService`, with the principal it is answered under. -/
def greet (now : DateTimeOffset) (chain : CertificateChain) (exportCertPfxTo : Except Exn Unit)
    (method : CertsAuthMethod) (request : HelloRequest) : Option Greeting :=
  let framework := demo.framework now
  let connection := Connection.https (some chain)
  match callCertsAuth framework demo.trusted exportCertPfxTo connection method request,
    handleAuthenticate framework demo.trusted exportCertPfxTo connection with
  | some reply, some (.success principal) => some ⟨now, chain, principal, reply⟩
  | _, _ => none

/-- One step.  A call that is not answered leaves everything as it is. -/
def step (s : Callers) : CallerStep → Option Callers
  | .wait time => if s.now ≤ time then some { s with now := time } else none
  | .makeCert request rsa serialNumber =>
    match demo.getCert s.now request rsa serialNumber with
    | .ok cert => some { s with held := cert :: s.held }
    | .error _ => some s
  | .callCertsAuth chain exportCertPfxTo method request =>
    -- the TLS layer asks for the key of the leaf
    if chain.leaf ∈ s.held then
      match demo.greet s.now chain exportCertPfxTo method request with
      | some greeting => some { s with greeted := greeting :: s.greeted }
      | none => some s
    else none

/-- What is known of the framework, the operating system and PFX files: no chain is accepted
outside the dates of its certificates, and an issued certificate is loaded as it was
exported. -/
structure Documented : Prop where
  framework : ∀ time, (demo.framework time).Documented
  dates : ∀ time chain, (demo.framework time).osChainCheck demo.trusted chain = true →
    ∀ c ∈ chain.leaf :: chain.issuers, c.notBefore ≤ time ∧ time ≤ c.notAfter
  pfx : ∀ rootca draws cert, demo.x509.load demo.rootca_pfx (literal "1234") = .ok rootca →
    makeClientCertRsa2 demo.x509 rootca draws = .ok cert →
    demo.x509.importPfx (demo.x509.exportPfx cert (literal "123456")) (literal "123456") = some cert

/-- What the comment at `MakeClientCertRsa2` says of its certificates: without a check for
revocation they pass, at a moment when they and the embedded root, if it is its own issuer
and trusted, have begun and not ended. -/
def GeneratedPass : Prop :=
  ∀ time rootca draws cert (hself : IssuedUnder rootca rootca)
    (hcert : makeClientCertRsa2 demo.x509 rootca draws = .ok cert),
    demo.x509.load demo.rootca_pfx (literal "1234") = .ok rootca → rootca ∈ demo.trusted →
    (∀ c ∈ [cert, rootca], c.notBefore ≤ time ∧ time ≤ c.notAfter) →
    (demo.framework time).osChainCheck demo.trusted (issuedChain hself hcert) = true

/-! ## One step -/

section Step
variable {demo} {s t : Callers} {a : CallerStep} {now : DateTimeOffset} {request : MakeCertRequest}
  {rsa : RSA} {serialNumber : Bytes} {cert : X509Certificate2} {chain : CertificateChain}
  {exportCertPfxTo : Except Exn Unit} {method : CertsAuthMethod} {hello : HelloRequest}
  {greeting : Greeting}

/-- What a caller gets from `MakeCert` is what was issued under the embedded root. -/
theorem getCert_eq_ok (hd : demo.Documented) :
    demo.getCert now request rsa serialNumber = .ok cert ↔
      ∃ rootca, demo.x509.load demo.rootca_pfx (literal "1234") = .ok rootca ∧
        makeClientCertRsa2 demo.x509 rootca (drawsAt now rsa serialNumber) = .ok cert := by
  unfold getCert
  rw [reaches_http, if_pos (show (!GrpcService.certsMake.authorize) = true from rfl)]
  constructor
  · intro h
    obtain ⟨reply, hreply, hload⟩ := Except.bind_eq_ok.mp h
    obtain ⟨rootca, hroot, -⟩ := Except.bind_eq_ok.mp hreply
    obtain ⟨issued, hissued, hpfx⟩ := makeCert_eq_ok hroot hreply
    rw [hpfx, Option.getD_some, X509.load_eq_ok, hd.pfx _ _ _ hroot hissued] at hload
    exact ⟨rootca, hroot, Option.some.inj hload ▸ hissued⟩
  · rintro ⟨rootca, hroot, hissued⟩
    refine Except.bind_eq_ok.mpr ⟨_, Except.bind_eq_ok.mpr ⟨rootca, hroot,
      Except.bind_eq_ok.mpr ⟨cert, hissued, rfl⟩⟩, ?_⟩
    exact X509.load_eq_ok.mpr (hd.pfx _ _ _ hroot hissued)

/-- Who is greeted has a chain that the operating system accepts. -/
theorem greet_eq_some (hd : demo.Documented) :
    demo.greet now chain exportCertPfxTo method hello = some greeting ↔
      exportCertPfxTo = .ok () ∧ (demo.framework now).osChainCheck demo.trusted chain = true ∧
        greeting = ⟨now, chain, validatedPrincipal {
          clientCertificate := { chain.leaf with privateKey := none }
          claimsIssuer := (demo.framework now).claimsIssuer
          schemeName := (demo.framework now).schemeName }, method.body hello⟩ := by
  constructor
  · intro h
    unfold greet at h
    dsimp only at h
    split at h
    · rename_i reply principal hcall hhandle
      obtain ⟨hreply, hexport, chain', hsame, hcheck⟩ :=
        (callCertsAuth_eq_some (hd.framework now)).mp hcall
      cases hsame
      rw [handleAuthenticate, if_pos ((hd.framework now).validates _ _ hcheck)] at hhandle
      obtain ⟨-, hprincipal⟩ := authenticate_eq_success.mp (Option.some.inj hhandle)
      refine ⟨hexport, hcheck, ?_⟩
      rw [← Option.some.inj h, hreply, hprincipal]
    · cases h
  · rintro ⟨rfl, hcheck, rfl⟩
    have hcall : callCertsAuth (demo.framework now) demo.trusted (.ok ()) (.https (some chain))
        method hello = some (method.body hello) :=
      (callCertsAuth_eq_some (hd.framework now)).mpr ⟨rfl, rfl, chain, rfl, hcheck⟩
    unfold greet
    simp only [hcall, handleAuthenticate, if_pos ((hd.framework now).validates _ _ hcheck),
      authenticate_ok]

/-- **What a step can do.** -/
theorem step_cases (h : demo.step s a = some t) :
    (∃ time, a = .wait time ∧ s.now ≤ time ∧ t = { s with now := time }) ∨
    (∃ request rsa serialNumber cert, a = .makeCert request rsa serialNumber ∧
      demo.getCert s.now request rsa serialNumber = .ok cert ∧
      t = { s with held := cert :: s.held }) ∨
    (∃ chain exportCertPfxTo method request greeting,
      a = .callCertsAuth chain exportCertPfxTo method request ∧ chain.leaf ∈ s.held ∧
      demo.greet s.now chain exportCertPfxTo method request = some greeting ∧
      t = { s with greeted := greeting :: s.greeted }) ∨
    t = s := by
  cases a with
  | wait time =>
    obtain ⟨hle, ht⟩ := Option.ite_none_right_eq_some.mp h
    exact .inl ⟨time, rfl, hle, (Option.some.inj ht).symm⟩
  | makeCert request rsa serialNumber =>
    dsimp only [step] at h
    split at h
    · rename_i cert hcert
      exact .inr (.inl ⟨request, rsa, serialNumber, cert, rfl, hcert, (Option.some.inj h).symm⟩)
    · exact .inr (.inr (.inr (Option.some.inj h).symm))
  | callCertsAuth chain exportCertPfxTo method request =>
    obtain ⟨hheld, h⟩ := Option.ite_none_right_eq_some.mp h
    split at h
    · rename_i greeting hgreet
      exact .inr (.inr (.inl ⟨chain, exportCertPfxTo, method, request, greeting, rfl, hheld,
        hgreet, (Option.some.inj h).symm⟩))
    · exact .inr (.inr (.inr (Option.some.inj h).symm))

end Step

/-! ## Every run -/

/-- The certificate was issued under the embedded root between two moments. -/
def Issued (first last : DateTimeOffset) (cert : X509Certificate2) : Prop :=
  ∃ rootca now rsa serialNumber,
    demo.x509.load demo.rootca_pfx (literal "1234") = .ok rootca ∧
    makeClientCertRsa2 demo.x509 rootca (drawsAt now rsa serialNumber) = .ok cert ∧
    first ≤ now ∧ now ≤ last

/-- What is true of a greeting, when callers held the certificates `held` at first. -/
structure Earned (first last : DateTimeOffset) (held : List X509Certificate2)
    (greeting : Greeting) : Prop where
  time : first ≤ greeting.time ∧ greeting.time ≤ last
  accepted : (demo.framework greeting.time).osChainCheck demo.trusted greeting.chain = true
  claims : ∀ type, greeting.principal.valuesOf type = [greeting.chain.leaf.subject]
  /-- The certificate was there at first, or issued before. -/
  leaf : greeting.chain.leaf ∈ held ∨ demo.Issued first greeting.time greeting.chain.leaf

/-- What every run keeps, from the moment `first` on. -/
structure Kept (first : DateTimeOffset) (held : List X509Certificate2) (s : Callers) : Prop where
  clock : first ≤ s.now
  certs : ∀ cert ∈ s.held, cert ∈ held ∨ demo.Issued first s.now cert
  greetings : ∀ greeting ∈ s.greeted, demo.Earned first s.now held greeting

section Run
variable {demo} {first last : DateTimeOffset} {held : List X509Certificate2}
  {s t : Callers} {a : CallerStep} {cert : X509Certificate2} {greeting : Greeting}

theorem Issued.later {now : DateTimeOffset} (h : demo.Issued first last cert) (hle : last ≤ now) :
    demo.Issued first now cert := by
  obtain ⟨rootca, now, rsa, serialNumber, hroot, hcert, hfirst, hlast⟩ := h
  exact ⟨rootca, now, rsa, serialNumber, hroot, hcert, hfirst, DateTimeOffset.le_trans hlast hle⟩

theorem Earned.later {now : DateTimeOffset} (h : demo.Earned first last held greeting)
    (hle : last ≤ now) : demo.Earned first now held greeting :=
  { h with time := ⟨h.time.1, DateTimeOffset.le_trans h.time.2 hle⟩ }

theorem step_kept (hd : demo.Documented) (hs : demo.Kept first held s)
    (h : demo.step s a = some t) : demo.Kept first held t := by
  rcases step_cases h with ⟨time, -, hle, rfl⟩ | ⟨request, rsa, serialNumber, cert, -, hcert, rfl⟩ |
    ⟨chain, exportCertPfxTo, method, request, greeting, -, hleaf, hgreet, rfl⟩ | rfl
  · refine ⟨DateTimeOffset.le_trans hs.clock hle, fun cert hc => ?_, fun g hg => ?_⟩
    · rcases hs.certs cert hc with hold | hissued
      · exact .inl hold
      · exact .inr (hissued.later hle)
    · exact (hs.greetings g hg).later hle
  · refine ⟨hs.clock, fun c hc => ?_, hs.greetings⟩
    rcases List.mem_cons.mp hc with rfl | hc
    · obtain ⟨rootca, hroot, hissued⟩ := (getCert_eq_ok hd).mp hcert
      exact .inr ⟨rootca, s.now, rsa, serialNumber, hroot, hissued, hs.clock, Nat.le_refl _⟩
    · exact hs.certs c hc
  · refine ⟨hs.clock, hs.certs, fun g hg => ?_⟩
    rcases List.mem_cons.mp hg with rfl | hg
    · obtain ⟨-, hcheck, rfl⟩ := (greet_eq_some hd).mp hgreet
      exact ⟨⟨hs.clock, Nat.le_refl _⟩, hcheck, validatedPrincipal_valuesOf _,
        hs.certs chain.leaf hleaf⟩
    · exact hs.greetings g hg
  · exact hs

theorem initial_kept : demo.Kept first held (.initial first held) :=
  ⟨Nat.le_refl _, fun _ hcert => .inl hcert, fun _ hg => absurd hg List.not_mem_nil⟩

/-- An issued certificate ends with the root, and is made out to its issuer. -/
theorem Issued.root (h : demo.Issued first last cert) :
    ∃ rootca, demo.x509.load demo.rootca_pfx (literal "1234") = .ok rootca ∧
      rootca.privateKey ≠ none ∧ cert.notAfter = rootca.notAfter ∧
      cert.subject = rootca.issuer ∧ cert.issuer = rootca.issuer ∧
      cert.signedWith = rootca.publicKey := by
  obtain ⟨rootca, now, rsa, serialNumber, hroot, hcert, -, -⟩ := h
  obtain ⟨hkey, -⟩ := exists_makeClientCertRsa2.mp ⟨cert, hcert⟩
  exact ⟨rootca, hroot, hkey, (makeClientCertRsa2_fromNow hcert).2.1, makeClientCertRsa2_names hcert⟩

end Run

/-! ## Callers without a certificate -/

/-- In some run from the moment on, callers who hold no certificate are greeted. -/
def GreetsAnyone (first : DateTimeOffset) : Prop :=
  ∃ as s, run demo.step (.initial first []) as = some s ∧ s.greeted ≠ []

/-- The calls for a certificate in a round of the HTTP client, which presents the chain.  The
client is taken to trust the certificate of the server itself. -/
def httpRound (rsa : RSA) (serialNumber : Bytes) (chain : CertificateChain) : List CallerStep :=
  [.makeCert ⟨literal "123456"⟩ rsa serialNumber,
    .callCertsAuth chain (.ok ()) .sayHello ⟨literal "Https Valid Certs"⟩]

section Anonymous
variable {demo} {s : Callers} {first time : DateTimeOffset} {rootca cert : X509Certificate2}
  {chain : CertificateChain} {rsa : RSA} {serialNumber : Bytes}

theorem step_wait (h : s.now ≤ time) : demo.step s (.wait time) = some { s with now := time } :=
  if_pos h

/-- `MakeCert` gives everybody what can be issued now. -/
theorem step_makeCert (hd : demo.Documented)
    (hroot : demo.x509.load demo.rootca_pfx (literal "1234") = .ok rootca)
    (hcert : makeClientCertRsa2 demo.x509 rootca (drawsAt s.now rsa serialNumber) = .ok cert)
    (request : MakeCertRequest) :
    demo.step s (.makeCert request rsa serialNumber) = some { s with held := cert :: s.held } := by
  have hget : demo.getCert s.now request rsa serialNumber = .ok cert :=
    (getCert_eq_ok hd).mpr ⟨rootca, hroot, hcert⟩
  dsimp only [step]
  rw [hget]

/-- Who has a certificate, with a chain that is accepted now, is greeted. -/
theorem step_callCertsAuth (hd : demo.Documented) (hheld : chain.leaf ∈ s.held)
    (hcheck : (demo.framework s.now).osChainCheck demo.trusted chain = true)
    (method : CertsAuthMethod) (request : HelloRequest) :
    ∃ greeting, demo.step s (.callCertsAuth chain (.ok ()) method request) =
        some { s with greeted := greeting :: s.greeted } ∧
      greeting.reply = method.body request := by
  obtain ⟨greeting, hgreet, hreply⟩ : ∃ greeting, demo.greet s.now chain (.ok ()) method request =
      some greeting ∧ greeting.reply = method.body request :=
    ⟨_, (greet_eq_some hd).mpr ⟨rfl, hcheck, rfl⟩, rfl⟩
  refine ⟨greeting, ?_, hreply⟩
  dsimp only [step]
  rw [if_pos hheld, hgreet]

/-- **Some are greeted exactly when what is issued to them is accepted later.** -/
theorem greetsAnyone_iff (hd : demo.Documented) :
    demo.GreetsAnyone first ↔ ∃ chain time, demo.Issued first time chain.leaf ∧
      (demo.framework time).osChainCheck demo.trusted chain = true := by
  constructor
  · rintro ⟨as, s, hrun, hne⟩
    have hs : demo.Kept first [] s := run_keeps (fun _ _ _ => step_kept hd) initial_kept hrun
    obtain ⟨greeting, hg⟩ := List.exists_mem_of_ne_nil _ hne
    have hearned := hs.greetings greeting hg
    rcases hearned.leaf with hnone | hissued
    · cases hnone
    · exact ⟨greeting.chain, greeting.time, hissued, hearned.accepted⟩
  · rintro ⟨chain, time, ⟨rootca, now, rsa, serialNumber, hroot, hcert, hfirst, hnow⟩, hcheck⟩
    have hwait : demo.step (.initial first []) (.wait now) = some (.initial now []) :=
      step_wait hfirst
    have hmake : demo.step (.initial now []) (.makeCert ⟨[]⟩ rsa serialNumber) =
        some ⟨now, [chain.leaf], []⟩ := step_makeCert (s := .initial now []) hd hroot hcert ⟨[]⟩
    have hlater : demo.step ⟨now, [chain.leaf], []⟩ (.wait time) =
        some ⟨time, [chain.leaf], []⟩ := step_wait hnow
    obtain ⟨greeting, hcall, -⟩ :=
      step_callCertsAuth (s := ⟨time, [chain.leaf], []⟩) hd List.mem_cons_self hcheck .sayHello ⟨[]⟩
    refine ⟨[.wait now, .makeCert ⟨[]⟩ rsa serialNumber, .wait time,
      .callCertsAuth chain (.ok ()) .sayHello ⟨[]⟩], ⟨time, [chain.leaf], [greeting]⟩, ?_,
      List.cons_ne_nil _ _⟩
    exact run_cons.mpr ⟨_, hwait, run_cons.mpr ⟨_, hmake, run_cons.mpr ⟨_, hlater,
      run_cons.mpr ⟨_, hcall, rfl⟩⟩⟩⟩

/-- **One round of the HTTP client is enough**, whatever it draws, while the trusted root
lasts. -/
theorem httpRound_greeted (hd : demo.Documented) (hpass : demo.GeneratedPass)
    (hroot : demo.x509.load demo.rootca_pfx (literal "1234") = .ok rootca)
    (hself : IssuedUnder rootca rootca) (htrusted : rootca ∈ demo.trusted)
    (hkey : rootca.privateKey ≠ none) (hfirst : first ≤ time)
    (hdates : rootca.notBefore ≤ time ∧ time ≤ rootca.notAfter) (rsa : RSA) (serialNumber : Bytes) :
    ∃ chain s, run demo.step (.initial first []) (.wait time :: httpRound rsa serialNumber chain) =
        some s ∧
      s.greeted.map Greeting.reply = [helloByCerts ⟨literal "Https Valid Certs"⟩] := by
  obtain ⟨cert, hcert⟩ : ∃ cert, makeClientCertRsa2 demo.x509 rootca
      (drawsAt time rsa serialNumber) = .ok cert :=
    exists_makeClientCertRsa2.mpr ⟨hkey, hdates.2⟩
  obtain ⟨hstart, hend, hle⟩ := makeClientCertRsa2_fromNow hcert
  have hbegun : cert.notBefore ≤ time := by
    rw [hstart]
    exact Nat.le_refl _
  have hcheck := hpass time rootca _ cert hself hcert hroot htrusted
    (List.forall_mem_cons.mpr ⟨⟨hbegun, hend ▸ hdates.2⟩, List.forall_mem_singleton.mpr hdates⟩)
  have hwait : demo.step (.initial first []) (.wait time) = some (.initial time []) :=
    step_wait hfirst
  have hmake : demo.step (.initial time []) (.makeCert ⟨literal "123456"⟩ rsa serialNumber) =
      some ⟨time, [cert], []⟩ :=
    step_makeCert (s := .initial time []) hd hroot hcert ⟨literal "123456"⟩
  obtain ⟨greeting, hcall, hreply⟩ :=
    step_callCertsAuth (s := ⟨time, [cert], []⟩) hd List.mem_cons_self hcheck .sayHello
      ⟨literal "Https Valid Certs"⟩
  exact ⟨issuedChain hself hcert, _, run_cons.mpr ⟨_, hwait, run_cons.mpr ⟨_, hmake,
    run_cons.mpr ⟨_, hcall, rfl⟩⟩⟩, congrArg (fun reply => [reply]) hreply⟩

/-- **Who gets in without a certificate**, over every run of any callers: some are greeted
exactly when the operating system accepts, at some later moment, a chain from a certificate
that `MakeCert` issued before.  If it trusts the embedded root, which is its own issuer and
has begun, that is exactly until the root ends, if the root has its key; and then one round
of the HTTP client is enough, whatever it draws. -/
theorem anonymous_greeted_iff (hd : demo.Documented) (first : DateTimeOffset) :
    (demo.GreetsAnyone first ↔ ∃ chain time, demo.Issued first time chain.leaf ∧
      (demo.framework time).osChainCheck demo.trusted chain = true) ∧
    (demo.GeneratedPass → ∀ rootca,
      demo.x509.load demo.rootca_pfx (literal "1234") = .ok rootca → IssuedUnder rootca rootca →
      rootca ∈ demo.trusted →
      (rootca.notBefore ≤ first →
        (demo.GreetsAnyone first ↔ rootca.privateKey ≠ none ∧ first ≤ rootca.notAfter)) ∧
      (rootca.privateKey ≠ none → ∀ time, first ≤ time →
        rootca.notBefore ≤ time ∧ time ≤ rootca.notAfter → ∀ rsa serialNumber, ∃ chain s,
          run demo.step (.initial first []) (.wait time :: httpRound rsa serialNumber chain) =
            some s ∧
          s.greeted.map Greeting.reply = [helloByCerts ⟨literal "Https Valid Certs"⟩])) := by
  refine ⟨greetsAnyone_iff hd, fun hpass rootca hroot hself htrusted => ⟨fun hbegun => ?_,
    fun hkey time hfirst hdates => httpRound_greeted hd hpass hroot hself htrusted hkey hfirst hdates⟩⟩
  constructor
  · intro hgreets
    obtain ⟨chain, time, hissued, hcheck⟩ := (greetsAnyone_iff hd).mp hgreets
    obtain ⟨root, hload, hkey, hend, -⟩ := hissued.root
    obtain ⟨_, _, _, _, -, -, hfirst, hnow⟩ := hissued
    obtain rfl : rootca = root := Except.ok.inj (hroot.symm.trans hload)
    have hover := (hd.dates time chain hcheck chain.leaf List.mem_cons_self).2
    exact ⟨hkey, DateTimeOffset.le_trans hfirst
      (DateTimeOffset.le_trans hnow (hend ▸ hover))⟩
  · rintro ⟨hkey, hends⟩
    obtain ⟨chain, s, hrun, hreplies⟩ := httpRound_greeted hd hpass hroot hself htrusted hkey
      (Nat.le_refl _) ⟨hbegun, hends⟩ ⟨[], []⟩ []
    refine ⟨_, s, hrun, fun hnil => ?_⟩
    rw [hnil] at hreplies
    cases hreplies

end Anonymous
end AspCerts

/-! ## A server whose root is trusted -/

/-- What is written of an issued certificate: its keys, its serial number and its start. -/
abbrev IssuedFields := List ℕ × List ℕ × List ℕ × ℕ × ℕ × ℕ × ℕ

def issuedFields (cert : X509Certificate2) : IssuedFields :=
  (cert.publicKey.map UInt8.toNat, (cert.privateKey.getD []).map UInt8.toNat,
    cert.serialNumber.map UInt8.toNat, cert.notBefore.year, cert.notBefore.month,
    cert.notBefore.day, cert.notBefore.second)

/-- The certificate with these fields, issued anew. -/
def issueFields : IssuedFields → Option X509Certificate2
  | (publicKey, privateKey, serialNumber, year, month, day, second) =>
    if h : month < 13 ∧ day < 32 ∧ second < 86400 then
      let now : DateTimeOffset := ⟨year, month, day, second, h.1, h.2.1, h.2.2⟩
      (makeClientCertRsa2 (demoX509 []) demoRootCert {
        rsa := ⟨publicKey.map UInt8.ofNat, privateKey.map UInt8.ofNat⟩
        serialNumber := serialNumber.map UInt8.ofNat
        now := now
        later := now }).toOption
    else none

/-- A PFX file is as long as the number of the fields in it; the empty one is the root. -/
def demoIssuerX509 : X509 :=
  { demoX509 [] with
    exportPfx := fun cert _ => List.replicate (Encodable.encode (issuedFields cert)) 0
    importPfx := fun rawData password =>
      if password = literal "1234" then some demoRootCert
      else (Encodable.decode rawData.length).bind issueFields }

/-- A server of the embedded root, on an operating system that trusts it and looks at the
dates. -/
def demoAspCerts : AspCerts where
  x509 := demoIssuerX509
  rootca_pfx := []
  framework time := { demoFramework with
    osChainCheck := fun trusted chain => chain.root ∈ trusted ∧
      ∀ c ∈ chain.leaf :: chain.issuers, c.notBefore ≤ time ∧ time ≤ c.notAfter }
  trusted := [demoRootCert]

theorem map_ofNat_toNat (bs : Bytes) : (bs.map UInt8.toNat).map UInt8.ofNat = bs := by
  rw [List.map_map]
  exact (List.map_congr_left fun _ _ => UInt8.ofNat_toNat).trans (List.map_id bs)

theorem issueFields_issuedFields {draws : Draws} {cert : X509Certificate2}
    (h : makeClientCertRsa2 demoIssuerX509 demoRootCert draws = .ok cert) :
    issueFields (issuedFields cert) = some cert := by
  have hissued : makeClientCertRsa2 (demoX509 []) demoRootCert { draws with later := draws.now } =
      .ok cert := h
  obtain ⟨signer, -, hrest⟩ := Except.bind_eq_ok.mp h
  obtain ⟨created, hcreate, hcopy⟩ := Except.bind_eq_ok.mp hrest
  obtain ⟨-, rfl⟩ := CertificateRequest.create_eq_ok.mp hcreate
  cases hcopy
  obtain ⟨⟨publicKey, privateKey⟩, serialNumber, now, later⟩ := draws
  simp only [issuedFields, issueFields, X509Certificate2.copyWithPrivateKey, Option.getD_some,
    map_ofNat_toNat, now.month_lt, now.day_lt, now.second_lt, and_self, dif_pos]
  rw [hissued]
  rfl

theorem demoAspCerts_load :
    demoAspCerts.x509.load demoAspCerts.rootca_pfx (literal "1234") = .ok demoRootCert :=
  X509.load_eq_ok.mpr rfl

theorem demoAspCerts_documented : demoAspCerts.Documented where
  framework time := {
    trusts := fun trusted chain h => (of_decide_eq_true h).1
    validates := fun trusted chain h => decide_eq_true (of_decide_eq_true h).1 }
  dates time chain h := (of_decide_eq_true h).2
  pfx rootca draws cert hroot hcert := by
    obtain rfl : demoRootCert = rootca := Except.ok.inj (demoAspCerts_load.symm.trans hroot)
    have hpassword : literal "123456" ≠ literal "1234" := by decide
    have himport (rawData : Bytes) : demoIssuerX509.importPfx rawData (literal "123456") =
        (Encodable.decode rawData.length).bind issueFields := by
      unfold demoIssuerX509
      dsimp only
      rw [if_neg hpassword]
    show demoIssuerX509.importPfx (List.replicate (Encodable.encode (issuedFields cert)) 0) _ = _
    rw [himport, List.length_replicate, Encodable.encodek]
    exact issueFields_issuedFields hcert

theorem demoAspCerts_generatedPass : demoAspCerts.GeneratedPass :=
  fun _ _ _ _ _ _ _ htrusted hdates => decide_eq_true ⟨htrusted, hdates⟩

theorem AspCerts.anonymous_greeted_iff_demo :
    demoAspCerts.GreetsAnyone (demoDay 2023) ∧
    ∃ chain s, run demoAspCerts.step (.initial (demoDay 2023) [])
        (.wait (demoDay 2024) :: AspCerts.httpRound ⟨[2], [2]⟩ [2] chain) = some s ∧
      s.greeted.map Greeting.reply = [helloByCerts ⟨literal "Https Valid Certs"⟩] := by
  obtain ⟨huntil, hround⟩ :=
    (AspCerts.anonymous_greeted_iff demoAspCerts_documented (demoDay 2023)).2
      demoAspCerts_generatedPass demoRootCert demoAspCerts_load ⟨rfl, rfl⟩
      (List.mem_singleton.mpr rfl)
  have hkey : demoRootCert.privateKey ≠ none := Option.some_ne_none _
  exact ⟨(huntil (by decide)).mpr ⟨hkey, by decide⟩,
    hround hkey (demoDay 2024) (by decide) (by decide) _ _⟩

end ExertGrpc
