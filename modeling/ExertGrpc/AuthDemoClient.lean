import ExertGrpc.HostedLoops
import ExertGrpc.CertsMakeService

/-! # The client program of the certificate server

`AuthDemo.Client` hosts three services, each with a loop of its own.  Two of them try the
certificate server, over HTTP and over HTTPS, and catch whatever a round throws; the
third, `TesterService`, calls another server and catches nothing.

The HTTP service presents a certificate that it has just been sent, the HTTPS service the
one that is embedded in the program.

So the program stops when it is told to, and, because the host stops when a service
faults unless it is set up otherwise, at the first call of `TesterService` that throws.
No failure of the certificate server stops it.
-/
namespace ExertGrpc
open TransitionRun

/-- The calls of the services, with what they send. -/
inductive AuthDemoCall where
  /-- `client.SayHelloAsync`, of the greeter. -/
  | sayHello (name : Text)
  /-- `makeClient.MakeCert`. -/
  | makeCert (account : Text)
  /-- `new X509Certificate2(bytes.Span, password)`, of the bytes `MakeCert` has sent. -/
  | loadCert (password : Text)
  /-- `SayHelloAsync` of the service that asks for a certificate. -/
  | sayHelloByCerts (name : Text)
  /-- `adclient.SayAsync`. -/
  | say (content : Text)
deriving DecidableEq, Repr

/-- The hosted services, in the order in which they are added. -/
inductive HostedService where
  | aspCertsClientHttpService
  | aspCertsClientHttpsService
  | testerService
deriving DecidableEq, Repr

instance : Fintype HostedService where
  elems := {.aspCertsClientHttpService, .aspCertsClientHttpsService, .testerService}
  complete i := by cases i <;> decide

/-- The loop of `ExecuteAsync`.  The delays, which do not look at the token, are left out. -/
def executeAsync : HostedService → LoopService AuthDemoCall
  | .aspCertsClientHttpService => {
      body := [
        .sayHello (literal "Http"),
        .makeCert (literal "123456"),
        -- `ValidCert`
        .loadCert (literal "123456"),
        .sayHelloByCerts (literal "Https Valid Certs")]
      guarded := true }
  | .aspCertsClientHttpsService => {
      body := [
        .sayHello (literal "Https"),
        .sayHelloByCerts (literal "Https"),
        .makeCert (literal "123456")]
      guarded := true }
  | .testerService => {
      body := [.say (literal "adfadsfsdf")]
      guarded := false }

/-- The start of the host, which makes all services before it starts the first one.  The
constructor of the HTTPS service loads the certificate that is embedded in the program.
All of them also take an address from the configuration and fail if it is none; here the
addresses are good. -/
def startHost (x509 : X509) (client_pfx : Bytes) :
    Except Exn (LoopHost HostedService AuthDemoCall) := do
  let _clientCertificate ← x509.load client_pfx (literal "1234")
  return .initial

/-- The calls by which the HTTP service comes to a certificate. -/
def certificateCalls : List AuthDemoCall :=
  [.sayHello (literal "Http"), .makeCert (literal "123456"), .loadCert (literal "123456")]

/-- What holds after the run `as` of the program. -/
structure ProgramKeeps (stopOnFault : Bool) (as : List (HostStep HostedService))
    (t : LoopHost HostedService AuthDemoCall) : Prop where
  /-- Why the program stops. -/
  stops : t.stopping = true ↔ .stop ∈ as ∨
    stopOnFault = true ∧ ∃ k, (k, true) ∈ (t.loop .testerService).made
  /-- The services for certificates go on after whatever throws. -/
  goesOn : ∀ i, i ≠ .testerService → (t.loop i).position ≠ .faulted
  ends : ∀ i, (t.loop i).position = .ended → t.stopping = true
  /-- Every service makes its calls in the order of its loop, round after round. -/
  rounds : ∀ i, (executeAsync i).InRounds (t.loop i)
  /-- The HTTP service presents a certificate in the round in which it was made and loaded. -/
  presents : ∀ pre post threw, (t.loop .aspCertsClientHttpService).made =
      pre ++ (.sayHelloByCerts (literal "Https Valid Certs"), threw) :: post →
    LoopService.completeRound certificateCalls <:+ pre
  /-- It can be stopped without another round, however far its services are. -/
  windsDown : (∃ bs u, run (LoopHost.step stopOnFault executeAsync) t bs = some u ∧
      Along (LoopHost.step stopOnFault executeAsync) LoopHost.Winds t bs ∧ u.Over) ∧
    ∀ bs u, run (LoopHost.step stopOnFault executeAsync) t bs = some u →
      Along (LoopHost.step stopOnFault executeAsync) LoopHost.Winds t bs → bs.length ≤ 18

/-- **Every run of the program**, whatever its calls come to, whoever moves when, and
whatever is done about a service that faults. -/
theorem authDemoClient_run {x509 : X509} {client_pfx : Bytes} {stopOnFault : Bool}
    {s t : LoopHost HostedService AuthDemoCall} {as : List (HostStep HostedService)}
    (hstart : startHost x509 client_pfx = .ok s)
    (hrun : run (LoopHost.step stopOnFault executeAsync) s as = some t) :
    ProgramKeeps stopOnFault as t := by
  obtain ⟨cert, -, hinitial⟩ := Except.bind_eq_ok.mp hstart
  obtain rfl : LoopHost.initial = s := Except.ok.inj hinitial
  have ht : LoopHost.Sound stopOnFault executeAsync t :=
    run_keeps LoopHost.step_sound LoopHost.initial_sound hrun
  have hgoesOn : ∀ i, i ≠ .testerService → (t.loop i).position ≠ .faulted := by
    intro i hi
    apply (ht.inRounds i).not_faulted
    cases i with
    | aspCertsClientHttpService | aspCertsClientHttpsService => rfl
    | testerService => exact absurd rfl hi
  constructor
  case stops =>
    rw [LoopHost.stopping_iff LoopHost.initial_sound hrun,
      ← (ht.inRounds .testerService).faulted_iff rfl]
    constructor
    · rintro (hfalse | hstop | ⟨hsetting, i, hi⟩)
      · cases hfalse
      · exact .inl hstop
      · -- only the tester can have faulted
        by_cases htester : i = .testerService
        · subst htester
          exact .inr ⟨hsetting, hi⟩
        · exact absurd hi (hgoesOn i htester)
    · rintro (hstop | ⟨hsetting, hi⟩)
      · exact .inr (.inl hstop)
      · exact .inr (.inr ⟨hsetting, _, hi⟩)
  case goesOn => exact hgoesOn
  case ends => exact fun i hi => ht.cancelled i (ht.ended i hi)
  case rounds => exact ht.inRounds
  case presents =>
    intro pre post threw hmade
    have hbody : (executeAsync .aspCertsClientHttpService).body =
        certificateCalls ++ [.sayHelloByCerts (literal "Https Valid Certs")] := rfl
    exact (ht.inRounds .aspCertsClientHttpService).preceded hbody (by decide) hmade
  case windsDown =>
    obtain ⟨hend, hlength⟩ := LoopHost.winds_down stopOnFault executeAsync t
    have hleft : t.stepsLeft ≤ 18 := ht.stepsLeft_le
    exact ⟨hend, fun bs u hbs hwinds => (hlength bs u hbs hwinds).trans hleft⟩

/-- A round over HTTP that is denied at its end, while the tester finds no server. -/
def demoProgram : List (HostStep HostedService) :=
  [.service .aspCertsClientHttpService .enter,
    .service .aspCertsClientHttpService (.call false),
    .service .testerService .enter,
    .service .aspCertsClientHttpService (.call false),
    .service .aspCertsClientHttpService (.call false),
    .service .testerService (.call true),
    .service .aspCertsClientHttpService (.call true)]

theorem authDemoClient_run_demo :
    ∃ client_pfx s t, startHost (demoX509 [demoCertificate (literal "CN=you") 4]) client_pfx = .ok s ∧
      run (LoopHost.step true executeAsync) s demoProgram = some t ∧
      ProgramKeeps true demoProgram t := by
  have hloads : ∃ client_pfx s,
      startHost (demoX509 [demoCertificate (literal "CN=you") 4]) client_pfx = .ok s :=
    ⟨(demoX509 []).exportPfx (demoCertificate (literal "CN=you") 4) (literal "1234"), _, rfl⟩
  obtain ⟨client_pfx, s, hs⟩ := hloads
  have hrun : ∃ t, run (LoopHost.step true executeAsync) s demoProgram = some t := by
    obtain ⟨cert, -, hinitial⟩ := Except.bind_eq_ok.mp hs
    cases hinitial
    exact ⟨_, rfl⟩
  obtain ⟨t, ht⟩ := hrun
  exact ⟨client_pfx, s, t, hs, ht, authDemoClient_run hs ht⟩

end ExertGrpc
