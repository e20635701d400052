import ExertGrpc.CertsMakeService
import ExertGrpc.ExclusiveFile
import ExertGrpc.TransitionRun

/-! # The events of the certificate handler

`OnCertificateValidated` first writes the client's certificate to the file
`ccc.pfx`, then builds the principal of the request from the subject of the
certificate and calls `Success`.  If it throws, the framework runs
`OnAuthenticationFailed`, which calls `Fail("aa")`.

The requests of a server share that one file.  A `Server` is the file together
with where the callback of every request is; a step of it is a step of one
callback, so a run of steps is an interleaving of the callbacks.
-/
namespace ExertGrpc

/-! ## The callbacks -/

inductive ClaimTypes where
  | nameIdentifier
  | name
deriving DecidableEq, Repr

inductive ClaimValueTypes where
  | string
deriving DecidableEq, Repr

/-- `System.Security.Claims.Claim`. -/
structure Claim where
  type : ClaimTypes
  value : Text
  valueType : ClaimValueTypes
  issuer : Text
deriving DecidableEq, Repr

/-- `ClaimsPrincipal`, with its one identity. -/
structure ClaimsPrincipal where
  claims : List Claim
  authenticationType : Text
deriving DecidableEq, Repr

/-- The values of the claims of a type. -/
def ClaimsPrincipal.valuesOf (principal : ClaimsPrincipal) (type : ClaimTypes) : List Text :=
  (principal.claims.filter fun c => c.type = type).map Claim.value

/-- What the callbacks read of the context of a request. -/
structure CertificateValidatedContext where
  clientCertificate : X509Certificate2
  /-- `Options.ClaimsIssuer`. -/
  claimsIssuer : Text
  /-- `Scheme.Name`. -/
  schemeName : Text

inductive AuthenticateResult where
  | success (principal : ClaimsPrincipal)
  | fail (failureMessage : Text)
deriving DecidableEq, Repr

/-- The principal that `OnCertificateValidated` builds. -/
def validatedPrincipal (context : CertificateValidatedContext) : ClaimsPrincipal where
  claims := [
    { type := .nameIdentifier
      value := context.clientCertificate.subject
      valueType := .string
      issuer := context.claimsIssuer },
    { type := .name
      value := context.clientCertificate.subject
      valueType := .string
      issuer := context.claimsIssuer }]
  authenticationType := context.schemeName

/-- `OnCertificateValidated`, given how its call of `ExportCertPfxTo` ends. -/
def onCertificateValidated (exportCertPfxTo : Except Exn Unit)
    (context : CertificateValidatedContext) : Except Exn AuthenticateResult := do
  exportCertPfxTo
  return .success (validatedPrincipal context)

/-- `OnAuthenticationFailed`. -/
def onAuthenticationFailed : AuthenticateResult := .fail (literal "aa")

/-- What the framework makes of the callbacks. -/
def authenticate (exportCertPfxTo : Except Exn Unit) (context : CertificateValidatedContext) :
    AuthenticateResult :=
  match onCertificateValidated exportCertPfxTo context with
  | .ok result => result
  | .error _ => onAuthenticationFailed

@[simp] theorem authenticate_ok (u : Unit) (context : CertificateValidatedContext) :
    authenticate (.ok u) context = .success (validatedPrincipal context) := rfl

@[simp] theorem authenticate_error (e : Exn) (context : CertificateValidatedContext) :
    authenticate (.error e) context = onAuthenticationFailed := rfl

/-- The principal has one claim of each type, with the subject of the certificate. -/
theorem validatedPrincipal_valuesOf (context : CertificateValidatedContext) (type : ClaimTypes) :
    (validatedPrincipal context).valuesOf type = [context.clientCertificate.subject] := by
  cases type <;> rfl

/-- Only a callback that ran to its end authenticates. -/
theorem authenticate_eq_success {exportCertPfxTo : Except Exn Unit}
    {context : CertificateValidatedContext} {principal : ClaimsPrincipal} :
    authenticate exportCertPfxTo context = .success principal ↔
      exportCertPfxTo = .ok () ∧ principal = validatedPrincipal context := by
  cases exportCertPfxTo with
  | ok u =>
    constructor
    · rintro ⟨⟩
      exact ⟨rfl, rfl⟩
    · rintro ⟨-, rfl⟩
      rfl
  | error e => simp [onAuthenticationFailed]

/-! ## The server -/

/-- Where the callback of a request is: before `ExportCertPfxTo`, in its
`File.WriteAllBytes` with bytes still to write, after it, or at its end. -/
inductive Callback where
  | validated
  | writing (rest : Bytes)
  | exported
  | ended (result : AuthenticateResult)
deriving DecidableEq, Repr

/-- The file `ccc.pfx` and the callbacks of the requests. -/
structure Server (ι : Type) where
  file : ExclusiveFile ι UInt8
  callback : ι → Callback

/-- One step of the callback of request `i`. -/
inductive CallbackStep (ι : Type) where
  | openFile (i : ι)
  | write (i : ι) (n : Nat)
  | close (i : ι)
  | finish (i : ι)
deriving DecidableEq, Repr

namespace Server
variable {ι : Type} [DecidableEq ι] (x509 : X509) (context : ι → CertificateValidatedContext)

/-- Move the callback of request `i`. -/
def move (s : Server ι) (i : ι) (p : Callback) : Server ι :=
  { s with callback := Function.update s.callback i p }

/-- One step.  Opening the file while another callback has it open throws an
`IOException`. -/
def step (s : Server ι) : CallbackStep ι → Option (Server ι)
  | .openFile i =>
    match s.callback i, s.file.openEmpty i with
    -- `File.WriteAllBytes` empties the file it opens
    | .validated, some file =>
      some ({ s with file := file }.move i
        (.writing (exportCertPfx x509 (context i).clientCertificate)))
    -- nothing in the callback catches the exception
    | .validated, none => some (s.move i (.ended (authenticate (.error .ioException) (context i))))
    | _, _ => none
  | .write i n =>
    match s.callback i with
    | .writing rest =>
      if 0 < n ∧ rest ≠ [] then
        some ({ s with file := s.file.append (rest.take n) }.move i (.writing (rest.drop n)))
      else none
    | _ => none
  | .close i =>
    match s.callback i with
    | .writing [] => some ({ s with file := s.file.close }.move i .exported)
    | _ => none
  | .finish i =>
    match s.callback i with
    | .exported => some (s.move i (.ended (authenticate (.ok ()) (context i))))
    | _ => none

/-- All certificates have been validated, and nobody has the file open. -/
def initial (content : Option Bytes) : Server ι where
  file := { content := content, writer := none }
  callback _ := .validated

end Server
end ExertGrpc
