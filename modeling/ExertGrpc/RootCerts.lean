import Mathlib.Data.List.Nodup
import ExertGrpc.X509

/-! # `RootCerts.Register`

The call opens the machine's store of roots, looks whether the embedded root is in
it, and is meant to add the root if it is not.  The search never comes to `null`:
nothing is ever added.  And only the last of its steps is under the `finally` that
closes the store: an exception between the opening and there leaves it open.

Every call of the store may throw; which ones do is an argument.
-/
namespace ExertGrpc

/-- The machine's store of roots: its certificates, which have different
thumbprints, and whether the call has it open. -/
structure X509Store (x509 : X509) where
  certificates : List X509Certificate2
  isOpen : Bool
  distinct : (certificates.map x509.thumbprint).Nodup

/-- Which calls of the store throw. -/
structure StoreFaults where
  openThrows : Bool
  findThrows : Bool
  addThrows : Bool
deriving DecidableEq, Repr

/-- Code that uses the store.  An exception leaves the store as it was then. -/
abbrev StoreM (x509 : X509) := EStateM Exn (X509Store x509)

namespace X509Store
variable {x509 : X509}

/-- `Add(certificate)` changes nothing if the certificate is in the store. -/
def insert (store : X509Store x509) (cert : X509Certificate2) : X509Store x509 :=
  if h : x509.thumbprint cert ∈ store.certificates.map x509.thumbprint then store
  else { store with
    certificates := store.certificates ++ [cert]
    distinct := by
      rw [List.map_append, List.map_singleton, List.nodup_append]
      refine ⟨store.distinct, List.nodup_singleton _, fun a ha b hb => ?_⟩
      rw [List.mem_singleton.mp hb]
      rintro rfl
      exact h ha }

/-- `new X509Store(StoreName.Root, StoreLocation.LocalMachine)`, which opens nothing. -/
def newStore : StoreM x509 Unit := modify fun store => { store with isOpen := false }

/-- `store.Open(OpenFlags.MaxAllowed)`. -/
def openStore (faults : StoreFaults) : StoreM x509 Unit :=
  if faults.openThrows then throw .cryptographic
  else modify fun store => { store with isOpen := true }

/-- `store.Certificates.Find(X509FindType.FindByThumbprint, thumbprint, false)`: a
collection, empty if nothing matches, never `null`. -/
def find (faults : StoreFaults) (thumbprint : Text) : StoreM x509 (Option (List X509Certificate2)) :=
  if faults.findThrows then throw .cryptographic
  else do
    let store ← get
    return some (store.certificates.filter fun cert => x509.thumbprint cert = thumbprint)

/-- `store.Add(certificate)`. -/
def add (faults : StoreFaults) (cert : X509Certificate2) : StoreM x509 Unit :=
  if faults.addThrows then throw .cryptographic
  else modify fun store => store.insert cert

/-- `store.Close()`. -/
def close : StoreM x509 Unit := modify fun store => { store with isOpen := false }

end X509Store

/-- `RootCerts.Register()`, with the bytes of the embedded root certificate. -/
def register (x509 : X509) (rootca_pfx : Bytes) (faults : StoreFaults) : StoreM x509 Unit := do
  X509Store.newStore
  X509Store.openStore faults
  -- an exception in the next two lines leaves before the `try`
  let rootCerts ← MonadExcept.ofExcept (x509.load rootca_pfx (literal "1234"))
  let findResult ← X509Store.find faults (x509.thumbprint rootCerts)
  try
    -- `findResult is null`
    if findResult.isNone then
      X509Store.add faults rootCerts
  finally
    X509Store.close

/-- The store that code leaves behind. -/
def storeAfter {x509 : X509} {α : Type} : EStateM.Result Exn (X509Store x509) α → X509Store x509
  | .ok _ store => store
  | .error _ store => store

/-! ## How a call ends -/

variable {x509 : X509} {rootca_pfx : Bytes} {faults : StoreFaults} {store : X509Store x509}
  {rootCerts : X509Certificate2}

theorem register_of_openThrows (h : faults.openThrows = true) :
    register x509 rootca_pfx faults store = .error .cryptographic { store with isOpen := false } := by
  simp only [register, X509Store.openStore, h, if_true]
  rfl

/-- The PFX does not load: the store stays open. -/
theorem register_of_not_loaded (ho : faults.openThrows = false) {e : Exn}
    (h : x509.load rootca_pfx (literal "1234") = .error e) :
    register x509 rootca_pfx faults store = .error e { store with isOpen := true } := by
  simp only [register, X509Store.openStore, ho, h]
  rfl

/-- The search throws: the store stays open. -/
theorem register_of_findThrows (ho : faults.openThrows = false)
    (h : x509.load rootca_pfx (literal "1234") = .ok rootCerts) (hf : faults.findThrows = true) :
    register x509 rootca_pfx faults store = .error .cryptographic { store with isOpen := true } := by
  simp only [register, X509Store.openStore, X509Store.find, ho, h, hf, if_true]
  rfl

/-- The search comes to a collection: nothing is added, whether or not the root is
in it. -/
theorem register_of_found (ho : faults.openThrows = false)
    (h : x509.load rootca_pfx (literal "1234") = .ok rootCerts) (hf : faults.findThrows = false) :
    register x509 rootca_pfx faults store = .ok () { store with isOpen := false } := by
  simp only [register, X509Store.openStore, X509Store.find, ho, h, hf]
  rfl

/-- No call changes what the store holds. -/
theorem register_certificates :
    (storeAfter (register x509 rootca_pfx faults store)).certificates = store.certificates := by
  cases ho : faults.openThrows with
  | true => rw [register_of_openThrows ho, storeAfter]
  | false =>
    cases h : x509.load rootca_pfx (literal "1234") with
    | error e => rw [register_of_not_loaded ho h, storeAfter]
    | ok rootCerts =>
      cases hf : faults.findThrows with
      | true => rw [register_of_findThrows ho h hf, storeAfter]
      | false => rw [register_of_found ho h hf, storeAfter]

/-- A call returns exactly when neither the opening, nor the loading, nor the search
throws. -/
theorem register_eq_ok {t : X509Store x509} :
    register x509 rootca_pfx faults store = .ok () t ↔
      faults.openThrows = false ∧ faults.findThrows = false ∧
      (∃ rootCerts, x509.load rootca_pfx (literal "1234") = .ok rootCerts) ∧
      t = { store with isOpen := false } := by
  cases ho : faults.openThrows with
  | true => simp [register_of_openThrows ho]
  | false =>
    cases h : x509.load rootca_pfx (literal "1234") with
    | error e => simp [register_of_not_loaded ho h]
    | ok rootCerts =>
      cases hf : faults.findThrows with
      | true => simp [register_of_findThrows ho h hf]
      | false => simp [register_of_found ho h hf, eq_comm]

/-! ## What a call is to achieve -/

namespace X509Store

/-- The certificate is in the store exactly once. -/
def HoldsOnce (store : X509Store x509) (cert : X509Certificate2) : Prop :=
  (store.certificates.countP fun c => x509.thumbprint c = x509.thumbprint cert) = 1

/-- The certificates of the store other than the given one. -/
def others (store : X509Store x509) (cert : X509Certificate2) : List X509Certificate2 :=
  store.certificates.filter fun c => x509.thumbprint c ≠ x509.thumbprint cert

/-- A certificate that is in the store is in it once. -/
theorem holdsOnce_iff {cert : X509Certificate2} : store.HoldsOnce cert ↔
    x509.thumbprint cert ∈ store.certificates.map x509.thumbprint := by
  have hcount : (store.certificates.countP fun c => x509.thumbprint c = x509.thumbprint cert) =
      (store.certificates.map x509.thumbprint).count (x509.thumbprint cert) := by
    rw [List.count, List.countP_map]
    exact List.countP_congr fun c _ => by simp
  rw [HoldsOnce, hcount]
  constructor
  · intro h
    exact List.count_pos_iff.mp (by omega)
  · exact List.count_eq_one_of_mem store.distinct

end X509Store

/-- What `Register` is to achieve: a call that returns leaves the root in the store
exactly once and the other certificates as they were, and another call changes
nothing; and however the call ends, the store is closed. -/
structure Registers (x509 : X509) (rootca_pfx : Bytes) (faults : StoreFaults)
    (store : X509Store x509) : Prop where
  returns : ∀ t, register x509 rootca_pfx faults store = .ok () t →
    ∃ rootCerts, x509.load rootca_pfx (literal "1234") = .ok rootCerts ∧
      t.HoldsOnce rootCerts ∧ t.others rootCerts = store.others rootCerts ∧
      ∀ again, (storeAfter (register x509 rootca_pfx again t)).certificates = t.certificates
  closes : (storeAfter (register x509 rootca_pfx faults store)).isOpen = false

/-- **`Register` achieves this exactly when the store does not open, or when the PFX
loads, the search succeeds, and the root is in the store already.** -/
theorem registers_iff :
    Registers x509 rootca_pfx faults store ↔ faults.openThrows = true ∨
      ∃ rootCerts, x509.load rootca_pfx (literal "1234") = .ok rootCerts ∧
        faults.findThrows = false ∧
        x509.thumbprint rootCerts ∈ store.certificates.map x509.thumbprint := by
  cases ho : faults.openThrows with
  | true =>
    refine iff_of_true ⟨fun t ht => ?_, ?_⟩ (.inl rfl)
    · rw [register_of_openThrows ho] at ht
      cases ht
    · rw [register_of_openThrows ho, storeAfter]
  | false =>
    cases h : x509.load rootca_pfx (literal "1234") with
    | error e =>
      refine iff_of_false (fun hr => ?_) (by simp)
      have hopen := hr.closes
      rw [register_of_not_loaded ho h] at hopen
      cases hopen
    | ok rootCerts =>
      cases hf : faults.findThrows with
      | true =>
        refine iff_of_false (fun hr => ?_) (by simp)
        have hopen := hr.closes
        rw [register_of_findThrows ho h hf] at hopen
        cases hopen
      | false =>
        -- the call returns, and the store holds what it held before
        have hret : register x509 rootca_pfx faults store = .ok () { store with isOpen := false } :=
          register_of_found ho h hf
        constructor
        · intro hr
          obtain ⟨root, hroot, honce, -⟩ := hr.returns _ hret
          obtain rfl : rootCerts = root := Except.ok.inj (h.symm.trans hroot)
          exact .inr ⟨rootCerts, rfl, rfl, X509Store.holdsOnce_iff.mp honce⟩
        · rintro (hopen | ⟨root, hroot, -, hmem⟩)
          · cases hopen
          obtain rfl : rootCerts = root := Except.ok.inj hroot
          refine ⟨fun t ht => ?_, by rw [hret, storeAfter]⟩
          obtain ⟨-, -, -, rfl⟩ := register_eq_ok.mp ht
          exact ⟨rootCerts, h, X509Store.holdsOnce_iff.mpr hmem, rfl,
            fun again => register_certificates⟩

/-! ## A machine without the root -/

/-- A store that holds nothing. -/
def emptyStore (x509 : X509) : X509Store x509 where
  certificates := []
  isOpen := false
  distinct := List.nodup_nil

def noFaults : StoreFaults := ⟨false, false, false⟩

/-- **On a machine without the root the call returns and adds nothing**, and if the
PFX does not load, the store is left open. -/
theorem register_not_registers :
    let root := demoCertificate (literal "CN=MyCARoot") 1
    let x509 := demoX509 [root]
    (x509.load (x509.exportPfx root (literal "1234")) (literal "1234") = .ok root ∧
      register x509 (x509.exportPfx root (literal "1234")) noFaults (emptyStore x509) =
        .ok () (emptyStore x509) ∧
      ¬ (emptyStore x509).HoldsOnce root) ∧
    (storeAfter (register x509 [] noFaults (emptyStore x509))).isOpen = true := by
  intro root x509
  have hload : x509.load (x509.exportPfx root (literal "1234")) (literal "1234") = .ok root :=
    X509.load_eq_ok.mpr (by decide +kernel)
  have hnot : x509.load [] (literal "1234") = .error .cryptographic := by rfl
  refine ⟨⟨hload, register_of_found rfl hload rfl, ?_⟩, ?_⟩
  · rw [X509Store.holdsOnce_iff]
    exact List.not_mem_nil
  · rw [register_of_not_loaded rfl hnot, storeAfter]

end ExertGrpc
