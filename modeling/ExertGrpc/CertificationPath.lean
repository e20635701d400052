import Mathlib.Data.List.Chain

/-! # Certification paths

A certification path leads from a certificate to the one for which it is trusted, its
anchor: each certificate was issued by the next one.  At a moment it is valid if the
moment is inside the dates of every certificate and whoever issues in between may do so.
The anchor, which is the last one, is trusted to issue: of it that is not asked.
-/

/-- What the rules read of certificates `C`, with moments `T`. -/
structure CertificationPath (C T : Type) where
  /-- The first certificate was issued by the second one. -/
  issued : C → C → Prop
  mayIssue : C → Prop
  notBefore : C → T
  notAfter : C → T

namespace CertificationPath
variable {C T : Type} [LE T] {rules : CertificationPath C T} {c d : C} {path : List C} {time : T}

/-- The path is valid at the moment. -/
structure Valid (rules : CertificationPath C T) (path : List C) (time : T) : Prop where
  links : path.IsChain rules.issued
  /-- Neither the first certificate nor the anchor has to be an issuer. -/
  issuers : ∀ c ∈ path.tail.dropLast, rules.mayIssue c
  dates : ∀ c ∈ path, rules.notBefore c ≤ time ∧ time ≤ rules.notAfter c

/-- A certificate alone. -/
theorem valid_singleton :
    rules.Valid [c] time ↔ rules.notBefore c ≤ time ∧ time ≤ rules.notAfter c := by
  constructor
  · intro h
    exact h.dates c (List.mem_singleton.mpr rfl)
  · intro h
    refine ⟨.singleton c, fun d hd => absurd hd List.not_mem_nil, fun d hd => ?_⟩
    rw [List.mem_singleton.mp hd]
    exact h

/-- The issuers between a certificate and the anchor: the next one, unless it is the
anchor, and those after it. -/
theorem forall_issuers_cons_cons {P : C → Prop} :
    (∀ e ∈ (c :: d :: path).tail.dropLast, P e) ↔
      (path ≠ [] → P d) ∧ ∀ e ∈ (d :: path).tail.dropLast, P e := by
  rw [List.tail_cons, List.tail_cons]
  by_cases hpath : path = []
  · subst hpath
    simp
  · rw [List.dropLast_cons_of_ne_nil hpath, List.forall_mem_cons, forall_prop_of_true hpath]

/-- A certificate in front of a path. -/
theorem valid_cons_cons : rules.Valid (c :: d :: path) time ↔
    (rules.issued c d ∧ (path ≠ [] → rules.mayIssue d)) ∧
      (rules.notBefore c ≤ time ∧ time ≤ rules.notAfter c) ∧ rules.Valid (d :: path) time := by
  constructor
  · intro h
    obtain ⟨hlink, hlinks⟩ := List.isChain_cons_cons.mp h.links
    obtain ⟨hissuer, hissuers⟩ := forall_issuers_cons_cons.mp h.issuers
    exact ⟨⟨hlink, hissuer⟩, h.dates c List.mem_cons_self, hlinks, hissuers,
      fun e he => h.dates e (List.mem_cons_of_mem c he)⟩
  · rintro ⟨⟨hlink, hissuer⟩, hdates, h⟩
    refine ⟨.cons_cons hlink h.links, forall_issuers_cons_cons.mpr ⟨hissuer, h.issuers⟩,
      fun e he => ?_⟩
    rcases List.mem_cons.mp he with rfl | he
    · exact hdates
    · exact h.dates e he

end CertificationPath
