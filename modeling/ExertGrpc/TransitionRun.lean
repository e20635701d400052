/-! # Runs of a partial step function

`step s a` is the state after action `a` in state `s`, `none` when `a` cannot be
taken there.  A run is a list of actions; it says in which order several parties
move, so a statement about every run is a statement about every interleaving.

`Along step P s as` says that every step of the run `as` from `s` meets `P`,
which may look at the state before the step and at the action.  An invariant
that only survives the steps that meet `P` holds along every such run
(`run_invariant`); a fact that every step that misses `P` establishes, and that
nothing undoes, holds at the end of every other run (`run_of_not_along`).
-/
namespace TransitionRun
variable {σ α : Type} (step : σ → α → Option σ)

/-- The state at the end of a run, `none` if some action could not be taken. -/
def run : σ → List α → Option σ
  | s, [] => some s
  | s, a :: as => (step s a).bind fun t => run t as

/-- Every step of the run meets `P`. -/
def Along (P : σ → α → Prop) : σ → List α → Prop
  | _, [] => True
  | s, a :: as => P s a ∧ ∀ t, step s a = some t → Along P t as

variable {step} {P : σ → α → Prop} {s t : σ} {as bs : List α}

@[simp] theorem run_nil : run step s [] = some s := rfl

theorem run_cons {a : α} : run step s (a :: as) = some t ↔
    ∃ u, step s a = some u ∧ run step u as = some t := by
  rw [run, Option.bind_eq_some_iff]

theorem run_append : run step s (as ++ bs) = some t ↔
    ∃ u, run step s as = some u ∧ run step u bs = some t := by
  induction as generalizing s with
  | nil => simp
  | cons a as ih =>
    rw [List.cons_append, run_cons]
    constructor
    · rintro ⟨u, hu, hrun⟩
      obtain ⟨v, hv, hrest⟩ := ih.mp hrun
      exact ⟨v, run_cons.mpr ⟨u, hu, hv⟩, hrest⟩
    · rintro ⟨v, hv, hrest⟩
      obtain ⟨u, hu, hrun⟩ := run_cons.mp hv
      exact ⟨u, hu, ih.mpr ⟨v, hrun, hrest⟩⟩

/-- Where an action cannot be taken, the rest of the run does not matter. -/
theorem along_cons_none {a : α} (h : step s a = none) :
    Along step P s (a :: as) ↔ P s a := by
  simp [Along, h]

theorem along_cons_some {a : α} (h : step s a = some t) :
    Along step P s (a :: as) ↔ P s a ∧ Along step P t as := by
  simp [Along, h]

/-- Whether a run meets a decidable guard can be computed. -/
instance decidableAlong [∀ s a, Decidable (P s a)] :
    ∀ (s : σ) (as : List α), Decidable (Along step P s as)
  | _, [] => isTrue trivial
  | s, a :: as =>
    match h : step s a with
    | none => decidable_of_iff _ (along_cons_none h).symm
    | some t =>
      have := decidableAlong t as
      decidable_of_iff _ (along_cons_some h).symm

/-- The second part of a run that meets `P` meets it, from where the first part ends. -/
theorem Along.right (h : Along step P s (as ++ bs)) {u : σ} (hu : run step s as = some u) :
    Along step P u bs := by
  induction as generalizing s with
  | nil => exact Option.some.inj hu ▸ h
  | cons a as ih =>
    obtain ⟨v, hv, hrest⟩ := run_cons.mp hu
    exact ih (h.2 v hv) hrest

theorem Along.left (h : Along step P s (as ++ bs)) : Along step P s as := by
  induction as generalizing s with
  | nil => exact trivial
  | cons a as ih => exact ⟨h.1, fun t ht => ih (h.2 t ht)⟩

/-- **Invariants of guarded runs.** -/
theorem run_invariant {I : σ → Prop}
    (hstep : ∀ s a t, I s → P s a → step s a = some t → I t) :
    I s → Along step P s as → run step s as = some t → I t := by
  induction as generalizing s with
  | nil =>
    intro hs _ hrun
    rw [run_nil] at hrun
    exact Option.some.inj hrun ▸ hs
  | cons a as ih =>
    intro hs hP hrun
    obtain ⟨u, hu, hrest⟩ := run_cons.mp hrun
    exact ih (hstep s a u hs hP.1 hu) (hP.2 u hu) hrest

/-- An invariant of every step holds at the end of every run. -/
theorem run_keeps {I : σ → Prop} (hstep : ∀ s a t, I s → step s a = some t → I t) :
    I s → run step s as = some t → I t := by
  induction as generalizing s with
  | nil =>
    intro hs hrun
    rw [run_nil] at hrun
    exact Option.some.inj hrun ▸ hs
  | cons a as ih =>
    intro hs hrun
    obtain ⟨u, hu, hrest⟩ := run_cons.mp hrun
    exact ih (hstep s a u hs hu) hrest

/-- **Simulation.**  Where every step can be answered by one of the machine `step'` that
keeps `R`, every run can. -/
theorem run_simulates {σ' α' : Type} {step' : σ' → α' → Option σ'} {R : σ → σ' → Prop}
    (hsim : ∀ s a t s', R s s' → step s a = some t → ∃ b t', step' s' b = some t' ∧ R t t')
    {s' : σ'} : R s s' → run step s as = some t → ∃ bs t', run step' s' bs = some t' ∧ R t t' := by
  induction as generalizing s s' with
  | nil =>
    intro hR hrun
    rw [run_nil] at hrun
    exact ⟨[], s', rfl, Option.some.inj hrun ▸ hR⟩
  | cons a as ih =>
    intro hR hrun
    obtain ⟨u, hu, hrest⟩ := run_cons.mp hrun
    obtain ⟨b, u', hu', hR'⟩ := hsim s a u s' hR hu
    obtain ⟨bs, t', ht', hRt⟩ := ih hR' hrest
    exact ⟨b :: bs, t', run_cons.mpr ⟨u', hu', ht'⟩, hRt⟩

/-- **What a run that misses the guard ends in**, with an invariant `I` of every
step at hand. -/
theorem run_of_not_along {I Q : σ → Prop}
    (hI : ∀ s a t, I s → step s a = some t → I t)
    (hmiss : ∀ s a t, I s → ¬ P s a → step s a = some t → Q t)
    (hkeep : ∀ s a t, I s → Q s → step s a = some t → Q t) :
    I s → ¬ Along step P s as → run step s as = some t → Q t := by
  have hQ : ∀ s a t, I s ∧ Q s → step s a = some t → I t ∧ Q t :=
    fun s a t hs h => ⟨hI s a t hs.1 h, hkeep s a t hs.1 hs.2 h⟩
  induction as generalizing s with
  | nil => exact fun _ hn => absurd trivial hn
  | cons a as ih =>
    intro hs hn hrun
    obtain ⟨u, hu, hrest⟩ := run_cons.mp hrun
    by_cases hP : P s a
    · -- the miss comes later in the run
      refine ih (hI s a u hs hu) (fun hal => hn ⟨hP, fun v hv => ?_⟩) hrest
      rw [hu] at hv
      exact Option.some.inj hv ▸ hal
    · exact (run_keeps hQ ⟨hI s a u hs hu, hmiss s a u hs hP hu⟩ hrest).2

end TransitionRun
