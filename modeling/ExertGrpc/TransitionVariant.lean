import Mathlib.Algebra.BigOperators.Group.Finset.Piecewise
import Mathlib.Algebra.Order.BigOperators.Group.Finset
import ExertGrpc.TransitionRun

/-! # Runs that come to an end

A variant is a number that every step makes smaller, or every step that meets a guard
`P`.  It bounds the length of every run of such steps (`run_length_le`), and where
whoever is not done has such a step to take, every run can be continued until everybody
is done (`exists_run_of_progress`).

In a system of finitely many parties in which a step moves one party, and moves it to
a smaller rank, the sum of the ranks is a variant (`sum_rank_update_lt`).
-/
namespace TransitionRun

section Variant
variable {σ α : Type} {step : σ → α → Option σ} {I Done : σ → Prop} {P : σ → α → Prop}
variable {variant : σ → Nat} {s t : σ} {as : List α}

theorem along_of_forall (h : ∀ s a, P s a) : Along step P s as := by
  induction as generalizing s with
  | nil => exact trivial
  | cons a as ih => exact ⟨h s a, fun t _ => ih⟩

/-- What is left of the variant at the end of a run, and how many steps it took. -/
theorem run_length_add_le (hI : ∀ s a t, I s → step s a = some t → I t)
    (hlt : ∀ s a t, I s → P s a → step s a = some t → variant t < variant s) :
    I s → Along step P s as → run step s as = some t → as.length + variant t ≤ variant s := by
  induction as generalizing s with
  | nil =>
    intro _ _ hrun
    rw [run_nil] at hrun
    rw [Option.some.inj hrun, List.length_nil]
    omega
  | cons a as ih =>
    intro hs hP hrun
    obtain ⟨u, hu, hrest⟩ := run_cons.mp hrun
    have hstep := hlt s a u hs hP.1 hu
    have hrun := ih (hI s a u hs hu) (hP.2 u hu) hrest
    rw [List.length_cons]
    omega

/-- **No run is longer than the variant.** -/
theorem run_length_le (hI : ∀ s a t, I s → step s a = some t → I t)
    (hlt : ∀ s a t, I s → P s a → step s a = some t → variant t < variant s) (hs : I s)
    (hP : Along step P s as) (hrun : run step s as = some t) : as.length ≤ variant s := by
  have hle := run_length_add_le hI hlt hs hP hrun
  omega

/-- **Every run can be continued until everybody is done**, by steps that meet `P`,
where such steps make the variant smaller and whoever is not done has one to take. -/
theorem exists_run_of_progress (hI : ∀ s a t, I s → step s a = some t → I t)
    (hlt : ∀ s a t, I s → P s a → step s a = some t → variant t < variant s)
    (hprogress : ∀ s, I s → ¬ Done s → ∃ a t, P s a ∧ step s a = some t) (hs : I s) :
    ∃ as t, run step s as = some t ∧ Along step P s as ∧ Done t := by
  induction hn : variant s using Nat.strong_induction_on generalizing s with
  | _ n ih =>
    by_cases hdone : Done s
    · exact ⟨[], s, rfl, trivial, hdone⟩
    · obtain ⟨a, u, ha, hu⟩ := hprogress s hs hdone
      have hsmaller : variant u < n := by
        rw [← hn]
        exact hlt s a u hs ha hu
      obtain ⟨as, t, hrun, halong, ht⟩ := ih _ hsmaller (hI s a u hs hu) rfl
      refine ⟨a :: as, t, run_cons.mpr ⟨u, hu, hrun⟩, ⟨ha, fun v hv => ?_⟩, ht⟩
      rw [hu] at hv
      exact Option.some.inj hv ▸ halong

end Variant

/-- Moving one party to a smaller rank makes the sum of the ranks smaller. -/
theorem sum_rank_update_lt {ι β : Type} [Fintype ι] [DecidableEq ι] (rank : ι → β → Nat)
    {place : ι → β} {i : ι} {p : β} (h : rank i p < rank i (place i)) :
    ∑ j, rank j (Function.update place i p j) < ∑ j, rank j (place j) := by
  have hranks : (fun j => rank j (Function.update place i p j)) =
      Function.update (fun j => rank j (place j)) i (rank i p) :=
    funext fun j => Function.apply_update rank place i p j
  rw [hranks, Finset.sum_update_of_mem (Finset.mem_univ i), Finset.sdiff_singleton_eq_erase,
    ← Finset.add_sum_erase Finset.univ (fun j => rank j (place j)) (Finset.mem_univ i)]
  omega

end TransitionRun
