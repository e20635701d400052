import Mathlib.Data.List.Basic
import Mathlib.Data.Nat.Find
import Mathlib.Order.Basic

/-! # Cutting a list into pieces from the front

A **cut** says, of every list, how many of its elements the first piece takes.
Repeating it on what is left cuts the whole list into pieces: `Cuts cut xs ps`.
Nothing forces a cut to be positive, so a list need not have any cutting at all;
the first half of this module says when it has one and what its pieces are.

The second half is about the **greedy** cut for a predicate `fits` on lists,
which takes the longest prefix that fits (`longest`), and about transporting a
cutting along a change of representation (`Cuts.transport`), for code that cuts
a flat encoding of the list it is really about.
-/
namespace PrefixCut
variable {α β : Type}

/-- `ps` are the pieces of `xs`: each one is what `cut` takes off the front of
what the earlier ones left, and nothing is left at the end. -/
inductive Cuts (cut : List α → Nat) : List α → List (List α) → Prop
  | done : Cuts cut [] []
  | piece {xs : List α} {ps : List (List α)} (hne : xs ≠ [])
      (hrest : Cuts cut (xs.drop (cut xs)) ps) : Cuts cut xs (xs.take (cut xs) :: ps)

namespace Cuts
variable {cut : List α → Nat} {xs : List α} {ps : List (List α)}

/-- Nothing is lost, duplicated or reordered. -/
theorem flatten_eq (h : Cuts cut xs ps) : ps.flatten = xs := by
  induction h with
  | done => rfl
  | piece hne hrest ih => rw [List.flatten_cons, ih, List.take_append_drop]

theorem eq_nil (h : Cuts cut [] ps) : ps = [] := by
  cases h with
  | done => rfl
  | piece hne hrest => exact absurd rfl hne

theorem eq_cons (h : Cuts cut xs ps) (hne : xs ≠ []) :
    ∃ qs, ps = xs.take (cut xs) :: qs ∧ Cuts cut (xs.drop (cut xs)) qs := by
  cases h with
  | done => exact absurd rfl hne
  | piece hne hrest => exact ⟨_, rfl, hrest⟩

/-- A list has at most one cutting. -/
theorem unique (h : Cuts cut xs ps) : ∀ {qs : List (List α)}, Cuts cut xs qs → ps = qs := by
  induction h with
  | done => intro qs hq; exact hq.eq_nil.symm
  | piece hne hrest ih =>
    intro qs hq
    obtain ⟨rs, rfl, hrs⟩ := hq.eq_cons hne
    rw [ih hrs]

/-- A cutting only exists when the cut makes progress: a cut that takes nothing
leaves the same list to be cut again, for ever. -/
theorem cut_pos (h : Cuts cut xs ps) : xs ≠ [] → 0 < cut xs := by
  induction h with
  | done => exact fun hne => absurd rfl hne
  | @piece xs ps hne hrest ih =>
    intro _
    rcases Nat.eq_zero_or_pos (cut xs) with h0 | hpos
    · rw [h0, List.drop_zero] at ih
      exact absurd (ih hne) (by omega)
    · exact hpos

/-- No piece is empty. -/
theorem ne_nil (h : Cuts cut xs ps) : ∀ p ∈ ps, p ≠ [] := by
  induction h with
  | done => intro p hp; cases hp
  | @piece xs ps hne hrest ih =>
    intro p hp
    rcases List.mem_cons.mp hp with rfl | hp
    · have hpos := (Cuts.piece hne hrest).cut_pos hne
      intro hnil
      rcases List.take_eq_nil_iff.mp hnil with h0 | h0
      · omega
      · exact hne h0
    · exact ih p hp

/-- Dropping whole pieces leaves the cutting of what is left. -/
theorem drop (h : Cuts cut xs ps) (k : Nat) :
    Cuts cut (xs.drop (ps.take k).flatten.length) (ps.drop k) := by
  induction h generalizing k with
  | done => simpa using Cuts.done
  | @piece xs ps hne hrest ih =>
    cases k with
    | zero => simpa using Cuts.piece hne hrest
    | succ k =>
      rw [List.take_succ_cons, List.flatten_cons, List.length_append, List.drop_succ_cons,
        List.length_take]
      rcases Nat.le_total (cut xs) xs.length with hle | hle
      · rw [Nat.min_eq_left hle, ← List.drop_drop]
        exact ih k
      · have h1 := ih k
        rw [List.drop_eq_nil_of_le hle] at hrest h1
        rw [hrest.eq_nil, Nat.min_eq_right hle] at *
        simpa using h1

/-- What the cut does at each piece, read off its position. -/
theorem piece_eq (h : Cuts cut xs ps) : ∀ {pre post : List (List α)} {p : List α},
    ps = pre ++ p :: post → p = (p ++ post.flatten).take (cut (p ++ post.flatten)) := by
  induction h with
  | done => intro pre post p hps; simp at hps
  | @piece xs ps hne hrest ih =>
    intro pre post p hps
    cases pre with
    | nil =>
      obtain ⟨rfl, rfl⟩ := List.cons.inj hps
      rw [hrest.flatten_eq, List.take_append_drop]
    | cons q pre => exact ih (List.cons.inj hps).2

end Cuts

/-! ## When a cutting exists -/

/-- A cut that is positive on every non-empty suffix of `xs` cuts `xs` up. -/
theorem exists_cuts {cut : List α → Nat} (xs : List α)
    (hpos : ∀ s, s <:+ xs → s ≠ [] → 0 < cut s) : ∃ ps, Cuts cut xs ps := by
  induction hn : xs.length using Nat.strong_induction_on generalizing xs with
  | _ n ih =>
    by_cases hne : xs = []
    · subst hne; exact ⟨[], .done⟩
    · have h0 := hpos xs (List.suffix_refl xs) hne
      have hlen : 0 < xs.length := List.length_pos_iff.mpr hne
      obtain ⟨ps, hps⟩ := ih (xs.drop (cut xs)).length
        (by rw [List.length_drop]; omega) (xs.drop (cut xs))
        (fun s hs hsne => hpos s (hs.trans (List.drop_suffix _ xs)) hsne) rfl
      exact ⟨_, .piece hne hps⟩

/-- Cut `xs` up with at most `fuel` cuts; `none` when something is still left. -/
def cutUp (cut : List α → Nat) : Nat → List α → Option (List (List α))
  | _, [] => some []
  | 0, _ :: _ => none
  | fuel + 1, x :: xs =>
      (cutUp cut fuel ((x :: xs).drop (cut (x :: xs)))).map ((x :: xs).take (cut (x :: xs)) :: ·)

theorem cuts_of_cutUp {cut : List α → Nat} : ∀ {fuel : Nat} {xs : List α} {ps : List (List α)},
    cutUp cut fuel xs = some ps → Cuts cut xs ps
  | 0, [], ps, h => by cases h; exact .done
  | fuel + 1, [], ps, h => by cases h; exact .done
  | fuel + 1, x :: xs, ps, h => by
      rw [cutUp, Option.map_eq_some_iff] at h
      obtain ⟨qs, hqs, rfl⟩ := h
      exact .piece (List.cons_ne_nil x xs) (cuts_of_cutUp hqs)

theorem cutUp_of_cuts {cut : List α → Nat} {xs : List α} {ps : List (List α)}
    (h : Cuts cut xs ps) : ∀ {fuel : Nat}, ps.length ≤ fuel → cutUp cut fuel xs = some ps := by
  induction h with
  | done => intro fuel _; cases fuel <;> rfl
  | @piece xs ps hne hrest ih =>
    intro fuel hf
    obtain ⟨x, xs, rfl⟩ := List.exists_cons_of_ne_nil hne
    cases fuel with
    | zero => simp at hf
    | succ fuel =>
      rw [cutUp, ih (by simpa using hf), Option.map_some]

theorem Cuts.length_le {cut : List α → Nat} {xs : List α} {ps : List (List α)}
    (h : Cuts cut xs ps) : ps.length ≤ xs.length := by
  induction h with
  | done => exact Nat.le_refl _
  | @piece xs ps hne hrest ih =>
    have hpos := (Cuts.piece hne hrest).cut_pos hne
    have hlen : 0 < xs.length := List.length_pos_iff.mpr hne
    rw [List.length_drop] at ih
    rw [List.length_cons]
    omega

/-- The pieces of `xs`, for a cut that makes progress. -/
def pieces (cut : List α → Nat) (xs : List α) : List (List α) :=
  (cutUp cut xs.length xs).getD []

theorem pieces_cuts {cut : List α → Nat} (hpos : ∀ s, s ≠ [] → 0 < cut s) (xs : List α) :
    Cuts cut xs (pieces cut xs) := by
  obtain ⟨ps, hps⟩ := exists_cuts xs (fun s _ => hpos s)
  rw [pieces, cutUp_of_cuts hps hps.length_le]
  exact hps

/-! ## The greedy cut -/

section Greedy
variable (fits : List α → Prop) [DecidablePred fits]

/-- The length of the longest prefix that fits, `0` when none does. -/
def longest (xs : List α) : Nat :=
  Nat.findGreatest (fun n => fits (xs.take n)) xs.length

variable {fits}

theorem fits_longest {xs : List α} (h : 0 < longest fits xs) :
    fits (xs.take (longest fits xs)) :=
  Nat.findGreatest_of_ne_zero (P := fun n => fits (xs.take n)) rfl (Nat.ne_of_gt h)

theorem le_longest {xs : List α} {n : Nat} (hn : n ≤ xs.length) (h : fits (xs.take n)) :
    n ≤ longest fits xs := Nat.le_findGreatest hn h

theorem longest_congr {fits' : List α → Prop} [DecidablePred fits'] (h : ∀ p, fits p ↔ fits' p)
    (xs : List α) : longest fits xs = longest fits' xs := by
  unfold longest
  congr 1
  exact funext fun n => propext (h (xs.take n))

theorem longest_pos {x : α} {xs : List α} (h : fits [x]) : 0 < longest fits (x :: xs) :=
  le_longest (n := 1) (by simp) (by simpa using h)

/-- A list whose elements fit one by one has a greedy cutting. -/
theorem exists_greedy {xs : List α} (h : ∀ x ∈ xs, fits [x]) : ∃ ps, Cuts (longest fits) xs ps := by
  refine exists_cuts xs (fun s hs hne => ?_)
  obtain ⟨x, t, rfl⟩ := List.exists_cons_of_ne_nil hne
  exact longest_pos (h x (hs.subset (List.mem_cons_self ..)))

/-- Every greedy piece fits. -/
theorem Cuts.piece_fits {xs : List α} {ps : List (List α)} (h : Cuts (longest fits) xs ps) :
    ∀ p ∈ ps, fits p := by
  induction h with
  | done => intro p hp; cases hp
  | @piece xs ps hne hrest ih =>
    intro p hp
    rcases List.mem_cons.mp hp with rfl | hp
    · exact fits_longest ((Cuts.piece hne hrest).cut_pos hne)
    · exact ih p hp

/-- **Every greedy piece but the last is maximal**: with the next element of the
list it no longer fits. -/
theorem Cuts.maximal {xs : List α} {ps : List (List α)} (h : Cuts (longest fits) xs ps) :
    ∀ {pre post : List (List α)} {p : List α} {x : α} {rest : List α},
      ps = pre ++ p :: post → post.flatten = x :: rest → ¬ fits (p ++ [x]) := by
  intro pre post p x rest hps hrest hfit
  have hp := h.piece_eq hps
  rw [hrest] at hp
  have hlen := congrArg List.length hp
  rw [List.length_take, List.length_append, List.length_cons] at hlen
  have htake : (p ++ x :: rest).take (p.length + 1) = p ++ [x] := by
    rw [List.take_length_add_append, List.take_succ_cons, List.take_zero]
  have hle : p.length + 1 ≤ longest fits (p ++ x :: rest) :=
    le_longest (by simp) (by rw [htake]; exact hfit)
  omega

theorem longest_le (xs : List α) : longest fits xs ≤ xs.length := Nat.findGreatest_le _

variable (fits) in
/-- No piece can be made longer, into what follows it, and still fit. -/
def Unextendable : List (List α) → Prop
  | [] => True
  | p :: ps => (∀ q, p <+: q → q <+: p ++ ps.flatten → fits q → q = p) ∧ Unextendable ps

/-- **The greedy cutting, without the cut**: it is the one into pieces that fit and
cannot be made longer. -/
theorem cuts_longest_iff {xs : List α} {ps : List (List α)} :
    Cuts (longest fits) xs ps ↔
      ps.flatten = xs ∧ (∀ p ∈ ps, p ≠ [] ∧ fits p) ∧ Unextendable fits ps := by
  constructor
  · intro h
    refine ⟨h.flatten_eq, fun p hp => ⟨h.ne_nil p hp, h.piece_fits p hp⟩, ?_⟩
    induction h with
    | done => trivial
    | @piece xs ps hne hrest ih =>
      refine ⟨fun q hp hq hfit => ?_, ih⟩
      rw [hrest.flatten_eq, List.take_append_drop] at hq
      have hqtake : q = xs.take q.length := List.prefix_iff_eq_take.mp hq
      have hle : q.length ≤ longest fits xs := le_longest hq.length_le (hqtake ▸ hfit)
      have hge := hp.length_le
      rw [List.length_take, Nat.min_eq_left (longest_le xs)] at hge
      rw [Nat.le_antisymm hge hle]
      exact hqtake
  · rintro ⟨rfl, hfit, hmax⟩
    induction ps with
    | nil => exact .done
    | cons p ps ih =>
      obtain ⟨hne, hp⟩ := hfit p (List.mem_cons_self ..)
      have hrest := ih (fun q hq => hfit q (List.mem_cons_of_mem _ hq)) hmax.2
      -- the longest prefix that fits is `p` itself, since `p` cannot be made longer
      have hle : p.length ≤ longest fits (p ++ ps.flatten) := le_longest (by simp) (by simpa using hp)
      have hlong : longest fits (p ++ ps.flatten) = p.length := by
        have hpos : 0 < longest fits (p ++ ps.flatten) :=
          Nat.lt_of_lt_of_le (List.length_pos_iff.mpr hne) hle
        have heq := hmax.1 _ (List.prefix_take_iff.mpr ⟨List.prefix_append _ _, hle⟩)
          (List.take_prefix _ _) (fits_longest hpos)
        have hlen := congrArg List.length heq
        rwa [List.length_take, Nat.min_eq_left (longest_le _)] at hlen
      have hxs : p ++ ps.flatten ≠ [] := fun hnil => hne (List.append_eq_nil_iff.mp hnil).1
      have hcut : Cuts (longest fits) (p ++ ps.flatten)
          ((p ++ ps.flatten).take (longest fits (p ++ ps.flatten)) :: ps) :=
        .piece hxs (by rw [hlong, List.drop_left]; exact hrest)
      rwa [hlong, List.take_left] at hcut

/-- The greedy cut stays ahead of every piece that fits: what it leaves is no
more than what that piece leaves. -/
theorem drop_longest_suffix {p rest : List α} (h : fits p) :
    (p ++ rest).drop (longest fits (p ++ rest)) <:+ rest := by
  have hle : p.length ≤ longest fits (p ++ rest) := le_longest (by simp) (by simpa using h)
  obtain ⟨k, hk⟩ := Nat.exists_eq_add_of_le hle
  rw [hk, ← List.drop_drop, List.drop_left]
  exact List.drop_suffix k rest

/-- **Greedy cuttings are shortest.**  A list that is cut up greedily, and that
other pieces cover, has no more greedy pieces than there are of the others, if
every end of every one of those fits. -/
theorem Cuts.length_le_of_covered {qs : List (List α)}
    (hfit : ∀ q ∈ qs, ∀ s, s <:+ q → fits s) : ∀ {xs : List α} {ps : List (List α)},
    Cuts (longest fits) xs ps → xs <:+ qs.flatten → ps.length ≤ qs.length := by
  induction qs with
  | nil =>
    intro xs ps h hcover
    have hnil : xs = [] := List.suffix_nil.mp hcover
    subst hnil
    rw [h.eq_nil]
  | cons q qs ih =>
    intro xs ps h hcover
    have hlater : ∀ q' ∈ qs, ∀ s, s <:+ q' → fits s :=
      fun q' hq' => hfit q' (List.mem_cons_of_mem _ hq')
    by_cases hne : xs = []
    · subst hne
      rw [h.eq_nil]
      exact Nat.zero_le _
    -- either the later pieces cover `xs` already, or `xs` starts inside `q`
    obtain ⟨before, hxs⟩ := hcover
    rw [List.flatten_cons] at hxs
    rcases List.append_eq_append_iff.mp hxs with ⟨s, rfl, rfl⟩ | ⟨t, -, hqs⟩
    · obtain ⟨rs, rfl, hrs⟩ := h.eq_cons hne
      have hs : fits s := hfit _ (List.mem_cons_self ..) s (List.suffix_append before s)
      exact Nat.succ_le_succ (ih hlater hrs (drop_longest_suffix hs))
    · exact (ih hlater h ⟨t, hqs.symm⟩).trans (Nat.le_succ _)

end Greedy

/-! ## Cutting an encoding -/

/-- **Transport.**  `decode` reads a list of `β` as a list of `α`, and `encode`
writes one back.  If the cut of an encoded list takes the encoding of what the
other cut takes of the decoded one, and leaves the encoding of what that leaves,
then the two cuttings are the same, piece by piece. -/
theorem Cuts.transport {cut : List α → Nat} {cut' : List β → Nat}
    {decode : List β → List α} {encode : List α → List β}
    (hnil : ∀ t, decode t = [] ↔ t = [])
    (htake : ∀ t, t ≠ [] → t.take (cut' t) = encode ((decode t).take (cut (decode t))))
    (hdrop : ∀ t, t ≠ [] → decode (t.drop (cut' t)) = (decode t).drop (cut (decode t)))
    {t : List β} {ps : List (List β)} :
    Cuts cut' t ps ↔ ∃ qs, Cuts cut (decode t) qs ∧ ps = qs.map encode := by
  constructor
  · intro h
    induction h with
    | done => exact ⟨[], by rw [(hnil []).mpr rfl]; exact .done, rfl⟩
    | @piece t ps hne hrest ih =>
      obtain ⟨qs, hqs, rfl⟩ := ih
      rw [hdrop t hne] at hqs
      exact ⟨_, .piece (fun hd => hne ((hnil t).mp hd)) hqs, by rw [htake t hne]; rfl⟩
  · rintro ⟨qs, hqs, rfl⟩
    generalize hx : decode t = xs at hqs
    induction hqs generalizing t with
    | done => rw [(hnil t).mp hx]; exact .done
    | @piece xs qs hne hrest ih =>
      subst hx
      have ht : t ≠ [] := fun hd => hne ((hnil t).mpr hd)
      rw [List.map_cons, ← htake t ht]
      exact .piece ht (ih (hdrop t ht))

end PrefixCut
