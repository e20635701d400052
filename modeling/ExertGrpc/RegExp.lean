import Mathlib.Data.List.Forall2

/-! # Patterns with one group

A regular expression that is a row of items: each of them takes one unit, or as many as
it can, or as few.  The matcher tries the ways of matching in the order in which a
backtracking matcher does, so the first one it finds is the one that counts: the leftmost
start, and from there the shortest or the longest group.

Such a pattern takes a text apart whose start and end are as it says
(`exec_eq_some_stem`).
-/
namespace RegExp
variable {α : Type}

/-- An item of a pattern.  `many` is the group: at least `least` units that pass the test,
as few of them as possible or as many. -/
inductive Item (α : Type) where
  | one (test : α → Bool)
  | many (test : α → Bool) (least : Nat) (lazily : Bool)

/-- A pattern; `atEnd` says that it ends in `$`. -/
structure Pattern (α : Type) where
  items : List (Item α)
  atEnd : Bool

/-- The lengths of a group in the order in which they are tried. -/
def lengths (lazily : Bool) (n : Nat) : List Nat :=
  if lazily then List.range (n + 1) else (List.range (n + 1)).reverse

/-- Match the items against the beginning of a text: what the group takes, `[]` when there
is none. -/
def matchHere (atEnd : Bool) : List (Item α) → List α → Option (List α)
  | [], rest => if atEnd && !rest.isEmpty then none else some []
  | .one _ :: _, [] => none
  | .one test :: items, u :: rest => if test u then matchHere atEnd items rest else none
  | .many test least lazily :: items, rest =>
    (lengths lazily rest.length).findSome? fun k =>
      if least ≤ k ∧ (rest.take k).all test then
        (matchHere atEnd items (rest.drop k)).map fun _ => rest.take k
      else none

namespace Pattern

/-- `text.match(pattern)`: what the group of the first match takes. -/
def exec (pattern : Pattern α) (text : List α) : Option (List α) :=
  (List.range (text.length + 1)).findSome? fun i =>
    matchHere pattern.atEnd pattern.items (text.drop i)

/-- `pattern.test(text)`. -/
def test (pattern : Pattern α) (text : List α) : Bool := (pattern.exec text).isSome

end Pattern

/-! ## What a match is -/

section Search
variable {β : Type} {f : Nat → Option β} {b : β} {m n : Nat}

theorem findSome?_range (hm : m ≤ n) (hb : f m = some b) (hlt : ∀ k, k < m → f k = none) :
    (List.range (n + 1)).findSome? f = some b := by
  have hsplit : List.range (n + 1) = List.range m ++ m :: (List.range (n - m)).map (m + 1 + ·) := by
    have hn : n + 1 = m + (1 + (n - m)) := by omega
    rw [hn, List.range_add, Nat.add_comm 1, List.range_succ_eq_map, List.map_cons, List.map_map]
    refine congrArg (List.range m ++ ·) (List.cons_eq_cons.mpr ⟨Nat.add_zero m, ?_⟩)
    refine List.map_congr_left fun k _ => ?_
    show m + (k + 1) = m + 1 + k
    omega
  refine List.findSome?_eq_some_iff.mpr ⟨_, m, _, hsplit, hb, fun k hk => ?_⟩
  exact hlt k (List.mem_range.mp hk)

theorem findSome?_range_reverse (hm : m ≤ n) (hb : f m = some b)
    (hgt : ∀ k, m < k → k ≤ n → f k = none) :
    (List.range (n + 1)).reverse.findSome? f = some b := by
  induction n with
  | zero =>
    obtain rfl : m = 0 := by omega
    simpa using hb
  | succ n ih =>
    rw [List.range_succ, List.reverse_append, List.reverse_singleton, List.singleton_append,
      List.findSome?_cons]
    by_cases hlast : m = n + 1
    · rw [← hlast, hb]
    · rw [hgt (n + 1) (by omega) (by omega)]
      exact ih (by omega) fun k hk hn => hgt k hk (by omega)

end Search

variable {atEnd lazily : Bool} {test : α → Bool} {least : Nat} {items : List (Item α)}
  {tests : List (α → Bool)} {before stem after rest c : List α}

/-- Items of one unit each take the beginning that passes their tests. -/
theorem matchHere_ones (h : List.Forall₂ (fun test u => test u = true) tests before) :
    matchHere atEnd (tests.map Item.one ++ items) (before ++ rest) =
      matchHere atEnd items rest := by
  induction h with
  | nil => rfl
  | cons htest _ ih =>
    show (if _ then _ else _) = _
    rw [if_pos htest]
    exact ih

/-- They take just their number of units. -/
theorem length_of_matchHere_ones (h : matchHere atEnd (tests.map Item.one) rest = some c) :
    tests.length ≤ rest.length ∧ (atEnd = true → rest.length = tests.length) := by
  induction tests generalizing rest with
  | nil =>
    refine ⟨Nat.zero_le _, fun hend => ?_⟩
    subst hend
    rcases rest with _ | ⟨u, rest⟩
    · rfl
    · simp [matchHere] at h
  | cons test tests ih =>
    rcases rest with _ | ⟨u, rest⟩
    · cases h
    · rw [List.map_cons, matchHere] at h
      split at h
      · obtain ⟨hle, hend⟩ := ih h
        refine ⟨Nat.succ_le_succ hle, fun he => ?_⟩
        rw [List.length_cons, List.length_cons, hend he]
      · cases h

/-- **The group takes the stem** in front of an ending that the rest of the items match:
where the match must reach the end, or where the group is to be as long as possible. -/
theorem matchHere_many (hstem : ∀ u ∈ stem, test u = true) (hleast : least ≤ stem.length)
    (hafter : List.Forall₂ (fun test u => test u = true) tests after)
    (horder : lazily = true → atEnd = true) :
    matchHere atEnd (.many test least lazily :: tests.map Item.one) (stem ++ after) =
      some stem := by
  have hrest : matchHere atEnd (tests.map Item.one) after = some [] := by
    have h : matchHere atEnd (tests.map Item.one ++ []) (after ++ []) = matchHere atEnd [] [] :=
      matchHere_ones hafter
    rw [List.append_nil, List.append_nil] at h
    rw [h]
    simp [matchHere]
  have hlen : after.length = tests.length := hafter.length_eq.symm
  rw [matchHere]
  generalize hf : (fun k => if least ≤ k ∧ ((stem ++ after).take k).all test = true then
      (matchHere atEnd (tests.map Item.one) ((stem ++ after).drop k)).map
        fun _ => (stem ++ after).take k
    else none) = f
  have hfound : f stem.length = some stem := by
    subst hf
    dsimp only
    rw [List.take_left, List.drop_left, hrest, if_pos ⟨hleast, List.all_eq_true.mpr hstem⟩]
    rfl
  -- with any other length the rest of the items is left with too many units or too few
  have hother : ∀ k, k ≤ (stem ++ after).length →
      stem.length < k ∨ (atEnd = true ∧ k < stem.length) → f k = none := by
    intro k hk hcase
    subst hf
    dsimp only
    split
    · rw [Option.map_eq_none_iff]
      cases hmatch : matchHere atEnd (tests.map Item.one) ((stem ++ after).drop k) with
      | none => rfl
      | some c =>
        obtain ⟨hle, hend⟩ := length_of_matchHere_ones hmatch
        rw [List.length_drop, List.length_append] at hle hend
        rw [List.length_append] at hk
        rcases hcase with hgt | ⟨he, hlt⟩
        · omega
        · have heq := hend he
          omega
    · rfl
  have hmem : stem.length ≤ (stem ++ after).length := by simp
  unfold lengths
  split
  · rename_i hlazy
    exact findSome?_range hmem hfound fun k hk =>
      hother k (by omega) (Or.inr ⟨horder hlazy, hk⟩)
  · exact findSome?_range_reverse hmem hfound fun k hk hn => hother k hn (Or.inl hk)

/-- A match at the start is the first match. -/
theorem exec_of_matchHere {pattern : Pattern α} {text : List α}
    (h : matchHere pattern.atEnd pattern.items text = some c) : pattern.exec text = some c := by
  rw [Pattern.exec, List.range_succ_eq_map, List.findSome?_cons, List.drop_zero, h]

/-- **Taking a text apart.** -/
theorem exec_eq_some_stem {firsts lasts : List (α → Bool)}
    (hbefore : List.Forall₂ (fun test u => test u = true) firsts before)
    (hstem : ∀ u ∈ stem, test u = true) (hleast : least ≤ stem.length)
    (hafter : List.Forall₂ (fun test u => test u = true) lasts after)
    (horder : lazily = true → atEnd = true) :
    Pattern.exec ⟨firsts.map Item.one ++ .many test least lazily :: lasts.map Item.one, atEnd⟩
      (before ++ (stem ++ after)) = some stem := by
  apply exec_of_matchHere
  show matchHere atEnd (_ ++ _) (before ++ (stem ++ after)) = some stem
  rw [matchHere_ones hbefore]
  exact matchHere_many hstem hleast hafter horder

/-! ## Which texts match -/

theorem mem_lengths {n k : Nat} : k ∈ lengths lazily n ↔ k ≤ n := by
  unfold lengths
  split
  · rw [List.mem_range, Nat.lt_succ_iff]
  · rw [List.mem_reverse, List.mem_range, Nat.lt_succ_iff]

/-- Items of one unit each match a beginning that passes their tests, and nothing else. -/
theorem matchHere_ones_eq_some :
    matchHere atEnd (tests.map Item.one ++ items) rest = some c ↔
      ∃ before after, rest = before ++ after ∧
        List.Forall₂ (fun test u => test u = true) tests before ∧
        matchHere atEnd items after = some c := by
  constructor
  · intro h
    induction tests generalizing rest with
    | nil => exact ⟨[], rest, rfl, .nil, h⟩
    | cons test tests ih =>
      rcases rest with _ | ⟨u, rest⟩
      · cases h
      · obtain ⟨htest, h⟩ := Option.ite_none_right_eq_some.mp h
        obtain ⟨before, after, hrest, hbefore, hitems⟩ := ih h
        exact ⟨u :: before, after, by rw [hrest, List.cons_append], .cons htest hbefore, hitems⟩
  · rintro ⟨before, after, rfl, hbefore, hitems⟩
    rw [matchHere_ones hbefore, hitems]

/-- What the group takes is in front of what the rest of the items match. -/
theorem matchHere_many_sound (h : matchHere atEnd (.many test least lazily :: items) rest = some c) :
    ∃ after, rest = c ++ after ∧ least ≤ c.length ∧ (∀ u ∈ c, test u = true) ∧
      (matchHere atEnd items after).isSome = true := by
  rw [matchHere] at h
  obtain ⟨k, hk, hf⟩ := List.exists_of_findSome?_eq_some h
  obtain ⟨⟨hleast, htest⟩, hmatch⟩ := Option.ite_none_right_eq_some.mp hf
  obtain ⟨d, hd, rfl⟩ := Option.map_eq_some_iff.mp hmatch
  refine ⟨rest.drop k, (List.take_append_drop k rest).symm, ?_, List.all_eq_true.mp htest, ?_⟩
  · rw [List.length_take_of_le (mem_lengths.mp hk)]
    exact hleast
  · rw [hd]
    rfl

section Taken
variable (hleast : least ≤ c.length) (htest : ∀ u ∈ c, test u = true)
  (hafter : (matchHere atEnd items after).isSome = true)
include hleast htest hafter

/-- The try of a group that can be taken succeeds. -/
theorem try_isSome : (if least ≤ c.length ∧ ((c ++ after).take c.length).all test = true then
      (matchHere atEnd items ((c ++ after).drop c.length)).map fun _ => (c ++ after).take c.length
    else none).isSome = true := by
  rw [List.take_left, List.drop_left, if_pos ⟨hleast, List.all_eq_true.mpr htest⟩,
    Option.isSome_map]
  exact hafter

theorem isSome_matchHere_many :
    (matchHere atEnd (.many test least lazily :: items) (c ++ after)).isSome = true := by
  rw [matchHere, List.findSome?_isSome_iff]
  refine ⟨c.length, mem_lengths.mpr ?_, try_isSome hleast htest hafter⟩
  rw [List.length_append]
  omega

/-- **The group that is to be long is as long as any.** -/
theorem length_le_of_matchHere_many {longest : List α}
    (h : matchHere atEnd (.many test least false :: items) (c ++ after) = some longest) :
    c.length ≤ longest.length := by
  rw [matchHere] at h
  obtain ⟨earlier, k, later, hsplit, hf, hearlier⟩ := List.findSome?_eq_some_iff.mp h
  have htried : k ∈ lengths false (c ++ after).length := by
    rw [hsplit]
    exact List.mem_append_right _ List.mem_cons_self
  have hk : k ≤ (c ++ after).length := mem_lengths.mp htried
  obtain ⟨-, hmatch⟩ := Option.ite_none_right_eq_some.mp hf
  obtain ⟨d, -, rfl⟩ := Option.map_eq_some_iff.mp hmatch
  rw [List.length_take_of_le hk]
  by_contra hlt
  -- the longer lengths have been tried before
  have hmem : c.length ∈ earlier := by
    have hc : c.length ∈ lengths false (c ++ after).length := by
      rw [mem_lengths, List.length_append]
      omega
    have hsorted : (lengths false (c ++ after).length).Pairwise (· > ·) :=
      List.pairwise_reverse.mpr List.pairwise_lt_range
    rw [hsplit] at hc hsorted
    obtain ⟨-, hsorted, -⟩ := List.pairwise_append.mp hsorted
    rcases List.mem_append.mp hc with hc | hc
    · exact hc
    · rcases List.mem_cons.mp hc with hc | hc
      · omega
      · have hgt := (List.pairwise_cons.mp hsorted).1 _ hc
        omega
  have hnone := hearlier _ hmem
  have hsome := try_isSome hleast htest hafter
  rw [hnone] at hsome
  cases hsome

end Taken

/-- **A later start finds nothing new**, when the text begins as the pattern does and the
group can go over all of the rest. -/
theorem exec_before {firsts : List (α → Bool)}
    (hbefore : List.Forall₂ (fun test u => test u = true) firsts before)
    (htest : ∀ u ∈ rest, test u = true) :
    Pattern.exec ⟨firsts.map Item.one ++ .many test least lazily :: items, atEnd⟩
      (before ++ rest) = matchHere atEnd (.many test least lazily :: items) rest := by
  cases hrest : matchHere atEnd (.many test least lazily :: items) rest with
  | some c =>
    apply exec_of_matchHere
    show matchHere atEnd (_ ++ _) (before ++ rest) = some c
    rw [matchHere_ones hbefore, hrest]
  | none =>
    refine List.findSome?_eq_none_iff.mpr fun i _ => ?_
    cases hmatch : matchHere atEnd (firsts.map Item.one ++ .many test least lazily :: items)
        ((before ++ rest).drop i) with
    | none => rfl
    | some c =>
      obtain ⟨front, back, hsplit, hfront, hback⟩ := matchHere_ones_eq_some.mp hmatch
      obtain ⟨after, hafter, hleast, -, hitems⟩ := matchHere_many_sound hback
      -- what is behind the later start is also behind the first, with a longer group
      have hdrop : rest.drop i = back := by
        have hlen : before.length = front.length := by
          rw [← hbefore.length_eq, hfront.length_eq]
        have hback := congrArg (List.drop front.length) hsplit
        rw [List.drop_left, List.drop_drop, ← hlen, Nat.add_comm, ← List.drop_drop,
          List.drop_left] at hback
        exact hback
      have hwhole : rest = (rest.take i ++ c) ++ after := by
        rw [List.append_assoc, ← hafter, ← hdrop, List.take_append_drop]
      have hlonger : least ≤ (rest.take i ++ c).length := by
        rw [List.length_append]
        omega
      have hpass : ∀ u ∈ rest.take i ++ c, test u = true := by
        intro u hu
        refine htest u ?_
        rw [hwhole]
        exact List.mem_append_left _ hu
      have hsome : (matchHere atEnd (.many test least lazily :: items)
          ((rest.take i ++ c) ++ after)).isSome = true :=
        isSome_matchHere_many hlonger hpass hitems
      rw [← hwhole, hrest] at hsome
      cases hsome

end RegExp
