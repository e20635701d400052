import ExertGrpc.DotNet
import Mathlib.Data.List.Basic

/-! # `kebabCase`

The front ends name pages and components with lodash's `kebabCase`: a text is taken apart
into words, and the words are joined in lower case with `-`.  lodash is not part of the
repository, so `kebabCase` is a parameter; what is relied on is that nothing but `-` is
left of the characters between the words (`KebabCaseSpec`).  That is relied on for the
`plain` texts only: lodash keeps the character after a zero-width joiner of an emoji,
whatever it is.

`wordsOf` and `joinWords` are such a function, for names of letters, digits and
separators: a word ends before a capital that follows a small letter, before the last
capital of several when a small letter follows it, and between letters and digits.
-/
namespace ExertGrpc

def isLower (u : UInt16) : Bool := 97 ≤ u && u ≤ 122

def isUpper (u : UInt16) : Bool := 65 ≤ u && u ≤ 90

def isDigit (u : UInt16) : Bool := 48 ≤ u && u ≤ 57

/-- An ASCII character that is neither a letter nor a digit. -/
def isSeparator (u : UInt16) : Bool := u < 128 && !(isLower u || isUpper u || isDigit u)

/-- What is relied on of `kebabCase`, for the texts that are `plain`: of the characters
that separate words only `-` is left, between the words. -/
structure KebabCaseSpec (plain : Text → Prop) (kebabCase : Text → Text) : Prop where
  units : ∀ s, plain s → ∀ u ∈ kebabCase s, u = 45 ∨ isSeparator u = false

/-- Whether a word ends between two units, with what follows them. -/
def wordEnds (a b : UInt16) (next : Option UInt16) : Bool :=
  (isLower a && isUpper b) || (isUpper a && isUpper b && next.any isLower) ||
    (isDigit a != isDigit b)

/-- The words of a text, `word` being what there is of the first one. -/
def wordsFrom : Text → Text → List Text
  | word, [] => if word = [] then [] else [word]
  | word, u :: rest =>
    if isSeparator u then (if word = [] then [] else [word]) ++ wordsFrom [] rest
    else if word.getLast?.any fun a => wordEnds a u rest.head? then word :: wordsFrom [u] rest
    else wordsFrom (word ++ [u]) rest

/-- The words of a text. -/
def wordsOf (s : Text) : List Text := wordsFrom [] s

def toLower (u : UInt16) : UInt16 := if isUpper u then u + 32 else u

/-- Words in lower case, joined with `-`. -/
def joinWords (words : List Text) : Text := [(45 : UInt16)].intercalate (words.map (·.map toLower))

theorem wordsFrom_units (word s : Text) (hword : ∀ u ∈ word, isSeparator u = false) :
    ∀ w ∈ wordsFrom word s, ∀ u ∈ w, isSeparator u = false := by
  have hflush : ∀ word : Text, (∀ u ∈ word, isSeparator u = false) →
      ∀ w ∈ (if word = [] then [] else [word]), ∀ u ∈ w, isSeparator u = false := by
    intro word hword w hw
    split at hw
    · cases hw
    · rw [List.mem_singleton.mp hw]
      exact hword
  induction s generalizing word with
  | nil => exact hflush word hword
  | cons u rest ih =>
    rw [wordsFrom]
    by_cases hsep : isSeparator u = true
    · rw [if_pos hsep]
      intro w hw
      rcases List.mem_append.mp hw with hw | hw
      · exact hflush word hword w hw
      · exact ih [] nofun w hw
    · have hu : isSeparator u = false := Bool.eq_false_iff.mpr hsep
      rw [if_neg hsep]
      split
      · intro w hw
        rcases List.mem_cons.mp hw with rfl | hw
        · exact hword
        · exact ih [u] (fun v hv => List.mem_singleton.mp hv ▸ hu) w hw
      · refine ih (word ++ [u]) fun v hv => ?_
        rcases List.mem_append.mp hv with hv | hv
        · exact hword v hv
        · exact List.mem_singleton.mp hv ▸ hu

theorem toLower_separator {u : UInt16} (h : isSeparator u = false) :
    isSeparator (toLower u) = false := by
  unfold toLower
  split
  · rename_i hupper
    -- the small letter of a capital is a letter
    simp only [isUpper, Bool.and_eq_true, decide_eq_true_eq, UInt16.le_iff_toNat_le] at hupper
    have hsum : (u + 32).toNat = u.toNat + 32 := by
      rw [UInt16.toNat_add]
      have h90 : u.toNat ≤ 90 := hupper.2
      show (u.toNat + 32) % 65536 = u.toNat + 32
      omega
    have hlower : isLower (u + 32) = true := by
      simp only [isLower, Bool.and_eq_true, decide_eq_true_eq, UInt16.le_iff_toNat_le, hsum]
      have h65 : 65 ≤ u.toNat := hupper.1
      have h90 : u.toNat ≤ 90 := hupper.2
      show 97 ≤ u.toNat + 32 ∧ u.toNat + 32 ≤ 122
      omega
    simp [isSeparator, hlower]
  · exact h

/-- A joined unit is the separator or is in one of the lists. -/
theorem mem_intercalate_singleton {α : Type} {x u : α} : ∀ {ls : List (List α)},
    u ∈ [x].intercalate ls → u = x ∨ ∃ l ∈ ls, u ∈ l
  | [], h => by cases h
  | [l], h => by
    rw [List.intercalate_singleton] at h
    exact Or.inr ⟨l, List.mem_cons_self .., h⟩
  | l :: l' :: ls, h => by
    rw [List.intercalate_cons_cons] at h
    rcases List.mem_append.mp h with h | h
    · rcases List.mem_append.mp h with h | h
      · exact Or.inr ⟨l, List.mem_cons_self .., h⟩
      · exact Or.inl (List.mem_singleton.mp h)
    · rcases mem_intercalate_singleton h with h | ⟨k, hk, h⟩
      · exact Or.inl h
      · exact Or.inr ⟨k, List.mem_cons_of_mem _ hk, h⟩

/-- The words of a text, joined, are as `kebabCase` is expected to be, of any text. -/
theorem joinWords_spec : KebabCaseSpec (fun _ => True) fun s => joinWords (wordsOf s) where
  units s _ u hu := by
    rcases mem_intercalate_singleton hu with h | ⟨w, hw, huw⟩
    · exact Or.inl h
    · obtain ⟨word, hword, rfl⟩ := List.mem_map.mp hw
      obtain ⟨v, hv, rfl⟩ := List.mem_map.mp huw
      exact Or.inr (toLower_separator (wordsFrom_units [] s nofun word hword v hv))

end ExertGrpc
