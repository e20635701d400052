import Mathlib.Logic.Function.Basic
import Mathlib.Data.List.Basic

/-! # A file that has one writer at a time

Opening the file for writing empties it and makes the party that opened it its
writer; while the file has a writer, nobody else can open it.  What the parties
are writing is a table of sessions: `session i = some (whole, rest)` says that
party `i` has opened the file to write `whole` and has `rest` still to write.

`Tracks f session` ties the table to the file.  Every operation of a party keeps
it, with that party's entry updated, so a system of parties that share the file
has it as an invariant whatever else its parties do.
-/

/-- A file: its bytes, `none` while there is no such file, and the party that has
it open for writing. -/
structure ExclusiveFile (ι β : Type) where
  content : Option (List β)
  writer : Option ι

namespace ExclusiveFile
variable {ι β : Type} {f g : ExclusiveFile ι β} {i j : ι} {whole rest : List β}

/-- Open the file for writing, which empties it; `none` while it has a writer. -/
def openEmpty (f : ExclusiveFile ι β) (i : ι) : Option (ExclusiveFile ι β) :=
  match f.writer with
  | none => some { content := some [], writer := some i }
  | some _ => none

/-- Write at the end of the file. -/
def append (f : ExclusiveFile ι β) (bytes : List β) : ExclusiveFile ι β :=
  { f with content := f.content.map (· ++ bytes) }

/-- The writer closes the file. -/
def close (f : ExclusiveFile ι β) : ExclusiveFile ι β := { f with writer := none }

theorem openEmpty_eq_some :
    f.openEmpty i = some g ↔ f.writer = none ∧ g = ⟨some [], some i⟩ := by
  cases h : f.writer <;> simp [openEmpty, h, eq_comm]

theorem openEmpty_eq_none : f.openEmpty i = none ↔ f.writer ≠ none := by
  cases h : f.writer <;> simp [openEmpty, h]

/-- Party `i` has the file open, with `rest` of `whole` still to be written. -/
structure Writing (f : ExclusiveFile ι β) (i : ι) (whole rest : List β) : Prop where
  writer : f.writer = some i
  content : ∃ done, f.content = some done ∧ done ++ rest = whole

theorem Writing.unique (hi : f.Writing i whole rest) {whole' rest' : List β}
    (hj : f.Writing j whole' rest') : i = j :=
  Option.some.inj (hi.writer.symm.trans hj.writer)

/-- What the file holds is a prefix of what is being written. -/
theorem Writing.begins (h : f.Writing i whole rest) :
    ∃ done, f.content = some done ∧ done <+: whole :=
  let ⟨done, hdone, heq⟩ := h.content
  ⟨done, hdone, rest, heq⟩

theorem Writing.content_of_nil (h : f.Writing i whole []) : f.content = some whole := by
  obtain ⟨done, hdone, heq⟩ := h.content
  rw [hdone, ← heq, List.append_nil]

theorem Writing.append (h : f.Writing i whole rest) (n : Nat) :
    (f.append (rest.take n)).Writing i whole (rest.drop n) := by
  obtain ⟨done, hdone, heq⟩ := h.content
  refine ⟨h.writer, done ++ rest.take n, by simp [ExclusiveFile.append, hdone], ?_⟩
  rw [List.append_assoc, List.take_append_drop, heq]

/-! ## The table of sessions -/

/-- The sessions are those of the file's writer: whoever is in a session is
writing what the table says, and the writer is in one. -/
structure Tracks (f : ExclusiveFile ι β) (session : ι → Option (List β × List β)) : Prop where
  writing : ∀ i whole rest, session i = some (whole, rest) → f.Writing i whole rest
  writer : ∀ i, f.writer = some i → session i ≠ none

namespace Tracks
variable {session : ι → Option (List β × List β)}

theorem free (hf : f.writer = none) (hs : ∀ i, session i = none) : Tracks f session where
  writing i _ _ h := by rw [hs i] at h; cases h
  writer i h := by rw [hf] at h; cases h

/-- No two parties are in a session at once. -/
theorem unique (h : Tracks f session) (hi : session i ≠ none) (hj : session j ≠ none) : i = j := by
  obtain ⟨⟨w, r⟩, hwr⟩ := Option.ne_none_iff_exists'.mp hi
  obtain ⟨⟨w', r'⟩, hwr'⟩ := Option.ne_none_iff_exists'.mp hj
  exact (h.writing i w r hwr).unique (h.writing j w' r' hwr')

/-- The file has no writer exactly when nobody is in a session. -/
theorem writer_eq_none (h : Tracks f session) : f.writer = none ↔ ∀ i, session i = none := by
  constructor
  · intro hf i
    by_contra hi
    obtain ⟨⟨w, r⟩, hwr⟩ := Option.ne_none_iff_exists'.mp hi
    rw [(h.writing i w r hwr).writer] at hf
    cases hf
  · intro hs
    cases hf : f.writer with
    | none => rfl
    | some i => exact absurd (hs i) (h.writer i hf)

variable [DecidableEq ι]

/-- A party that is in no session and does not open the file stays out. -/
theorem idle (h : Tracks f session) (hi : session i = none) :
    Tracks f (Function.update session i none) := by
  rwa [Function.update_eq_self_iff.mpr hi.symm]

theorem opened (h : Tracks f session) (hg : f.openEmpty i = some g) (whole : List β) :
    Tracks g (Function.update session i (some (whole, whole))) := by
  obtain ⟨hf, rfl⟩ := openEmpty_eq_some.mp hg
  have hnone := h.writer_eq_none.mp hf
  constructor
  · intro j w r hj
    by_cases hji : j = i
    · subst hji
      rw [Function.update_self] at hj
      cases hj
      exact ⟨rfl, [], rfl, List.nil_append _⟩
    · -- nobody else is in a session, or the file could not have been opened
      rw [Function.update_of_ne hji, hnone j] at hj
      cases hj
  · intro j hj
    obtain rfl : i = j := Option.some.inj hj
    rw [Function.update_self]
    exact Option.some_ne_none _

theorem appended (h : Tracks f session) (hi : session i = some (whole, rest)) (n : Nat) :
    Tracks (f.append (rest.take n)) (Function.update session i (some (whole, rest.drop n))) := by
  have hw := h.writing i whole rest hi
  have hsome : session i ≠ none := by rw [hi]; exact Option.some_ne_none _
  constructor
  · intro j w r hj
    by_cases hji : j = i
    · subst hji
      rw [Function.update_self] at hj
      cases hj
      exact hw.append n
    · rw [Function.update_of_ne hji] at hj
      have hjs : session j ≠ none := by rw [hj]; exact Option.some_ne_none _
      exact absurd (h.unique hjs hsome) hji
  · intro j hj
    obtain rfl : i = j := Option.some.inj (hw.writer.symm.trans hj)
    rw [Function.update_self]
    exact Option.some_ne_none _

theorem closed (h : Tracks f session) (hi : session i ≠ none) :
    Tracks f.close (Function.update session i none) := by
  -- the party that closes was the only one in a session
  refine free rfl fun j => ?_
  by_cases hji : j = i
  · rw [hji, Function.update_self]
  · rw [Function.update_of_ne hji]
    by_contra hj
    exact hji (h.unique hj hi)

end Tracks
end ExclusiveFile
