import ExertGrpc.Outcome

/-! # The parts of .NET the services are written with

Strings are lists of UTF-16 code units, and the two ways the services slice a
string check their bounds and throw.
-/
namespace ExertGrpc

/-- A .NET string, as its UTF-16 code units. -/
abbrev Text := List UInt16

/-- The bytes of a file, a picture or a message field. -/
abbrev Bytes := List UInt8

/-- The exceptions the services can end in. -/
inductive Exn where
  | nullReference
  | argumentOutOfRange
  | invalidOperation
  | argument
  | argumentNull
  | ioException
  | unauthorizedAccess
  | cryptographic
  | rpc
deriving DecidableEq, Repr

/-- The UTF-16 code units of a character: one, or a surrogate pair. -/
def utf16 (c : Char) : Text :=
  if c.toNat < 0x10000 then [c.toNat.toUInt16]
  else [(0xD800 + (c.toNat - 0x10000) / 0x400).toUInt16,
    (0xDC00 + (c.toNat - 0x10000) % 0x400).toUInt16]

/-- A string literal of the source. -/
def literal (s : String) : Text := s.toList.flatMap utf16

/-- `text.AsSpan(start, length)`. -/
def asSpan (text : Text) (start length : Nat) : Outcome Exn Text :=
  if start + length ≤ text.length then .returned ((text.drop start).take length)
  else .threw .argumentOutOfRange

/-- `text.Substring(start, length)`. -/
def substring (text : Text) (start length : Nat) : Outcome Exn Text :=
  if start + length ≤ text.length then .returned ((text.drop start).take length)
  else .threw .argumentOutOfRange

/-- The rest of a string is a span of it. -/
theorem asSpan_rest {text : Text} {head : Nat} (h : head ≤ text.length) :
    asSpan text head (text.length - head) = .returned (text.drop head) := by
  rw [asSpan, if_pos (by omega), List.take_of_length_le (by simp)]

theorem substring_eq {text : Text} {start length : Nat} (h : start + length ≤ text.length) :
    substring text start length = .returned ((text.drop start).take length) := if_pos h

/-- A text that is too short has no such substring. -/
theorem substring_eq_returned {text : Text} {start length : Nat} {s : Text} :
    substring text start length = .returned s ↔
      start + length ≤ text.length ∧ s = (text.drop start).take length := by
  by_cases h : start + length ≤ text.length
  · rw [substring_eq h]
    constructor
    · intro hs
      cases hs
      exact ⟨h, rfl⟩
    · rintro ⟨-, rfl⟩
      rfl
  · rw [substring, if_neg h]
    constructor
    · intro hs
      cases hs
    · exact fun hs => absurd hs.1 h

end ExertGrpc
