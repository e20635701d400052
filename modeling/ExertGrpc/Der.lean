import Mathlib.Data.Nat.Digits.Lemmas

/-! # Tag, length, value

The distinguished encoding rules write a value as one octet for its tag, its length,
and its contents.  A length below 128 is one octet; a longer one is written in base 256
with as few octets as it takes, after an octet that says how many.

`decode` reads one value off the front of a list of octets and refuses every other way
of writing a length.  So it accepts exactly what `encode` writes (`decode_eq_some`).
Tags are single octets and are not looked into.
-/
namespace Der

/-- A number in base 256, the most significant octet first. -/
def octets (n : Nat) : List UInt8 := ((Nat.digits 256 n).map UInt8.ofNat).reverse

/-- The number that octets stand for in base 256. -/
def ofOctets (bs : List UInt8) : Nat := Nat.ofDigits 256 (bs.map UInt8.toNat).reverse

theorem ofOctets_octets (n : Nat) : ofOctets (octets n) = n := by
  have hmap : ((Nat.digits 256 n).map UInt8.ofNat).map UInt8.toNat = Nat.digits 256 n := by
    rw [List.map_map]
    refine List.map_congr_left (fun d hd => ?_) |>.trans (List.map_id _)
    have hlt : d < 256 := Nat.digits_lt_base (by omega) hd
    show (UInt8.ofNat d).toNat = d
    rw [UInt8.toNat_ofNat']
    exact Nat.mod_eq_of_lt hlt
  rw [ofOctets, octets, List.map_reverse, List.reverse_reverse, hmap, Nat.ofDigits_digits]

/-- Octets that do not start with a zero are the shortest way to write their number. -/
theorem octets_ofOctets {bs : List UInt8} (h : bs.head? ≠ some 0) : octets (ofOctets bs) = bs := by
  have hdigits : Nat.digits 256 (ofOctets bs) = (bs.map UInt8.toNat).reverse := by
    refine Nat.digits_ofDigits 256 (by omega) _ (fun d hd => ?_) (fun hne => ?_)
    · obtain ⟨b, -, rfl⟩ := List.mem_map.mp (List.mem_reverse.mp hd)
      exact b.toNat_lt
    · rw [List.getLast_reverse]
      obtain ⟨b, bs, rfl⟩ := List.exists_cons_of_ne_nil (show bs ≠ [] by
        rintro rfl
        exact hne rfl)
      intro hzero
      exact h (congrArg some (UInt8.toNat_inj.mp hzero))
  have hofNat : UInt8.ofNat ∘ UInt8.toNat = id := funext fun b => UInt8.ofNat_toNat
  rw [octets, hdigits, List.map_reverse, List.reverse_reverse, List.map_map, hofNat, List.map_id]

theorem ofOctets_lt (bs : List UInt8) : ofOctets bs < 256 ^ bs.length := by
  have h := Nat.ofDigits_lt_base_pow_length (b := 256) (l := (bs.map UInt8.toNat).reverse)
    (by omega) (fun d hd => by
      obtain ⟨b, -, rfl⟩ := List.mem_map.mp (List.mem_reverse.mp hd)
      exact b.toNat_lt)
  rw [ofOctets]
  simpa using h

/-! ## Lengths -/

/-- No length from here on can be written: its octets are counted in seven bits, and
the count 127 is reserved. -/
def lengthLimit : Nat := 256 ^ 126

theorem lt_lengthLimit {n : Nat} (h : n < 128) : n < lengthLimit :=
  h.trans (by unfold lengthLimit; norm_num)

theorem pow_le_lengthLimit {k : Nat} (h : k ≤ 126) : 256 ^ k ≤ lengthLimit :=
  Nat.pow_le_pow_right (by omega) h

/-- Write a length. -/
def encodeLength (n : Nat) : List UInt8 :=
  if n < 128 then [UInt8.ofNat n]
  else UInt8.ofNat (128 + (octets n).length) :: octets n

/-- Read a length off the front, if it is written the shortest way. -/
def decodeLength : List UInt8 → Option (Nat × List UInt8)
  | [] => none
  | first :: bs =>
    if first.toNat < 128 then some (first.toNat, bs)
    else
      let count := first.toNat - 128
      let value := bs.take count
      if count < 127 ∧ count ≤ bs.length ∧ value.head? ≠ some 0 ∧ 128 ≤ ofOctets value then
        some (ofOctets value, bs.drop count)
      else none

theorem octets_length_le {n : Nat} (h : n < lengthLimit) : (octets n).length ≤ 126 := by
  rw [octets, List.length_reverse, List.length_map]
  exact (Nat.digits_length_le_iff (by omega) n).mpr h

theorem octets_head? {n : Nat} : (octets n).head? ≠ some 0 := by
  by_cases hn : n = 0
  · subst hn
    simp [octets]
  intro hzero
  have hne : Nat.digits 256 n ≠ [] := Nat.digits_ne_nil_iff_ne_zero.mpr hn
  have hlast := Nat.getLast_digit_ne_zero 256 hn
  have hlt : (Nat.digits 256 n).getLast hne < 256 :=
    Nat.digits_lt_base (by omega) (List.getLast_mem hne)
  rw [octets, List.head?_reverse, List.getLast?_map, List.getLast?_eq_some_getLast hne,
    Option.map_some] at hzero
  have hmod := congrArg UInt8.toNat (Option.some.inj hzero)
  rw [UInt8.toNat_ofNat', Nat.mod_eq_of_lt hlt] at hmod
  exact hlast hmod

/-- **A length is read exactly when it is what is written for it.** -/
theorem decodeLength_eq_some {bs rest : List UInt8} {n : Nat} :
    decodeLength bs = some (n, rest) ↔ n < lengthLimit ∧ bs = encodeLength n ++ rest := by
  constructor
  · intro h
    rcases bs with _ | ⟨first, bs⟩
    · cases h
    rw [decodeLength] at h
    by_cases hshort : first.toNat < 128
    · rw [if_pos hshort] at h
      cases h
      refine ⟨lt_lengthLimit hshort, ?_⟩
      rw [encodeLength, if_pos hshort, UInt8.ofNat_toNat]
      rfl
    · rw [if_neg hshort] at h
      dsimp only at h
      split at h
      · rename_i hlong
        obtain ⟨hcount, hlen, hhead, hmin⟩ := hlong
        obtain ⟨rfl, rfl⟩ := Prod.mk.inj (Option.some.inj h)
        have htake : (bs.take (first.toNat - 128)).length = first.toNat - 128 := by
          rw [List.length_take]
          omega
        refine ⟨?_, ?_⟩
        · have hlt := ofOctets_lt (bs.take (first.toNat - 128))
          rw [htake] at hlt
          exact hlt.trans_le (pow_le_lengthLimit (by omega))
        · have hfirst : 128 + (first.toNat - 128) = first.toNat := by omega
          rw [encodeLength, if_neg (by omega), octets_ofOctets hhead, htake, hfirst,
            UInt8.ofNat_toNat, List.cons_append, List.take_append_drop]
      · cases h
  · rintro ⟨hlimit, rfl⟩
    by_cases hshort : n < 128
    · have hn : (UInt8.ofNat n).toNat = n := by
        rw [UInt8.toNat_ofNat']
        omega
      rw [encodeLength, if_pos hshort, List.singleton_append, decodeLength, hn, if_pos hshort]
    · have hcount := octets_length_le hlimit
      have hn : (UInt8.ofNat (128 + (octets n).length)).toNat = 128 + (octets n).length := by
        rw [UInt8.toNat_ofNat']
        omega
      rw [encodeLength, if_neg hshort, List.cons_append, decodeLength, hn, if_neg (by omega),
        Nat.add_sub_cancel_left]
      dsimp only
      rw [List.take_left, List.drop_left, ofOctets_octets,
        if_pos ⟨by omega, by simp, octets_head?, by omega⟩]

/-! ## Values -/

/-- Write a value. -/
def encode (tag : UInt8) (value : List UInt8) : List UInt8 :=
  tag :: (encodeLength value.length ++ value)

/-- Read a value off the front: its tag, its contents, and what follows it. -/
def decode : List UInt8 → Option (UInt8 × List UInt8 × List UInt8)
  | [] => none
  | tag :: bs =>
    match decodeLength bs with
    | none => none
    | some (n, bs) => if n ≤ bs.length then some (tag, bs.take n, bs.drop n) else none

/-- **A value is read exactly when it is what is written for it.** -/
theorem decode_eq_some {bs value rest : List UInt8} {tag : UInt8} :
    decode bs = some (tag, value, rest) ↔
      value.length < lengthLimit ∧ bs = encode tag value ++ rest := by
  constructor
  · intro h
    rcases bs with _ | ⟨first, bs⟩
    · cases h
    rw [decode] at h
    split at h
    · cases h
    · rename_i n contents hlength
      obtain ⟨hlimit, rfl⟩ := decodeLength_eq_some.mp hlength
      split at h
      · rename_i hle
        cases h
        rw [List.length_take, Nat.min_eq_left hle]
        refine ⟨hlimit, ?_⟩
        rw [encode, List.length_take, Nat.min_eq_left hle, List.cons_append, List.append_assoc,
          List.take_append_drop]
      · cases h
  · rintro ⟨hlimit, rfl⟩
    have hlength : decodeLength (encodeLength value.length ++ (value ++ rest)) =
        some (value.length, value ++ rest) := decodeLength_eq_some.mpr ⟨hlimit, rfl⟩
    rw [encode, List.cons_append, List.append_assoc, decode, hlength]
    dsimp only
    rw [if_pos (by simp), List.take_left, List.drop_left]

/-- A short value is written behind two octets. -/
theorem encode_eq_of_short (tag : UInt8) {value : List UInt8} (h : value.length < 128) :
    encode tag value = tag :: UInt8.ofNat value.length :: value := by
  rw [encode, encodeLength, if_pos h]
  rfl

/-- What is written behind two octets of which the second is small is a short value. -/
theorem encode_eq_short_iff {tag tag' n : UInt8} {value bs : List UInt8}
    (hlimit : value.length < lengthLimit) (hn : n.toNat < 128) :
    tag' :: n :: bs = encode tag value ↔ tag' = tag ∧ value.length = n.toNat ∧ value = bs := by
  by_cases hshort : value.length < 128
  · have htoNat : (UInt8.ofNat value.length).toNat = value.length := by
      rw [UInt8.toNat_ofNat']
      omega
    have hoctet : n = UInt8.ofNat value.length ↔ value.length = n.toNat := by
      rw [← UInt8.toNat_inj, htoNat, eq_comm]
    rw [encode_eq_of_short tag hshort, List.cons.injEq, List.cons.injEq]
    exact and_congr_right fun _ => and_congr hoctet eq_comm
  · have hcount := octets_length_le hlimit
    have htoNat : (UInt8.ofNat (128 + (octets value.length).length)).toNat =
        128 + (octets value.length).length := by
      rw [UInt8.toNat_ofNat']
      omega
    constructor
    · -- the second octet of a long value is not small
      intro h
      rw [encode, encodeLength, if_neg hshort, List.cons_append, List.cons.injEq,
        List.cons.injEq] at h
      rw [h.2.1, htoNat] at hn
      omega
    · rintro ⟨-, hlen, -⟩
      omega

theorem two_le_length_encode (tag : UInt8) (value : List UInt8) : 2 ≤ (encode tag value).length := by
  have hlength : 1 ≤ (encodeLength value.length).length := by
    rw [encodeLength]
    split <;> simp
  rw [encode, List.length_cons, List.length_append]
  omega

end Der
