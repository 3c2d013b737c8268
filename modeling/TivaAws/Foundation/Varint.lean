import TivaAws.Foundation.PrefixCode
import Mathlib.Data.List.Basic
import Mathlib.Tactic.Ring

/-!
# Base-128 variable-length numbers

A number is written seven bits a byte, lowest group first; the top bit of a byte says that more
bytes follow. `Complete` holds of the byte strings that are exactly one number, `value` reads one
and `encode` writes one. `or_shift_payload` is the step of a decoder that places each group with
a shift and an `or`.
-/

namespace TivaAws.Varint

/-- The byte is followed by another byte of the same number. -/
def Continues (byte : UInt8) : Prop := byte &&& 0x80 ≠ 0

instance (byte : UInt8) : Decidable (Continues byte) :=
  inferInstanceAs (Decidable (_ ≠ _))

/-- The seven bits of the number that a byte carries. -/
def payload (byte : UInt8) : Nat := (byte &&& 0x7F).toNat

/-- The number a byte string carries, lowest group first. -/
def value : List UInt8 → Nat
  | [] => 0
  | byte :: rest => payload byte + 128 * value rest

/-- The byte string is one whole number: every byte but the last continues. -/
def Complete (bytes : List UInt8) : Prop :=
  ∃ front last, bytes = front ++ [last] ∧ (∀ byte ∈ front, Continues byte) ∧ ¬ Continues last

/-- The shortest byte string with the given value. -/
def encode (number : Nat) : List UInt8 :=
  if number < 128 then [UInt8.ofNat number]
  else (UInt8.ofNat (number % 128) ||| 0x80) :: encode (number / 128)
termination_by number
decreasing_by omega

/-! ## Bytes -/

theorem payload_eq_mod (byte : UInt8) : payload byte = byte.toNat % 128 := by
  have hmask : (0x7F : UInt8).toNat = 2 ^ 7 - 1 := rfl
  rw [payload, UInt8.toNat_and, hmask, Nat.and_two_pow_sub_one_eq_mod]

theorem payload_lt (byte : UInt8) : payload byte < 128 := by
  rw [payload_eq_mod]
  omega

theorem toNat_or_128 {number : Nat} (h : number < 128) :
    (UInt8.ofNat number ||| 0x80).toNat = number + 128 := by
  have hsmall : (UInt8.ofNat number).toNat = number := by
    rw [UInt8.toNat_ofNat']
    omega
  have htop : (0x80 : UInt8).toNat = 2 ^ 7 * 1 := rfl
  rw [UInt8.toNat_or, hsmall, htop, Nat.or_comm, ← Nat.two_pow_add_eq_or_of_lt (by simpa using h)]
  omega

theorem continues_iff (byte : UInt8) : Continues byte ↔ 128 ≤ byte.toNat := by
  have hall : ∀ n : Fin 256,
      (UInt8.ofNat n.val &&& 0x80 ≠ 0) ↔ 128 ≤ (UInt8.ofNat n.val).toNat := by decide +kernel
  have h := hall ⟨byte.toNat, byte.toNat_lt⟩
  simpa [Continues] using h

/-! ## Values -/

theorem value_append (first second : List UInt8) :
    value (first ++ second) = value first + 128 ^ first.length * value second := by
  induction first with
  | nil => simp [value]
  | cons byte rest ih =>
      simp only [List.cons_append, value, ih, List.length_cons, pow_succ]
      ring

theorem value_lt (bytes : List UInt8) : value bytes < 128 ^ bytes.length := by
  induction bytes with
  | nil => simp [value]
  | cons byte rest ih =>
      have hbyte := payload_lt byte
      simp only [value, List.length_cons, pow_succ]
      omega

/-- Placing the next seven bits above a value with `or` is adding them at their weight. -/
theorem or_shift_payload (bytes : List UInt8) (byte : UInt8) :
    value bytes ||| (payload byte <<< (7 * bytes.length)) = value (bytes ++ [byte]) := by
  have hlow : value bytes < 2 ^ (7 * bytes.length) := by
    have h := value_lt bytes
    rwa [show (128 : Nat) = 2 ^ 7 from rfl, ← pow_mul] at h
  rw [Nat.shiftLeft_eq, Nat.or_comm, Nat.mul_comm, ← Nat.two_pow_add_eq_or_of_lt hlow,
    value_append, show (128 : Nat) = 2 ^ 7 from rfl, ← pow_mul]
  simp only [value, Nat.mul_zero, Nat.add_zero]
  omega

/-! ## Complete numbers -/

theorem Complete.ne_nil {bytes : List UInt8} (h : Complete bytes) : bytes ≠ [] := by
  obtain ⟨front, last, rfl, -, -⟩ := h
  simp

theorem Complete.length_pos {bytes : List UInt8} (h : Complete bytes) : 0 < bytes.length :=
  List.length_pos_iff.mpr h.ne_nil

/-- A continuing byte in front of a number makes a longer number. -/
theorem Complete.cons {byte : UInt8} {bytes : List UInt8} (hbyte : Continues byte)
    (h : Complete bytes) : Complete (byte :: bytes) := by
  obtain ⟨front, last, rfl, hfront, hlast⟩ := h
  refine ⟨byte :: front, last, rfl, ?_, hlast⟩
  intro other hother
  rcases List.mem_cons.mp hother with rfl | hother
  · exact hbyte
  · exact hfront other hother

/-- No number is the start of another. -/
theorem complete_prefix_code : PrefixCode.IsPrefixCode Complete := by
  refine ⟨?_, Complete.ne_nil⟩
  rintro u v ⟨front, last, rfl, -, hlast⟩ ⟨front', last', rfl, hfront', -⟩ ⟨rest, hrest⟩
  rcases List.eq_nil_or_concat rest with rfl | ⟨middle, byte, rfl⟩
  · rw [← hrest, List.append_nil]
  · -- The last byte of the shorter number would have to continue.
    rw [List.concat_eq_append, ← List.append_assoc] at hrest
    have hinside : last ∈ front' := by
      rw [← (List.append_inj' hrest rfl).1]
      simp
    exact absurd (hfront' last hinside) hlast

/-- A byte string begins with a whole number, or all its bytes continue. -/
theorem begins_complete_or_continues (bytes : List UInt8) :
    (∃ number rest, bytes = number ++ rest ∧ Complete number) ∨
      ∀ byte ∈ bytes, Continues byte := by
  induction bytes with
  | nil => exact Or.inr (by simp)
  | cons byte bytes ih =>
      by_cases hbyte : Continues byte
      · rcases ih with ⟨number, rest, rfl, hnumber⟩ | hcontinue
        · exact Or.inl ⟨byte :: number, rest, rfl, hnumber.cons hbyte⟩
        · exact Or.inr (List.forall_mem_cons.mpr ⟨hbyte, hcontinue⟩)
      · exact Or.inl ⟨[byte], bytes, rfl, [], byte, rfl, by simp, hbyte⟩

/-- Bytes that all continue contain no whole number. -/
theorem Complete.not_all_continue {bytes : List UInt8} (h : Complete bytes) :
    ¬ ∀ byte ∈ bytes, Continues byte := by
  obtain ⟨front, last, rfl, -, hlast⟩ := h
  exact fun hcontinue => hlast (hcontinue last (by simp))

/-! ## Encoding -/

theorem encode_complete (number : Nat) : Complete (encode number) := by
  induction number using encode.induct with
  | case1 number h =>
      rw [encode, if_pos h]
      refine ⟨[], UInt8.ofNat number, rfl, by simp, ?_⟩
      rw [continues_iff, UInt8.toNat_ofNat']
      omega
  | case2 number h ih =>
      rw [encode, if_neg h]
      refine ih.cons ?_
      rw [continues_iff, toNat_or_128 (by omega)]
      omega

theorem value_encode (number : Nat) : value (encode number) = number := by
  induction number using encode.induct with
  | case1 number h =>
      rw [encode, if_pos h]
      simp only [value, payload_eq_mod, UInt8.toNat_ofNat']
      omega
  | case2 number h ih =>
      rw [encode, if_neg h]
      simp only [value, payload_eq_mod, toNat_or_128 (show number % 128 < 128 by omega), ih]
      omega

theorem length_encode_le {number count : Nat} (hcount : 0 < count) (h : number < 128 ^ count) :
    (encode number).length ≤ count := by
  induction number using encode.induct generalizing count with
  | case1 number hsmall =>
      rw [encode, if_pos hsmall]
      exact hcount
  | case2 number hlarge ih =>
      rw [encode, if_neg hlarge, List.length_cons]
      obtain ⟨rest, rfl⟩ : ∃ rest, count = rest + 1 := ⟨count - 1, by omega⟩
      rw [pow_succ] at h
      have hrest : 0 < rest := by
        rcases Nat.eq_zero_or_pos rest with rfl | hpos
        · rw [pow_zero] at h
          omega
        · exact hpos
      exact Nat.succ_le_succ (ih hrest (by omega))

/-- No number is written in fewer bytes than `encode` uses. -/
theorem length_encode_value_le {bytes : List UInt8} (h : Complete bytes) :
    (encode (value bytes)).length ≤ bytes.length :=
  length_encode_le h.length_pos (value_lt bytes)

end TivaAws.Varint
