import TivaAws.Mqtt.Types
import TivaAws.Foundation.Varint

/-!
# The "Remaining Length" field

`prvSizeOfRemainingLength`, `prvEncodeRemainingLength` and `prvDecodeRemainingLength`. The field
is a base-128 number of at most four bytes: the encoder writes `Varint.encode` of the length
(`encode_remaining_length_eq`) and the decoder reads back the value of any complete field
(`decode_remaining_length_complete`).
-/

namespace TivaAws.Mqtt

open ByteMemory

/-- `prvSizeOfRemainingLength`: the bytes the field takes, `0` for a length out of range. -/
def prvSizeOfRemainingLength (remainingLength : Nat) : Nat :=
  if remainingLength ≤ 127 then 1
  else if remainingLength ≤ 16383 then 2
  else if remainingLength ≤ 2097151 then 3
  else if remainingLength ≤ maxRemainingLength then 4
  else 0

/-- The loop of `prvEncodeRemainingLength`. A `uint32_t` has at most five groups of seven bits,
so five rounds are enough. -/
def encodeRemainingLengthLoop (start lastByte : Nat) :
    Nat → Nat → Nat → ByteMemory → Nat × ByteMemory
  | 0, _, written, memory => (written, memory)
  | rounds + 1, remainingLength, written, memory =>
      let group := UInt8.ofNat remainingLength &&& 0x7F
      let rest := remainingLength >>> 7
      let encodedByte := if rest > 0 then group ||| 0x80 else group
      if start + written ≤ lastByte then
        let memory := memory.writeBytes (start + written) [encodedByte]
        if rest > 0 then
          encodeRemainingLengthLoop start lastByte rounds rest (written + 1) memory
        else (written + 1, memory)
      else (0, memory)

/-- `prvEncodeRemainingLength`: write the field at `start`, not past `lastByte`, and return the
number of bytes written with the memory. -/
def prvEncodeRemainingLength (memory : ByteMemory) (remainingLength start lastByte : Nat) :
    Nat × ByteMemory :=
  encodeRemainingLengthLoop start lastByte 5 remainingLength 0 memory

/-- The loop of `prvDecodeRemainingLength` at index `x`. -/
def decodeRemainingLengthLoop (encoded : ByteMemory) : Nat → Nat → Nat → Nat × Option Nat
  | 0, _, _ => (0, none)
  | rounds + 1, x, decoded =>
      let decoded := decoded ||| ((encoded x &&& 0x7F).toNat <<< (7 * x))
      if encoded x &&& 0x80 = 0 then (x + 1, some decoded)
      else decodeRemainingLengthLoop encoded rounds (x + 1) decoded

/-- `prvDecodeRemainingLength`: the number of bytes read, `0` when the fourth byte still
continues, and the decoded length when there is one. -/
def prvDecodeRemainingLength (encoded : ByteMemory) : Nat × Option Nat :=
  decodeRemainingLengthLoop encoded remainingLengthMaxBytes 0 0

/-! ## Encoder -/

theorem group_eq {remainingLength : Nat} :
    UInt8.ofNat remainingLength &&& 0x7F = UInt8.ofNat (remainingLength % 128) := by
  have hmask : (0x7F : UInt8).toNat = 2 ^ 7 - 1 := rfl
  apply UInt8.toNat_inj.mp
  rw [UInt8.toNat_and, hmask, Nat.and_two_pow_sub_one_eq_mod, UInt8.toNat_ofNat',
    UInt8.toNat_ofNat']
  omega

theorem encode_loop_eq {start lastByte rounds remainingLength : Nat} (written : Nat)
    (memory : ByteMemory)
    (hrounds : remainingLength < 128 ^ rounds) (hpos : 0 < rounds)
    (hroom : start + written + (Varint.encode remainingLength).length ≤ lastByte + 1) :
    encodeRemainingLengthLoop start lastByte rounds remainingLength written memory =
      (written + (Varint.encode remainingLength).length,
        memory.writeBytes (start + written) (Varint.encode remainingLength)) := by
  induction rounds generalizing remainingLength written memory with
  | zero => omega
  | succ rounds ih =>
      have hlen := (Varint.encode_complete remainingLength).length_pos
      have hfits : start + written ≤ lastByte := by omega
      simp only [encodeRemainingLengthLoop, group_eq, Nat.shiftRight_eq_div_pow, hfits, if_true]
      rw [Varint.encode] at hroom ⊢
      by_cases hsmall : remainingLength < 128
      · have hrest : ¬ remainingLength / 2 ^ 7 > 0 := by omega
        simp only [hrest, if_false, hsmall, if_true, List.length_singleton,
          Nat.mod_eq_of_lt hsmall]
      · have hrest : remainingLength / 2 ^ 7 > 0 := by omega
        simp only [hsmall, if_false, List.length_cons] at hroom
        simp only [hrest, if_true, hsmall, if_false, List.length_cons]
        rw [pow_succ] at hrounds
        have hdiv : remainingLength / 2 ^ 7 = remainingLength / 128 := rfl
        have hlt : remainingLength / 128 < 128 ^ rounds := by omega
        have hrounds' : 0 < rounds := by
          rcases Nat.eq_zero_or_pos rounds with rfl | h
          · simp at hlt
            omega
          · exact h
        rw [hdiv, ih _ _ hlt hrounds' (by omega)]
        refine Prod.ext (by simp only; omega) ?_
        exact writeBytes_append memory (start + written) [_] (Varint.encode (remainingLength / 128))

/-- With room for the field the encoder writes exactly the shortest encoding of the length. -/
theorem encode_remaining_length_eq {remainingLength start lastByte : Nat} (memory : ByteMemory)
    (hmax : remainingLength ≤ maxRemainingLength)
    (hroom : start + (Varint.encode remainingLength).length ≤ lastByte + 1) :
    prvEncodeRemainingLength memory remainingLength start lastByte =
      ((Varint.encode remainingLength).length,
        memory.writeBytes start (Varint.encode remainingLength)) := by
  have hrounds : remainingLength < 128 ^ 5 := by
    unfold maxRemainingLength at hmax
    omega
  simpa [prvEncodeRemainingLength] using
    encode_loop_eq 0 memory hrounds (by omega) (by simpa using hroom)

/-- The encoder's output has the length `prvSizeOfRemainingLength` computes. -/
theorem length_encode_eq_size {remainingLength : Nat}
    (hmax : remainingLength ≤ maxRemainingLength) :
    (Varint.encode remainingLength).length = prvSizeOfRemainingLength remainingLength := by
  unfold maxRemainingLength at hmax
  unfold prvSizeOfRemainingLength maxRemainingLength
  by_cases h1 : remainingLength < 128
  · rw [Varint.encode, if_pos h1, if_pos (by omega)]
    rfl
  rw [Varint.encode, if_neg h1, if_neg (by omega)]
  by_cases h2 : remainingLength / 128 < 128
  · rw [Varint.encode, if_pos h2, if_pos (by omega)]
    rfl
  rw [Varint.encode, if_neg h2, if_neg (by omega)]
  by_cases h3 : remainingLength / 128 / 128 < 128
  · rw [Varint.encode, if_pos h3, if_pos (by omega)]
    rfl
  rw [Varint.encode, if_neg h3, if_neg (by omega), Varint.encode, if_pos (by omega),
    if_pos (by omega)]
  rfl

theorem size_pos_iff (remainingLength : Nat) :
    0 < prvSizeOfRemainingLength remainingLength ↔ remainingLength ≤ maxRemainingLength := by
  unfold prvSizeOfRemainingLength maxRemainingLength
  split_ifs <;> simp <;> omega

theorem size_le_four (remainingLength : Nat) : prvSizeOfRemainingLength remainingLength ≤ 4 := by
  unfold prvSizeOfRemainingLength
  split_ifs <;> omega

/-! ## Decoder -/

theorem decode_loop_complete {encoded : ByteMemory} (read : List UInt8) {rest : List UInt8}
    {rounds : Nat}
    (hrest : Varint.Complete rest) (hlength : rest.length ≤ rounds)
    (hread : ∀ i (h : i < rest.length), encoded (read.length + i) = rest[i]) :
    decodeRemainingLengthLoop encoded rounds read.length (Varint.value read) =
      (read.length + rest.length, some (Varint.value (read ++ rest))) := by
  induction rest generalizing read rounds with
  | nil => exact absurd rfl hrest.ne_nil
  | cons byte rest ih =>
      obtain ⟨rounds, rfl⟩ : ∃ k, rounds = k + 1 := ⟨rounds - 1, by simp at hlength; omega⟩
      have hbyte : encoded read.length = byte := hread 0 (by simp)
      have hplace := Varint.or_shift_payload read byte
      rw [Varint.payload] at hplace
      simp only [decodeRemainingLengthLoop, hbyte, hplace]
      obtain ⟨front, last, heq, hcontinue, hlast⟩ := hrest
      cases front with
      | nil =>
          obtain ⟨rfl, rfl⟩ : byte = last ∧ rest = [] := by simpa using heq
          have hzero : byte &&& 0x80 = 0 := by simpa [Varint.Continues] using hlast
          simp [hzero]
      | cons head tail =>
          obtain ⟨rfl, rfl⟩ : byte = head ∧ rest = tail ++ [last] := by simpa using heq
          have hmore : ¬ byte &&& 0x80 = 0 := hcontinue byte (by simp)
          have hstep := ih (read ++ [byte])
            ⟨tail, last, rfl, fun b hb => hcontinue b (by simp [hb]), hlast⟩
            (by simpa using hlength)
            (by
              intro i hi
              have h := hread (i + 1) (by simpa using hi)
              simpa [Nat.add_assoc, Nat.add_comm 1 i] using h)
          rw [if_neg hmore]
          simpa [Nat.add_assoc, Nat.add_comm, Nat.add_left_comm] using hstep

/-- The decoder reads a complete field of at most four bytes and nothing after it. -/
theorem decode_remaining_length_complete {encoded : ByteMemory} {field : List UInt8}
    (hfield : Varint.Complete field) (hlength : field.length ≤ remainingLengthMaxBytes)
    (hread : encoded.readBytes 0 field.length = field) :
    prvDecodeRemainingLength encoded = (field.length, some (Varint.value field)) := by
  have hbytes : ∀ i (h : i < field.length), encoded (([] : List UInt8).length + i) = field[i] := by
    intro i hi
    have h := List.getElem_of_eq hread (i := i) (by simpa using hi)
    simpa [readBytes] using h
  simpa [prvDecodeRemainingLength, Varint.value] using
    decode_loop_complete [] hfield hlength hbytes

end TivaAws.Mqtt
