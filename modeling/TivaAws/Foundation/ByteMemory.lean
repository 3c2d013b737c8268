import Mathlib.Algebra.Group.Nat.Defs
import Mathlib.Data.List.Basic

/-!
# Byte-addressed memory

A memory is a total map from offsets to bytes: reads past the end of an object see whatever
bytes lie there. `writeBytes` is `memcpy` into a memory and `readBytes` copies a range out of it.
`writeBytes_append` says that two adjacent copies are one copy.
-/

namespace TivaAws

/-- The bytes at every offset from the start of an object. -/
abbrev ByteMemory := Nat → UInt8

namespace ByteMemory

/-- Copy `bytes` into the memory at `offset`. -/
def writeBytes (memory : ByteMemory) (offset : Nat) (bytes : List UInt8) : ByteMemory :=
  fun i => if offset ≤ i then (bytes[i - offset]?).getD (memory i) else memory i

/-- The `count` bytes from `offset` on. -/
def readBytes (memory : ByteMemory) (offset count : Nat) : List UInt8 :=
  (List.range count).map fun i => memory (offset + i)

variable (memory : ByteMemory) {offset i : Nat} {bytes : List UInt8}

@[simp] theorem length_readBytes (offset count : Nat) :
    (readBytes memory offset count).length = count := by
  simp [readBytes]

@[simp] theorem readBytes_zero (offset : Nat) : readBytes memory offset 0 = [] := rfl

/-- One more byte is read at the end. -/
theorem readBytes_succ (offset count : Nat) :
    readBytes memory offset (count + 1) =
      readBytes memory offset count ++ [memory (offset + count)] := by
  simp [readBytes, List.range_succ]

/-- Two adjacent reads are one read of both ranges. -/
theorem readBytes_add (offset first second : Nat) :
    readBytes memory offset (first + second) =
      readBytes memory offset first ++ readBytes memory (offset + first) second := by
  induction second with
  | zero => simp
  | succ second ih =>
      rw [← Nat.add_assoc, readBytes_succ, ih, readBytes_succ, List.append_assoc, Nat.add_assoc]

/-- A read begins with a shorter one. -/
theorem take_readBytes (offset : Nat) {first count : Nat} (h : first ≤ count) :
    (readBytes memory offset count).take first = readBytes memory offset first := by
  obtain ⟨rest, rfl⟩ := Nat.exists_eq_add_of_le h
  rw [readBytes_add]
  exact List.take_left' (length_readBytes memory offset first)

/-- A read ends with a later one. -/
theorem drop_readBytes (offset : Nat) {first count : Nat} (h : first ≤ count) :
    (readBytes memory offset count).drop first =
      readBytes memory (offset + first) (count - first) := by
  obtain ⟨rest, rfl⟩ := Nat.exists_eq_add_of_le h
  rw [readBytes_add, Nat.add_sub_cancel_left]
  exact List.drop_left' (length_readBytes memory offset first)

/-- One byte is read before the others. -/
theorem readBytes_cons (offset count : Nat) :
    readBytes memory offset (count + 1) =
      memory offset :: readBytes memory (offset + 1) count := by
  rw [Nat.add_comm count, readBytes_add]
  rfl

/-- A read depends on the bytes of its range only. -/
theorem readBytes_congr {other : ByteMemory} {offset count : Nat}
    (h : ∀ i, offset ≤ i → i < offset + count → other i = memory i) :
    readBytes other offset count = readBytes memory offset count := by
  refine List.map_congr_left ?_
  intro i hi
  rw [List.mem_range] at hi
  exact h (offset + i) (by omega) (by omega)

/-- Equal reads are equal byte for byte. -/
theorem eq_of_readBytes_eq {memory other : ByteMemory} {offset count : Nat}
    (h : readBytes memory offset count = readBytes other offset count) {i : Nat} (hi : i < count) :
    memory (offset + i) = other (offset + i) :=
  List.map_inj_left.mp h i (List.mem_range.mpr hi)

theorem mem_readBytes {offset count : Nat} {byte : UInt8} :
    byte ∈ readBytes memory offset count ↔ ∃ i < count, memory (offset + i) = byte := by
  simp [readBytes]

@[simp] theorem writeBytes_nil (offset : Nat) : writeBytes memory offset [] = memory := by
  funext i
  simp [writeBytes]

/-- A byte below the written range is untouched. -/
theorem writeBytes_below (h : i < offset) : writeBytes memory offset bytes i = memory i := by
  simp [writeBytes, Nat.not_le.mpr h]

/-- A byte above the written range is untouched. -/
theorem writeBytes_above (h : offset + bytes.length ≤ i) :
    writeBytes memory offset bytes i = memory i := by
  have hnone : bytes[i - offset]? = none := List.getElem?_eq_none (by omega)
  simp [writeBytes, hnone]

/-- A written byte reads back. -/
theorem writeBytes_inside (h : i < bytes.length) :
    writeBytes memory offset bytes (offset + i) = bytes[i] := by
  simp [writeBytes, List.getElem?_eq_getElem h]

@[simp] theorem writeBytes_single (offset : Nat) (byte : UInt8) :
    writeBytes memory offset [byte] offset = byte := by
  simp [writeBytes]

/-- A copied range reads back. -/
@[simp] theorem readBytes_writeBytes (offset : Nat) (bytes : List UInt8) :
    readBytes (writeBytes memory offset bytes) offset bytes.length = bytes := by
  refine List.ext_getElem (by simp) ?_
  intro i _ hi
  simp only [readBytes, List.getElem_map, List.getElem_range]
  exact writeBytes_inside memory hi

/-- Two adjacent copies are one copy of the concatenation. -/
theorem writeBytes_append (offset : Nat) (first second : List UInt8) :
    writeBytes (writeBytes memory offset first) (offset + first.length) second =
      writeBytes memory offset (first ++ second) := by
  funext i
  by_cases hlow : i < offset
  · rw [writeBytes_below _ (by omega), writeBytes_below _ hlow, writeBytes_below _ hlow]
  · obtain ⟨k, rfl⟩ : ∃ k, i = offset + k := ⟨i - offset, by omega⟩
    by_cases hk : k < first.length
    · rw [writeBytes_below _ (by omega), writeBytes_inside _ hk,
        writeBytes_inside _ (by simp; omega), List.getElem_append_left hk]
    · by_cases hall : k < first.length + second.length
      · have hsecond : k - first.length < second.length := by omega
        rw [writeBytes_inside _ (by simpa using hall), List.getElem_append_right (by omega),
          show offset + k = offset + first.length + (k - first.length) by omega,
          writeBytes_inside _ hsecond]
      · rw [writeBytes_above _ (by omega), writeBytes_above _ (by omega),
          writeBytes_above _ (by simp; omega)]

/-- A byte written over a copied range is a change of the copied bytes. -/
theorem writeBytes_set (offset : Nat) {bytes : List UInt8} {i : Nat} (byte : UInt8)
    (h : i < bytes.length) :
    writeBytes (writeBytes memory offset bytes) (offset + i) [byte] =
      writeBytes memory offset (bytes.set i byte) := by
  funext j
  by_cases hlow : j < offset
  · rw [writeBytes_below _ (by omega), writeBytes_below _ hlow, writeBytes_below _ hlow]
  · obtain ⟨k, rfl⟩ : ∃ k, j = offset + k := ⟨j - offset, by omega⟩
    by_cases hk : k < bytes.length
    · rw [writeBytes_inside memory (by simpa using hk), List.getElem_set]
      split_ifs with heq
      · rw [heq, writeBytes_single]
      · by_cases hbelow : k < i
        · rw [writeBytes_below _ (by omega), writeBytes_inside _ hk]
        · rw [writeBytes_above _ (by simp; omega), writeBytes_inside _ hk]
    · rw [writeBytes_above _ (by simp; omega), writeBytes_above _ (by omega),
        writeBytes_above _ (by simpa using Nat.not_lt.mp hk)]

/-- The first part of a copied range reads back. -/
theorem readBytes_writeBytes_append (offset : Nat) (first second : List UInt8) :
    readBytes (writeBytes memory offset (first ++ second)) offset first.length = first := by
  have hwhole := readBytes_writeBytes memory offset (first ++ second)
  rw [List.length_append, readBytes_add] at hwhole
  exact (List.append_inj hwhole (length_readBytes _ _ _)).1

/-- A copy over a shorter one leaves nothing of it. -/
theorem writeBytes_overwrite (offset : Nat) {first second : List UInt8}
    (h : first.length ≤ second.length) :
    writeBytes (writeBytes memory offset first) offset second =
      writeBytes memory offset second := by
  funext i
  by_cases hlow : i < offset
  · rw [writeBytes_below _ hlow, writeBytes_below _ hlow, writeBytes_below _ hlow]
  · obtain ⟨k, rfl⟩ : ∃ k, i = offset + k := ⟨i - offset, by omega⟩
    by_cases hk : k < second.length
    · rw [writeBytes_inside _ hk, writeBytes_inside _ hk]
    · rw [writeBytes_above _ (by omega), writeBytes_above _ (by omega),
        writeBytes_above _ (by omega)]

end ByteMemory

end TivaAws
