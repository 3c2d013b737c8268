import TivaAws.Foundation.ByteMemory

/-!
# Words in memory

Numbers of 32 bits in a memory of bytes, the lowest byte first: a written word reads back, and a
write leaves every other byte and every word that does not overlap it.
-/

namespace TivaAws.ByteMemory

/-- The number in the four bytes from `offset` on. -/
def readWord (memory : ByteMemory) (offset : ℕ) : ℕ :=
  (memory offset).toNat + 2 ^ 8 * (memory (offset + 1)).toNat +
    2 ^ 16 * (memory (offset + 2)).toNat + 2 ^ 24 * (memory (offset + 3)).toNat

/-- Write the lowest 32 bits of a number. -/
def writeWord (memory : ByteMemory) (offset word : ℕ) : ByteMemory :=
  memory.writeBytes offset
    [UInt8.ofNat word, UInt8.ofNat (word / 2 ^ 8), UInt8.ofNat (word / 2 ^ 16),
      UInt8.ofNat (word / 2 ^ 24)]

variable {memory other : ByteMemory} {offset i word : ℕ}

/-- A read depends on the four bytes of its word only. -/
theorem readWord_congr (h : ∀ i, offset ≤ i → i < offset + 4 → other i = memory i) :
    readWord other offset = readWord memory offset := by
  unfold readWord
  rw [h offset (by omega) (by omega), h (offset + 1) (by omega) (by omega),
    h (offset + 2) (by omega) (by omega), h (offset + 3) (by omega) (by omega)]

theorem writeWord_outside (h : i < offset ∨ offset + 4 ≤ i) :
    writeWord memory offset word i = memory i := by
  rcases h with hbelow | habove
  · exact writeBytes_below memory hbelow
  · exact writeBytes_above memory habove

/-- A word that does not overlap the written one. -/
theorem readWord_writeWord_apart {place : ℕ} (h : place + 4 ≤ offset ∨ offset + 4 ≤ place) :
    readWord (writeWord memory offset word) place = readWord memory place :=
  readWord_congr fun _ hlow hhigh => writeWord_outside (by omega)

theorem readWord_writeWord (h : word < 2 ^ 32) :
    readWord (writeWord memory offset word) offset = word := by
  have hbyte : ∀ (i : ℕ) (hi : i < 4), writeWord memory offset word (offset + i) =
      [UInt8.ofNat word, UInt8.ofNat (word / 2 ^ 8), UInt8.ofNat (word / 2 ^ 16),
        UInt8.ofNat (word / 2 ^ 24)][i] := fun i hi => writeBytes_inside memory hi
  have hzero := hbyte 0 (by omega)
  rw [Nat.add_zero] at hzero
  unfold readWord
  rw [hzero, hbyte 1 (by omega), hbyte 2 (by omega), hbyte 3 (by omega)]
  simp only [List.getElem_cons_zero, List.getElem_cons_succ, UInt8.toNat_ofNat']
  omega

end TivaAws.ByteMemory
