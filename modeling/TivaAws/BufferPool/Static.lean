import Mathlib.Data.Nat.Bitwise
import Mathlib.Logic.Function.Basic
import TivaAws.Foundation.ByteMemory

/-!
# The static buffer pool

The pool of `aws_bufferpool_static_thread_safe.c`: rows of bytes at an address that the linker
chooses, each with one byte of metadata and a data region that is aligned by pointer arithmetic.
A task that looks for a buffer enters and leaves the critical section once for each row, so a call
is a program whose steps other tasks may interrupt. Addresses are natural numbers below `2 ^ 32`.
-/

namespace TivaAws.BufferPool

open ByteMemory

/-! ## Layout -/

/-- `bufferpoolconfigNUM_BUFFERS`. -/
def numBuffers : Nat := 8

/-- `bufferpoolconfigBUFFER_SIZE`. -/
def bufferSize : Nat := 2048 + 128

/-- `sizeof( BufferMetadata_t )`: the in-use mark only. -/
def sizeofBufferMetadata : Nat := 1

/-- `portBYTE_ALIGNMENT`. -/
def portByteAlignment : Nat := 8

/-- `portBYTE_ALIGNMENT_MASK`. -/
def portByteAlignmentMask : Nat := 0x0007

/-- The length of a row of `ucBufferPool`. -/
def rowSize : Nat := sizeofBufferMetadata + bufferSize + (portByteAlignment - 1)

/-- The address of `ucBufferPool[ x ]`. -/
def row (pool x : Nat) : Nat := pool + x * rowSize

/-- `bufferpoolstaticALIGN_POINTER`, with the 32-bit complement of the mask. -/
def alignPointer (ptr : Nat) : Nat :=
  (ptr + (portByteAlignment - 1)) &&& (2 ^ 32 - 1 - portByteAlignmentMask)

/-- `bufferpoolstaticRESERVE_METADATA_SPACE`. -/
def reserveMetadataSpace (ptr : Nat) : Nat := ptr + sizeofBufferMetadata

/-- `bufferpoolstaticDATA_LOCATION_IN_BUFFER`. -/
def dataLocationInBuffer (buffer : Nat) : Nat := alignPointer (reserveMetadataSpace buffer)

/-- The address behind `bufferpoolstaticBUFFER_IN_USE_FROM_DATA_LOCATION`. -/
def inUseFromDataLocation (dataLocation : Nat) : Nat := dataLocation - sizeofBufferMetadata

/-- The address behind `bufferpoolstaticBUFFER_IN_USE`. -/
def inUse (buffer : Nat) : Nat := inUseFromDataLocation (dataLocationInBuffer buffer)

/-! ## Functions -/

/-- `BUFFERPOOL_Init`. -/
def bufferPoolInit (pool : Nat) (memory : ByteMemory) : ByteMemory :=
  (List.range numBuffers).foldl
    (fun memory x => memory.writeBytes (inUse (row pool x)) [0]) memory

/-- Where a task is in the pool: outside, in the loop of `BUFFERPOOL_GetFreeBuffer` before row `x`,
behind it with the row it has marked, or in the branch for a request that is too large. -/
inductive Call where
  | idle
  | searching (requested x : Nat)
  | found (requested x : Nat)
  | tooLarge (requested : Nat)

/-- The first test of `BUFFERPOOL_GetFreeBuffer`. -/
def Call.enter (requested : Nat) : Call :=
  if requested ≤ bufferSize then .searching requested 0 else .tooLarge requested

/-- The critical section of the search for row `x`: whether the buffer was in use, and the memory
with its mark set. -/
def examine (pool x : Nat) (memory : ByteMemory) : Bool × ByteMemory :=
  if memory (inUse (row pool x)) = 0 then
    (false, memory.writeBytes (inUse (row pool x)) [1])
  else (true, memory)

/-- What a call answers once its loop has ended: the data location with the length written to
`*pulBufferLength`, or `NULL`. -/
def Call.answer (pool : Nat) : Call → Option (Option (Nat × Nat))
  | .idle => none
  | .searching _ x => if x < numBuffers then none else some none
  | .found _ x => some (some (dataLocationInBuffer (row pool x), bufferSize))
  | .tooLarge _ => some none

/-- `BUFFERPOOL_ReturnBuffer`: one critical section. -/
def bufferPoolReturnBuffer (buffer : Nat) (memory : ByteMemory) : ByteMemory :=
  memory.writeBytes (inUseFromDataLocation buffer) [0]

/-! ## Tasks -/

/-- What the tasks do with the pool. -/
inductive Event (T : Type*) where
  | request (task : T) (length : Nat)
  | examined (task : T) (x : Nat) (wasInUse : Bool)
  | answered (task : T) (answer : Option (Nat × Nat))
  | wrote (task : T) (address : Nat) (byte : UInt8)
  | returned (task : T) (buffer : Nat)

/-- The memory, where each task is, and which task has which outstanding buffer. -/
structure System (T : Type*) where
  memory : ByteMemory
  calls : T → Call
  outstanding : List (T × Nat)

variable {T : Type*} [DecidableEq T]

/-- One step of one task. A task that has a buffer writes what it likes into the length it was told,
and returns only what it has. -/
inductive Step (pool : Nat) : System T → List (Event T) → System T → Prop where
  | request {s} (task : T) (length : Nat) : s.calls task = .idle →
      Step pool s [.request task length]
        { s with calls := Function.update s.calls task (.enter length) }
  | examine {s} (task : T) {requested x : Nat} : s.calls task = .searching requested x →
      x < numBuffers →
      Step pool s [.examined task x (examine pool x s.memory).1]
        { s with
          memory := (examine pool x s.memory).2
          calls := Function.update s.calls task
            (if (examine pool x s.memory).1 then .searching requested (x + 1)
              else .found requested x) }
  | answer {s} (task : T) {answer : Option (Nat × Nat)} :
      (s.calls task).answer pool = some answer →
      Step pool s [.answered task answer]
        { s with
          calls := Function.update s.calls task .idle
          outstanding := answer.toList.map (fun granted => (task, granted.1)) ++ s.outstanding }
  | write {s} (task : T) {buffer : Nat} (offset : Nat) (byte : UInt8) :
      (task, buffer) ∈ s.outstanding → offset < bufferSize →
      Step pool s [.wrote task (buffer + offset) byte]
        { s with memory := s.memory.writeBytes (buffer + offset) [byte] }
  | giveBack {s} (task : T) {buffer : Nat} : s.calls task = .idle →
      (task, buffer) ∈ s.outstanding →
      Step pool s [.returned task buffer]
        { s with
          memory := bufferPoolReturnBuffer buffer s.memory
          outstanding := s.outstanding.erase (task, buffer) }

/-- The pool after `BUFFERPOOL_Init` on any memory. -/
def start (pool : Nat) (memory : ByteMemory) : System T where
  memory := bufferPoolInit pool memory
  calls := fun _ => .idle
  outstanding := []

/-! ## Addresses -/

/-- Clearing the low three bits rounds down to a multiple of eight. -/
theorem and_complement_mask {n : Nat} (h : n < 2 ^ 32) :
    n &&& (2 ^ 32 - 1 - portByteAlignmentMask) = n / 8 * 8 := by
  have hmask : 2 ^ 32 - 1 - portByteAlignmentMask = (2 ^ 29 - 1) <<< 3 := rfl
  have hdiv : n / 8 * 8 = (n >>> 3) <<< 3 := by
    rw [Nat.shiftRight_eq_div_pow, Nat.shiftLeft_eq]
  rw [hmask, hdiv]
  refine Nat.eq_of_testBit_eq ?_
  intro i
  rw [Nat.testBit_and, Nat.testBit_shiftLeft, Nat.testBit_shiftLeft, Nat.testBit_two_pow_sub_one,
    Nat.testBit_shiftRight]
  by_cases hlow : 3 ≤ i
  · rw [Nat.add_sub_cancel' hlow]
    by_cases hhigh : i < 32
    · simp [hlow, show i - 3 < 29 by omega]
    · have hzero : n.testBit i = false :=
        Nat.testBit_lt_two_pow (Nat.lt_of_lt_of_le h (Nat.pow_le_pow_right (by omega) (by omega)))
      simp [hzero]
  · simp [hlow]

/-- The pool lies in the address space. -/
def Placed (pool : Nat) : Prop := pool + numBuffers * rowSize ≤ 2 ^ 32

section Layout

variable {pool x y : Nat} (hpool : Placed pool)

include hpool

/-- The data location is aligned, behind the metadata and its region ends in the row. -/
theorem data_location_spec (hx : x < numBuffers) :
    portByteAlignment ∣ dataLocationInBuffer (row pool x) ∧
      row pool x + sizeofBufferMetadata ≤ dataLocationInBuffer (row pool x) ∧
      dataLocationInBuffer (row pool x) + bufferSize ≤ row pool x + rowSize := by
  have hsize : rowSize = 2184 := rfl
  have hcount : numBuffers = 8 := rfl
  rw [Placed, hsize, hcount] at hpool
  rw [hcount] at hx
  have hrow : row pool x = pool + x * 2184 := rfl
  have hlocation : dataLocationInBuffer (row pool x) = (pool + x * 2184 + 8) / 8 * 8 := by
    show (row pool x + 1 + 7) &&& (2 ^ 32 - 1 - portByteAlignmentMask) = _
    rw [and_complement_mask (by rw [hrow]; omega), hrow]
  rw [hlocation, hrow, hsize]
  unfold portByteAlignment sizeofBufferMetadata bufferSize
  refine ⟨Dvd.intro_left _ rfl, ?_, ?_⟩
  · omega
  · omega

/-- The mark lies in its row, right before the data. -/
theorem in_use_spec (hx : x < numBuffers) :
    row pool x ≤ inUse (row pool x) ∧
      inUse (row pool x) + sizeofBufferMetadata = dataLocationInBuffer (row pool x) := by
  obtain ⟨-, hbehind, -⟩ := data_location_spec hpool hx
  unfold inUse inUseFromDataLocation
  omega

omit hpool in
/-- A row ends where the next begins at the latest. -/
theorem row_lt (pool : Nat) (hxy : x < y) : row pool x + rowSize ≤ row pool y := by
  have hstep : (x + 1) * rowSize ≤ y * rowSize := Nat.mul_le_mul_right _ hxy
  unfold row
  rw [Nat.add_mul, Nat.one_mul] at hstep
  omega

/-- No data region reaches a mark. -/
theorem in_use_outside (hx : x < numBuffers) (hy : y < numBuffers) :
    inUse (row pool y) < dataLocationInBuffer (row pool x) ∨
      dataLocationInBuffer (row pool x) + bufferSize ≤ inUse (row pool y) := by
  obtain ⟨-, hx₁, hx₂⟩ := data_location_spec hpool hx
  obtain ⟨-, hy₁, hy₂⟩ := data_location_spec hpool hy
  obtain ⟨hmark, hbefore⟩ := in_use_spec hpool hy
  rcases Nat.lt_trichotomy x y with hlt | rfl | hlt
  · have hrows := row_lt pool hlt
    omega
  · have hone : sizeofBufferMetadata = 1 := rfl
    omega
  · have hrows := row_lt pool hlt
    have hone : sizeofBufferMetadata = 1 := rfl
    have hsize : bufferSize = 2176 := rfl
    omega

/-- Two data regions do not overlap. -/
theorem data_disjoint (hx : x < numBuffers) (hy : y < numBuffers) (hne : x ≠ y) :
    dataLocationInBuffer (row pool x) + bufferSize ≤ dataLocationInBuffer (row pool y) ∨
      dataLocationInBuffer (row pool y) + bufferSize ≤ dataLocationInBuffer (row pool x) := by
  obtain ⟨-, hx₁, hx₂⟩ := data_location_spec hpool hx
  obtain ⟨-, hy₁, hy₂⟩ := data_location_spec hpool hy
  rcases Nat.lt_or_gt_of_ne hne with hlt | hlt
  · have hrows := row_lt pool hlt
    omega
  · have hrows := row_lt pool hlt
    omega

/-- A data location belongs to one row. -/
theorem data_location_injective (hx : x < numBuffers) (hy : y < numBuffers)
    (h : dataLocationInBuffer (row pool x) = dataLocationInBuffer (row pool y)) : x = y := by
  by_contra hne
  have hsize : bufferSize = 2176 := rfl
  rcases data_disjoint hpool hx hy hne with hlt | hlt
  · omega
  · omega

/-- A mark belongs to one row. -/
theorem in_use_injective (hx : x < numBuffers) (hy : y < numBuffers)
    (h : inUse (row pool x) = inUse (row pool y)) : x = y := by
  refine data_location_injective hpool hx hy ?_
  rw [← (in_use_spec hpool hx).2, ← (in_use_spec hpool hy).2, h]

end Layout

end TivaAws.BufferPool
