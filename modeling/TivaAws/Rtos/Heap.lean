import TivaAws.Foundation.Intervals
import TivaAws.Foundation.Words

/-!
# The heap

The functions of `heap_4.c` on a memory of bytes. A block begins with its `BlockLink_t`; the free
blocks are a list in the order of their addresses, from `xStart` to `pxEnd`. Addresses and sizes are
numbers below `2 ^ 32`. A failed `configASSERT` stops the system: the result is `none`.
-/

namespace TivaAws.Rtos

open ByteMemory

/-! ## Constants -/

def portByteAlignment : ℕ := 8

def portByteAlignmentMask : ℕ := 7

def heapBitsPerByte : ℕ := 8

/-- `configTOTAL_HEAP_SIZE`. -/
def configTotalHeapSize : ℕ := 152 * 1024

/-- `x & ~mask`. -/
def clearBits (x mask : ℕ) : ℕ := x - (x &&& mask)

/-- The size of a `BlockLink_t`, two words, rounded up. -/
def xHeapStructSize : ℕ := clearBits (8 + (portByteAlignment - 1)) portByteAlignmentMask

def heapMinimumBlockSize : ℕ := xHeapStructSize <<< 1

/-! ## State -/

/-- Where the linker puts `ucHeap` and `xStart`. -/
structure HeapLayout where
  ucHeap : ℕ
  xStart : ℕ
  ucHeap_pos : 0 < ucHeap
  ucHeap_fits : ucHeap + configTotalHeapSize < 2 ^ 32
  xStart_apart : xStart + 8 ≤ ucHeap ∨ ucHeap + configTotalHeapSize ≤ xStart

/-- The memory and the static variables; `NULL` is zero. -/
structure HeapState where
  memory : ByteMemory
  pxEnd : ℕ
  xFreeBytesRemaining : ℕ
  xMinimumEverFreeBytesRemaining : ℕ
  xBlockAllocatedBit : ℕ

/-- The variables before the first call. -/
def HeapState.start (memory : ByteMemory) : HeapState := ⟨memory, 0, 0, 0, 0⟩

namespace HeapState

variable (s : HeapState) (pxBlock value : ℕ)

/-- The first word of a `BlockLink_t`. -/
def pxNextFreeBlock : ℕ := readWord s.memory pxBlock

/-- The second word of a `BlockLink_t`. -/
def xBlockSize : ℕ := readWord s.memory (pxBlock + 4)

def setNextFreeBlock : HeapState := { s with memory := writeWord s.memory pxBlock value }

def setBlockSize : HeapState := { s with memory := writeWord s.memory (pxBlock + 4) value }

end HeapState

/-! ## Functions -/

/-- `prvHeapInit`. -/
def prvHeapInit (layout : HeapLayout) (s : HeapState) : HeapState :=
  let uxAddress := layout.ucHeap
  let unaligned := uxAddress &&& portByteAlignmentMask ≠ 0
  let pucAlignedHeap :=
    if unaligned then clearBits (uxAddress + (portByteAlignment - 1)) portByteAlignmentMask
    else uxAddress
  let xTotalHeapSize :=
    if unaligned then configTotalHeapSize - (pucAlignedHeap - layout.ucHeap)
    else configTotalHeapSize
  let s := s.setNextFreeBlock layout.xStart pucAlignedHeap
  let s := s.setBlockSize layout.xStart 0
  let uxAddress := pucAlignedHeap + xTotalHeapSize - xHeapStructSize
  let pxEnd := clearBits uxAddress portByteAlignmentMask
  let s := s.setBlockSize pxEnd 0
  let s := s.setNextFreeBlock pxEnd 0
  let pxFirstFreeBlock := pucAlignedHeap
  let s := s.setBlockSize pxFirstFreeBlock (pxEnd - pxFirstFreeBlock)
  let s := s.setNextFreeBlock pxFirstFreeBlock pxEnd
  { s with
    pxEnd := pxEnd
    xMinimumEverFreeBytesRemaining := s.xBlockSize pxFirstFreeBlock
    xFreeBytesRemaining := s.xBlockSize pxFirstFreeBlock
    xBlockAllocatedBit := 1 <<< (4 * heapBitsPerByte - 1) }

/-- The `for` loop of `prvInsertBlockIntoFreeList`, `none` if its rounds do not end. -/
def insertAfter (s : HeapState) (pxBlockToInsert : ℕ) : ℕ → ℕ → Option ℕ
  | 0, _ => none
  | rounds + 1, pxIterator =>
      if s.pxNextFreeBlock pxIterator < pxBlockToInsert then
        insertAfter s pxBlockToInsert rounds (s.pxNextFreeBlock pxIterator)
      else some pxIterator

/-- How `prvInsertBlockIntoFreeList` links a block to the next one, as one block if they touch. -/
def linkNext (pxBlockToInsert pxNext : ℕ) (s : HeapState) : HeapState :=
  if pxBlockToInsert + s.xBlockSize pxBlockToInsert = pxNext then
    if pxNext ≠ s.pxEnd then
      let s := s.setBlockSize pxBlockToInsert (s.xBlockSize pxBlockToInsert + s.xBlockSize pxNext)
      s.setNextFreeBlock pxBlockToInsert (s.pxNextFreeBlock pxNext)
    else s.setNextFreeBlock pxBlockToInsert s.pxEnd
  else s.setNextFreeBlock pxBlockToInsert pxNext

/-- What `prvInsertBlockIntoFreeList` does after its loop. -/
def insertAt (pxBlockToInsert pxIterator : ℕ) (s : HeapState) : HeapState :=
  let contiguous := pxIterator + s.xBlockSize pxIterator = pxBlockToInsert
  let s :=
    if contiguous then
      s.setBlockSize pxIterator (s.xBlockSize pxIterator + s.xBlockSize pxBlockToInsert)
    else s
  let pxBlockToInsert := if contiguous then pxIterator else pxBlockToInsert
  let s := linkNext pxBlockToInsert (s.pxNextFreeBlock pxIterator) s
  if pxIterator ≠ pxBlockToInsert then s.setNextFreeBlock pxIterator pxBlockToInsert else s

/-- More rounds than a list of free blocks takes. -/
def freeListRounds : ℕ := configTotalHeapSize

/-- `prvInsertBlockIntoFreeList`. -/
def prvInsertBlockIntoFreeList (layout : HeapLayout) (pxBlockToInsert : ℕ) (s : HeapState) :
    Option HeapState := do
  let pxIterator ← insertAfter s pxBlockToInsert freeListRounds layout.xStart
  pure (insertAt pxBlockToInsert pxIterator s)

/-- The bytes that `pvPortMalloc` wants of a block: those of the `BlockLink_t` too, rounded up. The
size asked for is below `2 ^ 31`. -/
def wantedBlockSize (xWantedSize : ℕ) : Option ℕ :=
  if 0 < xWantedSize then
    let xWantedSize := xWantedSize + xHeapStructSize
    if xWantedSize &&& portByteAlignmentMask ≠ 0 then
      let xWantedSize :=
        xWantedSize + (portByteAlignment - (xWantedSize &&& portByteAlignmentMask))
      if xWantedSize &&& portByteAlignmentMask = 0 then some xWantedSize else none
    else some xWantedSize
  else some xWantedSize

/-- The `while` loop of `pvPortMalloc`: `pxPreviousBlock` and `pxBlock` after it. -/
def findBlock (s : HeapState) (xWantedSize : ℕ) : ℕ → ℕ → ℕ → Option (ℕ × ℕ)
  | 0, _, _ => none
  | rounds + 1, pxPreviousBlock, pxBlock =>
      if s.xBlockSize pxBlock < xWantedSize ∧ s.pxNextFreeBlock pxBlock ≠ 0 then
        findBlock s xWantedSize rounds pxBlock (s.pxNextFreeBlock pxBlock)
      else some (pxPreviousBlock, pxBlock)

/-- How `pvPortMalloc` splits a block that is larger than required. -/
def splitBlock (layout : HeapLayout) (xWantedSize pxBlock : ℕ) (s : HeapState) :
    Option HeapState :=
  if heapMinimumBlockSize < s.xBlockSize pxBlock - xWantedSize then do
    let pxNewBlockLink := pxBlock + xWantedSize
    guard (pxNewBlockLink &&& portByteAlignmentMask = 0)
    let s := s.setBlockSize pxNewBlockLink (s.xBlockSize pxBlock - xWantedSize)
    let s := s.setBlockSize pxBlock xWantedSize
    prvInsertBlockIntoFreeList layout pxNewBlockLink s
  else pure s

/-- What `pvPortMalloc` does with the block it has found. -/
def takeBlock (layout : HeapLayout) (xWantedSize pxPreviousBlock pxBlock : ℕ) (s : HeapState) :
    Option (ℕ × HeapState) := do
  let pvReturn := s.pxNextFreeBlock pxPreviousBlock + xHeapStructSize
  let s := s.setNextFreeBlock pxPreviousBlock (s.pxNextFreeBlock pxBlock)
  let s ← splitBlock layout xWantedSize pxBlock s
  let xFreeBytesRemaining := s.xFreeBytesRemaining - s.xBlockSize pxBlock
  let s := s.setBlockSize pxBlock (s.xBlockSize pxBlock ||| s.xBlockAllocatedBit)
  let s := s.setNextFreeBlock pxBlock 0
  pure (pvReturn,
    { s with
      xFreeBytesRemaining := xFreeBytesRemaining
      xMinimumEverFreeBytesRemaining :=
        if xFreeBytesRemaining < s.xMinimumEverFreeBytesRemaining then xFreeBytesRemaining
        else s.xMinimumEverFreeBytesRemaining })

/-- `pvPortMalloc` after the initialisation, up to its last assertion. -/
def allocate (layout : HeapLayout) (xWantedSize : ℕ) (s : HeapState) : Option (ℕ × HeapState) :=
  if xWantedSize &&& s.xBlockAllocatedBit = 0 then do
    let xWantedSize ← wantedBlockSize xWantedSize
    if 0 < xWantedSize ∧ xWantedSize ≤ s.xFreeBytesRemaining then do
      let (pxPreviousBlock, pxBlock) ←
        findBlock s xWantedSize freeListRounds layout.xStart (s.pxNextFreeBlock layout.xStart)
      if pxBlock ≠ s.pxEnd then takeBlock layout xWantedSize pxPreviousBlock pxBlock s
      else pure (0, s)
    else pure (0, s)
  else pure (0, s)

/-- The initialisation at the first call of `pvPortMalloc`. -/
def ready (layout : HeapLayout) (s : HeapState) : HeapState :=
  if s.pxEnd = 0 then prvHeapInit layout s else s

/-- `pvPortMalloc`. -/
def pvPortMalloc (layout : HeapLayout) (xWantedSize : ℕ) (s : HeapState) :
    Option (ℕ × HeapState) := do
  let (pvReturn, s) ← allocate layout xWantedSize (ready layout s)
  guard (pvReturn &&& portByteAlignmentMask = 0)
  pure (pvReturn, s)

/-- `vPortFree` of a block before the scheduler is suspended. -/
def vPortFreeRelease (pv : ℕ) (s : HeapState) : Option HeapState := do
  let pxLink := pv - xHeapStructSize
  guard (s.xBlockSize pxLink &&& s.xBlockAllocatedBit ≠ 0)
  guard (s.pxNextFreeBlock pxLink = 0)
  pure (s.setBlockSize pxLink (clearBits (s.xBlockSize pxLink) s.xBlockAllocatedBit))

/-- `vPortFree` of a block while the scheduler is suspended. -/
def vPortFreeInsert (layout : HeapLayout) (pv : ℕ) (s : HeapState) : Option HeapState :=
  let pxLink := pv - xHeapStructSize
  let s := { s with xFreeBytesRemaining := s.xFreeBytesRemaining + s.xBlockSize pxLink }
  prvInsertBlockIntoFreeList layout pxLink s

/-- `vPortFree`, if no other task runs between its parts. -/
def vPortFree (layout : HeapLayout) (pv : ℕ) (s : HeapState) : Option HeapState :=
  if pv ≠ 0 then vPortFreeRelease pv s >>= vPortFreeInsert layout pv else some s

/-- `vPortCalloc`; the product wraps. -/
def vPortCalloc (layout : HeapLayout) (num itemSize : ℕ) (s : HeapState) :
    Option (ℕ × HeapState) := do
  let (ret, s) ← pvPortMalloc layout (itemSize * num % 2 ^ 32) s
  if ret ≠ 0 then
    pure (ret, { s with
      memory := s.memory.writeBytes ret (List.replicate (itemSize * num % 2 ^ 32) 0) })
  else pure (ret, s)

def xPortGetFreeHeapSize (s : HeapState) : ℕ := s.xFreeBytesRemaining

def xPortGetMinimumEverFreeHeapSize (s : HeapState) : ℕ := s.xMinimumEverFreeBytesRemaining

end TivaAws.Rtos
