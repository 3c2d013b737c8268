import TivaAws.Foundation.CircularBuffer

/-!
# The entropy pool

`RandomAddEntropy` and `RandomSeed`. The pool is a circular buffer of 64 bytes that the seed is a
hash of, as sixteen words with the least significant byte first.
-/

namespace TivaAws.Rng

open CircularBuffer

/-- The bytes of `g_pui32RandomEntropy`. -/
abbrev EntropyPool := Vector UInt8 64

/-- `g_pui32RandomEntropy` and `g_ui32RandomIndex`. -/
structure RandomEntropy where
  pool : EntropyPool
  index : Fin 64

/-- The variables at start-up. -/
def RandomEntropy.initial : RandomEntropy := ⟨Vector.replicate 64 0, 0⟩

/-- `RandomAddEntropy`. -/
def randomAddEntropy (entropy : UInt32) (e : RandomEntropy) : RandomEntropy where
  pool := e.pool.set e.index (entropy &&& 0xFF).toUInt8
  index := ⟨(e.index + 1) &&& 63, Nat.lt_succ_of_le Nat.and_le_right⟩

/-- Bytes that the application adds. -/
def addBytes (bytes : List UInt8) (e : RandomEntropy) : RandomEntropy :=
  bytes.foldl (fun e byte => randomAddEntropy byte.toUInt32 e) e

/-! ## The seed -/

/-- A word of the pool. -/
def entropyWord (pool : EntropyPool) (k : Nat) : UInt32 :=
  let byte := fun i => (pool.toArray.getD (4 * k + i) 0).toUInt32
  byte 0 ||| byte 1 <<< 8 ||| byte 2 <<< 16 ||| byte 3 <<< 24

/-- The digest `ui32A` .. `ui32D`. -/
structure Digest where
  a : UInt32
  b : UInt32
  c : UInt32
  d : UInt32

/-- The rotation in `F`, `G` and `H`. -/
def rotate (temp s : UInt32) : UInt32 := temp <<< s ||| temp >>> (32 - s)

/-- The sum in `F`. -/
def sumF (a b c d word : UInt32) : UInt32 := a + (d ^^^ (b &&& (c ^^^ d))) + word

/-- The sum in `G`. -/
def sumG (a b c d word : UInt32) : UInt32 :=
  a + (b &&& c ||| b &&& d ||| c &&& d) + word + 0x5A827999

/-- The sum in `H`. -/
def sumH (a b c d word : UInt32) : UInt32 := a + (b ^^^ c ^^^ d) + word + 0x6ED9EBA1

/-- The body of the three loops: four operations with the words and the shifts given. -/
def mix (sum : UInt32 → UInt32 → UInt32 → UInt32 → UInt32 → UInt32) (word : Nat → UInt32)
    (k : Nat × Nat × Nat × Nat) (s : UInt32 × UInt32 × UInt32 × UInt32) (digest : Digest) :
    Digest :=
  let ⟨a, b, c, d⟩ := digest
  let a := rotate (sum a b c d (word k.1)) s.1
  let d := rotate (sum d a b c (word k.2.1)) s.2.1
  let c := rotate (sum c d a b (word k.2.2.1)) s.2.2.1
  let b := rotate (sum b c d a (word k.2.2.2)) s.2.2.2
  ⟨a, b, c, d⟩

/-- `RandomSeed`. -/
def randomSeed (pool : EntropyPool) : UInt32 :=
  let word := entropyWord pool
  let digest : Digest := ⟨0x67452301, 0xEFCDAB89, 0x98BADCFE, 0x10325476⟩
  let digest := [0, 4, 8, 12].foldl (fun digest idx =>
    mix sumF word (idx, idx + 1, idx + 2, idx + 3) (3, 7, 11, 19) digest) digest
  let digest := [0, 1, 2, 3].foldl (fun digest idx =>
    mix sumG word (idx, idx + 4, idx + 8, idx + 12) (3, 5, 9, 13) digest) digest
  -- The third loop takes 3 off an index of 2 and so visits the odd ones next.
  let digest := [0, 2, 1, 3].foldl (fun digest idx =>
    mix sumH word (idx, idx + 8, idx + 4, idx + 12) (3, 9, 11, 15) digest) digest
  digest.a + 0x67452301

/-! ## The pool as a circular buffer -/

/-- The pool as a circular buffer. -/
def RandomEntropy.buffer (e : RandomEntropy) : CircularBuffer UInt8 64 := ⟨e.pool, e.index⟩

theorem buffer_add (entropy : UInt32) (e : RandomEntropy) :
    (randomAddEntropy entropy e).buffer = push entropy.toUInt8 e.buffer := by
  have hbyte : (entropy &&& 0xFF).toUInt8 = entropy.toUInt8 := by
    apply UInt8.toNat_inj.mp
    rw [UInt32.toNat_toUInt8, UInt32.toNat_toUInt8, UInt32.toNat_and]
    exact (congrArg (· % 2 ^ 8) (Nat.and_two_pow_sub_one_eq_mod entropy.toNat 8)).trans
      (Nat.mod_mod _ _)
  have hindex : (e.index.val + 1) &&& 63 = (e.index.val + 1) % 64 :=
    Nat.and_two_pow_sub_one_eq_mod _ 6
  unfold RandomEntropy.buffer randomAddEntropy push
  rw [hbyte]
  exact congrArg _ (Fin.ext hindex)

theorem buffer_add_bytes (bytes : List UInt8) (e : RandomEntropy) :
    (addBytes bytes e).buffer = pushAll bytes e.buffer := by
  induction bytes generalizing e with
  | nil => rfl
  | cons byte rest ih =>
      show (addBytes rest (randomAddEntropy byte.toUInt32 e)).buffer = _
      rw [ih, buffer_add, UInt8.toUInt8_toUInt32]
      rfl

end TivaAws.Rng
