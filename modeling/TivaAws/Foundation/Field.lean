import Mathlib.Algebra.Group.Nat.Defs
import Mathlib.Data.List.Basic
import Mathlib.Logic.Function.Basic

/-!
# Unambiguous fields

A field writes values as bytes in such a way that the bytes say where they end: two streams that
start with the field and are equal carry the same value and go on alike. A packet is put together
from fields one after the other (`pair`), a field that may be absent (`optional_inj`) and a field
repeated up to the end of the packet (`flatMap_injective`). `word` and `counted` are the 16-bit
number and the byte string with its length in front.
-/

namespace TivaAws

/-- A way to write values that can be read back in front of anything. -/
structure Field (α : Type*) where
  encode : α → List UInt8
  append_inj : ∀ {a b x y}, encode a ++ x = encode b ++ y → a = b ∧ x = y

namespace Field

variable {α β : Type*}

/-- A field of a type that is a part of another one. -/
def along (field : Field β) (part : α → β) (hpart : Function.Injective part) : Field α where
  encode a := field.encode (part a)
  append_inj h :=
    let ⟨heq, hrest⟩ := field.append_inj h
    ⟨hpart heq, hrest⟩

/-- One field after the other. -/
def pair (first : Field α) (second : Field β) : Field (α × β) where
  encode ab := first.encode ab.1 ++ second.encode ab.2
  append_inj h := by
    rw [List.append_assoc, List.append_assoc] at h
    obtain ⟨hfirst, h⟩ := first.append_inj h
    obtain ⟨hsecond, h⟩ := second.append_inj h
    exact ⟨Prod.ext hfirst hsecond, h⟩

/-- A field that is there or not, as something before it says. -/
def optional (field : Field α) (a : Option α) : List UInt8 := a.elim [] field.encode

theorem optional_inj (field : Field α) {a b : Option α} {x y : List UInt8}
    (hpresent : a.isSome = b.isSome) (h : field.optional a ++ x = field.optional b ++ y) :
    a = b ∧ x = y := by
  cases a with
  | none =>
      cases b with
      | none => exact ⟨rfl, h⟩
      | some b => exact absurd hpresent (by simp)
  | some a =>
      cases b with
      | none => exact absurd hpresent (by simp)
      | some b =>
          obtain ⟨rfl, hrest⟩ := field.append_inj h
          exact ⟨rfl, hrest⟩

/-- A field that takes at least one byte can be repeated up to the end. -/
theorem flatMap_injective (field : Field α) (hne : ∀ a, field.encode a ≠ []) :
    Function.Injective fun as : List α => as.flatMap field.encode := by
  intro as
  induction as with
  | nil =>
      intro bs h
      cases bs with
      | nil => rfl
      | cons b bs => exact absurd (List.append_eq_nil_iff.mp h.symm).1 (hne b)
  | cons a as ih =>
      intro bs h
      cases bs with
      | nil => exact absurd (List.append_eq_nil_iff.mp h).1 (hne a)
      | cons b bs =>
          obtain ⟨rfl, hrest⟩ := field.append_inj h
          rw [ih hrest]

/-! ## Bytes, numbers and strings -/

/-- A byte. -/
def byte : Field UInt8 where
  encode b := [b]
  append_inj h :=
    let ⟨heq, hrest⟩ := List.cons.inj h
    ⟨heq, hrest⟩

/-- The two bytes of a number below `2 ^ 16`, the most significant one first. -/
def bigEndian (n : Nat) : List UInt8 := [UInt8.ofNat (n >>> 8), UInt8.ofNat n]

theorem big_endian_append_inj {m n : Nat} (hm : m < 2 ^ 16) (hn : n < 2 ^ 16)
    {x y : List UInt8} (h : bigEndian m ++ x = bigEndian n ++ y) : m = n ∧ x = y := by
  obtain ⟨hhigh, h⟩ := List.cons.inj h
  obtain ⟨hlow, hrest⟩ := List.cons.inj h
  have hhigh := congrArg UInt8.toNat hhigh
  have hlow := congrArg UInt8.toNat hlow
  rw [UInt8.toNat_ofNat', UInt8.toNat_ofNat', Nat.shiftRight_eq_div_pow,
    Nat.shiftRight_eq_div_pow] at hhigh
  rw [UInt8.toNat_ofNat', UInt8.toNat_ofNat'] at hlow
  exact ⟨by omega, hrest⟩

/-- A 16-bit number. -/
def word : Field UInt16 where
  encode n := bigEndian n.toNat
  append_inj h :=
    let ⟨heq, hrest⟩ := big_endian_append_inj (UInt16.toNat_lt _) (UInt16.toNat_lt _) h
    ⟨UInt16.toNat_inj.mp heq, hrest⟩

@[simp] theorem length_word_encode (n : UInt16) : (word.encode n).length = 2 := rfl

/-- The bytes of a 16-bit number, cut out with a shift. -/
theorem word_encode (n : UInt16) : word.encode n = [(n >>> 8).toUInt8, n.toUInt8] := by
  have hlow : UInt8.ofNat n.toNat = n.toUInt8 := by
    apply UInt8.toNat_inj.mp
    rw [UInt8.toNat_ofNat', UInt16.toNat_toUInt8]
  have hhigh : UInt8.ofNat (n.toNat >>> 8) = (n >>> 8).toUInt8 := by
    apply UInt8.toNat_inj.mp
    rw [UInt8.toNat_ofNat', UInt16.toNat_toUInt8, UInt16.toNat_shiftRight]
    rfl
  show [_, _] = _
  rw [hlow, hhigh]

/-- A byte string with its length in front. -/
def counted : Field {bytes : List UInt8 // bytes.length < 2 ^ 16} where
  encode bytes := bigEndian bytes.val.length ++ bytes.val
  append_inj := by
    intro a b x y h
    rw [List.append_assoc, List.append_assoc] at h
    obtain ⟨hlength, h⟩ := big_endian_append_inj a.property b.property h
    obtain ⟨heq, hrest⟩ := List.append_inj h hlength
    exact ⟨Subtype.ext heq, hrest⟩

end Field

end TivaAws
