import Mathlib.Data.ENat.Basic
import Mathlib.Algebra.BigOperators.Group.List.Basic

/-!
# Delays within limits

One blocking call after the other, each with a limit on how long it may take; `⊤` is no limit. Every
time up to the sum of the limits is the sum of some delays, so a bound that holds whatever the calls
take is one on the sum of the limits.
-/

namespace TivaAws.Delays

variable {limits : List ℕ∞} {delays : List ℕ} {total : ℕ} {bound : ℕ∞}

/-- Every delay is within its limit. -/
def Within (limits : List ℕ∞) (delays : List ℕ) : Prop :=
  List.Forall₂ (fun (delay : ℕ) (limit : ℕ∞) => (delay : ℕ∞) ≤ limit) delays limits

theorem Within.sum_le (h : Within limits delays) : (delays.sum : ℕ∞) ≤ limits.sum := by
  induction h with
  | nil => exact le_refl 0
  | @cons delay limit delays limits hdelay _ ih =>
      rw [List.sum_cons, List.sum_cons, Nat.cast_add]
      exact add_le_add hdelay ih

/-- A time up to a sum is one up to the first summand and one up to the second. -/
theorem split_le {first second : ℕ∞} (h : (total : ℕ∞) ≤ first + second) :
    ∃ n m : ℕ, n + m = total ∧ (n : ℕ∞) ≤ first ∧ (m : ℕ∞) ≤ second := by
  cases first with
  | top => exact ⟨total, 0, rfl, le_top, zero_le⟩
  | coe first =>
      by_cases htotal : total ≤ first
      · exact ⟨total, 0, rfl, Nat.cast_le.mpr htotal, zero_le⟩
      · refine ⟨first, total - first, by omega, le_refl _, ?_⟩
        cases second with
        | top => exact le_top
        | coe second =>
            have hle : total ≤ first + second := by exact_mod_cast h
            exact Nat.cast_le.mpr (by omega)

/-- The sums of delays within the limits. -/
theorem exists_within_iff :
    (∃ delays, Within limits delays ∧ delays.sum = total) ↔ (total : ℕ∞) ≤ limits.sum := by
  constructor
  · rintro ⟨delays, hwithin, rfl⟩
    exact hwithin.sum_le
  · intro h
    induction limits generalizing total with
    | nil =>
        have hzero : total = 0 := by simpa using h
        exact ⟨[], .nil, hzero.symm⟩
    | cons limit rest ih =>
        rw [List.sum_cons] at h
        obtain ⟨delay, later, htotal, hdelay, hlater⟩ := split_le h
        obtain ⟨delays, hwithin, hsum⟩ := ih hlater
        refine ⟨delay :: delays, .cons hdelay hwithin, ?_⟩
        rw [List.sum_cons, hsum, htotal]

/-- A bound on what the calls take together. -/
theorem forall_within_iff :
    (∀ delays, Within limits delays → (delays.sum : ℕ∞) ≤ bound) ↔ limits.sum ≤ bound := by
  constructor
  · intro h
    refine ENat.forall_natCast_le_iff_le.mp fun total htotal => ?_
    obtain ⟨delays, hwithin, rfl⟩ := exists_within_iff.mpr htotal
    exact h delays hwithin
  · exact fun h delays hwithin => hwithin.sum_le.trans h

end TivaAws.Delays
