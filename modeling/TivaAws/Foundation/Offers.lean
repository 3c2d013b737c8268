import Mathlib.Data.List.Basic

/-!
# Offering something until it is taken

Candidates are asked one after the other until one of them takes what is offered. The answers are
those of a prefix of the candidates, all but the last of them refuse, and if nobody takes it, then
everybody has been asked. The candidates are picked from the entries of a table.
-/

namespace TivaAws.Offers

variable {α β : Type*} {candidates later : List α} {answers others : List (α × Bool)}

/-! ## Candidates -/

section Candidates

variable {p q : α → Prop} {value : α → Option β} {entries : List α} {picked : List β}

/-- The values of the entries with a property, in the order of the entries. Entries without a value
are skipped. -/
inductive Picks (p : α → Prop) (value : α → Option β) : List α → List β → Prop where
  | nil : Picks p value [] []
  | other {x entries picked} :
      ¬ p x → Picks p value entries picked → Picks p value (x :: entries) picked
  | skipped {x entries picked} : p x → value x = none →
      Picks p value entries picked → Picks p value (x :: entries) picked
  | picked {x y entries picked} : p x → value x = some y →
      Picks p value entries picked → Picks p value (x :: entries) (y :: picked)

theorem Picks.congr (h : Picks p value entries picked) (hiff : ∀ x ∈ entries, (p x ↔ q x)) :
    Picks q value entries picked := by
  induction h with
  | nil => exact .nil
  | other hx _ ih =>
      exact .other (mt (hiff _ List.mem_cons_self).mpr hx)
        (ih fun y hy => hiff y (List.mem_cons_of_mem _ hy))
  | skipped hx hvalue _ ih =>
      exact .skipped ((hiff _ List.mem_cons_self).mp hx) hvalue
        (ih fun y hy => hiff y (List.mem_cons_of_mem _ hy))
  | picked hx hvalue _ ih =>
      exact .picked ((hiff _ List.mem_cons_self).mp hx) hvalue
        (ih fun y hy => hiff y (List.mem_cons_of_mem _ hy))

theorem picks_filter (value : α → Option β) (isMatch : α → Bool) (entries : List α) :
    Picks (fun x => isMatch x = true) value entries
      ((entries.filter isMatch).filterMap value) := by
  induction entries with
  | nil => exact .nil
  | cons x entries ih =>
      by_cases hx : isMatch x = true
      · rw [List.filter_cons_of_pos hx]
        cases hvalue : value x with
        | none =>
            rw [List.filterMap_cons_none hvalue]
            exact .skipped hx hvalue ih
        | some y =>
            rw [List.filterMap_cons_some hvalue]
            exact .picked hx hvalue ih
      · rw [List.filter_cons_of_neg hx]
        exact .other hx ih

/-- The entries determine what is picked. -/
theorem Picks.unique {others : List β} (h : Picks p value entries picked)
    (hothers : Picks p value entries others) : others = picked := by
  induction h generalizing others with
  | nil =>
      cases hothers
      rfl
  | other hx _ ih =>
      cases hothers with
      | other _ hrest => exact ih hrest
      | skipped hx' => exact absurd hx' hx
      | picked hx' => exact absurd hx' hx
  | skipped hx hvalue _ ih =>
      cases hothers with
      | other hx' => exact absurd hx hx'
      | skipped _ _ hrest => exact ih hrest
      | picked _ hvalue' => exact absurd (hvalue.symm.trans hvalue') (Option.some_ne_none _).symm
  | picked hx hvalue _ ih =>
      cases hothers with
      | other hx' => exact absurd hx hx'
      | skipped _ hvalue' => exact absurd (hvalue.symm.trans hvalue') (Option.some_ne_none _)
      | picked _ hvalue' hrest =>
          rw [ih hrest, Option.some.inj (hvalue.symm.trans hvalue')]

end Candidates

/-! ## Answers -/

/-- The answers of candidates that are asked until one takes what is offered. -/
inductive Offered : List α → List (α × Bool) → Prop where
  | nil : Offered [] []
  | taken (x : α) (rest : List α) : Offered (x :: rest) [(x, true)]
  | refused (x : α) {rest : List α} {answers : List (α × Bool)} :
      Offered rest answers → Offered (x :: rest) ((x, false) :: answers)

/-- Somebody has taken it. -/
def isTaken (answers : List (α × Bool)) : Bool := answers.any Prod.snd

/-- Nobody further is asked once it is taken. -/
theorem Offered.append_taken (h : Offered candidates answers) (htaken : isTaken answers = true)
    (later : List α) : Offered (candidates ++ later) answers := by
  induction h with
  | nil => cases htaken
  | taken x rest => exact .taken x (rest ++ later)
  | refused x _ ih => exact .refused x (ih htaken)

/-- The next candidates are asked as long as it is not taken. -/
theorem Offered.append (h : Offered candidates answers) (hrefused : isTaken answers = false)
    (hlater : Offered later others) : Offered (candidates ++ later) (answers ++ others) := by
  induction h with
  | nil => exact hlater
  | taken x rest => cases hrefused
  | refused x _ ih => exact .refused x (ih hrefused)

theorem is_taken_append : isTaken (answers ++ others) = (isTaken answers || isTaken others) :=
  List.any_append

/-- Only the first candidates are asked. -/
theorem Offered.asked (h : Offered candidates answers) : answers.map Prod.fst <+: candidates := by
  induction h with
  | nil => exact List.prefix_rfl
  | taken x rest => exact ⟨rest, rfl⟩
  | refused x _ ih => exact List.cons_prefix_cons.mpr ⟨rfl, ih⟩

end TivaAws.Offers
