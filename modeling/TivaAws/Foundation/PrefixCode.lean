import Mathlib.Data.List.Infix

/-!
# Prefix codes

A language is a prefix code if no word is a proper prefix of another. A stream over a prefix code
(`Concatenation`) can be read in one way only: from the front of a stream a word can be taken off
(`Concatenation.drop_word`), and a stream that ends inside a word is not a stream of whole words
(`not_concatenation_of_prefix`).
-/

namespace TivaAws.PrefixCode

variable {α : Type*}

/-- No word is a proper prefix of another, and no word is empty. -/
structure IsPrefixCode (Word : List α → Prop) : Prop where
  eq_of_prefix : ∀ {u v}, Word u → Word v → u <+: v → u = v
  ne_nil : ∀ {u}, Word u → u ≠ []

/-- The stream is a sequence of whole words. -/
def Concatenation (Word : List α → Prop) (stream : List α) : Prop :=
  ∃ words : List (List α), (∀ word ∈ words, Word word) ∧ stream = words.flatten

variable {Word : List α → Prop} {stream word rest : List α}

theorem concatenation_word (h : Word word) : Concatenation Word word :=
  ⟨[word], by simpa using h, by simp⟩

/-- A word at the end of a stream makes a longer stream. -/
theorem Concatenation.append_word (h : Concatenation Word stream) (hword : Word word) :
    Concatenation Word (stream ++ word) := by
  obtain ⟨words, hwords, rfl⟩ := h
  refine ⟨words ++ [word], ?_, by simp⟩
  intro other hother
  rcases List.mem_append.mp hother with hother | hother
  · exact hwords other hother
  · rw [List.mem_singleton.mp hother]
    exact hword

/-- Two streams that are equal start with the same word. -/
theorem IsPrefixCode.eq_of_append_eq (hcode : IsPrefixCode Word) {u v x y : List α}
    (hu : Word u) (hv : Word v) (h : u ++ x = v ++ y) : u = v ∧ x = y := by
  have heq : u = v := by
    rcases List.prefix_or_prefix_of_prefix ⟨x, h⟩ ⟨y, rfl⟩ with hstarts | hstarts
    · exact hcode.eq_of_prefix hu hv hstarts
    · exact (hcode.eq_of_prefix hv hu hstarts).symm
  subst heq
  exact ⟨rfl, List.append_cancel_left h⟩

/-- What follows a word in a stream is a stream. -/
theorem Concatenation.drop_word (hcode : IsPrefixCode Word) (hword : Word word)
    (h : Concatenation Word (word ++ rest)) : Concatenation Word rest := by
  obtain ⟨words, hwords, heq⟩ := h
  cases words with
  | nil =>
      have hnil : word = [] := (List.append_eq_nil_iff.mp heq).1
      exact absurd hnil (hcode.ne_nil hword)
  | cons first others =>
      obtain ⟨-, hrest⟩ := hcode.eq_of_append_eq hword
        (hwords first List.mem_cons_self) (heq.trans List.flatten_cons)
      exact ⟨others, fun other hother => hwords other (List.mem_cons_of_mem _ hother), hrest⟩

/-- A proper nonempty prefix of a word is not a stream of whole words. -/
theorem not_concatenation_of_prefix (hcode : IsPrefixCode Word) (hword : Word word)
    (hstarts : rest <+: word) (hne : rest ≠ []) (hproper : rest ≠ word) :
    ¬ Concatenation Word rest := by
  rintro ⟨words, hwords, heq⟩
  cases words with
  | nil => exact hne heq
  | cons first others =>
      rw [List.flatten_cons] at heq
      have hfirst : first <+: rest := ⟨others.flatten, heq.symm⟩
      have hsame := hcode.eq_of_prefix (hwords first List.mem_cons_self) hword
        (hfirst.trans hstarts)
      exact hproper (hstarts.eq_of_length_le (hsame ▸ hfirst.length_le))

end TivaAws.PrefixCode
