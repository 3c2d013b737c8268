import Mathlib.Data.List.Basic

/-!
# Lines and pieces

`lines` cuts a list behind each terminator. `pieces` cuts it as a reader with a bounded buffer does,
behind each terminator and where the buffer is full. If every line fits into the buffer, then the
pieces are the lines (`pieces_eq_lines`). `keep` is what is left of a list that is written from a
position on, up to the first position that cannot be written.
-/

namespace TivaAws.Lines

variable {α : Type*}

/-! ## Cutting a list -/

section Cutting

variable [DecidableEq α] {stop : α}

/-- The lines of a list, with their terminators. -/
def lines (stop : α) : List α → List (List α)
  | [] => []
  | x :: xs =>
      if x = stop then [x] :: lines stop xs
      else
        match lines stop xs with
        | [] => [[x]]
        | line :: rest => (x :: line) :: rest

/-- The first piece, which ends with the terminator or at the limit, and what is behind it. -/
def takePiece (stop : α) : ℕ → List α → List α × List α
  | 0, xs => ([], xs)
  | _ + 1, [] => ([], [])
  | limit + 1, x :: xs =>
      if x = stop then ([x], xs)
      else (x :: (takePiece stop limit xs).1, (takePiece stop limit xs).2)

theorem take_piece_append (limit : ℕ) (xs : List α) :
    (takePiece stop limit xs).1 ++ (takePiece stop limit xs).2 = xs := by
  fun_induction takePiece stop limit xs with
  | case1 | case2 => rfl
  | case3 => rfl
  | case4 limit x xs hx ih => exact congrArg (x :: ·) ih

/-- If there is something to take, then something is taken. -/
theorem take_piece_ne_nil {limit : ℕ} {xs : List α} (h : xs ≠ []) :
    (takePiece stop (limit + 1) xs).1 ≠ [] := by
  cases xs with
  | nil => exact absurd rfl h
  | cons x xs =>
      rw [takePiece]
      split_ifs
      · exact List.cons_ne_nil _ _
      · exact List.cons_ne_nil _ _

theorem take_piece_shorter {limit : ℕ} {xs : List α} (h : xs ≠ []) :
    (takePiece stop (limit + 1) xs).2.length < xs.length := by
  have happend := congrArg List.length (@take_piece_append _ _ stop (limit + 1) xs)
  have hpos := List.length_pos_iff.mpr (@take_piece_ne_nil _ _ stop limit xs h)
  rw [List.length_append] at happend
  omega

/-- A piece ends with the terminator, at the limit or with the list. -/
theorem take_piece_ends (limit : ℕ) (xs : List α) :
    (takePiece stop limit xs).1.getLast? = some stop ∨ (takePiece stop limit xs).1.length = limit ∨
      (takePiece stop limit xs).2 = [] := by
  fun_induction takePiece stop limit xs with
  | case1 xs => exact Or.inr (Or.inl rfl)
  | case2 => exact Or.inr (Or.inr rfl)
  | case3 => exact Or.inl rfl
  | case4 limit x xs hx ih =>
      obtain hlast | hlength | hrest := ih
      · left
        rw [List.getLast?_cons, hlast]
        rfl
      · exact Or.inr (Or.inl (congrArg (· + 1) hlength))
      · exact Or.inr (Or.inr hrest)

/-- The pieces of a list, of one element more than the limit at most. -/
def pieces (stop : α) (limit : ℕ) (xs : List α) : List (List α) :=
  if h : xs = [] then []
  else
    (takePiece stop (limit + 1) xs).1 :: pieces stop limit (takePiece stop (limit + 1) xs).2
termination_by xs.length
decreasing_by exact take_piece_shorter h

theorem pieces_nil {limit : ℕ} : pieces stop limit [] = [] := by
  rw [pieces, dif_pos rfl]

theorem pieces_of_ne_nil {limit : ℕ} {xs : List α} (h : xs ≠ []) :
    pieces stop limit xs =
      (takePiece stop (limit + 1) xs).1 :: pieces stop limit (takePiece stop (limit + 1) xs).2 := by
  rw [pieces, dif_neg h]

theorem pieces_ne_nil {limit : ℕ} {xs : List α} (h : xs ≠ []) : pieces stop limit xs ≠ [] := by
  rw [pieces_of_ne_nil h]
  exact List.cons_ne_nil _ _

theorem pieces_flatten {limit : ℕ} (xs : List α) : (pieces stop limit xs).flatten = xs := by
  fun_induction pieces stop limit xs with
  | case1 => rfl
  | case2 xs hne ih => rw [List.flatten_cons, ih, take_piece_append]

theorem piece_ne_nil {limit : ℕ} {xs piece : List α} (h : piece ∈ pieces stop limit xs) :
    piece ≠ [] := by
  fun_induction pieces stop limit xs with
  | case1 => cases h
  | case2 xs hne ih =>
      obtain rfl | hmem := List.mem_cons.mp h
      · exact take_piece_ne_nil hne
      · exact ih hmem

theorem lines_flatten (xs : List α) : (lines stop xs).flatten = xs := by
  fun_induction lines stop xs with
  | case1 => rfl
  | case2 xs ih => exact congrArg (stop :: ·) ih
  | case3 x xs hx hlines ih =>
      rw [hlines] at ih
      rw [← ih]
      rfl
  | case4 x xs hx line rest hlines ih =>
      rw [hlines] at ih
      exact congrArg (x :: ·) ih

theorem lines_ne_nil {xs : List α} (h : xs ≠ []) : lines stop xs ≠ [] := by
  intro hlines
  exact h (by rw [← @lines_flatten _ _ stop xs, hlines, List.flatten_nil])

theorem line_ne_nil {xs line : List α} (h : line ∈ lines stop xs) : line ≠ [] := by
  fun_induction lines stop xs with
  | case1 => cases h
  | case2 xs ih =>
      obtain rfl | hmem := List.mem_cons.mp h
      · exact List.cons_ne_nil _ _
      · exact ih hmem
  | case3 x xs hx hlines ih =>
      rw [List.mem_singleton.mp h]
      exact List.cons_ne_nil _ _
  | case4 x xs hx first rest hlines ih =>
      obtain rfl | hmem := List.mem_cons.mp h
      · exact List.cons_ne_nil _ _
      · rw [hlines] at ih
        exact ih (List.mem_cons_of_mem _ hmem)

/-- What belongs to a line belongs to the list. -/
theorem mem_of_mem_line {xs line : List α} {x : α} (hline : line ∈ lines stop xs) (hx : x ∈ line) :
    x ∈ xs := by
  rw [← @lines_flatten _ _ stop xs]
  exact List.mem_flatten.mpr ⟨line, hline, hx⟩

/-- The first line is the first piece if the limit allows it. -/
theorem lines_take_piece {xs : List α} (h : xs ≠ []) :
    ∃ line rest, lines stop xs = line :: lines stop rest ∧
      ∀ limit, line.length ≤ limit → takePiece stop limit xs = (line, rest) := by
  induction xs with
  | nil => exact absurd rfl h
  | cons x xs ih =>
      by_cases hx : x = stop
      · refine ⟨[x], xs, by rw [lines, if_pos hx], fun limit hlimit => ?_⟩
        obtain ⟨limit, rfl⟩ := Nat.exists_eq_add_of_le' hlimit
        exact if_pos hx
      · by_cases hxs : xs = []
        · subst hxs
          refine ⟨[x], [], if_neg hx, fun limit hlimit => ?_⟩
          obtain ⟨limit, rfl⟩ := Nat.exists_eq_add_of_le' hlimit
          show takePiece stop (limit + 1) [x] = _
          rw [takePiece, if_neg hx]
          cases limit <;> rfl
        · obtain ⟨line, rest, hlines, htake⟩ := ih hxs
          refine ⟨x :: line, rest, by rw [lines, if_neg hx, hlines], fun limit hlimit => ?_⟩
          obtain ⟨limit, rfl⟩ : ∃ less, limit = less + 1 := by
            refine ⟨limit - 1, ?_⟩
            rw [List.length_cons] at hlimit
            omega
          rw [takePiece, if_neg hx, htake limit (Nat.le_of_succ_le_succ hlimit)]

/-- If every line fits, then the pieces are the lines. -/
theorem pieces_eq_lines {limit : ℕ} {xs : List α}
    (h : ∀ line ∈ lines stop xs, line.length ≤ limit + 1) :
    pieces stop limit xs = lines stop xs := by
  fun_induction pieces stop limit xs with
  | case1 => rfl
  | case2 xs hxs ih =>
      obtain ⟨line, rest, hlines, htake⟩ := lines_take_piece hxs
      rw [hlines] at h
      obtain ⟨hline, hrest⟩ := List.forall_mem_cons.mp h
      rw [htake _ hline] at ih ⊢
      rw [hlines, ih hrest]

end Cutting

/-! ## Writing up to a position -/

section Keeping

variable {blocked : ℕ → Bool} {pos : ℕ} {xs ys : List α}

/-- What is written of a list from a position on, up to the first one that is blocked. -/
def keep (blocked : ℕ → Bool) : ℕ → List α → List α
  | _, [] => []
  | pos, x :: xs => if blocked pos then [] else x :: keep blocked (pos + 1) xs

theorem keep_initial : keep blocked pos xs <+: xs := by
  fun_induction keep blocked pos xs with
  | case1 => exact List.prefix_rfl
  | case2 => exact List.nil_prefix
  | case3 pos x xs hpos ih => exact List.cons_prefix_cons.mpr ⟨rfl, ih⟩

/-- What is not written in full is shorter. -/
theorem keep_length_lt (h : keep blocked pos xs ≠ xs) :
    (keep blocked pos xs).length < xs.length := by
  refine Nat.lt_of_le_of_ne keep_initial.length_le fun hlength => h ?_
  exact keep_initial.eq_of_length hlength

/-- One list after the other is written as both together. -/
theorem keep_append : keep blocked pos (xs ++ ys) =
    keep blocked pos xs ++ keep blocked (pos + (keep blocked pos xs).length) ys := by
  induction xs generalizing pos with
  | nil => rfl
  | cons x xs ih =>
      rw [List.cons_append, keep, keep]
      split_ifs with hpos
      · -- Nothing can be written behind a position that is blocked.
        cases ys with
        | nil => rfl
        | cons y ys =>
            rw [List.nil_append, List.length_nil, Nat.add_zero, keep, if_pos hpos]
      · rw [ih, List.cons_append, List.length_cons, Nat.add_assoc, Nat.add_comm 1]

/-- Both lists are written in full just when they are so together. -/
theorem keep_append_eq_iff : keep blocked pos (xs ++ ys) = xs ++ ys ↔
    keep blocked pos xs = xs ∧ keep blocked (pos + (keep blocked pos xs).length) ys = ys := by
  rw [keep_append]
  constructor
  · intro h
    have hlength := congrArg List.length h
    rw [List.length_append, List.length_append] at hlength
    have hxs := (@keep_initial _ blocked pos xs).length_le
    have hys := (@keep_initial _ blocked (pos + (keep blocked pos xs).length) ys).length_le
    exact ⟨keep_initial.eq_of_length (by omega), keep_initial.eq_of_length (by omega)⟩
  · intro ⟨hxs, hys⟩
    rw [hys, hxs]

end Keeping

end TivaAws.Lines
