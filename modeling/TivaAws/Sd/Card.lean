import TivaAws.Foundation.Lines
import TivaAws.Sd.Outcomes

/-!
# A card with faults

FatFs as far as `UpdateFile` needs it, on a card that holds the contents of files and on which given
steps fail. What is written to a file object is on the card once the object is closed. `f_gets` and
`f_puts` go byte by byte; a byte that cannot be read or written is not read or written by any later
call either, as the file pointer stays where it is.
-/

namespace TivaAws.Sd

open Lines

/-! ## Model -/

/-- An open file object: its path, the bytes of the file as it sees them, `fptr`, and whether
`FA__WRITTEN` is set. -/
structure Handle where
  path : Path
  data : List UInt8
  fptr : ℕ
  written : Bool

/-- The files on the card and the open file objects. -/
structure Card where
  files : Path → Option (List UInt8)
  handle : FileObject → Option Handle

/-- The steps that fail: opening or closing a file object, reading or writing the byte at a position
of a file, deleting and renaming. -/
structure Faults where
  openFails : FileObject → Bool
  closeFails : FileObject → Bool
  readFails : ℕ → Bool
  writeFails : ℕ → Bool
  unlinkFails : Bool
  renameFails : Bool

def Card.setFile (path : Path) (content : Option (List UInt8)) (card : Card) : Card :=
  { card with files := Function.update card.files path content }

def Card.setHandle (fp : FileObject) (handle : Option Handle) (card : Card) : Card :=
  { card with handle := Function.update card.handle fp handle }

/-- `f_open` with `FA_CREATE_ALWAYS`, or else of an existing file. -/
def fOpen (faults : Faults) (fp : FileObject) (path : Path) (mode : UInt8) (card : Card) :
    FResult × Card :=
  if faults.openFails fp then (.diskErr, card.setHandle fp none)
  else if mode &&& faCreateAlways ≠ 0 then
    (.ok, (card.setFile path (some [])).setHandle fp (some ⟨path, [], 0, true⟩))
  else
    match card.files path with
    | none => (.noFile, card.setHandle fp none)
    | some content => (.ok, card.setHandle fp (some ⟨path, content, 0, false⟩))

/-- `f_close`. The directory entry and the last sector are written by `f_sync`. -/
def fClose (faults : Faults) (fp : FileObject) (card : Card) : FResult × Card :=
  match card.handle fp with
  | none => (.invalidObject, card)
  | some handle =>
      if faults.closeFails fp then (.diskErr, card)
      else (.ok, (if handle.written then card.setFile handle.path (some handle.data)
        else card).setHandle fp none)

/-- The loop of `f_gets`, with room for so many bytes. -/
def getsLoop (faults : Faults) : ℕ → Handle → List UInt8 × Handle
  | 0, handle => ([], handle)
  | room + 1, handle =>
      match handle.data[handle.fptr]? with
      | none => ([], handle)
      | some c =>
          if faults.readFails handle.fptr then ([], handle)
          else
            let next := { handle with fptr := handle.fptr + 1 }
            if c = '\n'.toUInt8 then ([c], next)
            else
              let rest := getsLoop faults room next
              (c :: rest.1, rest.2)

/-- `f_puts`, with what it returns. -/
def putsLoop (faults : Faults) : ℕ → List UInt8 → Handle → Option ℕ × Handle
  | n, [], handle => (some n, handle)
  | n, c :: str, handle =>
      if faults.writeFails handle.fptr then (none, handle)
      else
        putsLoop faults (n + 1) str
          { handle with
            data := handle.data.take handle.fptr ++ c :: handle.data.drop (handle.fptr + 1)
            fptr := handle.fptr + 1 }

theorem gets_loop_length (faults : Faults) (room : ℕ) (handle : Handle) :
    (getsLoop faults room handle).1.length ≤ room := by
  induction room generalizing handle with
  | zero => exact Nat.le_refl _
  | succ room ih =>
      rw [getsLoop]
      split
      · exact Nat.zero_le _
      · split_ifs
        · exact Nat.zero_le _
        · exact Nat.succ_le_succ (Nat.zero_le _)
        · exact Nat.succ_le_succ (ih _)

/-- `f_gets`. -/
def fGets (faults : Faults) (fp : FileObject) (len : ℕ) (card : Card) : Line len × Card :=
  match card.handle fp with
  | none => (⟨[], Nat.zero_le _⟩, card)
  | some handle =>
      (⟨(getsLoop faults (len - 1) handle).1, gets_loop_length faults (len - 1) handle⟩,
        card.setHandle fp (some (getsLoop faults (len - 1) handle).2))

/-- `f_puts`. -/
def fPuts (faults : Faults) (fp : FileObject) (str : List UInt8) (card : Card) :
    Option ℕ × Card :=
  match card.handle fp with
  | none => (if str = [] then some 0 else none, card)
  | some handle =>
      ((putsLoop faults 0 str handle).1,
        card.setHandle fp (some (putsLoop faults 0 str handle).2))

/-- `f_unlink`. -/
def fUnlink (faults : Faults) (path : Path) (card : Card) : FResult × Card :=
  if faults.unlinkFails then (.diskErr, card)
  else if card.files path = none then (.noFile, card)
  else (.ok, card.setFile path none)

/-- `f_rename`. -/
def fRename (faults : Faults) (pathOld pathNew : Path) (card : Card) : FResult × Card :=
  if faults.renameFails then (.diskErr, card)
  else
    match card.files pathOld with
    | none => (.noFile, card)
    | some content =>
        if card.files pathNew = none then
          (.ok, (card.setFile pathOld none).setFile pathNew (some content))
        else (.exist, card)

/-- FatFs on a card. The calls that `UpdateFile` does not make answer that there is no such
function. -/
def cardFat (faults : Faults) : FatFs Card where
  answer
    | .fOpen fp path mode, card => fOpen faults fp path mode card
    | .fClose fp, card => fClose faults fp card
    | .fGets fp len, card => fGets faults fp len card
    | .fPuts fp str, card => fPuts faults fp str card
    | .fUnlink path, card => fUnlink faults path card
    | .fRename pathOld pathNew, card => fRename faults pathOld pathNew card
    | .fRead _ _, card => (⟨.notEnabled, [], Nat.zero_le _⟩, card)
    | .fWrite _ _, card => (⟨.notEnabled, 0, Nat.zero_le _⟩, card)
    | .fPrintf _ _, card => (none, card)
    | .fLseek _ _, card | .fMkdir _, card | .fChdir _, card => (FResult.notEnabled, card)
  object card fp :=
    match card.handle fp with
    | none => ⟨0, 0⟩
    | some handle => ⟨handle.data.length, handle.fptr⟩

/-! ## Reading and writing -/

section Loops

variable {faults : Faults} {handle : Handle}

/-- Reading changes nothing but the file pointer. -/
theorem gets_loop_handle (faults : Faults) (room : ℕ) (handle : Handle) :
    (getsLoop faults room handle).2 =
      { handle with fptr := (getsLoop faults room handle).2.fptr } := by
  induction room generalizing handle with
  | zero => rfl
  | succ room ih =>
      rw [getsLoop]
      split
      · rfl
      · split_ifs
        · rfl
        · rfl
        · rw [ih]

/-- If what is left can be read, then a piece of it is read. -/
theorem gets_loop_eq (room : ℕ)
    (hreads : ∀ pos, handle.fptr ≤ pos → pos < handle.data.length → faults.readFails pos = false) :
    getsLoop faults room handle =
      ((takePiece '\n'.toUInt8 room (handle.data.drop handle.fptr)).1,
        { handle with fptr := handle.fptr +
          (takePiece '\n'.toUInt8 room (handle.data.drop handle.fptr)).1.length }) := by
  induction room generalizing handle with
  | zero => rfl
  | succ room ih =>
      rw [getsLoop]
      by_cases hend : handle.fptr < handle.data.length
      · rw [List.getElem?_eq_getElem hend, List.drop_eq_getElem_cons hend, takePiece]
        simp only [hreads _ (Nat.le_refl _) hend, Bool.false_eq_true, if_false]
        split_ifs with hstop
        · rw [hstop]
          rfl
        · have hrest := @ih { handle with fptr := handle.fptr + 1 }
            fun pos hpos => hreads pos (Nat.le_of_succ_le hpos)
          rw [hrest]
          simp only [List.length_cons, Nat.add_assoc, Nat.add_comm 1]
      · rw [List.getElem?_eq_none (Nat.le_of_not_lt hend),
          List.drop_eq_nil_of_le (Nat.le_of_not_lt hend)]
        rfl

/-- No read goes past a byte that cannot be read. -/
theorem gets_loop_fptr_le {pos : ℕ} (room : ℕ) (hfails : faults.readFails pos = true)
    (hle : handle.fptr ≤ pos) : (getsLoop faults room handle).2.fptr ≤ pos := by
  induction room generalizing handle with
  | zero => exact hle
  | succ room ih =>
      rw [getsLoop]
      split
      · exact hle
      · split_ifs with hread hstop
        · exact hle
        all_goals
          have hne : handle.fptr ≠ pos := fun h => hread (h ▸ hfails)
          have hlt : handle.fptr + 1 ≤ pos := by omega
        · exact hlt
        · exact @ih { handle with fptr := handle.fptr + 1 } hlt

/-- What is put at the end of a file is kept up to the first byte that cannot be written. -/
theorem puts_loop_eq (n : ℕ) (str : List UInt8) (hend : handle.fptr = handle.data.length) :
    putsLoop faults n str handle =
      (if keep faults.writeFails handle.fptr str = str then some (n + str.length) else none,
        { handle with
          data := handle.data ++ keep faults.writeFails handle.fptr str
          fptr := handle.fptr + (keep faults.writeFails handle.fptr str).length }) := by
  induction str generalizing n handle with
  | nil => simp [putsLoop, keep]
  | cons c str ih =>
      rw [putsLoop, keep]
      by_cases hblocked : faults.writeFails handle.fptr = true
      · rw [if_pos hblocked, if_pos hblocked, if_neg (List.cons_ne_nil c str).symm]
        simp
      · have hdata : handle.data.take handle.fptr ++ c :: handle.data.drop (handle.fptr + 1) =
            handle.data ++ [c] := by
          rw [List.take_of_length_le (by omega), List.drop_eq_nil_of_le (by omega)]
        rw [if_neg hblocked, if_neg hblocked, hdata]
        rw [@ih { handle with data := handle.data ++ [c], fptr := handle.fptr + 1 } (n + 1)
          (by simp [hend])]
        simp [Nat.add_assoc, Nat.add_comm 1]

end Loops

/-! ## Calls with an open file object -/

section Handles

variable {faults : Faults} {fp : FileObject} {handle : Handle} {card : Card}

theorem f_gets_eq (len : ℕ) (h : card.handle fp = some handle) :
    (fGets faults fp len card).1.buff = (getsLoop faults (len - 1) handle).1 ∧
      (fGets faults fp len card).2 =
        card.setHandle fp (some (getsLoop faults (len - 1) handle).2) := by
  simp only [fGets, h, and_self]

theorem f_puts_eq (str : List UInt8) (h : card.handle fp = some handle) :
    fPuts faults fp str card = ((putsLoop faults 0 str handle).1,
      card.setHandle fp (some (putsLoop faults 0 str handle).2)) := by
  simp only [fPuts, h]

@[simp] theorem set_handle_files (handle : Option Handle) :
    (card.setHandle fp handle).files = card.files := rfl

@[simp] theorem set_handle_same (handle : Option Handle) :
    (card.setHandle fp handle).handle fp = handle := Function.update_self ..

theorem set_handle_other {fp' : FileObject} (handle : Option Handle) (h : fp' ≠ fp) :
    (card.setHandle fp handle).handle fp' = card.handle fp' := Function.update_of_ne h ..

/-- Reading a line leaves the files as they are. -/
theorem f_gets_files (len : ℕ) : (fGets faults fp len card).2.files = card.files := by
  unfold fGets
  split <;> rfl

/-- Putting a string leaves the files and the other file object as they are. -/
theorem f_puts_files (str : List UInt8) : (fPuts faults fp str card).2.files = card.files := by
  unfold fPuts
  split <;> rfl

theorem f_puts_other {fp' : FileObject} (str : List UInt8) (h : fp' ≠ fp) :
    (fPuts faults fp str card).2.handle fp' = card.handle fp' := by
  unfold fPuts
  split
  · rfl
  · exact set_handle_other _ h

/-- A file that has not been written is closed. -/
theorem f_close_read (h : card.handle fp = some handle) (hread : handle.written = false) :
    (fClose faults fp card).2.files = card.files ∧
      ∀ fp' ≠ fp, (fClose faults fp card).2.handle fp' = card.handle fp' := by
  simp only [fClose, h]
  split_ifs with hfails hwritten
  · exact ⟨rfl, fun _ _ => rfl⟩
  · rw [hread] at hwritten
    cases hwritten
  · exact ⟨rfl, fun fp' hne => set_handle_other _ hne⟩

/-- A file that has been written is closed. -/
theorem f_close_written (h : card.handle fp = some handle) (hwritten : handle.written = true) :
    (fClose faults fp card).1 = (if faults.closeFails fp then .diskErr else .ok) ∧
      (fClose faults fp card).2.files = if faults.closeFails fp then card.files
        else Function.update card.files handle.path (some handle.data) := by
  simp only [fClose, h]
  split_ifs with hfails
  · exact ⟨rfl, rfl⟩
  · exact ⟨rfl, rfl⟩

theorem object_eq (h : card.handle fp = some handle) :
    (cardFat faults).object card fp = ⟨handle.data.length, handle.fptr⟩ := by
  simp only [cardFat, h]

end Handles

end TivaAws.Sd
