import Mathlib.Data.List.TakeWhile
import Mathlib.Data.List.Infix
import TivaAws.Sd.Card

/-!
# Updating a file

`UpdateFile` on a card with faults: the content that it is to leave, what its loop puts into the
temporary file, and when the file is updated or its old content kept (`update_kept_iff`).
-/

namespace TivaAws.Sd

open Lines

/-! ## What is asked of an update -/

def newline : UInt8 := '\n'.toUInt8

/-- A line is the string as a whole, or it begins with so many characters of it. -/
def matchesString (stringToUpdate : List UInt8) (stringSize : ℕ) (line : List UInt8) : Bool :=
  if stringSize = 0 then line == cString stringToUpdate
  else line.take stringSize == (cString stringToUpdate).take stringSize

/-- The content of a file with its matching lines replaced. -/
def updatedContent (stringToUpdate updatedString : List UInt8) (stringSize : ℕ)
    (content : List UInt8) : List UInt8 :=
  (lines newline content).flatMap fun line =>
    if matchesString stringToUpdate stringSize line then cString updatedString else line

/-- A step of reading, writing, deleting or renaming that fails. What is written to the temporary
file is written when it is closed, too. -/
def Event.StepFails : Event → Prop
  | .call (.fOpen _ _ _) _ _ | .call (.fClose .fileObj) _ _ | .access _ _ => False
  | event => ¬ event.Full

/-- The content is on the card, under the name of the file or of the temporary file. -/
def Kept (srcFileName : Path) (content : List UInt8) (card : Card) : Prop :=
  card.files srcFileName = some content ∨ card.files temporary = some content

/-- A call of `UpdateFile` that reports success has updated the file, and if a step fails, then the
old content is on the card when the call returns, or all the time if it never does. -/
structure UpdateKept (faults : Faults) (srcFileName : Path)
    (stringToUpdate updatedString : List UInt8) (stringSize : BitVec 32) (content : List UInt8)
    (s : SdState Card) : Prop where
  updated : ∀ turns s', (Operation.updateFile srcFileName stringToUpdate updatedString
      stringSize).run (cardFat faults) turns s = (some .fileCopied, s') →
    s'.card.files srcFileName =
      some (updatedContent stringToUpdate updatedString stringSize.toNat content)
  kept : ∀ turns code s', (Operation.updateFile srcFileName stringToUpdate updatedString
      stringSize).run (cardFat faults) turns s = (some code, s') →
    (∃ event ∈ s'.log, event.StepFails) → Kept srcFileName content s'.card
  running : (∀ turns, ((Operation.updateFile srcFileName stringToUpdate updatedString
      stringSize).run (cardFat faults) turns s).1 = none) →
    ∀ turns, Kept srcFileName content ((Operation.updateFile srcFileName stringToUpdate
      updatedString stringSize).run (cardFat faults) turns s).2.card

/-! ## What the loop puts -/

/-- What is put for a piece. -/
def rewrite (stringToUpdate updatedString : List UInt8) (stringSize : ℕ) (piece : List UInt8) :
    List UInt8 :=
  if lineMatches stringToUpdate stringSize piece then cString updatedString else cString piece

/-- What is put for the pieces of a content, without the last one. -/
def rewritten (stringToUpdate updatedString : List UInt8) (stringSize : ℕ)
    (content : List UInt8) : List UInt8 :=
  (pieces newline 126 content).dropLast.flatMap
    (rewrite stringToUpdate updatedString stringSize)

/-- What is in the temporary file on the card when it is closed. -/
def writtenBytes (faults : Faults) (done : List UInt8) : List UInt8 :=
  if faults.closeFails .fileObj2 then [] else keep faults.writeFails 0 done

/-- A step of writing fails. -/
def WriteFails (faults : Faults) (done : List UInt8) : Prop :=
  keep faults.writeFails 0 done ≠ done ∨ faults.closeFails .fileObj2 = true

/-- The files in the end, where the temporary file cannot be found any more if it is the file. -/
def finalFiles (faults : Faults) (srcFileName : Path) (files : Path → Option (List UInt8))
    (done : List UInt8) : Path → Option (List UInt8) :=
  let closed := Function.update files temporary (some (writtenBytes faults done))
  if faults.unlinkFails then closed
  else
    let unlinked := Function.update closed srcFileName none
    if faults.renameFails = true ∨ srcFileName = temporary then unlinked
    else
      Function.update (Function.update unlinked temporary none) srcFileName
        (some (writtenBytes faults done))

/-- A step of writing, deleting or renaming fails. -/
def AnyFails (faults : Faults) (srcFileName : Path) (done : List UInt8) : Prop :=
  WriteFails faults done ∨ faults.unlinkFails = true ∨ faults.renameFails = true ∨
    srcFileName = temporary

/-- A file without NUL whose lines fit into the buffer of `f_gets`. -/
def PlainLines (content : List UInt8) : Prop :=
  0 ∉ content ∧ ∀ line ∈ lines newline content, line.length ≤ 127

/-- The last line of a file matches. -/
def LastMatches (stringToUpdate : List UInt8) (stringSize : ℕ) (content : List UInt8) : Prop :=
  ∃ line, (lines newline content).getLast? = some line ∧
    matchesString stringToUpdate stringSize line = true

/-- No piece that is read matches, and no line. -/
def Untouched (stringToUpdate : List UInt8) (stringSize : ℕ) (content : List UInt8) : Prop :=
  (∀ piece ∈ pieces newline 126 content, lineMatches stringToUpdate stringSize piece = false) ∧
    ∀ line ∈ lines newline content, matchesString stringToUpdate stringSize line = false

/-- The temporary file is the updated file, and the old one, too, if a step of writing fails. A file
that is not empty needs something that matches for that; of a plain file, the last line is to be
removed. -/
def RewritesRight (faults : Faults) (stringToUpdate updatedString : List UInt8) (stringSize : ℕ)
    (content : List UInt8) : Prop :=
  content = [] ∨
    (¬ Untouched stringToUpdate stringSize content ∧
      (PlainLines content →
        ¬ WriteFails faults (rewritten stringToUpdate updatedString stringSize content) ∧
          LastMatches stringToUpdate stringSize content ∧ cString updatedString = []) ∧
      (¬ PlainLines content →
        writtenBytes faults (rewritten stringToUpdate updatedString stringSize content) =
          updatedContent stringToUpdate updatedString stringSize content ∧
        (WriteFails faults (rewritten stringToUpdate updatedString stringSize content) →
          updatedContent stringToUpdate updatedString stringSize content = content)))

/-- The temporary file is the updated file and the old one. Unless it is empty, the file has
something that matches and is not plain. -/
def RewritesSame (faults : Faults) (stringToUpdate updatedString : List UInt8) (stringSize : ℕ)
    (content : List UInt8) : Prop :=
  content = [] ∨
    (¬ Untouched stringToUpdate stringSize content ∧ ¬ PlainLines content ∧
      writtenBytes faults (rewritten stringToUpdate updatedString stringSize content) =
        updatedContent stringToUpdate updatedString stringSize content ∧
      updatedContent stringToUpdate updatedString stringSize content = content)

/-- The call does not get to its loop: there is no card, another operation is not done, or one of
the files cannot be opened. -/
def Refused (faults : Faults) (s : SdState Card) : Prop :=
  s.noInit = true ∨ s.sdCommand ≠ .inactive ∨ faults.openFails .fileObj = true ∨
    faults.openFails .fileObj2 = true

/-- Every byte of the file can be read. -/
def WhollyReadable (faults : Faults) (content : List UInt8) : Prop :=
  ∀ pos < content.length, faults.readFails pos = false

/-- The inputs with which an update does what is asked of it. -/
def UpdateHarmless (faults : Faults) (srcFileName : Path)
    (stringToUpdate updatedString : List UInt8) (stringSize : ℕ) (content : List UInt8)
    (s : SdState Card) : Prop :=
  Refused faults s ∨
  (srcFileName ≠ temporary ∧
    (¬ WhollyReadable faults content ∨
      (faults.unlinkFails = true ∧
        updatedContent stringToUpdate updatedString stringSize content = content) ∨
      (faults.unlinkFails = false ∧ faults.renameFails = false ∧
        RewritesRight faults stringToUpdate updatedString stringSize content))) ∨
  (srcFileName = temporary ∧ WhollyReadable faults content ∧ faults.unlinkFails = true ∧
    RewritesSame faults stringToUpdate updatedString stringSize content)

section Proofs

variable {faults : Faults} {srcFileName : Path} {stringToUpdate updatedString content done :
  List UInt8} {stringSize fptr turns : ℕ} {files : Path → Option (List UInt8)}
  {s t : SdState Card}

/-- In the loop, the source is read up to a position, and what has been put is in the temporary
file as far as it could be written. -/
structure Updating (faults : Faults) (srcFileName : Path) (content : List UInt8)
    (files : Path → Option (List UInt8)) (done : List UInt8) (fptr : ℕ) (t : SdState Card) :
    Prop where
  files : t.card.files = files
  source : t.card.handle .fileObj = some ⟨srcFileName, content, fptr, false⟩
  target : t.card.handle .fileObj2 = some ⟨temporary, keep faults.writeFails 0 done,
    (keep faults.writeFails 0 done).length, true⟩
  failed : (∃ event ∈ t.log, event.StepFails) ↔ keep faults.writeFails 0 done ≠ done

theorem rewritten_cons {piece rest : List UInt8} (hcontent : content ≠ [])
    (htake : takePiece newline 127 content = (piece, rest)) (hrest : rest ≠ []) :
    rewritten stringToUpdate updatedString stringSize content =
      rewrite stringToUpdate updatedString stringSize piece ++
        rewritten stringToUpdate updatedString stringSize rest := by
  unfold rewritten
  rw [pieces_of_ne_nil hcontent, htake, List.dropLast_cons_of_ne_nil (pieces_ne_nil hrest)]
  rfl

/-- The last piece is left out. -/
theorem rewritten_last (h : (takePiece newline 127 content).2 = []) :
    rewritten stringToUpdate updatedString stringSize content = [] := by
  unfold rewritten
  by_cases hcontent : content = []
  · rw [hcontent, pieces_nil]
    rfl
  · rw [pieces_of_ne_nil hcontent, h, pieces_nil]
    rfl

theorem failed_append {log : List Event} {event : Event} :
    (∃ e ∈ log ++ [event], e.StepFails) ↔ (∃ e ∈ log, e.StepFails) ∨ event.StepFails := by
  simp [or_and_right, exists_or]

theorem eof_iff {fp : FileObject} {handle : Handle} {card : Card}
    (h : card.handle fp = some handle) :
    ((cardFat faults).object card fp).eof = true ↔ handle.fptr = handle.data.length := by
  rw [object_eq h]
  exact beq_iff_eq

/-- A line is read. -/
theorem Updating.gets (h : Updating faults srcFileName content files done fptr t)
    (hreads : WhollyReadable faults content) (hfptr : fptr ≤ content.length) :
    ((cardFat faults).call (.fGets .fileObj 128) t).1.buff =
        (takePiece newline 127 (content.drop fptr)).1 ∧
      Updating faults srcFileName content files done
        (fptr + (takePiece newline 127 (content.drop fptr)).1.length)
        ((cardFat faults).call (.fGets .fileObj 128) t).2 := by
  have hloop := @gets_loop_eq faults ⟨srcFileName, content, fptr, false⟩ 127
    fun pos _ hpos => hreads pos hpos
  obtain ⟨hbuff, hcard⟩ := @f_gets_eq faults .fileObj _ t.card 128 h.source
  rw [hloop] at hbuff hcard
  have hbuff : ((cardFat faults).call (.fGets .fileObj 128) t).1.buff =
      (takePiece newline 127 (content.drop fptr)).1 := hbuff
  have hcard : ((cardFat faults).call (.fGets .fileObj 128) t).2.card = _ := hcard
  have hsource : ((cardFat faults).call (.fGets .fileObj 128) t).2.card.handle .fileObj =
      some ⟨srcFileName, content, fptr + (takePiece newline 127 (content.drop fptr)).1.length,
        false⟩ := by
    rw [hcard, set_handle_same]
    rfl
  refine ⟨hbuff, ?_, hsource, ?_, ?_⟩
  · rw [hcard, set_handle_files, h.files]
  · rw [hcard, set_handle_other _ (by decide), h.target]
  · rw [call_log, failed_append, h.failed]
    refine or_iff_left fun hfails => hfails ?_
    -- The line ends with a newline, with the buffer or with the file.
    obtain hlast | hlength | hrest := @take_piece_ends _ _ newline 127 (content.drop fptr)
    · exact Or.inl (hbuff ▸ hlast)
    · exact Or.inr (Or.inl (hbuff ▸ hlength))
    · refine Or.inr (Or.inr ((eof_iff hsource).mpr ?_))
      have hpiece := congrArg List.length (@take_piece_append _ _ newline 127 (content.drop fptr))
      rw [hrest, List.append_nil, List.length_drop] at hpiece
      show fptr + _ = content.length
      omega

/-- A string is put. -/
theorem Updating.puts (h : Updating faults srcFileName content files done fptr t)
    (str : List UInt8) : Updating faults srcFileName content files (done ++ str) fptr
      ((cardFat faults).call (.fPuts .fileObj2 str) t).2 := by
  have hloop := @puts_loop_eq faults ⟨temporary, keep faults.writeFails 0 done,
    (keep faults.writeFails 0 done).length, true⟩ 0 str rfl
  generalize hwritten : keep faults.writeFails 0 done = written at hloop
  have htarget := h.target
  rw [hwritten] at htarget
  have hcalled := @f_puts_eq faults .fileObj2 _ t.card str htarget
  rw [hloop] at hcalled
  have hcard : ((cardFat faults).call (.fPuts .fileObj2 str) t).2.card =
      t.card.setHandle .fileObj2 (some ⟨temporary,
        written ++ keep faults.writeFails written.length str,
        written.length + (keep faults.writeFails written.length str).length, true⟩) := by
    show (fPuts faults .fileObj2 str t.card).2 = _
    rw [hcalled]
  have hresult : ((cardFat faults).call (.fPuts .fileObj2 str) t).1 =
      if keep faults.writeFails written.length str = str then some str.length else none := by
    show (fPuts faults .fileObj2 str t.card).1 = _
    rw [hcalled, Nat.zero_add]
  constructor
  · rw [hcard, set_handle_files, h.files]
  · rw [hcard, set_handle_other _ (by decide), h.source]
  · rw [hcard, set_handle_same, keep_append, Nat.zero_add, hwritten, List.length_append]
  · rw [call_log, failed_append, h.failed, hresult, ne_eq, ne_eq, keep_append_eq_iff,
      Nat.zero_add, not_and_or, hwritten]
    refine or_congr_right ?_
    show ¬ ((if keep faults.writeFails written.length str = str then some str.length
      else none) ≠ none) ↔ _
    split_ifs with hkept
    · exact iff_of_false (fun h => h (fun h => (by cases h))) (fun h => h hkept)
    · exact iff_of_true (fun h => h rfl) hkept

/-- What is behind a piece of what is left. -/
theorem drop_piece {rest : List UInt8} (hfptr : fptr ≤ content.length)
    (hrest : (takePiece newline 127 (content.drop fptr)).2 = rest) :
    content.drop (fptr + (takePiece newline 127 (content.drop fptr)).1.length) = rest ∧
      fptr + (takePiece newline 127 (content.drop fptr)).1.length + rest.length =
        content.length := by
  have happend := @take_piece_append _ _ newline 127 (content.drop fptr)
  rw [hrest] at happend
  generalize (takePiece newline 127 (content.drop fptr)).1 = piece at happend ⊢
  have hlength := congrArg List.length happend
  rw [List.length_append, List.length_drop] at hlength
  refine ⟨?_, by omega⟩
  rw [← List.drop_drop, ← happend, List.drop_left]

/-- A turn of the loop reads the last piece and ends, or it puts what there is to put for another
piece. -/
theorem Updating.turn (h : Updating faults srcFileName content files done fptr t)
    (hreads : WhollyReadable faults content) (hfptr : fptr ≤ content.length) (turns : ℕ) :
    ((takePiece newline 127 (content.drop fptr)).2 = [] ∧ ∃ t',
        updateLoop (cardFat faults) stringToUpdate updatedString stringSize (turns + 1) t =
          (true, t') ∧ Updating faults srcFileName content files done content.length t') ∨
      ((takePiece newline 127 (content.drop fptr)).2 ≠ [] ∧ ∃ t',
        updateLoop (cardFat faults) stringToUpdate updatedString stringSize (turns + 1) t =
          updateLoop (cardFat faults) stringToUpdate updatedString stringSize turns t' ∧
        Updating faults srcFileName content files (done ++ rewrite stringToUpdate updatedString
          stringSize (takePiece newline 127 (content.drop fptr)).1)
          (fptr + (takePiece newline 127 (content.drop fptr)).1.length) t') := by
  obtain ⟨hbuff, hread⟩ := h.gets hreads hfptr
  obtain ⟨-, hlength⟩ := drop_piece hfptr rfl
  have heof := @eof_iff faults _ _ _ hread.source
  rw [updateLoop]
  generalize (cardFat faults).call (.fGets .fileObj 128) t = line at hbuff hread heof ⊢
  simp only
  by_cases hrest : (takePiece newline 127 (content.drop fptr)).2 = []
  · rw [hrest, List.length_nil, Nat.add_zero] at hlength
    rw [hlength] at hread heof
    rw [if_pos (heof.mpr rfl)]
    exact Or.inl ⟨hrest, _, rfl, hread⟩
  · have hpos := List.length_pos_iff.mpr hrest
    have hmore : ¬ ((cardFat faults).object line.2.card .fileObj).eof = true := by
      intro hend
      have hend := heof.mp hend
      simp only at hend
      omega
    rw [if_neg hmore]
    refine Or.inr ⟨hrest, _, rfl, ?_⟩
    rw [← hbuff] at hread ⊢
    exact hread.puts _

/-- When the loop ends, every piece but the last has been put. -/
theorem Updating.loop (h : Updating faults srcFileName content files done fptr t)
    (hreads : WhollyReadable faults content) (hfptr : fptr ≤ content.length)
    (hreturned : (updateLoop (cardFat faults) stringToUpdate updatedString stringSize turns
      t).1 = true) :
    Updating faults srcFileName content files
      (done ++ rewritten stringToUpdate updatedString stringSize (content.drop fptr))
      content.length
      (updateLoop (cardFat faults) stringToUpdate updatedString stringSize turns t).2 := by
  induction turns generalizing done fptr t with
  | zero => cases hreturned
  | succ turns ih =>
      obtain ⟨hrest, t', hturn, ht'⟩ | ⟨hrest, t', hturn, ht'⟩ :=
        @Updating.turn faults srcFileName stringToUpdate updatedString content done stringSize fptr
          files t h hreads hfptr turns
      · rw [hturn, rewritten_last hrest, List.append_nil]
        exact ht'
      · obtain ⟨hdrop, hlength⟩ := drop_piece hfptr rfl
        have hcontent : content.drop fptr ≠ [] := by
          intro hnil
          rw [hnil] at hrest
          exact hrest rfl
        rw [hturn] at hreturned ⊢
        have hloop := ih ht' (by omega) hreturned
        rw [hdrop, List.append_assoc] at hloop
        rw [rewritten_cons hcontent rfl hrest]
        exact hloop

/-- The loop ends if it is given a turn for every piece and one more. -/
theorem Updating.loop_ends (h : Updating faults srcFileName content files done fptr t)
    (hreads : WhollyReadable faults content) (hfptr : fptr ≤ content.length)
    (hturns : (pieces newline 126 (content.drop fptr)).length < turns) :
    (updateLoop (cardFat faults) stringToUpdate updatedString stringSize turns t).1 = true := by
  induction turns generalizing done fptr t with
  | zero => cases hturns
  | succ turns ih =>
      obtain ⟨-, t', hturn, -⟩ | ⟨hrest, t', hturn, ht'⟩ :=
        @Updating.turn faults srcFileName stringToUpdate updatedString content done stringSize fptr
          files t h hreads hfptr turns
      · rw [hturn]
      · obtain ⟨hdrop, hlength⟩ := drop_piece hfptr rfl
        have hcontent : content.drop fptr ≠ [] := by
          intro hnil
          rw [hnil] at hrest
          exact hrest rfl
        rw [pieces_of_ne_nil hcontent, List.length_cons] at hturns
        rw [hturn]
        refine ih ht' (by omega) ?_
        rw [hdrop]
        exact Nat.lt_of_succ_lt_succ hturns

/-- In the loop, the files stay as they are. -/
theorem update_loop_files (turns : ℕ) (t : SdState Card) :
    (updateLoop (cardFat faults) stringToUpdate updatedString stringSize turns t).2.card.files =
      t.card.files := by
  induction turns generalizing t with
  | zero => rfl
  | succ turns ih =>
      have hgets : ((cardFat faults).call (.fGets .fileObj 128) t).2.card.files = t.card.files :=
        f_gets_files 128
      rw [updateLoop]
      generalize (cardFat faults).call (.fGets .fileObj 128) t = line at hgets ⊢
      simp only
      split
      · exact hgets
      · rw [ih]
        exact (f_puts_files _).trans hgets

/-- The loop does not end if a byte of the file cannot be read. -/
theorem update_loop_stuck {pos : ℕ} (hfails : faults.readFails pos = true)
    (hpos : pos < content.length) (turns : ℕ) (hfptr : fptr ≤ pos)
    (hsource : t.card.handle .fileObj = some ⟨srcFileName, content, fptr, false⟩) :
    (updateLoop (cardFat faults) stringToUpdate updatedString stringSize turns t).1 = false := by
  induction turns generalizing t fptr with
  | zero => rfl
  | succ turns ih =>
      obtain ⟨-, hcard⟩ := @f_gets_eq faults .fileObj _ t.card 128 hsource
      have hle := @gets_loop_fptr_le faults ⟨srcFileName, content, fptr, false⟩ pos 127 hfails hfptr
      rw [gets_loop_handle] at hcard
      have hread : ((cardFat faults).call (.fGets .fileObj 128) t).2.card.handle .fileObj =
          some ⟨srcFileName, content, (getsLoop faults 127 ⟨srcFileName, content, fptr,
            false⟩).2.fptr, false⟩ := by
        show (fGets faults .fileObj 128 t.card).2.handle .fileObj = _
        rw [hcard, set_handle_same]
      rw [updateLoop]
      generalize (cardFat faults).call (.fGets .fileObj 128) t = line at hread ⊢
      have heof := @eof_iff faults _ _ _ hread
      simp only
      rw [if_neg]
      · refine ih hle ?_
        exact (f_puts_other _ (by decide)).trans hread
      · intro hend
        have hend := heof.mp hend
        simp only at hend
        omega

/-! ## Files with short lines -/

/-- The replacement of a line. -/
def replaced (stringToUpdate updatedString : List UInt8) (stringSize : ℕ) (line : List UInt8) :
    List UInt8 :=
  if matchesString stringToUpdate stringSize line then cString updatedString else line

theorem c_string_of_no_nul {string : List UInt8} (h : 0 ∉ string) : cString string = string :=
  List.takeWhile_eq_self_iff.mpr fun _ hc => decide_eq_true fun hzero => h (hzero ▸ hc)

theorem no_nul_of_c_string (string : List UInt8) : 0 ∉ cString string := by
  intro hmem
  have hne : decide ((0 : UInt8) ≠ 0) = true :=
    @List.mem_takeWhile_imp _ (fun c => decide (c ≠ 0)) string 0 hmem
  exact of_decide_eq_true hne rfl

/-- Two strings agree in their first characters with or without their NUL. -/
theorem take_nul_eq_iff {first second : List UInt8} {count : ℕ} (hfirst : 0 ∉ first)
    (hsecond : 0 ∉ second) : (first ++ [0]).take count = (second ++ [0]).take count ↔
      first.take count = second.take count := by
  have hfilter : ∀ string : List UInt8, 0 ∉ string →
      ((string ++ [0]).take count).filter (· ≠ 0) = string.take count := by
    intro string hstring
    have hself : (string.take count).filter (· ≠ 0) = string.take count :=
      List.filter_eq_self.mpr fun c hc =>
        decide_eq_true fun hzero => hstring (hzero ▸ List.mem_of_mem_take hc)
    have hnul : ([0].take (count - string.length)).filter (· ≠ (0 : UInt8)) = [] :=
      List.filter_eq_nil_iff.mpr fun c hc => by
        rw [List.mem_singleton.mp (List.mem_of_mem_take hc)]
        decide
    rw [List.take_append, List.filter_append, hself, hnul, List.append_nil]
  constructor
  · intro h
    rw [← hfilter first hfirst, ← hfilter second hsecond, h]
  · intro h
    have hlength := congrArg List.length h
    rw [List.length_take, List.length_take] at hlength
    by_cases hshort : first.length < count
    · have hequal : first = second := by
        rwa [List.take_of_length_le (by omega), List.take_of_length_le (by omega)] at h
      rw [hequal]
    · rw [List.take_append_of_le_length (by omega), List.take_append_of_le_length (by omega), h]

/-- Without a NUL, the comparison of C strings is that of the characters. -/
theorem line_matches_eq {line : List UInt8} (h : 0 ∉ line) :
    lineMatches stringToUpdate stringSize line =
      matchesString stringToUpdate stringSize line := by
  unfold lineMatches matchesString
  rw [c_string_of_no_nul h]
  split_ifs
  · rfl
  · rw [Bool.eq_iff_iff, beq_iff_eq, beq_iff_eq]
    exact take_nul_eq_iff h (no_nul_of_c_string _)

/-- In a plain file, what is put for a line is its replacement. -/
theorem rewrite_eq {line : List UInt8} (h : PlainLines content)
    (hline : line ∈ lines newline content) : rewrite stringToUpdate updatedString stringSize line =
      replaced stringToUpdate updatedString stringSize line := by
  have hnul : 0 ∉ line := fun hzero => h.1 (mem_of_mem_line hline hzero)
  unfold rewrite replaced
  rw [line_matches_eq hnul, c_string_of_no_nul hnul]

/-- Of a plain file, the replacements of all lines but the last one are put. -/
theorem rewritten_of_plain (h : PlainLines content) :
    rewritten stringToUpdate updatedString stringSize content =
      (lines newline content).dropLast.flatMap
        (replaced stringToUpdate updatedString stringSize) := by
  have hpieces : pieces newline 126 content = lines newline content := pieces_eq_lines h.2
  unfold rewritten
  rw [hpieces]
  exact List.flatMap_congr fun line hline => rewrite_eq h (List.mem_of_mem_dropLast hline)

/-- Of a plain file, all is put but the replacement of the last line. -/
theorem updated_of_plain (h : PlainLines content) (hne : content ≠ []) :
    ∃ last, (lines newline content).getLast? = some last ∧ last ≠ [] ∧
      updatedContent stringToUpdate updatedString stringSize content =
        rewritten stringToUpdate updatedString stringSize content ++
          replaced stringToUpdate updatedString stringSize last ∧
      content = (lines newline content).dropLast.flatten ++ last := by
  have hlines : lines newline content ≠ [] := lines_ne_nil hne
  refine ⟨(lines newline content).getLast hlines, List.getLast?_eq_some_getLast hlines,
    line_ne_nil (List.getLast_mem hlines), ?_, ?_⟩
  · rw [rewritten_of_plain h, updatedContent,
      ← List.flatMap_singleton (replaced stringToUpdate updatedString stringSize),
      ← List.flatMap_append, List.dropLast_concat_getLast]
    rfl
  · rw [← List.flatten_concat, List.dropLast_concat_getLast, lines_flatten]

/-- Without the last line, a file is shorter, all the more if the string is removed. -/
theorem replaced_length_le {group : List (List UInt8)} (h : cString updatedString = []) :
    (group.flatMap (replaced stringToUpdate updatedString stringSize)).length ≤
      group.flatten.length := by
  induction group with
  | nil => exact Nat.le_refl _
  | cons line group ih =>
      have hline : (replaced stringToUpdate updatedString stringSize line).length ≤
          line.length := by
        unfold replaced
        split_ifs
        · rw [h]
          exact Nat.zero_le _
        · exact Nat.le_refl _
      rw [List.flatMap_cons, List.flatten_cons, List.length_append, List.length_append]
      omega

/-- Nothing is put for a line just when it matches and is replaced by nothing. -/
theorem replaced_eq_nil_iff {line : List UInt8} (h : line ≠ []) :
    replaced stringToUpdate updatedString stringSize line = [] ↔
      matchesString stringToUpdate stringSize line = true ∧ cString updatedString = [] := by
  unfold replaced
  split_ifs with hmatches
  · exact ⟨fun hnil => ⟨hmatches, hnil⟩, fun hnil => hnil.2⟩
  · exact ⟨fun hnil => absurd hnil h, fun hnil => absurd hnil.1 hmatches⟩

/-! ## Behind the loop -/

/-- Both files are closed. -/
theorem Updating.closed (h : Updating faults srcFileName content
      (Function.update files temporary (some [])) done fptr t) :
    ((cardFat faults).call (.fClose .fileObj2)
        ((cardFat faults).call (.fClose .fileObj) t).2).2.card.files =
          Function.update files temporary (some (writtenBytes faults done)) ∧
      ((∃ event ∈ ((cardFat faults).call (.fClose .fileObj2)
        ((cardFat faults).call (.fClose .fileObj) t).2).2.log, event.StepFails) ↔
          WriteFails faults done) := by
  obtain ⟨hfiles, hhandles⟩ := @f_close_read faults .fileObj _ t.card h.source rfl
  have hfiles : ((cardFat faults).call (.fClose .fileObj) t).2.card.files = _ := hfiles
  have htarget : ((cardFat faults).call (.fClose .fileObj) t).2.card.handle .fileObj2 = _ :=
    (hhandles .fileObj2 (by decide)).trans h.target
  have hfailed : (∃ event ∈ ((cardFat faults).call (.fClose .fileObj) t).2.log,
      event.StepFails) ↔ keep faults.writeFails 0 done ≠ done := by
    rw [call_log, failed_append, h.failed]
    exact or_iff_left id
  generalize ((cardFat faults).call (.fClose .fileObj) t).2 = t' at hfiles htarget hfailed ⊢
  obtain ⟨hresult, hfiles2⟩ := @f_close_written faults .fileObj2 _ t'.card htarget rfl
  have hresult : ((cardFat faults).call (.fClose .fileObj2) t').1 = _ := hresult
  constructor
  · refine hfiles2.trans ?_
    rw [hfiles, h.files, writtenBytes]
    split_ifs
    · rfl
    · exact Function.update_idem ..
  · rw [call_log, failed_append, hfailed, hresult]
    refine or_congr_right ?_
    show ¬ ((if faults.closeFails .fileObj2 = true then FResult.diskErr else .ok) = .ok) ↔ _
    split_ifs with hfails
    · exact iff_of_true (fun h => (by cases h)) hfails
    · exact iff_of_false (fun h => h rfl) hfails

theorem unlink_call (h : t.card.files srcFileName ≠ none) :
    (((cardFat faults).call (.fUnlink srcFileName) t).1 = FResult.ok ↔
        ¬ faults.unlinkFails = true) ∧
      ((cardFat faults).call (.fUnlink srcFileName) t).2.card.files =
        if faults.unlinkFails then t.card.files
        else Function.update t.card.files srcFileName none := by
  show ((fUnlink faults srcFileName t.card).1 = .ok ↔ _) ∧
    (fUnlink faults srcFileName t.card).2.files = _
  unfold fUnlink
  split_ifs with hfails
  · exact ⟨iff_of_false (fun h => (by cases h)) (fun h => h hfails), rfl⟩
  · exact ⟨iff_of_true rfl hfails, rfl⟩

/-- The temporary file gets a name that is not used. -/
theorem rename_call {written : List UInt8} (hunused : t.card.files srcFileName = none)
    (hwritten : srcFileName ≠ temporary → t.card.files temporary = some written) :
    (((cardFat faults).call (.fRename temporary srcFileName) t).1 = FResult.ok ↔
        ¬ (faults.renameFails = true ∨ srcFileName = temporary)) ∧
      ((cardFat faults).call (.fRename temporary srcFileName) t).2.card.files =
        if faults.renameFails = true ∨ srcFileName = temporary then t.card.files
        else Function.update (Function.update t.card.files temporary none) srcFileName
          (some written) := by
  show ((fRename faults temporary srcFileName t.card).1 = .ok ↔ _) ∧
    (fRename faults temporary srcFileName t.card).2.files = _
  unfold fRename
  by_cases hfails : faults.renameFails = true
  · rw [if_pos hfails, if_pos (Or.inl hfails)]
    exact ⟨iff_of_false (fun h => (by cases h)) (fun h => h (Or.inl hfails)), rfl⟩
  · rw [if_neg hfails]
    by_cases hname : srcFileName = temporary
    · rw [← hname, hunused, if_pos (Or.inr rfl)]
      exact ⟨iff_of_false (fun h => (by cases h)) (fun h => h (Or.inr rfl)), rfl⟩
    · have hneither : ¬ (faults.renameFails = true ∨ srcFileName = temporary) :=
        not_or_intro hfails hname
      simp only [hwritten hname, hunused, if_pos, if_neg hneither]
      exact ⟨iff_of_true trivial hneither, rfl⟩

/-- The file is replaced by the temporary file, and success is reported in any case. -/
theorem Updating.replaced (h : Updating faults srcFileName content
      (Function.update files temporary (some [])) done fptr t)
    (hcontent : files srcFileName = some content) :
    ∃ t', replaceFile (cardFat faults) srcFileName t = (some .fileCopied, t') ∧
      t'.card.files = finalFiles faults srcFileName files done ∧
      ((∃ event ∈ t'.log, event.StepFails) ↔ AnyFails faults srcFileName done) := by
  obtain ⟨hfiles, hfailed⟩ := h.closed
  unfold replaceFile
  simp only
  generalize ((cardFat faults).call (.fClose .fileObj2)
    ((cardFat faults).call (.fClose .fileObj) t).2).2 = closed at hfiles hfailed ⊢
  have hexists : closed.card.files srcFileName ≠ none := by
    rw [hfiles]
    by_cases hname : srcFileName = temporary
    · rw [hname, Function.update_self]
      exact Option.some_ne_none _
    · rw [Function.update_of_ne hname, hcontent]
      exact Option.some_ne_none _
  unfold finalFiles AnyFails
  obtain ⟨hunlink, hfiles2⟩ := @unlink_call faults srcFileName closed hexists
  have hfailed2 : (∃ event ∈ ((cardFat faults).call (.fUnlink srcFileName) closed).2.log,
      event.StepFails) ↔ WriteFails faults done ∨ faults.unlinkFails = true := by
    rw [call_log, failed_append, hfailed]
    refine or_congr_right ?_
    show ¬ (_ = FResult.ok) ↔ _
    rw [hunlink]
    exact not_not
  generalize (cardFat faults).call (.fUnlink srcFileName) closed = unlinked
    at hunlink hfiles2 hfailed2 ⊢
  -- Without the old file deleted nothing is renamed.
  by_cases hunlinked : faults.unlinkFails = true
  · rw [if_neg fun h => hunlink.mp h hunlinked]
    refine ⟨_, rfl, ?_, ?_⟩
    · show unlinked.2.card.files = _
      rw [hfiles2, if_pos hunlinked, if_pos hunlinked, hfiles]
    · rw [set_command_log, hfailed2]
      exact iff_of_true (Or.inr hunlinked) (Or.inr (Or.inl hunlinked))
  · rw [if_pos (hunlink.mpr hunlinked), if_neg hunlinked]
    rw [if_neg hunlinked, hfiles] at hfiles2
    obtain ⟨hrename, hfiles3⟩ := @rename_call faults srcFileName unlinked.2
      (writtenBytes faults done) (by rw [hfiles2, Function.update_self]) (by
        intro hname
        rw [hfiles2, Function.update_of_ne (Ne.symm hname), Function.update_self])
    refine ⟨_, rfl, ?_, ?_⟩
    · show ((cardFat faults).call (.fRename temporary srcFileName) unlinked.2).2.card.files = _
      rw [hfiles3, hfiles2]
    · rw [set_command_log, call_log, failed_append, hfailed2]
      have hlast : (Event.call (.fRename temporary srcFileName)
          ((cardFat faults).call (.fRename temporary srcFileName) unlinked.2).1
          ((cardFat faults).object ((cardFat faults).call (.fRename temporary srcFileName)
            unlinked.2).2.card)).StepFails ↔
          (faults.renameFails = true ∨ srcFileName = temporary) := by
        show ¬ (_ = FResult.ok) ↔ _
        rw [hrename]
        exact not_not
      rw [hlast, or_assoc]

/-! ## A whole call -/

theorem open_fails {fp : FileObject} {path : Path} {mode : UInt8}
    (h : faults.openFails fp = true) :
    ((cardFat faults).call (.fOpen fp path mode) t).1 = FResult.diskErr := by
  show (fOpen faults fp path mode t.card).1 = _
  rw [fOpen, if_pos h]

/-- The source is opened. -/
theorem open_source {mode : UInt8} (h : ¬ faults.openFails .fileObj = true)
    (hmode : mode &&& faCreateAlways = 0) (hcontent : t.card.files srcFileName = some content) :
    ((cardFat faults).call (.fOpen .fileObj srcFileName mode) t).1 = FResult.ok ∧
      ((cardFat faults).call (.fOpen .fileObj srcFileName mode) t).2.card =
        t.card.setHandle .fileObj (some ⟨srcFileName, content, 0, false⟩) := by
  have hopened : fOpen faults .fileObj srcFileName mode t.card =
      (.ok, t.card.setHandle .fileObj (some ⟨srcFileName, content, 0, false⟩)) := by
    rw [fOpen, if_neg h, if_neg (not_not.mpr hmode), hcontent]
  exact ⟨congrArg Prod.fst hopened, congrArg Prod.snd hopened⟩

/-- A file is created. -/
theorem open_target {path : Path} {mode : UInt8} (h : ¬ faults.openFails .fileObj2 = true)
    (hmode : mode &&& faCreateAlways ≠ 0) :
    ((cardFat faults).call (.fOpen .fileObj2 path mode) t).1 = FResult.ok ∧
      ((cardFat faults).call (.fOpen .fileObj2 path mode) t).2.card =
        (t.card.setFile path (some [])).setHandle .fileObj2 (some ⟨path, [], 0, true⟩) := by
  have hopened : fOpen faults .fileObj2 path mode t.card = (.ok,
      (t.card.setFile path (some [])).setHandle .fileObj2 (some ⟨path, [], 0, true⟩)) := by
    rw [fOpen, if_neg h, if_pos hmode]
  exact ⟨congrArg Prod.fst hopened, congrArg Prod.snd hopened⟩

/-- A call that does not get to its loop reports no success, and no step fails. -/
theorem update_refused {size : BitVec 32} (h : Refused faults s)
    (hcontent : s.card.files srcFileName = some content) (turns : ℕ) :
    ∃ code s', (Operation.updateFile srcFileName stringToUpdate updatedString size).run
        (cardFat faults) turns s = (some code, s') ∧ code ≠ .fileCopied ∧
      ∀ event ∈ s'.log, ¬ event.StepFails := by
  unfold Operation.run updateFile whenIdle
  simp only
  by_cases hnoInit : s.noInit = true
  · rw [if_pos hnoInit]
    exact ⟨_, _, rfl, by decide, List.forall_mem_nil _⟩
  rw [if_neg hnoInit]
  by_cases hidle : s.sdCommand = .inactive
  swap
  · rw [if_neg hidle]
    exact ⟨_, _, rfl, by decide, List.forall_mem_nil _⟩
  rw [if_pos hidle]
  generalize hbegun : SdState.setCommand .fileCopying { s with log := [] } = begun
  have hlog : begun.log = [] := hbegun ▸ rfl
  have hfiles : begun.card.files srcFileName = some content := hbegun ▸ hcontent
  by_cases hopen : faults.openFails .fileObj = true
  · rw [if_neg (fun h => (by cases (open_fails hopen).symm.trans h))]
    refine ⟨_, _, rfl, by decide, ?_⟩
    rw [set_command_log, call_log, hlog]
    exact List.forall_mem_singleton.mpr id
  · obtain ⟨hsource, -⟩ := @open_source faults srcFileName content begun
      (faOpenExisting ||| faRead) hopen rfl hfiles
    have hopen2 : faults.openFails .fileObj2 = true := by
      obtain h | h | h | h := h
      · exact absurd h hnoInit
      · exact absurd hidle h
      · exact absurd h hopen
      · exact h
    rw [if_pos hsource, if_neg (fun h => (by cases (open_fails hopen2).symm.trans h))]
    refine ⟨_, _, rfl, by decide, ?_⟩
    rw [call_log, set_command_log, call_log, call_log, hlog]
    exact List.forall_mem_cons.mpr ⟨id, List.forall_mem_cons.mpr ⟨id,
      List.forall_mem_singleton.mpr id⟩⟩

/-- The loop is begun, and behind it the file is replaced. -/
theorem update_started {size : BitVec 32} (h : ¬ Refused faults s)
    (hcontent : s.card.files srcFileName = some content) :
    ∃ t, Updating faults srcFileName content (Function.update s.card.files temporary (some []))
        [] 0 t ∧
      ∀ turns, (Operation.updateFile srcFileName stringToUpdate updatedString size).run
          (cardFat faults) turns s =
        if (updateLoop (cardFat faults) stringToUpdate updatedString size.toNat turns t).1 then
          replaceFile (cardFat faults) srcFileName
            (updateLoop (cardFat faults) stringToUpdate updatedString size.toNat turns t).2
        else (none,
          (updateLoop (cardFat faults) stringToUpdate updatedString size.toNat turns t).2) := by
  obtain ⟨hnoInit, hidle, hopen, hopen2⟩ : ¬ s.noInit = true ∧ s.sdCommand = .inactive ∧
      ¬ faults.openFails .fileObj = true ∧ ¬ faults.openFails .fileObj2 = true := by
    unfold Refused at h
    tauto
  unfold Operation.run updateFile whenIdle
  simp only [if_neg hnoInit, if_pos hidle]
  generalize hbegun : SdState.setCommand .fileCopying { s with log := [] } = begun
  have hlog : begun.log = [] := hbegun ▸ rfl
  have hcard : begun.card = s.card := hbegun ▸ rfl
  obtain ⟨hsource, hcard1⟩ := @open_source faults srcFileName content begun
    (faOpenExisting ||| faRead) hopen rfl (hcard ▸ hcontent)
  simp only [if_pos hsource]
  have hlog1 := @call_log _ (cardFat faults) begun
    (.fOpen .fileObj srcFileName (faOpenExisting ||| faRead))
  rw [hlog, List.nil_append, hsource] at hlog1
  generalize (cardFat faults).call (.fOpen .fileObj srcFileName (faOpenExisting ||| faRead))
    begun = source at hsource hcard1 hlog1 ⊢
  obtain ⟨htarget, hcard2⟩ := @open_target faults source.2 temporary
    (faCreateAlways ||| faWrite) hopen2 (by decide)
  simp only [if_pos htarget]
  -- Both files are open, and the temporary one is empty.
  refine ⟨_, ?_, fun turns => rfl⟩
  constructor
  · rw [hcard2, set_handle_files, hcard1, ← hcard]
    rfl
  · rw [hcard2, set_handle_other _ (by decide), hcard1]
    exact @set_handle_same .fileObj begun.card (some ⟨srcFileName, content, 0, false⟩)
  · rw [hcard2, set_handle_same]
    rfl
  · refine iff_of_false ?_ (fun h => h rfl)
    rintro ⟨event, hmem, hfails⟩
    rw [call_log, hlog1] at hmem
    obtain rfl | hmem := List.mem_cons.mp hmem
    · exact hfails
    · rw [List.mem_singleton.mp hmem] at hfails
      exact hfails

/-! ## When an update does what is asked of it -/

theorem rewritten_nil : rewritten stringToUpdate updatedString stringSize [] = [] :=
  rewritten_last rfl

/-- No more is written than there is to write. -/
theorem written_length_le (faults : Faults) (done : List UInt8) :
    (writtenBytes faults done).length ≤ done.length := by
  unfold writtenBytes
  split_ifs
  · exact Nat.zero_le _
  · exact keep_initial.length_le

/-- If no step of writing fails, then all is written. -/
theorem written_of_not_fails (h : ¬ WriteFails faults done) : writtenBytes faults done = done := by
  unfold WriteFails at h
  obtain ⟨hkept, hclosed⟩ := not_or.mp h
  rw [writtenBytes, if_neg hclosed]
  exact not_not.mp hkept

/-- If a step of writing fails and there is something to write, then less is written. -/
theorem written_length_lt (h : WriteFails faults done) (hne : done ≠ []) :
    (writtenBytes faults done).length < done.length := by
  unfold writtenBytes
  split_ifs with hclosed
  · exact List.length_pos_iff.mpr hne
  · exact keep_length_lt (h.resolve_right hclosed)

/-- A file in which nothing matches is to be left as it is. -/
theorem updated_of_untouched (h : Untouched stringToUpdate stringSize content) :
    updatedContent stringToUpdate updatedString stringSize content = content := by
  have hlines : updatedContent stringToUpdate updatedString stringSize content =
      (lines newline content).flatMap id :=
    List.flatMap_congr fun line hline => if_neg (by rw [h.2 line hline]; exact Bool.false_ne_true)
  rw [hlines, List.flatMap_id, lines_flatten]

/-- What is put of it is shorter, as the last piece is left out. -/
theorem rewritten_of_untouched (h : Untouched stringToUpdate stringSize content)
    (hne : content ≠ []) :
    (rewritten stringToUpdate updatedString stringSize content).length < content.length := by
  have hshort : ∀ group : List (List UInt8),
      (∀ piece ∈ group, lineMatches stringToUpdate stringSize piece = false) →
      (group.flatMap (rewrite stringToUpdate updatedString stringSize)).length ≤
        group.flatten.length := by
    intro group hgroup
    induction group with
    | nil => exact Nat.le_refl _
    | cons piece group ih =>
        obtain ⟨hpiece, hgroup⟩ := List.forall_mem_cons.mp hgroup
        have hcut : (rewrite stringToUpdate updatedString stringSize piece).length ≤
            piece.length := by
          unfold rewrite
          rw [hpiece]
          exact (List.takeWhile_prefix _).length_le
        have hrest := ih hgroup
        rw [List.flatMap_cons, List.flatten_cons, List.length_append, List.length_append]
        omega
  have hpieces : pieces newline 126 content ≠ [] := pieces_ne_nil hne
  have hlast := List.length_pos_iff.mpr (piece_ne_nil (List.getLast_mem hpieces))
  have hwhole : ((pieces newline 126 content).dropLast.flatten ++
      (pieces newline 126 content).getLast hpieces) = content := by
    rw [← List.flatten_concat, List.dropLast_concat_getLast, pieces_flatten]
  have hlength := congrArg List.length hwhole
  rw [List.length_append] at hlength
  have hput := hshort (pieces newline 126 content).dropLast
    fun piece hmem => h.1 piece (List.mem_of_mem_dropLast hmem)
  unfold rewritten
  omega

theorem written_of_untouched (h : Untouched stringToUpdate stringSize content)
    (hne : content ≠ []) :
    writtenBytes faults (rewritten stringToUpdate updatedString stringSize content) ≠
      updatedContent stringToUpdate updatedString stringSize content := by
  intro hsame
  have hle := written_length_le faults (rewritten stringToUpdate updatedString stringSize content)
  have hlt := @rewritten_of_untouched stringToUpdate updatedString content stringSize h hne
  rw [hsame, updated_of_untouched h] at hle
  omega

/-- Of an empty file nothing is written. -/
theorem written_nil :
    writtenBytes faults (rewritten stringToUpdate updatedString stringSize []) = [] := by
  have hle := written_length_le faults (rewritten stringToUpdate updatedString stringSize [])
  rw [rewritten_nil] at hle ⊢
  exact List.eq_nil_of_length_eq_zero (Nat.le_zero.mp hle)

theorem rewrites_right_iff :
    (writtenBytes faults (rewritten stringToUpdate updatedString stringSize content) =
        updatedContent stringToUpdate updatedString stringSize content ∧
      (WriteFails faults (rewritten stringToUpdate updatedString stringSize content) →
        updatedContent stringToUpdate updatedString stringSize content = content)) ↔
      RewritesRight faults stringToUpdate updatedString stringSize content := by
  unfold RewritesRight
  by_cases hne : content = []
  · subst hne
    exact iff_of_true ⟨written_nil, fun _ => rfl⟩ (Or.inl rfl)
  rw [or_iff_right hne]
  by_cases huntouched : Untouched stringToUpdate stringSize content
  · exact iff_of_false (fun h => written_of_untouched huntouched hne h.1)
      fun h => h.1 huntouched
  rw [and_iff_right huntouched]
  by_cases hplain : PlainLines content
  swap
  · exact ⟨fun h => ⟨fun hplain' => absurd hplain' hplain, fun _ => h⟩, fun h => h.2 hplain⟩
  rw [and_iff_left fun hnot => absurd hplain hnot]
  obtain ⟨last, hlast, hlastne, hsplit, -⟩ := @updated_of_plain stringToUpdate updatedString
    content stringSize hplain hne
  constructor
  · intro ⟨hupdated, hkept⟩ _
    have hlength := congrArg List.length hsplit
    rw [← hupdated, List.length_append] at hlength
    have hwrites : ¬ WriteFails faults
        (rewritten stringToUpdate updatedString stringSize content) := by
      intro hfails
      by_cases hdone : rewritten stringToUpdate updatedString stringSize content = []
      · -- With nothing to write, the file would be empty.
        have hle := written_length_le faults (rewritten stringToUpdate updatedString stringSize
          content)
        rw [hupdated, hkept hfails, hdone] at hle
        exact hne (List.eq_nil_of_length_eq_zero (Nat.le_zero.mp hle))
      · have hlt := written_length_lt hfails hdone
        omega
    rw [written_of_not_fails hwrites, hsplit, List.self_eq_append_right] at hupdated
    obtain ⟨hmatches, hremoved⟩ := (replaced_eq_nil_iff hlastne).mp hupdated
    exact ⟨hwrites, ⟨last, hlast, hmatches⟩, hremoved⟩
  · intro h
    obtain ⟨hwrites, ⟨line, hline, hmatches⟩, hremoved⟩ := h hplain
    cases hlast.symm.trans hline
    rw [(replaced_eq_nil_iff hlastne).mpr ⟨hmatches, hremoved⟩, List.append_nil] at hsplit
    rw [written_of_not_fails hwrites]
    exact ⟨hsplit.symm, fun hfails => absurd hfails hwrites⟩

theorem rewrites_same_iff :
    (writtenBytes faults (rewritten stringToUpdate updatedString stringSize content) =
        updatedContent stringToUpdate updatedString stringSize content ∧
      updatedContent stringToUpdate updatedString stringSize content = content) ↔
      RewritesSame faults stringToUpdate updatedString stringSize content := by
  unfold RewritesSame
  by_cases hne : content = []
  · subst hne
    exact iff_of_true ⟨written_nil, rfl⟩ (Or.inl rfl)
  rw [or_iff_right hne]
  by_cases huntouched : Untouched stringToUpdate stringSize content
  · exact iff_of_false (fun h => written_of_untouched huntouched hne h.1)
      fun h => h.1 huntouched
  rw [and_iff_right huntouched]
  by_cases hplain : PlainLines content
  swap
  · exact (and_iff_right hplain).symm
  refine iff_of_false ?_ fun h => h.1 hplain
  intro ⟨hupdated, hsame⟩
  obtain ⟨last, hlast, hlastne, hsplit, hcontent⟩ := @updated_of_plain stringToUpdate
    updatedString content stringSize hplain hne
  have hwritten := written_length_le faults (rewritten stringToUpdate updatedString stringSize
    content)
  have hlength := congrArg List.length hsplit
  rw [List.length_append] at hlength
  rw [hupdated] at hwritten
  have hnil : replaced stringToUpdate updatedString stringSize last = [] :=
    List.eq_nil_of_length_eq_zero (by omega)
  -- The last line is removed, so the updated file is shorter than the old one.
  have hremoved := ((replaced_eq_nil_iff hlastne).mp hnil).2
  have hshorter := @replaced_length_le stringToUpdate updatedString stringSize
    (lines newline content).dropLast hremoved
  rw [← rewritten_of_plain hplain] at hshorter
  have hpos := List.length_pos_iff.mpr hlastne
  have hwhole := congrArg List.length hcontent
  rw [List.length_append] at hwhole
  rw [hsame] at hwritten
  omega

theorem final_not_deleted (h : faults.unlinkFails = true) :
    finalFiles faults srcFileName files done =
      Function.update files temporary (some (writtenBytes faults done)) :=
  if_pos h

theorem final_not_renamed (h : faults.unlinkFails = false)
    (hrename : faults.renameFails = true ∨ srcFileName = temporary) :
    finalFiles faults srcFileName files done srcFileName = none := by
  unfold finalFiles
  rw [h, if_neg (by decide), if_pos hrename, Function.update_self]

theorem final_renamed (h : faults.unlinkFails = false)
    (hrename : ¬ (faults.renameFails = true ∨ srcFileName = temporary)) :
    finalFiles faults srcFileName files done srcFileName = some (writtenBytes faults done) ∧
      finalFiles faults srcFileName files done temporary = none := by
  unfold finalFiles
  rw [h, if_neg (by decide), if_neg hrename, Function.update_self,
    Function.update_of_ne fun h => hrename (Or.inr h.symm), Function.update_self]
  exact ⟨rfl, rfl⟩

/-- The files in the end hold the updated content, and the old one if a step fails. -/
theorem final_files_iff {updated : List UInt8} (hcontent : files srcFileName = some content) :
    (finalFiles faults srcFileName files done srcFileName = some updated ∧
      (AnyFails faults srcFileName done →
        finalFiles faults srcFileName files done srcFileName = some content ∨
          finalFiles faults srcFileName files done temporary = some content)) ↔
      (srcFileName ≠ temporary ∧
        ((faults.unlinkFails = true ∧ updated = content) ∨
        (faults.unlinkFails = false ∧ faults.renameFails = false ∧
          writtenBytes faults done = updated ∧ (WriteFails faults done → updated = content)))) ∨
      (srcFileName = temporary ∧ faults.unlinkFails = true ∧
        writtenBytes faults done = updated ∧ updated = content) := by
  cases hunlink : faults.unlinkFails with
  | true =>
      have hfails : AnyFails faults srcFileName done := Or.inr (Or.inl hunlink)
      rw [final_not_deleted hunlink]
      -- The old file is still there, unless it is the temporary file itself.
      by_cases hname : srcFileName = temporary
      · rw [hname, Function.update_self, Option.some.injEq, Option.some.injEq]
        constructor
        · exact fun h =>
            Or.inr ⟨rfl, rfl, h.1, h.1.symm.trans ((or_self_iff).mp (h.2 (hname ▸ hfails)))⟩
        · rintro (h | ⟨-, -, hwritten, hsame⟩)
          · exact absurd rfl h.1
          · exact ⟨hwritten, fun _ => Or.inl (hwritten.trans hsame)⟩
      · rw [Function.update_of_ne hname, hcontent, Option.some.injEq]
        constructor
        · exact fun h => Or.inl ⟨hname, Or.inl ⟨rfl, h.1.symm⟩⟩
        · rintro (⟨-, ⟨-, hsame⟩ | ⟨h, -⟩⟩ | h)
          · exact ⟨hsame.symm, fun _ => Or.inl rfl⟩
          · cases h
          · exact absurd h.1 hname
  | false =>
      -- The old file is gone, and without a renaming there is nothing under its name.
      by_cases hrename : faults.renameFails = true ∨ srcFileName = temporary
      · rw [final_not_renamed hunlink hrename]
        refine iff_of_false (fun h => (by cases h.1)) ?_
        rintro (⟨hname, ⟨h, -⟩ | ⟨-, h, -⟩⟩ | ⟨-, h, -⟩)
        · cases h
        · rw [h] at hrename
          exact hrename.elim (fun h => (by cases h)) hname
        · cases h
      · obtain ⟨hsource, htemporary⟩ := @final_renamed faults srcFileName done files hunlink hrename
        obtain ⟨hrenames, hname⟩ := not_or.mp hrename
        rw [Bool.not_eq_true] at hrenames
        rw [hsource, htemporary, Option.some.injEq]
        have hfails : AnyFails faults srcFileName done ↔ WriteFails faults done := by
          unfold AnyFails
          rw [hunlink, hrenames]
          exact or_iff_left fun h => (by simp [hname] at h)
        rw [hfails]
        constructor
        · intro ⟨hwritten, hkept⟩
          refine Or.inl ⟨hname, Or.inr ⟨rfl, hrenames, hwritten, fun h => ?_⟩⟩
          obtain hsame | hnone := hkept h
          · exact hwritten.symm.trans (Option.some.inj hsame)
          · cases hnone
        · rintro (⟨-, ⟨h, -⟩ | ⟨-, -, hwritten, hkept⟩⟩ | h)
          · cases h
          · exact ⟨hwritten, fun h => Or.inl (congrArg some (hwritten.trans (hkept h)))⟩
          · exact absurd h.1 hname

theorem replace_file_returns : (replaceFile (cardFat faults) srcFileName t).1 =
    some .fileCopied := by
  unfold replaceFile
  simp only
  split_ifs <;> rfl

section Call

variable {size : BitVec 32}

/-- A call that gets to its loop returns only if every byte can be read, and then with the files in
their final state. -/
theorem update_returned (h : ¬ Refused faults s)
    (hcontent : s.card.files srcFileName = some content) {code : SdCode} {s' : SdState Card}
    (hrun : (Operation.updateFile srcFileName stringToUpdate updatedString size).run
      (cardFat faults) turns s = (some code, s')) :
    WhollyReadable faults content ∧ code = .fileCopied ∧
      s'.card.files = finalFiles faults srcFileName s.card.files
        (rewritten stringToUpdate updatedString size.toNat content) ∧
      ((∃ event ∈ s'.log, event.StepFails) ↔ AnyFails faults srcFileName
        (rewritten stringToUpdate updatedString size.toNat content)) := by
  obtain ⟨t, hupdating, hstarted⟩ := @update_started faults srcFileName stringToUpdate
    updatedString content s size h hcontent
  rw [hstarted turns] at hrun
  split_ifs at hrun with hended
  swap
  · cases hrun
  have hreads : WhollyReadable faults content := by
    intro pos hpos
    by_contra hfails
    rw [Bool.not_eq_false] at hfails
    rw [update_loop_stuck hfails hpos turns (Nat.zero_le _) hupdating.source] at hended
    cases hended
  have hloop := hupdating.loop hreads (Nat.zero_le _) hended
  rw [List.nil_append, List.drop_zero] at hloop
  obtain ⟨t', hreplaced, hfiles, hfailed⟩ := hloop.replaced hcontent
  rw [hreplaced] at hrun
  cases hrun
  exact ⟨hreads, rfl, hfiles, hfailed⟩

/-- If every byte can be read, then a call with enough turns returns. -/
theorem update_returns (hcontent : s.card.files srcFileName = some content)
    (hreads : WhollyReadable faults content) : ∃ turns code s',
      (Operation.updateFile srcFileName stringToUpdate updatedString size).run
        (cardFat faults) turns s = (some code, s') := by
  by_cases h : Refused faults s
  · obtain ⟨code, s', hrun, -⟩ := @update_refused faults srcFileName stringToUpdate updatedString
      content s size h hcontent 0
    exact ⟨0, code, s', hrun⟩
  · obtain ⟨t, hupdating, hstarted⟩ := @update_started faults srcFileName stringToUpdate
      updatedString content s size h hcontent
    refine ⟨(pieces newline 126 content).length + 1, ?_⟩
    have hended := @Updating.loop_ends faults srcFileName stringToUpdate updatedString content []
      size.toNat 0 ((pieces newline 126 content).length + 1) _ t hupdating hreads (Nat.zero_le _)
      (by rw [List.drop_zero]; exact Nat.lt_succ_self _)
    have hloop := hupdating.loop hreads (Nat.zero_le _) hended
    obtain ⟨t', hreplaced, -, -⟩ := hloop.replaced hcontent
    refine ⟨.fileCopied, t', ?_⟩
    rw [hstarted, if_pos hended, hreplaced]

/-- Of a call that does not return, the files stay as they are in the loop. -/
theorem update_running (h : ¬ Refused faults s)
    (hcontent : s.card.files srcFileName = some content)
    (hrunning : ((Operation.updateFile srcFileName stringToUpdate updatedString size).run
      (cardFat faults) turns s).1 = none) :
    ((Operation.updateFile srcFileName stringToUpdate updatedString size).run
      (cardFat faults) turns s).2.card.files =
        Function.update s.card.files temporary (some []) := by
  obtain ⟨t, hupdating, hstarted⟩ := @update_started faults srcFileName stringToUpdate
    updatedString content s size h hcontent
  rw [hstarted turns] at hrunning ⊢
  split_ifs at hrunning ⊢ with hended
  · rw [replace_file_returns] at hrunning
    cases hrunning
  · exact (update_loop_files turns t).trans hupdating.files

/-- A call that gets to its loop and returns. -/
theorem kept_of_readable (h : ¬ Refused faults s)
    (hcontent : s.card.files srcFileName = some content) (hreads : WhollyReadable faults content) :
    UpdateKept faults srcFileName stringToUpdate updatedString size content s ↔
      (finalFiles faults srcFileName s.card.files
          (rewritten stringToUpdate updatedString size.toNat content) srcFileName =
            some (updatedContent stringToUpdate updatedString size.toNat content) ∧
        (AnyFails faults srcFileName
            (rewritten stringToUpdate updatedString size.toNat content) →
          finalFiles faults srcFileName s.card.files
              (rewritten stringToUpdate updatedString size.toNat content) srcFileName =
                some content ∨
            finalFiles faults srcFileName s.card.files
              (rewritten stringToUpdate updatedString size.toNat content) temporary =
                some content)) := by
  constructor
  · intro hkept
    obtain ⟨turns, code, s', hrun⟩ := @update_returns faults srcFileName stringToUpdate
      updatedString content s size hcontent hreads
    obtain ⟨-, rfl, hfiles, hfailed⟩ := update_returned h hcontent hrun
    rw [← hfiles]
    exact ⟨hkept.updated turns s' hrun, fun hfails => hkept.kept turns _ s' hrun
      (hfailed.mpr hfails)⟩
  · intro ⟨hupdated, hkept⟩
    constructor
    · intro turns s' hrun
      obtain ⟨-, -, hfiles, -⟩ := update_returned h hcontent hrun
      rw [hfiles]
      exact hupdated
    · intro turns code s' hrun hfails
      obtain ⟨-, -, hfiles, hfailed⟩ := update_returned h hcontent hrun
      unfold Kept
      rw [hfiles]
      exact hkept (hfailed.mp hfails)
    · intro hrunning
      obtain ⟨turns, code, s', hrun⟩ := @update_returns faults srcFileName stringToUpdate
        updatedString content s size hcontent hreads
      have hnone := hrunning turns
      rw [hrun] at hnone
      cases hnone

/-- A call that gets to its loop and does not return. -/
theorem kept_of_unreadable (h : ¬ Refused faults s)
    (hcontent : s.card.files srcFileName = some content)
    (hreads : ¬ WhollyReadable faults content) :
    UpdateKept faults srcFileName stringToUpdate updatedString size content s ↔
      srcFileName ≠ temporary := by
  have hrunning : ∀ turns, ((Operation.updateFile srcFileName stringToUpdate updatedString
      size).run (cardFat faults) turns s).1 = none := by
    intro turns
    cases hrun : ((Operation.updateFile srcFileName stringToUpdate updatedString size).run
        (cardFat faults) turns s).1 with
    | none => rfl
    | some code => exact absurd (update_returned h hcontent (Prod.ext hrun rfl)).1 hreads
  constructor
  · intro hkept hname
    have hempty := hkept.running hrunning 0
    unfold Kept at hempty
    rw [update_running h hcontent (hrunning 0), hname, Function.update_self, or_self,
      Option.some.injEq] at hempty
    refine hreads fun pos hpos => ?_
    rw [← hempty] at hpos
    cases hpos
  · intro hname
    constructor
    · intro turns s' hrun
      have hnone := hrunning turns
      rw [hrun] at hnone
      cases hnone
    · intro turns code s' hrun
      have hnone := hrunning turns
      rw [hrun] at hnone
      cases hnone
    · intro _ turns
      unfold Kept
      rw [update_running h hcontent (hrunning turns), Function.update_of_ne hname]
      exact Or.inl hcontent

/-- An update does what is asked of it exactly with the harmless inputs. -/
theorem update_kept_iff (hcontent : s.card.files srcFileName = some content) :
    UpdateKept faults srcFileName stringToUpdate updatedString size content s ↔
      UpdateHarmless faults srcFileName stringToUpdate updatedString size.toNat content s := by
  unfold UpdateHarmless
  by_cases hrefused : Refused faults s
  · refine iff_of_true ?_ (Or.inl hrefused)
    have hruns := fun turns => @update_refused faults srcFileName stringToUpdate updatedString
      content s size hrefused hcontent turns
    constructor
    · intro turns s' hrun
      obtain ⟨code, t, hreturned, hcode, -⟩ := hruns turns
      rw [hrun] at hreturned
      cases hreturned
      exact absurd rfl hcode
    · intro turns code s' hrun ⟨event, hmem, hfails⟩
      obtain ⟨code', t, hreturned, -, hevents⟩ := hruns turns
      rw [hrun] at hreturned
      cases hreturned
      exact absurd hfails (hevents event hmem)
    · intro hrunning
      obtain ⟨code, t, hreturned, -⟩ := hruns 0
      have hnone := hrunning 0
      rw [hreturned] at hnone
      cases hnone
  rw [or_iff_right hrefused]
  by_cases hreads : WhollyReadable faults content
  · rw [kept_of_readable hrefused hcontent hreads, final_files_iff hcontent, rewrites_right_iff,
      rewrites_same_iff]
    rw [or_iff_right (not_not.mpr hreads), and_iff_right hreads]
  · rw [kept_of_unreadable hrefused hcontent hreads]
    constructor
    · exact fun hname => Or.inl ⟨hname, Or.inl hreads⟩
    · rintro (h | h)
      · exact h.1
      · exact absurd h.2.1 hreads

end Call

end Proofs

/-! ## A last line -/

/-- No step fails. -/
def noFaults : Faults where
  openFails _ := false
  closeFails _ := false
  readFails _ := false
  writeFails _ := false
  unlinkFails := false
  renameFails := false

/-- Two lines, the last one without a newline. -/
def twoLines : List UInt8 := ['a'.toUInt8, newline, 'b'.toUInt8]

/-- The module with a card that holds them in a file `f`. -/
def beforeUpdate : SdState Card where
  card := ⟨Function.update (fun _ => none) ['f'.toUInt8] (some twoLines), fun _ => none⟩
  noInit := false
  sdCommand := .inactive
  log := []

theorem update_kept_iff_two_lines :
    UpdateKept noFaults ['f'.toUInt8] ['x'.toUInt8] ['y'.toUInt8] 0 twoLines beforeUpdate ↔
      UpdateHarmless noFaults ['f'.toUInt8] ['x'.toUInt8] ['y'.toUInt8] (0 : BitVec 32).toNat
        twoLines beforeUpdate :=
  update_kept_iff (by decide)

/-- No line matches, and the last one is lost. -/
theorem last_line_lost :
    ¬ UpdateKept noFaults ['f'.toUInt8] ['x'.toUInt8] ['y'.toUInt8] 0 twoLines beforeUpdate := by
  intro hkept
  have hupdated := hkept.updated 2 _ rfl
  revert hupdated
  decide

end TivaAws.Sd
