import TivaAws.Foundation.Lifetime
import TivaAws.Sd.Operations

/-!
# What an operation on the SD card leaves

When an operation returns, `sd_command`, the file objects and `Buff` are to be in order, and the
code of success is to say that every step it needed has succeeded in full. What FatFs answers
decides this (`proper_iff`).
-/

namespace TivaAws.Sd

open Lifetime

/-! ## The log -/

/-- A call has succeeded in full. A read may give less than asked for at the end of the file only,
and a line ends with a newline, with the buffer or with the file. -/
def Call.Full : (call : Call) → Answer call → (FileObject → Fil) → Prop
  | .fRead fp btr, answer, object =>
      answer.result = .ok ∧ (answer.buff.length = btr ∨ (object fp).eof = true)
  | .fWrite _ buff, answer, _ => answer.result = .ok ∧ answer.bw = buff.length
  | .fGets fp len, answer, object =>
      answer.buff.getLast? = some '\n'.toUInt8 ∨ answer.buff.length = len - 1 ∨
        (object fp).eof = true
  | .fPuts _ _, answer, _ | .fPrintf _ _, answer, _ => answer ≠ none
  | .fOpen _ _ _, answer, _ | .fClose _, answer, _ | .fLseek _ _, answer, _
  | .fUnlink _, answer, _ | .fRename _ _, answer, _ | .fMkdir _, answer, _
  | .fChdir _, answer, _ => answer = .ok

def Event.Full : Event → Prop
  | .call request answer object => request.Full answer object
  | .access _ _ => True

/-- The file object that an event opens or tries to open. -/
def Event.opens : Event → Option FileObject
  | .call (.fOpen fp _ _) _ _ => some fp
  | _ => none

/-- Whatever became of it, the file object is opened again right away. -/
def Retried (event : Event) (next : Option Event) : Prop :=
  ∃ fp, event.opens = some fp ∧ next.bind Event.opens = some fp

/-- Every step but those that are tried again has succeeded in full. -/
def Succeeded : List Event → Prop
  | [] => True
  | event :: rest => (event.Full ∨ Retried event rest.head?) ∧ Succeeded rest

/-- What an event does with the file objects. One that is not opened is as if it were closed at
once. -/
def Event.actions : Event → List (Action FileObject)
  | .call (.fOpen fp _ _) answer _ =>
      if answer = FResult.ok then [.acquire fp] else [.acquire fp, .release fp]
  | .call (.fClose fp) _ _ => [.release fp]
  | .call (.fRead fp _) _ _ | .call (.fWrite fp _) _ _ | .call (.fGets fp _) _ _
  | .call (.fPuts fp _) _ _ | .call (.fPrintf fp _) _ _ | .call (.fLseek fp _) _ _ => [.use fp]
  | .call (.fUnlink _) _ _ | .call (.fRename _ _) _ _ | .call (.fMkdir _) _ _
  | .call (.fChdir _) _ _ | .access _ _ => []

/-- An access stays in `Buff`. -/
def Event.Within : Event → Prop
  | .call _ _ _ => True
  | .access offset length => offset + length ≤ buffSize

/-- A read that succeeds and fills `Buff`. -/
def Event.FillsBuff : Event → Prop
  | .call (.fRead _ _) answer _ => answer.result = .ok ∧ answer.buff.length = buffSize
  | _ => False

/-- An `f_open` that succeeds. -/
def Opened : Option Event → Prop
  | some (.call (.fOpen _ _ _) answer _) => answer = FResult.ok
  | _ => False

/-- An `f_open` that fails. -/
def OpenFails : Option Event → Prop
  | some (.call (.fOpen _ _ _) answer _) => answer ≠ FResult.ok
  | _ => False

/-! ## What is asked of an operation -/

/-- An operation that was begun in one state returns in order. -/
structure Proper {σ : Type} (operation : Operation) (s : SdState σ) (code : SdCode)
    (s' : SdState σ) : Prop where
  inactive : s.sdCommand = .inactive → s'.sdCommand = .inactive
  used : Safe [] (s'.log.flatMap Event.actions)
  closed : remaining [] (s'.log.flatMap Event.actions) = []
  within : ∀ event ∈ s'.log, event.Within
  reported : code = operation.success → Succeeded s'.log

/-- The answers with which an operation returns in order. -/
def Sound : Operation → List Event → Prop
  | .changeDir _, _ | .createDir _, _ | .deleteFile _, _ | .renameFile _ _, _ => True
  | .createFile _, log => OpenFails log[0]? ∨ Succeeded log
  | .readFile _ _, log =>
      OpenFails log[0]? ∨ (Succeeded log ∧ ∀ event ∈ log, ¬ event.FillsBuff)
  | .copyFile _ _, log =>
      OpenFails log[0]? ∨ (OpenFails log[1]? ∧ OpenFails log[2]?) ∨ Succeeded log
  | .updateFile _ _ _ _, log => OpenFails log[0]? ∨ OpenFails log[1]? ∨ Succeeded log
  | .writeFile _ _, log => Succeeded log ∧ ¬ Opened log[1]?

section Proofs

variable {σ : Type} {fat : FatFs σ} {s s' : SdState σ} {code : SdCode} {operation : Operation}

/-! ## Calls and the log -/

@[simp] theorem record_log (event : Event) : (s.record event).log = s.log ++ [event] := rfl

@[simp] theorem record_command (event : Event) : (s.record event).sdCommand = s.sdCommand := rfl

@[simp] theorem set_command_log (command : SdCode) : (s.setCommand command).log = s.log := rfl

@[simp] theorem set_command_command (command : SdCode) :
    (s.setCommand command).sdCommand = command := rfl

@[simp] theorem call_log (call : Call) : (fat.call call s).2.log =
    s.log ++ [.call call (fat.call call s).1 (fat.object (fat.call call s).2.card)] := rfl

/-- What a call with a known answer adds to the log. -/
theorem call_log_eq {log : List Event} {call : Call} {answer : Answer call} (hlog : s.log = log)
    (hanswer : (fat.call call s).1 = answer) :
    ∃ object, (fat.call call s).2.log = log ++ [.call call answer object] :=
  ⟨fat.object (fat.call call s).2.card, by rw [← hlog, ← hanswer]; rfl⟩

@[simp] theorem call_command (call : Call) : (fat.call call s).2.sdCommand = s.sdCommand := rfl

/-- An operation that is not begun leaves everything as it is. Otherwise it is begun with an empty
log. -/
theorem when_idle_cases {command : SdCode} {work : SdState σ → Option SdCode × SdState σ}
    (h : whenIdle command work { s with log := [] } = (some code, s')) :
    (s'.log = [] ∧ s'.sdCommand = s.sdCommand) ∨ ∃ t, t.log = [] ∧ work t = (some code, s') := by
  unfold whenIdle at h
  split_ifs at h with hnoInit hinactive
  · cases h
    exact Or.inl ⟨rfl, rfl⟩
  · exact Or.inr ⟨_, rfl, h⟩
  · cases h
    exact Or.inl ⟨rfl, rfl⟩

/-- Without a call everything is in order. -/
theorem proper_of_no_log (hlog : s'.log = []) (hcommand : s'.sdCommand = s.sdCommand) :
    Proper operation s code s' where
  inactive h := hcommand.trans h
  used := by
    rw [hlog]
    trivial
  closed := by
    rw [hlog]
    rfl
  within := by
    rw [hlog]
    exact List.forall_mem_nil _
  reported _ := by
    rw [hlog]
    trivial

/-- Without a call the answers are as they should be. -/
theorem sound_nil : Sound operation [] := by
  cases operation with
  | readFile => exact Or.inr ⟨trivial, List.forall_mem_nil _⟩
  | createFile => exact Or.inr trivial
  | copyFile | updateFile => exact Or.inr (Or.inr trivial)
  | writeFile => exact ⟨trivial, id⟩
  | _ => trivial

/-- What is left to show of an operation that has reset `sd_command`. -/
theorem proper_iff_of_log {log : List Event} (hcommand : s'.sdCommand = .inactive)
    (hlog : s'.log = log) : Proper operation s code s' ↔
      ((Safe [] (log.flatMap Event.actions) ∧ remaining [] (log.flatMap Event.actions) = []) ∧
        (∀ event ∈ log, event.Within)) ∧ (code = operation.success → Succeeded log) := by
  rw [← hlog]
  constructor
  · exact fun h => ⟨⟨⟨h.used, h.closed⟩, h.within⟩, h.reported⟩
  · exact fun h => ⟨fun _ => hcommand, h.1.1.1, h.1.1.2, h.1.2, h.2⟩

theorem proper_finish_iff {log : List Event} (hlog : s'.log = log) :
    Proper operation s code (s'.setCommand .inactive) ↔
      ((Safe [] (log.flatMap Event.actions) ∧ remaining [] (log.flatMap Event.actions) = []) ∧
        (∀ event ∈ log, event.Within)) ∧ (code = operation.success → Succeeded log) :=
  proper_iff_of_log rfl hlog

/-! ## Operations that are a single call -/

/-- A single call that is no access to a file is in order if its code tells success from failure. -/
theorem proper_single_call {command : SdCode} {call : Call} {codeOf : Answer call → SdCode}
    (hactions : ∀ answer object, (Event.call call answer object).actions = [])
    (hcode : ∀ answer object, codeOf answer = operation.success → call.Full answer object)
    (h : singleCall fat command call codeOf { s with log := [] } = (some code, s')) :
    Proper operation s code s' := by
  obtain ⟨hlog, hcommand⟩ | ⟨t, hlog, h⟩ := when_idle_cases h
  · exact proper_of_no_log hlog hcommand
  cases h
  have hcalled : ((fat.call call t).2.setCommand .inactive).log =
      [.call call (fat.call call t).1 (fat.object (fat.call call t).2.card)] := by
    rw [set_command_log, call_log, hlog]
    rfl
  refine (proper_iff_of_log rfl hcalled).mpr ⟨⟨?_, ?_⟩, fun hsuccess => ?_⟩
  · rw [List.flatMap_singleton, hactions]
    exact ⟨trivial, rfl⟩
  · exact List.forall_mem_singleton.mpr trivial
  · exact ⟨Or.inl (hcode _ _ hsuccess), trivial⟩

/-! ## Creating a file -/

theorem create_file_iff {fileName : Path}
    (h : createFile fat fileName { s with log := [] } = (some code, s')) :
    Proper (.createFile fileName) s code s' ↔ Sound (.createFile fileName) s'.log := by
  obtain ⟨hlog, hcommand⟩ | ⟨t, hlog, h⟩ := when_idle_cases h
  · exact iff_of_true (proper_of_no_log hlog hcommand) (hlog ▸ sound_nil)
  simp only at h
  split_ifs at h with hopened
  · cases h
    rw [proper_iff_of_log rfl rfl]
    simp [hlog, hopened, Event.actions, Event.Within, Sound, OpenFails, Operation.success,
      Succeeded, Event.Full, Call.Full, Retried, Event.opens]
    exact fun _ => by decide
  · cases h
    rw [proper_iff_of_log rfl rfl]
    simp [hlog, hopened, Event.actions, Event.Within, Sound, OpenFails, Operation.success]
    decide

/-! ## Reading a file -/

/-- What a loop adds to the log, where only the given files are used. -/
structure Turns (files : List FileObject) (s s' : SdState σ) (events : List Event) : Prop where
  log : s'.log = s.log ++ events
  uses : Uses files (events.flatMap Event.actions)

theorem Turns.refl (files : List FileObject) (s : SdState σ) : Turns files s s [] :=
  ⟨(List.append_nil _).symm, fun _ hmem => (by cases hmem)⟩

theorem Turns.trans {files : List FileObject} {middle : SdState σ} {events later : List Event}
    (hfirst : Turns files s middle events) (hlater : Turns files middle s' later) :
    Turns files s s' (events ++ later) := by
  constructor
  · rw [hlater.log, hfirst.log, List.append_assoc]
  · rw [List.flatMap_append]
    exact hfirst.uses.append hlater.uses

/-- An access behind the buffer and a read that fills it come together. -/
def Balanced (events : List Event) : Prop :=
  (∀ event ∈ events, event.Within) ↔ ∀ event ∈ events, ¬ event.FillsBuff

theorem Balanced.append {events later : List Event} (hfirst : Balanced events)
    (hlater : Balanced later) : Balanced (events ++ later) := by
  unfold Balanced at *
  rw [List.forall_mem_append, List.forall_mem_append, hfirst, hlater]

theorem balanced_nil : Balanced [] :=
  iff_of_true (List.forall_mem_nil _) (List.forall_mem_nil _)

/-- The access of `printf_UART`. -/
def printEvents (verbose : Bool) (buff : List UInt8) : List Event :=
  if verbose then [.access 0 ((cString buff).length + 1)] else []

theorem print_log (verbose : Bool) (buff : List UInt8) :
    (printBuff verbose buff s).log = s.log ++ printEvents verbose buff := by
  cases verbose with
  | true => rfl
  | false => exact (List.append_nil _).symm

/-- The read of a turn of the loop of `ReadFile`. -/
def readEvents (cnt : ℕ) (answer : ReadAnswer cnt) (object : FileObject → Fil) : List Event :=
  [.access 0 cnt, .call (.fRead .fileObj cnt) answer object]

theorem read_events_uses {cnt : ℕ} {answer : ReadAnswer cnt} {object : FileObject → Fil} :
    Uses [FileObject.fileObj] ((readEvents cnt answer object).flatMap Event.actions) := by
  intro action hmem
  exact ⟨_, List.mem_singleton_self _, List.mem_singleton.mp hmem⟩

/-- What a turn of the loop of `ReadFile` adds to the log if the read succeeds in full. -/
theorem read_turn_balanced (verbose : Bool) {cnt : ℕ} (hcnt : cnt ≤ buffSize)
    {answer : ReadAnswer cnt} {object : FileObject → Fil} (hresult : answer.result = .ok)
    (hlength : answer.buff.length = cnt) :
    Balanced (readEvents cnt answer object ++
      (Event.access cnt 1 :: printEvents verbose answer.buff)) := by
  have hstring : (cString answer.buff).length ≤ answer.buff.length :=
    (List.takeWhile_sublist _).length_le
  have hprint : cnt + 1 ≤ buffSize → ∀ event ∈ printEvents verbose answer.buff, event.Within := by
    intro h event hmem
    cases verbose with
    | true =>
        cases List.mem_singleton.mp hmem
        show 0 + ((cString answer.buff).length + 1) ≤ buffSize
        omega
    | false => cases hmem
  have hprint' : ∀ event ∈ printEvents verbose answer.buff, ¬ event.FillsBuff := by
    intro event hmem
    cases verbose with
    | true =>
        cases List.mem_singleton.mp hmem
        exact id
    | false => cases hmem
  constructor
  · intro h
    have hend : cnt + 1 ≤ buffSize := h (.access cnt 1) (by simp [readEvents])
    refine List.forall_mem_append.mpr ⟨List.forall_mem_cons.mpr ⟨id,
      List.forall_mem_singleton.mpr fun hfills => ?_⟩, List.forall_mem_cons.mpr ⟨id, hprint'⟩⟩
    have hfull : answer.buff.length = buffSize := hfills.2
    omega
  · intro h
    have hread : ¬ (answer.result = .ok ∧ answer.buff.length = buffSize) :=
      h (.call (.fRead .fileObj cnt) answer object) (by simp [readEvents])
    have hend : cnt + 1 ≤ buffSize := by
      have hne : answer.buff.length ≠ buffSize := fun hfull => hread ⟨hresult, hfull⟩
      omega
    refine List.forall_mem_append.mpr ⟨List.forall_mem_cons.mpr ⟨?_,
      List.forall_mem_singleton.mpr trivial⟩, List.forall_mem_cons.mpr ⟨hend, hprint hend⟩⟩
    show 0 + cnt ≤ buffSize
    omega

/-- What a turn of the loop of `ReadFile` adds to the log if the read does not. -/
theorem read_balanced {cnt : ℕ} (hcnt : cnt ≤ buffSize) {answer : ReadAnswer cnt}
    {object : FileObject → Fil} (h : answer.result = .ok → answer.buff.length ≠ cnt) :
    Balanced (readEvents cnt answer object) := by
  refine iff_of_true ?_ ?_
  · refine List.forall_mem_cons.mpr ⟨?_, List.forall_mem_singleton.mpr trivial⟩
    show 0 + cnt ≤ buffSize
    omega
  · refine List.forall_mem_cons.mpr ⟨id, List.forall_mem_singleton.mpr fun hfills => ?_⟩
    have hle := answer.length_le
    have hfull : answer.buff.length = buffSize := hfills.2
    have hne := h hfills.1
    omega

/-- The loop of `ReadFile` uses the file, and it leaves the buffer just when a read fills it. -/
theorem read_loop_turns (verbose : Bool) (p1 : ℕ) (s : SdState σ) :
    ∃ events, Turns [.fileObj] s (readLoop fat verbose p1 s) events ∧ Balanced events := by
  fun_induction readLoop fat verbose p1 s with
  | case1 s => exact ⟨[], .refl _ s, balanced_nil⟩
  | case2 p1 s hp cnt read hresult hlength ended ih =>
      obtain ⟨events, hturns, hbalanced⟩ := ih
      have hfirst := @read_turn_balanced verbose cnt (Nat.min_le_right _ _) read.1
        (fat.object read.2.card) hresult hlength
      refine ⟨_, Turns.trans ⟨?_, ?_⟩ hturns, hfirst.append hbalanced⟩
      · rw [print_log]
        simp [ended, read, readEvents]
      · have hprint : (printEvents verbose read.1.buff).flatMap Event.actions = [] := by
          cases verbose <;> rfl
        rw [List.flatMap_append, List.flatMap_cons, hprint]
        exact read_events_uses.append fun _ hmem => (by cases hmem)
  | case3 p1 s hp cnt read hresult hlength =>
      refine ⟨readEvents cnt read.1 (fat.object read.2.card), ⟨?_, read_events_uses⟩,
        read_balanced (Nat.min_le_right _ _) fun _ => hlength⟩
      simp [read, readEvents]
  | case4 p1 s hp cnt read hresult =>
      refine ⟨readEvents cnt read.1 (fat.object read.2.card), ⟨?_, read_events_uses⟩,
        read_balanced (Nat.min_le_right _ _) fun h => absurd h hresult⟩
      simp [read, readEvents]

/-- One file that is opened, used and closed. -/
theorem file_closed {fp : FileObject} {actions : List (Action FileObject)}
    (h : Uses [fp] actions) : Safe [] ([.acquire fp] ++ (actions ++ [.release fp])) ∧
      remaining [] ([.acquire fp] ++ (actions ++ [.release fp])) = [] := by
  have hopened : Safe [] [Action.acquire fp] := ⟨List.not_mem_nil, trivial⟩
  refine (Uses.between hopened h).mpr ⟨⟨List.mem_singleton_self fp, trivial⟩, ?_⟩
  show [fp].erase fp = []
  rw [List.erase_cons_head]

theorem read_file_iff {fileName : Path} {verbose : Bool}
    (h : readFile fat fileName verbose { s with log := [] } = (some code, s')) :
    Proper (.readFile fileName verbose) s code s' ↔ Sound (.readFile fileName verbose) s'.log := by
  obtain ⟨hlog, hcommand⟩ | ⟨t, hlog, h⟩ := when_idle_cases h
  · exact iff_of_true (proper_of_no_log hlog hcommand) (hlog ▸ sound_nil)
  simp only at h
  split_ifs at h with hopened
  · obtain ⟨opening, hopening⟩ := call_log_eq hlog hopened
    obtain ⟨events, hturns, hbalanced⟩ := @read_loop_turns σ fat verbose
      (fat.object (fat.call (.fOpen .fileObj fileName faRead) t).2.card .fileObj).fsize
      (fat.call (.fOpen .fileObj fileName faRead) t).2
    cases h
    generalize readLoop fat verbose _ _ = t' at hturns ⊢
    obtain ⟨closing, hclosing⟩ := @call_log_eq σ fat t' _ (.fClose .fileObj) _ hturns.log rfl
    rw [hopening, List.append_assoc, List.nil_append] at hclosing
    have hbuff : Balanced ([.call (.fOpen .fileObj fileName faRead) FResult.ok opening] ++
        (events ++ [.call (.fClose .fileObj) (fat.call (.fClose .fileObj) t').1 closing])) :=
      Balanced.append (iff_of_true (List.forall_mem_singleton.mpr trivial)
        (List.forall_mem_singleton.mpr id)) (hbalanced.append (iff_of_true
        (List.forall_mem_singleton.mpr trivial) (List.forall_mem_singleton.mpr id)))
    rw [proper_finish_iff hclosing, set_command_log, hclosing]
    constructor
    · exact fun h => Or.inr ⟨h.2 rfl, hbuff.mp h.1.2⟩
    · rintro (hfails | ⟨hsucceeded, hfills⟩)
      · exact absurd rfl hfails
      · refine ⟨⟨?_, hbuff.mpr hfills⟩, fun _ => hsucceeded⟩
        rw [List.flatMap_append, List.flatMap_append]
        exact file_closed hturns.uses
  · cases h
    rw [proper_iff_of_log rfl rfl]
    simp [hlog, hopened, Event.actions, Event.Within, Sound, OpenFails, Operation.success]
    decide

/-! ## Copying a file -/

/-- With both files open, everything is in order if every step has succeeded in full. -/
theorem proper_opened_iff {openings events closing : List Event}
    (hcommand : s'.sdCommand = .inactive) (hlog : s'.log = openings ++ (events ++ closing))
    (hopenings : Safe [] (openings.flatMap Event.actions) ∧
      remaining [] (openings.flatMap Event.actions) = [.fileObj2, .fileObj])
    (huses : Uses [.fileObj2, .fileObj] (events.flatMap Event.actions))
    (hclosing : closing.flatMap Event.actions = [.release .fileObj, .release .fileObj2])
    (hwithin : ∀ event ∈ s'.log, event.Within) (hcode : code = operation.success) :
    Proper operation s code s' ↔ Succeeded s'.log := by
  rw [proper_iff_of_log hcommand rfl]
  constructor
  · exact fun h => h.2 hcode
  · refine fun h => ⟨⟨?_, hwithin⟩, fun _ => h⟩
    rw [hlog, List.flatMap_append, List.flatMap_append, hclosing]
    rw [← hopenings.2] at huses
    refine (huses.between hopenings.1).mpr ?_
    rw [hopenings.2]
    decide

/-- A call in a loop behind an access to the buffer. -/
theorem access_call_turns {files : List FileObject} {fp : FileObject} {length : ℕ} {call : Call}
    (hfp : fp ∈ files) (hactions : ∀ answer object,
      (Event.call call answer object).actions = [.use fp]) (hlength : length ≤ buffSize) :
    ∃ events, Turns files s (fat.call call (s.record (.access 0 length))).2 events ∧
      ∀ event ∈ events, event.Within := by
  generalize hcalled : fat.call call (s.record (.access 0 length)) = called
  refine ⟨[.access 0 length, .call call called.1 (fat.object called.2.card)], ⟨?_, ?_⟩, ?_⟩
  · subst hcalled
    rw [call_log, record_log, List.append_assoc]
    rfl
  · intro action hmem
    rw [List.flatMap_cons, List.flatMap_singleton, hactions] at hmem
    exact ⟨fp, hfp, List.mem_singleton.mp hmem⟩
  · refine List.forall_mem_cons.mpr ⟨?_, List.forall_mem_singleton.mpr trivial⟩
    show 0 + length ≤ buffSize
    omega

/-- The loop of `CopyFile` uses both files and stays in the buffer. -/
theorem copy_loop_turns (turns : ℕ) (s : SdState σ) :
    ∃ events, Turns [.fileObj2, .fileObj] s (copyLoop fat turns s).2 events ∧
      ∀ event ∈ events, event.Within := by
  induction turns generalizing s with
  | zero => exact ⟨[], .refl _ s, List.forall_mem_nil _⟩
  | succ turns ih =>
      obtain ⟨reading, hreading, hread⟩ := @access_call_turns σ fat s [.fileObj2, .fileObj]
        .fileObj buffSize (.fRead .fileObj buffSize) (by decide) (fun _ _ => rfl) (Nat.le_refl _)
      rw [copyLoop]
      generalize fat.call (.fRead .fileObj buffSize) (s.record (.access 0 buffSize)) = read
        at hreading ⊢
      obtain ⟨writing, hwriting, hwritten⟩ := @access_call_turns σ fat read.2
        [.fileObj2, .fileObj] .fileObj2 read.1.buff.length (.fWrite .fileObj2 read.1.buff)
        (by decide) (fun _ _ => rfl) read.1.length_le
      have hturn : ∀ event ∈ reading ++ writing, event.Within :=
        List.forall_mem_append.mpr ⟨hread, hwritten⟩
      simp only
      split_ifs with hends hfull
      · exact ⟨reading, hreading, hread⟩
      · exact ⟨_, hreading.trans hwriting, hturn⟩
      · obtain ⟨events, hturns, hevents⟩ := ih (fat.call (.fWrite .fileObj2 read.1.buff)
          (read.2.record (.access 0 read.1.buff.length))).2
        exact ⟨_, (hreading.trans hwriting).trans hturns,
          List.forall_mem_append.mpr ⟨hturn, hevents⟩⟩

/-- With both files open, `CopyFile` reports success in any case. -/
theorem copy_opened_iff {turns : ℕ} {openings : List Event} {t : SdState σ}
    (hlog : t.log = openings)
    (hopenings : Safe [] (openings.flatMap Event.actions) ∧
      remaining [] (openings.flatMap Event.actions) = [.fileObj2, .fileObj])
    (hwithin : ∀ event ∈ openings, event.Within) (hsuccess : operation.success = .fileCopied)
    (h : copyOpened fat turns t = (some code, s')) :
    (Proper operation s code s' ↔ Succeeded s'.log) ∧ openings <+: s'.log := by
  obtain ⟨events, hturns, hevents⟩ := @copy_loop_turns σ fat turns t
  unfold copyOpened at h
  simp only at h
  split_ifs at h with hcopied
  swap
  · cases h
  cases h
  have hcopy := hturns.log
  rw [hlog] at hcopy
  generalize (copyLoop fat turns t).2 = copied at hcopy ⊢
  obtain ⟨object, hclosed⟩ := @call_log_eq σ fat copied _ (.fClose .fileObj) _ hcopy rfl
  generalize fat.call (.fClose .fileObj) copied = closed at hclosed ⊢
  obtain ⟨object2, hclosed2⟩ := @call_log_eq σ fat closed.2 _ (.fClose .fileObj2) _ hclosed rfl
  rw [List.append_assoc, List.append_assoc] at hclosed2
  refine ⟨?_, ⟨_, hclosed2.symm⟩⟩
  refine proper_opened_iff rfl hclosed2 hopenings hturns.uses rfl ?_ hsuccess.symm
  rw [set_command_log, hclosed2]
  exact List.forall_mem_append.mpr ⟨hwithin, List.forall_mem_append.mpr ⟨hevents,
    List.forall_mem_cons.mpr ⟨trivial, List.forall_mem_singleton.mpr trivial⟩⟩⟩

theorem copy_file_iff {turns : ℕ} {srcFileName : Path} {dstFileName : List UInt8}
    (h : copyFile fat turns srcFileName dstFileName { s with log := [] } = (some code, s')) :
    Proper (.copyFile srcFileName dstFileName) s code s' ↔
      Sound (.copyFile srcFileName dstFileName) s'.log := by
  obtain ⟨hlog, hcommand⟩ | ⟨t, hlog, h⟩ := when_idle_cases h
  · exact iff_of_true (proper_of_no_log hlog hcommand) (hlog ▸ sound_nil)
  simp only at h
  split_ifs at h with hsource htarget hagain
  · obtain ⟨object, hsources⟩ := call_log_eq hlog hsource
    obtain ⟨object2, htargets⟩ := call_log_eq hsources htarget
    obtain ⟨hiff, back, hback⟩ := @copy_opened_iff σ fat s s' code
      (.copyFile srcFileName dstFileName) turns _ _ htargets
      (show Safe [] [.acquire _, .acquire _] ∧ remaining [] [.acquire _, .acquire _] = _ by decide)
      (by simp [Event.Within]) rfl h
    rw [hiff, ← hback]
    constructor
    · exact fun h => Or.inr (Or.inr h)
    · rintro (hfails | ⟨hfails, -⟩ | h)
      · exact absurd rfl hfails
      · exact absurd rfl hfails
      · exact h
  · -- The target is open at the second try.
    obtain ⟨object, hsources⟩ := call_log_eq hlog hsource
    obtain ⟨object2, htargets⟩ := @call_log_eq σ fat _ _ (.fOpen .fileObj2 (cString dstFileName)
      (faCreateAlways ||| faWrite)) _ hsources rfl
    obtain ⟨object3, hagains⟩ := call_log_eq htargets hagain
    obtain ⟨hiff, back, hback⟩ := @copy_opened_iff σ fat s s' code
      (.copyFile srcFileName dstFileName) turns _ _ hagains
      (by
        simp [Event.actions, htarget]
        decide)
      (by simp [Event.Within]) rfl h
    rw [hiff, ← hback]
    constructor
    · exact fun h => Or.inr (Or.inr h)
    · rintro (hfails | ⟨-, hfails⟩ | h)
      · exact absurd rfl hfails
      · exact absurd rfl hfails
      · exact h
  · cases h
    rw [proper_iff_of_log rfl rfl]
    simp [hlog, hsource, htarget, hagain, Event.actions, Event.Within, Sound, OpenFails,
      Operation.success]
    decide
  · cases h
    rw [proper_iff_of_log rfl rfl]
    simp [hlog, hsource, Event.actions, Event.Within, Sound, OpenFails, Operation.success]
    decide

/-! ## Updating a file -/

/-- A call in a loop. -/
theorem call_turns {files : List FileObject} {fp : FileObject} {call : Call} (hfp : fp ∈ files)
    (hactions : ∀ answer object, (Event.call call answer object).actions = [.use fp]) :
    ∃ events, Turns files s (fat.call call s).2 events ∧ ∀ event ∈ events, event.Within := by
  refine ⟨_, ⟨call_log call, ?_⟩, List.forall_mem_singleton.mpr trivial⟩
  intro action hmem
  rw [List.flatMap_singleton, hactions] at hmem
  exact ⟨fp, hfp, List.mem_singleton.mp hmem⟩

/-- The loop of `UpdateFile` uses both files, and not the buffer. -/
theorem update_loop_turns (stringToUpdate updatedString : List UInt8) (stringSize turns : ℕ)
    (s : SdState σ) : ∃ events, Turns [.fileObj2, .fileObj] s
      (updateLoop fat stringToUpdate updatedString stringSize turns s).2 events ∧
      ∀ event ∈ events, event.Within := by
  induction turns generalizing s with
  | zero => exact ⟨[], .refl _ s, List.forall_mem_nil _⟩
  | succ turns ih =>
      obtain ⟨reading, hreading, hread⟩ := @call_turns σ fat s [.fileObj2, .fileObj]
        .fileObj (.fGets .fileObj 128) (by decide) (fun _ _ => rfl)
      rw [updateLoop]
      generalize fat.call (.fGets .fileObj 128) s = line at hreading ⊢
      simp only
      split_ifs with hends
      · exact ⟨reading, hreading, hread⟩
      all_goals
        obtain ⟨writing, hwriting, hwritten⟩ := @call_turns σ fat line.2 [.fileObj2, .fileObj]
          .fileObj2 (.fPuts .fileObj2 _) (by decide) (fun _ _ => rfl)
        obtain ⟨events, hturns, hevents⟩ := ih (fat.call (.fPuts .fileObj2 _) line.2).2
        exact ⟨_, (hreading.trans hwriting).trans hturns, List.forall_mem_append.mpr
          ⟨List.forall_mem_append.mpr ⟨hread, hwritten⟩, hevents⟩⟩

/-- Behind its loop, `UpdateFile` reports success in any case. -/
theorem replace_file_iff {srcFileName : Path} {openings events : List Event} {t : SdState σ}
    (hlog : t.log = openings ++ events)
    (hopenings : Safe [] (openings.flatMap Event.actions) ∧
      remaining [] (openings.flatMap Event.actions) = [.fileObj2, .fileObj])
    (huses : Uses [.fileObj2, .fileObj] (events.flatMap Event.actions))
    (hwithin : ∀ event ∈ openings ++ events, event.Within)
    (hsuccess : operation.success = .fileCopied)
    (h : replaceFile fat srcFileName t = (some code, s')) :
    (Proper operation s code s' ↔ Succeeded s'.log) ∧ openings <+: s'.log := by
  obtain ⟨hcommand, hcode, closing, hclosed, hclosing, hcalls⟩ : s'.sdCommand = .inactive ∧
      code = .fileCopied ∧ ∃ closing, s'.log = openings ++ (events ++ closing) ∧
        closing.flatMap Event.actions = [.release .fileObj, .release .fileObj2] ∧
        ∀ event ∈ closing, event.Within := by
    unfold replaceFile at h
    simp only at h
    obtain ⟨_, hclosed⟩ := @call_log_eq σ fat t _ (.fClose .fileObj) _ hlog rfl
    generalize fat.call (.fClose .fileObj) t = closed at h hclosed
    obtain ⟨_, hclosed2⟩ := @call_log_eq σ fat closed.2 _ (.fClose .fileObj2) _ hclosed rfl
    generalize fat.call (.fClose .fileObj2) closed.2 = closed2 at h hclosed2
    obtain ⟨_, hunlinked⟩ := @call_log_eq σ fat closed2.2 _ (.fUnlink srcFileName) _ hclosed2 rfl
    generalize fat.call (.fUnlink srcFileName) closed2.2 = unlinked at h hunlinked
    split_ifs at h
    · obtain ⟨_, hrenamed⟩ := @call_log_eq σ fat unlinked.2 _ (.fRename temporary srcFileName) _
        hunlinked rfl
      cases h
      simp only [List.append_assoc] at hrenamed
      exact ⟨rfl, rfl, _, hrenamed, rfl, by simp [Event.Within]⟩
    · cases h
      simp only [List.append_assoc] at hunlinked
      exact ⟨rfl, rfl, _, hunlinked, rfl, by simp [Event.Within]⟩
  refine ⟨proper_opened_iff hcommand hclosed hopenings huses hclosing ?_
    (hcode.trans hsuccess.symm), ⟨_, hclosed.symm⟩⟩
  rw [hclosed, ← List.append_assoc]
  exact List.forall_mem_append.mpr ⟨hwithin, hcalls⟩

theorem update_file_iff {turns : ℕ} {srcFileName : Path} {stringToUpdate updatedString : List UInt8}
    {stringSize : BitVec 32} (h : updateFile fat turns srcFileName stringToUpdate updatedString
      stringSize { s with log := [] } = (some code, s')) :
    Proper (.updateFile srcFileName stringToUpdate updatedString stringSize) s code s' ↔
      Sound (.updateFile srcFileName stringToUpdate updatedString stringSize) s'.log := by
  obtain ⟨hlog, hcommand⟩ | ⟨t, hlog, h⟩ := when_idle_cases h
  · exact iff_of_true (proper_of_no_log hlog hcommand) (hlog ▸ sound_nil)
  simp only at h
  split_ifs at h with hsource htarget hreturned
  · obtain ⟨object, hsources⟩ := call_log_eq hlog hsource
    obtain ⟨object2, htargets⟩ := call_log_eq hsources htarget
    obtain ⟨events, hturns, hevents⟩ := @update_loop_turns σ fat stringToUpdate updatedString
      stringSize.toNat turns (fat.call (.fOpen .fileObj2 temporary (faCreateAlways ||| faWrite))
        (fat.call (.fOpen .fileObj srcFileName (faOpenExisting ||| faRead)) t).2).2
    have hupdated := hturns.log
    rw [htargets] at hupdated
    obtain ⟨hiff, back, hback⟩ := @replace_file_iff σ fat s s' code
      (.updateFile srcFileName stringToUpdate updatedString stringSize) _ _ _ _ hupdated
      (show Safe [] [.acquire _, .acquire _] ∧ remaining [] [.acquire _, .acquire _] = _ by decide)
      hturns.uses (List.forall_mem_append.mpr ⟨by simp [Event.Within], hevents⟩) rfl h
    rw [hiff, ← hback]
    constructor
    · exact fun h => Or.inr (Or.inr h)
    · rintro (hfails | hfails | h)
      · exact absurd rfl hfails
      · exact absurd rfl hfails
      · exact h
  · cases h
  · cases h
    rw [proper_iff_of_log rfl rfl]
    simp [hlog, hsource, htarget, Event.actions, Event.Within, Sound, OpenFails,
      Operation.success]
    decide
  · cases h
    rw [proper_iff_of_log rfl rfl]
    simp [hlog, hsource, Event.actions, Event.Within, Sound, OpenFails, Operation.success]
    decide

/-! ## Writing a file -/

/-- The file is used and closed, however it was opened. -/
theorem append_string_log {string : List UInt8} {openings : List Event} {t : SdState σ}
    (hlog : t.log = openings) (h : appendString fat string t = (some code, s')) :
    s'.sdCommand = .inactive ∧ code = .fileWritten ∧ ∃ ofs seeked object1 printed object2 closed
      object3, s'.log = openings ++ [.call (.fLseek .fileObj ofs) seeked object1,
        .call (.fPrintf .fileObj (cString string)) printed object2,
        .call (.fClose .fileObj) closed object3] := by
  unfold appendString at h
  generalize (fat.object t.card .fileObj).fsize = ofs at h
  simp only at h
  obtain ⟨_, hseeked⟩ := @call_log_eq σ fat t _ (.fLseek .fileObj ofs) _ hlog rfl
  generalize fat.call (.fLseek .fileObj ofs) t = seeked at h hseeked
  obtain ⟨_, hprinted⟩ := @call_log_eq σ fat seeked.2 _ (.fPrintf .fileObj (cString string)) _
    hseeked rfl
  generalize fat.call (.fPrintf .fileObj (cString string)) seeked.2 = printed at h hprinted
  obtain ⟨_, hclosed⟩ := @call_log_eq σ fat printed.2 _ (.fClose .fileObj) _ hprinted rfl
  cases h
  rw [List.append_assoc, List.append_assoc] at hclosed
  exact ⟨rfl, rfl, _, _, _, _, _, _, _, hclosed⟩

theorem write_file_iff {srcFileName : Path} {string : List UInt8}
    (h : writeFile fat srcFileName string { s with log := [] } = (some code, s')) :
    Proper (.writeFile srcFileName string) s code s' ↔
      Sound (.writeFile srcFileName string) s'.log := by
  obtain ⟨hlog, hcommand⟩ | ⟨t, hlog, h⟩ := when_idle_cases h
  · exact iff_of_true (proper_of_no_log hlog hcommand) (hlog ▸ sound_nil)
  simp only at h
  obtain ⟨object, hopened⟩ := @call_log_eq σ fat t _ (.fOpen .fileObj srcFileName faWrite) _ hlog
    rfl
  generalize fat.call (.fOpen .fileObj srcFileName faWrite) t = opened at h hopened
  split_ifs at h with hnoFile
  · obtain ⟨object2, hcreated⟩ := @call_log_eq σ fat opened.2 _
      (.fOpen .fileObj srcFileName faCreateNew) _ hopened rfl
    generalize fat.call (.fOpen .fileObj srcFileName faCreateNew) opened.2 = created
      at h hcreated
    obtain ⟨object3, hagain⟩ := @call_log_eq σ fat created.2 _
      (.fOpen .fileObj srcFileName faWrite) _ hcreated rfl
    generalize fat.call (.fOpen .fileObj srcFileName faWrite) created.2 = again at h hagain
    obtain ⟨hcommand, hcode, ofs, seeked, _, printed, _, closed, _, hlog⟩ :=
      append_string_log hagain h
    rw [proper_iff_of_log hcommand rfl, hlog, hcode]
    by_cases hcreate : created.1 = FResult.ok <;> by_cases hopen : again.1 = FResult.ok <;>
      simp [hcreate, hopen, hnoFile, Event.actions, Event.Within, Sound, Opened,
        Operation.success, Succeeded, Event.Full, Call.Full, Retried, Event.opens]
    · -- What has just been created is opened again.
      exact fun hsafe => absurd hsafe (by decide)
    · exact fun _ _ _ => by decide
  · obtain ⟨hcommand, hcode, ofs, seeked, _, printed, _, closed, _, hlog⟩ :=
      append_string_log hopened h
    rw [proper_iff_of_log hcommand rfl, hlog, hcode]
    by_cases hopen : opened.1 = FResult.ok <;>
      simp [hopen, Event.actions, Event.Within, Sound, Opened,
        Operation.success, Succeeded, Event.Full, Call.Full, Retried, Event.opens]
    exact fun _ _ _ => by decide

/-- A code that is returned for `FR_OK` only. -/
theorem ok_of_code {result : FResult} {success failure : SdCode} (hne : failure ≠ success)
    (h : (if result = .ok then success else failure) = success) : result = .ok := by
  by_contra hfails
  rw [if_neg hfails] at h
  exact hne h

/-- An operation returns in order exactly with the answers that are sound for it. -/
theorem proper_iff {turns : ℕ} (h : operation.run fat turns s = (some code, s')) :
    Proper operation s code s' ↔ Sound operation s'.log := by
  cases operation with
  | readFile fileName verbose => exact read_file_iff h
  | createFile fileName => exact create_file_iff h
  | copyFile srcFileName dstFileName => exact copy_file_iff h
  | updateFile srcFileName stringToUpdate updatedString stringSize => exact update_file_iff h
  | writeFile srcFileName string => exact write_file_iff h
  | changeDir fileName =>
      have h : Sd.changeDir fat fileName { s with log := [] } = (some code, s') := h
      unfold Sd.changeDir at h
      refine iff_of_true (proper_single_call (fun _ _ => rfl) (fun answer _ hcode => ?_) h) trivial
      exact @ok_of_code answer .openDirOk .openDirFailure (by decide) hcode
  | createDir fileName =>
      have h : Sd.createDir fat fileName { s with log := [] } = (some code, s') := h
      unfold Sd.createDir at h
      refine iff_of_true (proper_single_call (fun _ _ => rfl) (fun answer _ hcode => ?_) h) trivial
      exact @ok_of_code answer .createDirOk .createDirFailure (by decide) hcode
  | deleteFile fileName =>
      have h : Sd.deleteFile fat fileName { s with log := [] } = (some code, s') := h
      unfold Sd.deleteFile at h
      refine iff_of_true (proper_single_call (fun _ _ => rfl) (fun answer _ hcode => ?_) h) trivial
      exact @ok_of_code answer .fileDeleted _ (by split_ifs <;> decide) hcode
  | renameFile oldFileName newFileName =>
      have h : Sd.renameFile fat oldFileName newFileName { s with log := [] } = (some code, s') := h
      unfold Sd.renameFile at h
      refine iff_of_true (proper_single_call (fun _ _ => rfl) (fun answer _ hcode => ?_) h) trivial
      exact @ok_of_code answer .fileRenamed .fileNotFound (by decide) hcode

/-- In order, a file object is closed as often as it is opened. -/
theorem Proper.closed_once (h : Proper operation s code s') (fp : FileObject) :
    (s'.log.flatMap Event.actions).count (.acquire fp) =
      (s'.log.flatMap Event.actions).count (.release fp) := by
  refine count_acquire_ended h.used ?_
  rw [h.closed]
  exact List.not_mem_nil

end Proofs

/-! ## A full card -/

theorem nothing_written (buff : List UInt8) : 0 ≤ buff.length := Nat.zero_le _

theorem nothing_read (len : ℕ) : ([] : List UInt8).length ≤ len - 1 := Nat.zero_le _

/-- Calls to a card that has no room for another byte. -/
def fullCard : FatFs Unit where
  answer
    | .fRead _ _, s => (⟨.ok, [], Nat.zero_le _⟩, s)
    | .fWrite _ buff, s => (⟨.ok, 0, nothing_written buff⟩, s)
    | .fGets _ len, s => (⟨[], nothing_read len⟩, s)
    | .fPuts _ _, s | .fPrintf _ _, s => (none, s)
    | .fOpen _ _ _, s | .fClose _, s | .fLseek _ _, s | .fUnlink _, s | .fRename _ _, s
    | .fMkdir _, s | .fChdir _, s => (FResult.ok, s)
  object _ _ := ⟨0, 0⟩

/-- The module before an operation, with such a card. -/
def beforeWrite : SdState Unit := ⟨(), false, .inactive, []⟩

/-- `WriteFile("a", "b")`. -/
def writeB : Operation := .writeFile ['a'.toUInt8] ['b'.toUInt8]

theorem proper_iff_full_card : ∃ code s', writeB.run fullCard 0 beforeWrite = (some code, s') ∧
    (Proper writeB beforeWrite code s' ↔ Sound writeB s'.log) :=
  ⟨_, _, rfl, @proper_iff Unit fullCard beforeWrite _ _ writeB 0 rfl⟩

/-- Nothing is written, and success is reported. -/
theorem full_card_unreported : ∃ s', writeB.run fullCard 0 beforeWrite = (some .fileWritten, s') ∧
    ¬ Proper writeB beforeWrite .fileWritten s' := by
  refine ⟨_, rfl, fun hproper => ?_⟩
  obtain ⟨-, -, hprinted, -⟩ := hproper.reported rfl
  obtain hfull | ⟨fp, hopens, -⟩ := hprinted
  · exact hfull rfl
  · cases hopens

end TivaAws.Sd
