import Mathlib.Data.List.Basic

/-!
# The operations on the SD card

The functions of `SD_API.c` that work on files and directories, over what FatFs answers to their
calls. An operation leaves a log of these calls with their answers and of its accesses to `Buff`.
-/

namespace TivaAws.Sd

/-! ## FatFs -/

/-- `FRESULT`. -/
inductive FResult where
  | ok | diskErr | intErr | notReady | noFile | noPath | invalidName | denied | exist
  | invalidObject | writeProtected | invalidDrive | notEnabled | noFilesystem | mkfsAborted
  | timeout | locked | notEnoughCore | tooManyOpenFiles | invalidParameter
  deriving DecidableEq, Repr

/-- The file objects of the module. -/
inductive FileObject where
  | fileObj
  | fileObj2
  deriving DecidableEq, Repr

/-- What `f_size` and `f_eof` look at in a `FIL`. -/
structure Fil where
  fsize : ℕ
  fptr : ℕ
  deriving DecidableEq, Repr

/-- `f_eof`. -/
def Fil.eof (fil : Fil) : Bool := fil.fptr == fil.fsize

def faRead : UInt8 := 0x01
def faOpenExisting : UInt8 := 0x00
def faWrite : UInt8 := 0x02
def faCreateNew : UInt8 := 0x04
def faCreateAlways : UInt8 := 0x08

/-- A string without its NUL. -/
abbrev Path := List UInt8

/-- The calls. `f_size` and `f_eof` are macros that look at the file object. -/
inductive Call where
  | fOpen (fp : FileObject) (path : Path) (mode : UInt8)
  | fClose (fp : FileObject)
  | fRead (fp : FileObject) (btr : ℕ)
  | fWrite (fp : FileObject) (buff : List UInt8)
  | fGets (fp : FileObject) (len : ℕ)
  | fPuts (fp : FileObject) (str : List UInt8)
  | fPrintf (fp : FileObject) (str : List UInt8)
  | fLseek (fp : FileObject) (ofs : ℕ)
  | fUnlink (path : Path)
  | fRename (pathOld pathNew : Path)
  | fMkdir (path : Path)
  | fChdir (path : Path)

/-- What `f_read` returns and the bytes it stores, which are no more than asked for. -/
structure ReadAnswer (btr : ℕ) where
  result : FResult
  buff : List UInt8
  length_le : buff.length ≤ btr

/-- What `f_write` returns and how many bytes it has written, which are no more than given. -/
structure WriteAnswer (btw : ℕ) where
  result : FResult
  bw : ℕ
  bw_le : bw ≤ btw

/-- What `f_gets` stores before the NUL, for which it leaves room. -/
structure Line (len : ℕ) where
  buff : List UInt8
  length_le : buff.length ≤ len - 1

/-- What a call answers. `f_puts` and `f_printf` return `EOF` or how much they have put. -/
abbrev Answer : Call → Type
  | .fRead _ btr => ReadAnswer btr
  | .fWrite _ buff => WriteAnswer buff.length
  | .fGets _ len => Line len
  | .fPuts _ _ | .fPrintf _ _ => Option ℕ
  | .fOpen _ _ _ | .fClose _ | .fLseek _ _ | .fUnlink _ | .fRename _ _ | .fMkdir _ | .fChdir _ =>
      FResult

/-- FatFs on a card: how it answers a call, and its file objects. -/
structure FatFs (σ : Type) where
  answer : (call : Call) → σ → Answer call × σ
  object : σ → FileObject → Fil

/-! ## The module -/

/-- The commands and the codes of the module. -/
inductive SdCode where
  | fatError | busy | inactive | fileRenaming | fileRenamed | fileWriting | fileDeleting
  | fileDeleted | deleteFileDenied | fileReading | fileRead | dirCreating | dirChanging
  | fileCopying | fileCopied | copyFileFailure | fileNotFound | createFileFailure | createFileOk
  | createDirOk | createDirFailure | openDirOk | openDirFailure | fileWritten
  deriving DecidableEq, Repr

/-- `sizeof(Buff)`. -/
def buffSize : ℕ := 512

/-- A call with its answer and the file objects behind it, or an access to `Buff`. -/
inductive Event where
  | call (call : Call) (answer : Answer call) (object : FileObject → Fil)
  | access (offset length : ℕ)

/-- The card with FatFs, whether `disk_status(0)` has `STA_NOINIT`, `sd_command`, and the log. -/
structure SdState (σ : Type) where
  card : σ
  noInit : Bool
  sdCommand : SdCode
  log : List Event

/-- The string at the beginning of a memory. -/
def cString (memory : List UInt8) : Path := memory.takeWhile (· ≠ 0)

section Operations

variable {σ : Type}

def SdState.record (event : Event) (s : SdState σ) : SdState σ :=
  { s with log := s.log ++ [event] }

/-- `sd_command = command`. -/
def SdState.setCommand (command : SdCode) (s : SdState σ) : SdState σ :=
  { s with sdCommand := command }

/-- A call of FatFs. -/
def FatFs.call (fat : FatFs σ) (call : Call) (s : SdState σ) : Answer call × SdState σ :=
  let answer := fat.answer call s.card
  (answer.1, { s.record (.call call answer.1 (fat.object answer.2)) with card := answer.2 })

/-- What every operation begins with. An operation that has not returned gives no code. -/
def whenIdle (command : SdCode) (work : SdState σ → Option SdCode × SdState σ) (s : SdState σ) :
    Option SdCode × SdState σ :=
  if s.noInit then (some .fatError, s)
  else if s.sdCommand = .inactive then work (s.setCommand command)
  else (some .busy, s)

/-- `sd_command = SD_INACTIVE` and the return. -/
def finish (code : SdCode) (s : SdState σ) : Option SdCode × SdState σ :=
  (some code, s.setCommand .inactive)

/-- An operation that is a single call and whose code depends on its result. -/
def singleCall (fat : FatFs σ) (command : SdCode) (call : Call)
    (code : Answer call → SdCode) (s : SdState σ) : Option SdCode × SdState σ :=
  whenIdle command (fun s =>
    let result := fat.call call s
    finish (code result.1) result.2) s

/-- `ChangeDir`. -/
def changeDir (fat : FatFs σ) (fileName : Path) : SdState σ → Option SdCode × SdState σ :=
  singleCall fat .dirChanging (.fChdir fileName) fun result =>
    if result = FResult.ok then .openDirOk else .openDirFailure

/-- `CreateDir`. -/
def createDir (fat : FatFs σ) (fileName : Path) : SdState σ → Option SdCode × SdState σ :=
  singleCall fat .dirCreating (.fMkdir fileName) fun result =>
    if result = FResult.ok then .createDirOk else .createDirFailure

/-- `DeleteFile`. -/
def deleteFile (fat : FatFs σ) (fileName : Path) : SdState σ → Option SdCode × SdState σ :=
  singleCall fat .fileDeleting (.fUnlink fileName) fun result =>
    if result = FResult.ok then .fileDeleted
    else if result = FResult.denied then .deleteFileDenied else .fileNotFound

/-- `RenameFile`. -/
def renameFile (fat : FatFs σ) (oldFileName newFileName : Path) :
    SdState σ → Option SdCode × SdState σ :=
  singleCall fat .fileRenaming (.fRename oldFileName newFileName) fun result =>
    if result = FResult.ok then .fileRenamed else .fileNotFound

/-- `CreateFile`. -/
def createFile (fat : FatFs σ) (fileName : Path) : SdState σ → Option SdCode × SdState σ :=
  whenIdle .fileWriting fun s =>
    let opened := fat.call (.fOpen .fileObj fileName faCreateNew) s
    if opened.1 = FResult.ok then finish .createFileOk (fat.call (.fClose .fileObj) opened.2).2
    else finish .createFileFailure opened.2

/-- `printf_UART((char*)Buff)` if it is called, which reads up to the first NUL. -/
def printBuff (verbose : Bool) (buff : List UInt8) (s : SdState σ) : SdState σ :=
  if verbose then s.record (.access 0 ((cString buff).length + 1)) else s

/-- The loop of `ReadFile`, with `p1` bytes to go. -/
def readLoop (fat : FatFs σ) (verbose : Bool) (p1 : ℕ) (s : SdState σ) : SdState σ :=
  if p1 = 0 then s
  else
    let cnt := min p1 buffSize
    let read := fat.call (.fRead .fileObj cnt) (s.record (.access 0 cnt))
    if read.1.result = .ok then
      if read.1.buff.length = cnt then
        -- `Buff[cnt]=0`.
        let ended := read.2.record (.access cnt 1)
        readLoop fat verbose (p1 - cnt) (printBuff verbose read.1.buff ended)
      else read.2
    else read.2
termination_by p1
decreasing_by
  unfold buffSize
  omega

/-- `ReadFile`. -/
def readFile (fat : FatFs σ) (fileName : Path) (verbose : Bool) :
    SdState σ → Option SdCode × SdState σ :=
  whenIdle .fileReading fun s =>
    let opened := fat.call (.fOpen .fileObj fileName faRead) s
    if opened.1 = FResult.ok then
      let read := readLoop fat verbose (fat.object opened.2.card .fileObj).fsize opened.2
      finish .fileRead (fat.call (.fClose .fileObj) read).2
    else finish .fileNotFound opened.2

/-- The memory of `DstFileName` once it is completed with the name of the source, without a NUL.
The byte before an empty name is taken not to be a slash. -/
def completeName (dstFileName : List UInt8) (srcFileName : Path) : List UInt8 :=
  let name := cString dstFileName
  let slash := if name.getLast? = some '/'.toUInt8 then [] else ['/'.toUInt8]
  let completed := name ++ (slash ++ srcFileName)
  completed ++ dstFileName.drop completed.length

/-- The loop of `CopyFile`, for so many turns. -/
def copyLoop (fat : FatFs σ) : ℕ → SdState σ → Bool × SdState σ
  | 0, s => (false, s)
  | turns + 1, s =>
      let read := fat.call (.fRead .fileObj buffSize) (s.record (.access 0 buffSize))
      if read.1.result ≠ .ok ∨ read.1.buff.length = 0 then (true, read.2)
      else
        let written := fat.call (.fWrite .fileObj2 read.1.buff)
          (read.2.record (.access 0 read.1.buff.length))
        if written.1.result ≠ .ok ∨ written.1.bw < read.1.buff.length then (true, written.2)
        else copyLoop fat turns written.2

/-- What `CopyFile` does with both files open. -/
def copyOpened (fat : FatFs σ) (turns : ℕ) (s : SdState σ) : Option SdCode × SdState σ :=
  let copied := copyLoop fat turns s
  if copied.1 then
    let closed := fat.call (.fClose .fileObj) copied.2
    finish .fileCopied (fat.call (.fClose .fileObj2) closed.2).2
  else (none, copied.2)

/-- `CopyFile`. -/
def copyFile (fat : FatFs σ) (turns : ℕ) (srcFileName : Path) (dstFileName : List UInt8) :
    SdState σ → Option SdCode × SdState σ :=
  whenIdle .fileCopying fun s =>
    let source := fat.call (.fOpen .fileObj srcFileName (faOpenExisting ||| faRead)) s
    if source.1 = FResult.ok then
      let target := fat.call
        (.fOpen .fileObj2 (cString dstFileName) (faCreateAlways ||| faWrite)) source.2
      if target.1 = FResult.ok then copyOpened fat turns target.2
      else
        let again := fat.call (.fOpen .fileObj2 (cString (completeName dstFileName srcFileName))
          (faCreateAlways ||| faWrite)) target.2
        if again.1 = FResult.ok then copyOpened fat turns again.2
        else
          let closed := fat.call (.fClose .fileObj) (again.2.setCommand .inactive)
          (some .copyFileFailure, closed.2)
    else finish .copyFileFailure source.2

/-- `strncmp(line, string, count) == 0`, or `strcmp` if there is no count. -/
def lineMatches (string : List UInt8) (count : ℕ) (line : List UInt8) : Bool :=
  if count = 0 then cString line == cString string
  else (cString line ++ [0]).take count == (cString string ++ [0]).take count

/-- The loop of `UpdateFile`, for so many turns. -/
def updateLoop (fat : FatFs σ) (stringToUpdate updatedString : List UInt8) (stringSize : ℕ) :
    ℕ → SdState σ → Bool × SdState σ
  | 0, s => (false, s)
  | turns + 1, s =>
      let line := fat.call (.fGets .fileObj 128) s
      if (fat.object line.2.card .fileObj).eof then (true, line.2)
      else
        let string := if lineMatches stringToUpdate stringSize line.1.buff then
          cString updatedString else cString line.1.buff
        updateLoop fat stringToUpdate updatedString stringSize turns
          (fat.call (.fPuts .fileObj2 string) line.2).2

/-- `"temporary.txt"`. -/
def temporary : Path := "temporary.txt".toList.map Char.toUInt8

/-- What `UpdateFile` does behind its loop. -/
def replaceFile (fat : FatFs σ) (srcFileName : Path) (s : SdState σ) : Option SdCode × SdState σ :=
  let closed := fat.call (.fClose .fileObj) s
  let closed2 := fat.call (.fClose .fileObj2) closed.2
  let unlinked := fat.call (.fUnlink srcFileName) closed2.2
  if unlinked.1 = FResult.ok then
    finish .fileCopied (fat.call (.fRename temporary srcFileName) unlinked.2).2
  else finish .fileCopied unlinked.2

/-- `UpdateFile`. `string_size` is passed to `strncmp` as a `size_t`. -/
def updateFile (fat : FatFs σ) (turns : ℕ) (srcFileName : Path)
    (stringToUpdate updatedString : List UInt8) (stringSize : BitVec 32) :
    SdState σ → Option SdCode × SdState σ :=
  whenIdle .fileCopying fun s =>
    let source := fat.call (.fOpen .fileObj srcFileName (faOpenExisting ||| faRead)) s
    if source.1 = FResult.ok then
      let target := fat.call (.fOpen .fileObj2 temporary (faCreateAlways ||| faWrite)) source.2
      if target.1 = FResult.ok then
        let updated := updateLoop fat stringToUpdate updatedString stringSize.toNat turns target.2
        if updated.1 then replaceFile fat srcFileName updated.2 else (none, updated.2)
      else
        let closed := fat.call (.fClose .fileObj) (target.2.setCommand .inactive)
        (some .copyFileFailure, closed.2)
    else finish .copyFileFailure source.2

/-- What `WriteFile` does behind the calls of `f_open`. -/
def appendString (fat : FatFs σ) (string : List UInt8) (s : SdState σ) :
    Option SdCode × SdState σ :=
  let seeked := fat.call (.fLseek .fileObj (fat.object s.card .fileObj).fsize) s
  let printed := fat.call (.fPrintf .fileObj (cString string)) seeked.2
  finish .fileWritten (fat.call (.fClose .fileObj) printed.2).2

/-- `WriteFile`. -/
def writeFile (fat : FatFs σ) (srcFileName : Path) (string : List UInt8) :
    SdState σ → Option SdCode × SdState σ :=
  whenIdle .fileWriting fun s =>
    let opened := fat.call (.fOpen .fileObj srcFileName faWrite) s
    if opened.1 = FResult.noFile then
      let created := fat.call (.fOpen .fileObj srcFileName faCreateNew) opened.2
      appendString fat string (fat.call (.fOpen .fileObj srcFileName faWrite) created.2).2
    else appendString fat string opened.2

end Operations

/-- The operations with their arguments. -/
inductive Operation where
  | readFile (fileName : Path) (verbose : Bool)
  | changeDir (fileName : Path)
  | createFile (fileName : Path)
  | createDir (fileName : Path)
  | deleteFile (fileName : Path)
  | renameFile (oldFileName newFileName : Path)
  | copyFile (srcFileName : Path) (dstFileName : List UInt8)
  | updateFile (srcFileName : Path) (stringToUpdate updatedString : List UInt8)
      (stringSize : BitVec 32)
  | writeFile (srcFileName : Path) (string : List UInt8)

/-- The code of success. -/
def Operation.success : Operation → SdCode
  | .readFile _ _ => .fileRead
  | .changeDir _ => .openDirOk
  | .createFile _ => .createFileOk
  | .createDir _ => .createDirOk
  | .deleteFile _ => .fileDeleted
  | .renameFile _ _ => .fileRenamed
  | .copyFile _ _ | .updateFile _ _ _ _ => .fileCopied
  | .writeFile _ _ => .fileWritten

/-- An operation with an empty log, where its loops are given so many turns. -/
def Operation.run {σ : Type} (fat : FatFs σ) (turns : ℕ) (operation : Operation)
    (s : SdState σ) : Option SdCode × SdState σ :=
  match operation with
  | .readFile fileName verbose => Sd.readFile fat fileName verbose { s with log := [] }
  | .changeDir fileName => Sd.changeDir fat fileName { s with log := [] }
  | .createFile fileName => Sd.createFile fat fileName { s with log := [] }
  | .createDir fileName => Sd.createDir fat fileName { s with log := [] }
  | .deleteFile fileName => Sd.deleteFile fat fileName { s with log := [] }
  | .renameFile oldFileName newFileName =>
      Sd.renameFile fat oldFileName newFileName { s with log := [] }
  | .copyFile srcFileName dstFileName =>
      Sd.copyFile fat turns srcFileName dstFileName { s with log := [] }
  | .updateFile srcFileName stringToUpdate updatedString stringSize =>
      Sd.updateFile fat turns srcFileName stringToUpdate updatedString stringSize
        { s with log := [] }
  | .writeFile srcFileName string => Sd.writeFile fat srcFileName string { s with log := [] }

end TivaAws.Sd
