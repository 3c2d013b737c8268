import TivaAws.Foundation.ByteMemory

/-!
# The file names of a command

`file_name_verify` of `SD_API.c`, which splits the tail of a console command into one or two file
names, and what one turn of its loop reads and stores.
-/

namespace TivaAws.Sd

/-! ## Model -/

/-- The states of the scanner before `FIM`. -/
inductive Estado where
  | nome
  | extensao
  deriving DecidableEq, Repr

/-- `API_COMMAND_OK`. -/
def apiCommandOk : UInt8 := 0x81

/-- `API_FILENAME_ERROR`. -/
def apiFilenameError : UInt8 := 0x82

/-- The characters at which both states return an error. -/
def forbidden : List UInt8 :=
  [0x5C, '?'.toUInt8, ':'.toUInt8, '*'.toUInt8, '"'.toUInt8, '>'.toUInt8, '<'.toUInt8, '|'.toUInt8]

/-- The dot between a name and its extension. -/
def dot : UInt8 := '.'.toUInt8

/-- A buffer and where the next character goes. -/
structure Cursor where
  memory : ByteMemory
  position : ℕ

/-- Store a character without moving on. -/
def Cursor.put (c : UInt8) (cursor : Cursor) : Cursor :=
  { cursor with memory := cursor.memory.writeBytes cursor.position [c] }

/-- Store a character and move on. -/
def Cursor.push (c : UInt8) (cursor : Cursor) : Cursor :=
  { cursor.put c with position := cursor.position + 1 }

/-- The two buffers of the caller. -/
structure Names where
  pname1 : Cursor
  pname2 : Cursor

/-- Store a character in the buffer of the name that is read. -/
def Names.push (num : ℕ) (c : UInt8) (names : Names) : Names :=
  if num = 1 then { names with pname1 := names.pname1.push c }
  else if num = 2 then { names with pname2 := names.pname2.push c }
  else names

/-- Store the terminator in both buffers. -/
def Names.terminate (names : Names) : Names :=
  { pname1 := names.pname1.put 0, pname2 := names.pname2.put 0 }

/-- How the inner loop ends: it reads past the characters it is given, it returns from the
function, or the state is `FIM`. -/
inductive Scan where
  | overread
  | returned (code : UInt8) (names : Names)
  | fim (pfile : List UInt8) (names : Names)

/-- The inner loop of `file_name_verify`. The characters from `pfile` on are a list. -/
def scanName (number num : ℕ) : Estado → List UInt8 → ℕ → ℕ → Names → Scan
  | _, [], _, _, _ => .overread
  | .nome, c :: pfile, i, j, names =>
      if c ≠ dot then
        if c ∈ forbidden then .returned apiFilenameError names
        else
          let names := names.push num c
          if 60 ≤ i + 1 then .returned apiFilenameError names
          else
            match pfile.head? with
            | none => .overread
            | some next =>
                -- A space ends the first of two names only.
                if next = 0x20 then
                  if 1 < number ∧ num = 2 then .fim pfile names
                  else .returned apiFilenameError names
                else if next = 0 then .fim pfile names.terminate
                else scanName number num .nome pfile (i + 1) j names
      else scanName number num .extensao pfile (i + 1) j (names.push num c)
  | .extensao, c :: pfile, i, j, names =>
      if c ≠ 0x20 ∧ c ≠ 0 then
        if c ∈ forbidden then .returned apiFilenameError names
        else
          let names := names.push num c
          if 4 ≤ j + 1 then .returned apiFilenameError names
          else scanName number num .extensao pfile i (j + 1) names
      else if j ≠ 0 then
        if number = 1 ∧ c = 0x20 then .returned apiFilenameError names
        else .fim (c :: pfile) names
      else .returned apiFilenameError names

/-- A turn of the inner loop in the state `NOME`. -/
theorem scan_nome (number num : ℕ) (c : UInt8) (pfile : List UInt8) (i j : ℕ) (names : Names) :
    scanName number num .nome (c :: pfile) i j names =
      if c ≠ dot then
        if c ∈ forbidden then .returned apiFilenameError names
        else if 60 ≤ i + 1 then .returned apiFilenameError (names.push num c)
        else
          match pfile.head? with
          | none => .overread
          | some next =>
              if next = 0x20 then
                if 1 < number ∧ num = 2 then .fim pfile (names.push num c)
                else .returned apiFilenameError (names.push num c)
              else if next = 0 then .fim pfile (names.push num c).terminate
              else scanName number num .nome pfile (i + 1) j (names.push num c)
      else scanName number num .extensao pfile (i + 1) j (names.push num c) := rfl

/-- A turn of the inner loop in the state `EXTENSAO`. -/
theorem scan_extensao (number num : ℕ) (c : UInt8) (pfile : List UInt8) (i j : ℕ)
    (names : Names) :
    scanName number num .extensao (c :: pfile) i j names =
      if c ≠ 0x20 ∧ c ≠ 0 then
        if c ∈ forbidden then .returned apiFilenameError names
        else if 4 ≤ j + 1 then .returned apiFilenameError (names.push num c)
        else scanName number num .extensao pfile i (j + 1) (names.push num c)
      else if j ≠ 0 then
        if number = 1 ∧ c = 0x20 then .returned apiFilenameError names
        else .fim (c :: pfile) names
      else .returned apiFilenameError names := rfl

/-- The outer loop of `file_name_verify`; `none` if it reads past the characters it is given. -/
def scanNames (number : ℕ) : ℕ → List UInt8 → Names → Option (UInt8 × Names)
  | 0, _, names => some (apiCommandOk, names)
  | _ + 1, [], _ => none
  | num + 1, c :: pfile, names =>
      if c ≠ 0x20 then some (apiFilenameError, names)
      else
        match scanName number (num + 1) .nome pfile 0 0 names with
        | .overread => none
        | .returned code names => some (code, names)
        | .fim pfile names => scanNames number num pfile names

/-- `file_name_verify`: the code it returns and what it leaves in the buffers. -/
def fileNameVerify (pname1 pname2 : ByteMemory) (pfile : List UInt8) (num : UInt8) :
    Option (UInt8 × Names) :=
  scanNames num.toNat num.toNat pfile ⟨⟨pname1, 0⟩, ⟨pname2, 0⟩⟩

/-! ## Characters -/

/-- A character of a name as the grammar has it. -/
structure Plain (c : UInt8) : Prop where
  ne_zero : c ≠ 0
  ne_space : c ≠ 0x20
  ne_dot : c ≠ dot
  allowed : c ∉ forbidden

/-- A first character of a name as the scanner takes it: it may be a space. -/
structure Leading (c : UInt8) : Prop where
  ne_zero : c ≠ 0
  ne_dot : c ≠ dot
  allowed : c ∉ forbidden

/-- A character of an extension as the scanner takes it: it may be a dot. -/
structure Trailing (c : UInt8) : Prop where
  ne_zero : c ≠ 0
  ne_space : c ≠ 0x20
  allowed : c ∉ forbidden

theorem Plain.leading {c : UInt8} (h : Plain c) : Leading c := ⟨h.ne_zero, h.ne_dot, h.allowed⟩

theorem Plain.trailing {c : UInt8} (h : Plain c) : Trailing c := ⟨h.ne_zero, h.ne_space, h.allowed⟩

theorem Leading.plain {c : UInt8} (h : Leading c) (hspace : c ≠ 0x20) : Plain c :=
  ⟨h.ne_zero, hspace, h.ne_dot, h.allowed⟩

theorem Trailing.plain {c : UInt8} (h : Trailing c) (hdot : c ≠ dot) : Plain c :=
  ⟨h.ne_zero, h.ne_space, hdot, h.allowed⟩

/-- The part of a name before the dot as the scanner takes it. -/
def ScannedBase : List UInt8 → Prop
  | [] => True
  | c :: rest => Leading c ∧ ∀ d ∈ rest, Plain d

/-- A name as the scanner takes it with room for some characters before the dot, and whether it
has an extension. -/
inductive Scanned (room : ℕ) : List UInt8 → Bool → Prop
  | bare {base : List UInt8} (hne : base ≠ []) (hbase : ScannedBase base)
      (hroom : base.length ≤ room) : Scanned room base false
  | dotted {base ext : List UInt8} (hbase : ScannedBase base) (hroom : base.length ≤ room)
      (hne : ext ≠ []) (hext : ext.length ≤ 3) (htrailing : ∀ c ∈ ext, Trailing c) :
      Scanned room (base ++ dot :: ext) true

/-- Store a text in the buffer of the name that is read. -/
def Names.store (num : ℕ) (text : List UInt8) (names : Names) : Names :=
  text.foldl (fun names c => names.push num c) names

@[simp] theorem store_nil (num : ℕ) (names : Names) : names.store num [] = names := rfl

@[simp] theorem store_cons (num : ℕ) (c : UInt8) (text : List UInt8) (names : Names) :
    names.store num (c :: text) = (names.push num c).store num text := rfl

theorem store_append (num : ℕ) (first second : List UInt8) (names : Names) :
    names.store num (first ++ second) = (names.store num first).store num second :=
  List.foldl_append

/-! ## The extension -/

/-- The characters at which an extension ends. -/
def ExtensionEnds (number : ℕ) (c : UInt8) : Prop := c = 0 ∨ c = 0x20 ∧ number ≠ 1

/-- An extension is read up to its end. -/
theorem scan_extension {number num i j : ℕ} {ext pfile : List UInt8} {c : UInt8} {names : Names}
    (htrailing : ∀ d ∈ ext, Trailing d) (hpos : 0 < j + ext.length) (hle : j + ext.length ≤ 3)
    (hend : ExtensionEnds number c) :
    scanName number num .extensao (ext ++ c :: pfile) i j names =
      .fim (c :: pfile) (names.store num ext) := by
  induction ext generalizing j names with
  | nil =>
      have hj : j ≠ 0 := Nat.pos_iff_ne_zero.mp hpos
      have hstop : ¬ (c ≠ 0x20 ∧ c ≠ 0) := fun h => hend.elim h.2 fun hspace => h.1 hspace.1
      have hgoes : ¬ (number = 1 ∧ c = 0x20) := fun h => hend.elim
        (fun hzero => absurd (hzero.symm.trans h.2) (by decide)) fun hspace => hspace.2 h.1
      simp only [List.nil_append, scan_extensao, if_neg hstop, if_pos hj, if_neg hgoes, store_nil]
  | cons d ext ih =>
      have hd := htrailing d List.mem_cons_self
      have hlength : j + (ext.length + 1) ≤ 3 := hle
      simp only [List.cons_append, scan_extensao, if_pos (And.intro hd.ne_space hd.ne_zero),
        if_neg hd.allowed, if_neg (show ¬ 4 ≤ j + 1 by omega), store_cons]
      exact ih (fun e he => htrailing e (List.mem_cons_of_mem d he)) (by omega) (by omega)

/-- What ends in `FIM` is an extension. -/
theorem extension_of_fim {number num i j : ℕ} {pfile rest : List UInt8} {names names' : Names}
    (h : scanName number num .extensao pfile i j names = .fim rest names') (hj : j ≤ 3) :
    ∃ ext c tail, pfile = ext ++ rest ∧ rest = c :: tail ∧ ExtensionEnds number c ∧
      (∀ d ∈ ext, Trailing d) ∧ 0 < j + ext.length ∧ j + ext.length ≤ 3 ∧
      names' = names.store num ext := by
  induction pfile generalizing j names with
  | nil => cases h
  | cons c pfile ih =>
      simp only [scan_extensao] at h
      split_ifs at h with hchar hforbidden hlong hj' hspace
      · obtain ⟨ext, d, tail, rfl, hrest, hend, htrailing, hpos, hle, hnames⟩ := ih h (by omega)
        refine ⟨c :: ext, d, tail, rfl, hrest, hend, ?_, ?_, ?_, hnames⟩
        · exact List.forall_mem_cons.mpr ⟨⟨hchar.2, hchar.1, hforbidden⟩, htrailing⟩
        · show 0 < j + (ext.length + 1)
          omega
        · show j + (ext.length + 1) ≤ 3
          omega
      · cases h
        have hend : ExtensionEnds number c := by
          by_cases hzero : c = 0
          · exact Or.inl hzero
          · have hc : c = 0x20 := by
              by_contra hne
              exact hchar ⟨hne, hzero⟩
            exact Or.inr ⟨hc, fun hnumber => hspace ⟨hnumber, hc⟩⟩
        exact ⟨[], c, pfile, rfl, rfl, hend, List.forall_mem_nil _, by
          show 0 < j + 0; omega, hj, rfl⟩

/-- With a terminator ahead the extension is read without going past it. -/
theorem extension_ne_overread {number num i j : ℕ} {pfile : List UInt8} {names : Names}
    (h : 0 ∈ pfile) : scanName number num .extensao pfile i j names ≠ .overread := by
  induction pfile generalizing j names with
  | nil => cases h
  | cons c pfile ih =>
      simp only [scan_extensao]
      split_ifs with hchar
      all_goals first | exact fun h => (by cases h) | skip
      exact ih ((List.mem_cons.mp h).resolve_left fun hzero => hchar.2 hzero.symm)

/-! ## A name -/

/-- The characters at which a name ends. -/
def Ends (number num : ℕ) (dotted : Bool) (c : UInt8) : Prop :=
  c = 0 ∨ c = 0x20 ∧ if dotted then number ≠ 1 else 1 < number ∧ num = 2

/-- What is stored at the end of a name: after an extension nothing is. -/
def Names.ended (dotted : Bool) (c : UInt8) (names : Names) : Names :=
  if dotted = false ∧ c = 0 then names.terminate else names

/-- A character of a name before another one is stored. -/
theorem scan_char {number num i j : ℕ} {c next : UInt8} {pfile : List UInt8} {names : Names}
    (hc : Leading c) (hi : i + 1 < 60) (hspace : next ≠ 0x20) (hzero : next ≠ 0) :
    scanName number num .nome (c :: next :: pfile) i j names =
      scanName number num .nome (next :: pfile) (i + 1) j (names.push num c) := by
  rw [scan_nome, if_pos hc.ne_dot, if_neg hc.allowed, if_neg (show ¬ 60 ≤ i + 1 by omega)]
  show (if next = 0x20 then _ else _) = _
  rw [if_neg hspace, if_neg hzero]

/-- The last character of a name without an extension is stored. -/
theorem scan_last {number num i j : ℕ} {c e : UInt8} {pfile : List UInt8} {names : Names}
    (hc : Leading c) (hi : i + 1 < 60) (hend : Ends number num false e) :
    scanName number num .nome (c :: e :: pfile) i j names =
      .fim (e :: pfile) ((names.push num c).ended false e) := by
  rw [scan_nome, if_pos hc.ne_dot, if_neg hc.allowed, if_neg (show ¬ 60 ≤ i + 1 by omega)]
  show (if e = 0x20 then _ else _) = _
  obtain rfl | ⟨rfl, hnum⟩ := hend
  · rfl
  · rw [if_pos rfl, if_pos (show 1 < number ∧ num = 2 from hnum)]
    rfl

/-- A name without an extension is read up to its end. -/
theorem scan_bare {number num i j : ℕ} {base pfile : List UInt8} {e : UInt8} {names : Names}
    (hne : base ≠ []) (hbase : ScannedBase base) (hroom : i + base.length ≤ 59)
    (hend : Ends number num false e) :
    scanName number num .nome (base ++ e :: pfile) i j names =
      .fim (e :: pfile) ((names.store num base).ended false e) := by
  induction base generalizing i names with
  | nil => exact absurd rfl hne
  | cons c base ih =>
      obtain ⟨hc, hplain⟩ := hbase
      have hlength : i + (base.length + 1) ≤ 59 := hroom
      cases base with
      | nil => exact scan_last hc (by omega) hend
      | cons d base =>
          obtain ⟨hd, hplain⟩ := List.forall_mem_cons.mp hplain
          have hrest : ScannedBase (d :: base) := ⟨hd.leading, hplain⟩
          exact (scan_char hc (by omega) hd.ne_space hd.ne_zero).trans
            (ih (List.cons_ne_nil d base) hrest (by omega))

/-- The part of a name before the dot is read up to the dot. -/
theorem scan_base {number num i j : ℕ} {base pfile : List UInt8} {names : Names}
    (hbase : ScannedBase base) (hroom : i + base.length ≤ 59) :
    ∃ k, scanName number num .nome (base ++ dot :: pfile) i j names =
      scanName number num .extensao pfile k j (names.store num (base ++ [dot])) := by
  induction base generalizing i names with
  | nil => exact ⟨i + 1, by rw [List.nil_append, scan_nome, if_neg (not_not_intro rfl)]; rfl⟩
  | cons c base ih =>
      obtain ⟨hc, hplain⟩ := hbase
      have hlength : i + (base.length + 1) ≤ 59 := hroom
      cases base with
      | nil =>
          obtain ⟨k, hk⟩ := @ih (i + 1) (names.push num c) trivial (by omega)
          exact ⟨k, (scan_char hc (by omega) (by decide) (by decide)).trans hk⟩
      | cons d base =>
          obtain ⟨hd, hplain⟩ := List.forall_mem_cons.mp hplain
          have hrest : ScannedBase (d :: base) := ⟨hd.leading, hplain⟩
          obtain ⟨k, hk⟩ := @ih (i + 1) (names.push num c) hrest (by omega)
          exact ⟨k, (scan_char hc (by omega) hd.ne_space hd.ne_zero).trans hk⟩

/-- A name is read up to its end. -/
theorem scan_name {number num i room : ℕ} {text pfile : List UInt8} {dotted : Bool} {e : UInt8}
    {names : Names} (htext : Scanned room text dotted) (hi : i + room = 59)
    (hend : Ends number num dotted e) :
    scanName number num .nome (text ++ e :: pfile) i 0 names =
      .fim (e :: pfile) ((names.store num text).ended dotted e) := by
  cases htext with
  | bare hne hbase hroom => exact scan_bare hne hbase (by omega) hend
  | @dotted base ext hbase hroom hne hext htrailing =>
      have hpos : 0 < 0 + ext.length := by
        rw [Nat.zero_add]
        exact List.length_pos_iff.mpr hne
      obtain ⟨k, hk⟩ :=
        @scan_base number num i 0 base (ext ++ e :: pfile) names hbase (by omega)
      rw [List.append_assoc, List.cons_append, hk,
        scan_extension htrailing hpos (by omega) hend, ← store_append]
      rw [List.append_assoc]
      rfl

/-- A scanned name has a character. -/
theorem Scanned.ne_nil {room : ℕ} {text : List UInt8} {dotted : Bool}
    (h : Scanned room text dotted) : text ≠ [] := by
  cases h with
  | bare hne => exact hne
  | dotted => exact List.append_ne_nil_of_right_ne_nil _ (List.cons_ne_nil _ _)

/-- A base that does not begin with a space can follow another character. -/
theorem ScannedBase.cons {c : UInt8} {base : List UInt8} (hc : Leading c) (h : ScannedBase base)
    (hspace : base.head? ≠ some 0x20) : ScannedBase (c :: base) := by
  cases base with
  | nil => exact ⟨hc, List.forall_mem_nil _⟩
  | cons d base =>
      obtain ⟨hd, hplain⟩ := h
      have hd_plain : Plain d := hd.plain fun hd => hspace (congrArg some hd)
      exact ⟨hc, List.forall_mem_cons.mpr ⟨hd_plain, hplain⟩⟩

/-- A name that does not begin with a space can follow another character. -/
theorem Scanned.cons {room : ℕ} {c : UInt8} {text : List UInt8} {dotted : Bool}
    (hc : Leading c) (h : Scanned room text dotted) (hspace : text.head? ≠ some 0x20) :
    Scanned (room + 1) (c :: text) dotted := by
  cases h with
  | bare hne hbase hroom =>
      exact .bare (List.cons_ne_nil _ _) (hbase.cons hc hspace) (Nat.succ_le_succ hroom)
  | @dotted base ext hbase hroom hne hext htrailing =>
      have hbase_space : base.head? ≠ some 0x20 := by
        cases base with
        | nil => exact fun h => (by cases h)
        | cons d base => exact hspace
      exact .dotted (hbase.cons hc hbase_space) (Nat.succ_le_succ hroom) hne hext htrailing

/-- What ends in `FIM` is a name. -/
theorem name_of_fim {number num i room : ℕ} {s rest : List UInt8} {names names' : Names}
    (hs : 0 ∉ s) (hi : i + room = 59)
    (h : scanName number num .nome (s ++ [0]) i 0 names = .fim rest names') :
    ∃ text dotted e tail, s ++ [0] = text ++ rest ∧ rest = e :: tail ∧
      Scanned room text dotted ∧ Ends number num dotted e ∧
      names' = (names.store num text).ended dotted e := by
  induction s generalizing i room names with
  | nil =>
      -- The terminator is taken for a character of the name.
      exact absurd h (by
        show (if 60 ≤ i + 1 then _ else _) ≠ _
        split_ifs <;> exact fun h => (by cases h))
  | cons c s ih =>
      obtain ⟨hc_zero, hs⟩ := not_or.mp (mt List.mem_cons.mpr hs)
      rw [List.cons_append, scan_nome] at h
      by_cases hdot : c = dot
      · rw [if_neg (not_not_intro hdot)] at h
        obtain ⟨ext, e, tail, hpfile, hrest, hend, htrailing, hpos, hle, hnames⟩ :=
          extension_of_fim h (Nat.zero_le 3)
        rw [Nat.zero_add] at hpos hle
        have htext : Scanned room ([] ++ dot :: ext) true :=
          .dotted trivial (Nat.zero_le room) (List.length_pos_iff.mp hpos) hle htrailing
        refine ⟨dot :: ext, true, e, tail, ?_, hrest, htext, hend, ?_⟩
        · rw [List.cons_append, hpfile, hdot]
          rfl
        · rw [hnames, hdot]
          rfl
      · rw [if_pos hdot] at h
        by_cases hforbidden : c ∈ forbidden
        · rw [if_pos hforbidden] at h
          cases h
        rw [if_neg hforbidden] at h
        have hc : Leading c := ⟨fun hzero => hc_zero hzero.symm, hdot, hforbidden⟩
        by_cases hlong : 60 ≤ i + 1
        · rw [if_pos hlong] at h
          cases h
        rw [if_neg hlong] at h
        obtain ⟨room, rfl⟩ : ∃ m, room = m + 1 := ⟨room - 1, by omega⟩
        have hone : Scanned (room + 1) [c] false :=
          .bare (List.cons_ne_nil c []) ⟨hc, List.forall_mem_nil _⟩ (Nat.succ_le_succ room.zero_le)
        obtain ⟨next, tail, hnext⟩ := List.exists_cons_of_ne_nil
          (List.append_ne_nil_of_right_ne_nil s (List.cons_ne_nil (0 : UInt8) []))
        simp only [hnext, List.head?_cons] at h
        by_cases hspace : next = 0x20
        · -- The first of two names ends here.
          rw [if_pos hspace] at h
          by_cases hnum : 1 < number ∧ num = 2
          · rw [if_pos hnum] at h
            cases h
            refine ⟨[c], false, next, tail, ?_, rfl, hone, Or.inr ⟨hspace, hnum⟩, ?_⟩
            · rw [List.cons_append, hnext]
              rfl
            · rw [hspace]
              rfl
          · rw [if_neg hnum] at h
            cases h
        rw [if_neg hspace] at h
        by_cases hzero : next = 0
        · rw [if_pos hzero] at h
          cases h
          refine ⟨[c], false, next, tail, ?_, rfl, hone, Or.inl hzero, ?_⟩
          · rw [List.cons_append, hnext]
            rfl
          · rw [hzero]
            rfl
        rw [if_neg hzero, ← hnext] at h
        obtain ⟨text, dotted, e, tail', hpfile, hrest, htext, hend, hnames⟩ :=
          ih hs (show i + 1 + room = 59 by omega) h
        have hhead : text.head? ≠ some 0x20 := by
          obtain ⟨d, text, rfl⟩ := List.exists_cons_of_ne_nil htext.ne_nil
          rw [hnext] at hpfile
          rw [List.head?_cons, ← (List.cons.inj hpfile).1]
          exact fun h => hspace (Option.some.inj h)
        refine ⟨c :: text, dotted, e, tail', ?_, hrest, htext.cons hc hhead, hend, hnames⟩
        rw [List.cons_append, hpfile]
        rfl

/-- With a character before the terminator a name is read without going past it. -/
theorem name_ne_overread {number num i j : ℕ} {s : List UInt8} {names : Names} (hne : s ≠ []) :
    scanName number num .nome (s ++ [0]) i j names ≠ .overread := by
  induction s generalizing i names with
  | nil => exact absurd rfl hne
  | cons c s ih =>
      obtain ⟨next, tail, hnext⟩ := List.exists_cons_of_ne_nil
        (List.append_ne_nil_of_right_ne_nil s (List.cons_ne_nil (0 : UInt8) []))
      rw [List.cons_append, scan_nome]
      simp only [hnext, List.head?_cons]
      split_ifs with hdot hforbidden hlong hspace hnum hzero
      all_goals first | exact fun h => (by cases h) | rw [← hnext]
      · refine ih fun hs => hzero ?_
        subst hs
        exact (List.cons.inj hnext).1.symm
      · exact extension_ne_overread (List.mem_append_right s List.mem_cons_self)

/-- The only code returned inside a name is that of an error. -/
theorem scan_returned {number num i j : ℕ} {estado : Estado} {pfile : List UInt8}
    {names names' : Names} {code : UInt8}
    (h : scanName number num estado pfile i j names = .returned code names') :
    code = apiFilenameError := by
  induction pfile generalizing estado i j names with
  | nil => cases estado <;> cases h
  | cons c pfile ih =>
      cases estado with
      | nome =>
          simp only [scan_nome] at h
          cases hnext : pfile.head? <;> simp only [hnext] at h <;> split_ifs at h
          all_goals first | (cases h; rfl) | exact ih h
      | extensao =>
          simp only [scan_extensao] at h
          split_ifs at h
          all_goals first | (cases h; rfl) | exact ih h

end TivaAws.Sd
