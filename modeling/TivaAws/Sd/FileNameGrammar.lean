import TivaAws.Sd.FileNames

/-!
# The grammar of the file names

The tails `file_name_verify` is meant to accept and the tails it does accept. It takes a space for
the first character of a name, does without a name before the dot, takes further dots for
characters of an extension, does not look at what follows the extension of a second name, stores no
terminator after an extension, and takes the terminator for the first character of a missing name.
-/

namespace TivaAws.Sd

open ByteMemory

/-! ## The grammar -/

/-- A file name: up to 59 characters and perhaps a dot with up to three more. -/
inductive FileName : List UInt8 → Prop
  | bare {base : List UInt8} (hne : base ≠ []) (hlength : base.length ≤ 59)
      (hplain : ∀ c ∈ base, Plain c) : FileName base
  | dotted {base ext : List UInt8} (hne : base ≠ []) (hlength : base.length ≤ 59)
      (hplain : ∀ c ∈ base, Plain c) (hext_ne : ext ≠ []) (hext : ext.length ≤ 3)
      (hext_plain : ∀ c ∈ ext, Plain c) : FileName (base ++ dot :: ext)

/-- A tail that consists of file names, each after one space. -/
structure IsTail (num : UInt8) (names : List (List UInt8)) (s : List UInt8) : Prop where
  count : names.length = num.toNat
  fileName : ∀ name ∈ names, FileName name
  tail : s = names.flatMap fun name => 0x20 :: name

/-- A buffer holds a name and its terminator. -/
def Holds (memory : ByteMemory) (name : List UInt8) : Prop :=
  memory.readBytes 0 (name.length + 1) = name ++ [0]

/-- The buffers in the order of the names. -/
def buffers (num : UInt8) (pname1 pname2 : ByteMemory) : List ByteMemory :=
  if num = 1 then [pname1] else [pname2, pname1]

/-- The function reads no further than the terminator, accepts the grammar and nothing else, and
leaves the names in the buffers. -/
def Verifies (pname1 pname2 : ByteMemory) (s : List UInt8) (num : UInt8) : Prop :=
  ∃ code names, fileNameVerify pname1 pname2 (s ++ [0]) num = some (code, names) ∧
    ((∃ texts, IsTail num texts s) → code = apiCommandOk) ∧
    (code = apiCommandOk → ∃ texts, IsTail num texts s ∧
      List.Forall₂ Holds (buffers num names.pname1.memory names.pname2.memory) texts)

/-! ## What the scanner accepts -/

/-- The tails the scanner accepts, with their names, whether the last of them has an extension, and
what is left unread. -/
inductive ScannedTail : UInt8 → List (List UInt8) → Bool → List UInt8 → List UInt8 → Prop
  | one {text : List UInt8} {dotted : Bool} (htext : Scanned 59 text dotted) :
      ScannedTail 1 [text] dotted [] (0x20 :: text)
  | two {first second trail : List UInt8} {first_dotted dotted : Bool}
      (hfirst : Scanned 59 first first_dotted) (hsecond : Scanned 59 second dotted)
      (htrail : trail = [] ∨ dotted = true ∧ trail.head? = some 0x20) :
      ScannedTail 2 [first, second] dotted trail (0x20 :: (first ++ 0x20 :: (second ++ trail)))

/-- The tails that end where a name should begin. -/
inductive CutTail : UInt8 → List UInt8 → Prop
  | first {num : UInt8} : CutTail num [0x20]
  | second {text : List UInt8} {dotted : Bool} (htext : Scanned 59 text dotted) :
      CutTail 2 (0x20 :: (text ++ [0x20]))

/-- A name without the first characters and the further dots that only the scanner takes. -/
structure Regular (text : List UInt8) : Prop where
  no_space : text.head? ≠ some 0x20
  no_dot : text.head? ≠ some dot
  dots : text.count dot ≤ 1

/-- The inputs that reach none of the slips. No name is missing at the terminator. Where the scanner
accepts the tail, nothing is left after it, no name begins with a space or a dot or has two dots,
and behind a last name with an extension the buffers hold a terminator already. -/
structure Readable (pname1 pname2 : ByteMemory) (s : List UInt8) (num : UInt8) : Prop where
  uncut : ¬ CutTail num s
  accepted : ∀ texts dotted trail, ScannedTail num texts dotted trail s →
    trail = [] ∧
    (∀ text ∈ texts, Regular text) ∧
    (dotted = true → List.Forall₂ (fun memory text => memory text.length = 0)
      (buffers num pname1 pname2) texts)

/-! ## Names of the grammar and of the scanner -/

theorem not_mem_of_plain {text : List UInt8} (h : ∀ c ∈ text, Plain c) : dot ∉ text :=
  fun hdot => (h dot hdot).ne_dot rfl

/-- A scanned base has no dot. -/
theorem ScannedBase.dot_not_mem {base : List UInt8} (h : ScannedBase base) : dot ∉ base := by
  cases base with
  | nil => exact List.not_mem_nil
  | cons c base =>
      obtain ⟨hc, hplain⟩ := h
      exact List.not_mem_cons_of_ne_of_not_mem hc.ne_dot.symm (not_mem_of_plain hplain)

/-- A scanned name has an extension if it has a dot. -/
theorem Scanned.dotted_iff {room : ℕ} {text : List UInt8} {dotted : Bool}
    (h : Scanned room text dotted) : dotted = true ↔ dot ∈ text := by
  cases h with
  | bare _ hbase => exact iff_of_false (fun h => by cases h) hbase.dot_not_mem
  | dotted => exact iff_of_true rfl (List.mem_append_right _ List.mem_cons_self)

/-- After its first character a scanned name has no space. -/
theorem Scanned.space_not_mem {room : ℕ} {text : List UInt8} {dotted : Bool}
    (h : Scanned room text dotted) : 0x20 ∉ text.tail := by
  cases h with
  | bare hne hbase =>
      obtain ⟨c, base, rfl⟩ := List.exists_cons_of_ne_nil hne
      exact fun hspace => (hbase.2 0x20 hspace).ne_space rfl
  | @dotted base ext hbase _ _ _ htrailing =>
      have hext : 0x20 ∉ ext := fun hspace => (htrailing 0x20 hspace).ne_space rfl
      cases base with
      | nil => exact hext
      | cons c base =>
          intro hspace
          obtain hspace | hspace := List.mem_append.mp hspace
          · exact (hbase.2 0x20 hspace).ne_space rfl
          · exact hext ((List.mem_cons.mp hspace).resolve_left (by decide))

/-- A base of plain characters is scanned. -/
theorem ScannedBase.of_plain {base : List UInt8} (h : ∀ c ∈ base, Plain c) : ScannedBase base := by
  cases base with
  | nil => trivial
  | cons c base =>
      obtain ⟨hc, hplain⟩ := List.forall_mem_cons.mp h
      exact ⟨hc.leading, hplain⟩

/-- A scanned base that does not begin with a space consists of plain characters. -/
theorem ScannedBase.plain {base : List UInt8} (h : ScannedBase base)
    (hspace : base.head? ≠ some 0x20) : ∀ c ∈ base, Plain c := by
  cases base with
  | nil => exact List.forall_mem_nil _
  | cons c base =>
      obtain ⟨hc, hplain⟩ := h
      exact List.forall_mem_cons.mpr ⟨hc.plain fun hc => hspace (congrArg some hc), hplain⟩

/-- A text that begins with a plain character begins with neither a space nor a dot. -/
theorem regular_of_plain {c : UInt8} {text : List UInt8} (hc : Plain c)
    (hdots : (c :: text).count dot ≤ 1) : Regular (c :: text) :=
  ⟨fun h => hc.ne_space (Option.some.inj h), fun h => hc.ne_dot (Option.some.inj h), hdots⟩

/-- The dots of a name with an extension are the one before it and those in it. -/
theorem count_dot {base ext : List UInt8} (hbase : dot ∉ base) :
    (base ++ dot :: ext).count dot = ext.count dot + 1 := by
  rw [List.count_append, List.count_cons_self, List.count_eq_zero_of_not_mem hbase, Nat.zero_add]

/-- A name of the grammar is scanned and has none of the exceptions. -/
theorem FileName.scanned {text : List UInt8} (h : FileName text) :
    (∃ dotted, Scanned 59 text dotted) ∧ Regular text := by
  cases h with
  | bare hne hlength hplain =>
      have hdots := List.count_eq_zero_of_not_mem (not_mem_of_plain hplain)
      refine ⟨⟨false, .bare hne (.of_plain hplain) hlength⟩, ?_⟩
      obtain ⟨c, base, rfl⟩ := List.exists_cons_of_ne_nil hne
      exact regular_of_plain (hplain c List.mem_cons_self) (by omega)
  | @dotted base ext hne hlength hplain hext_ne hext hext_plain =>
      have hdots := List.count_eq_zero_of_not_mem (not_mem_of_plain hext_plain)
      have hcount := @count_dot base ext (not_mem_of_plain hplain)
      refine ⟨⟨true, .dotted (.of_plain hplain) hlength hext_ne hext
        fun c hc => (hext_plain c hc).trailing⟩, ?_⟩
      obtain ⟨c, base, rfl⟩ := List.exists_cons_of_ne_nil hne
      exact regular_of_plain (hplain c List.mem_cons_self)
        (Nat.le_trans (Nat.le_of_eq hcount) (by omega))

/-- A scanned name without the exceptions is one of the grammar. -/
theorem Scanned.fileName {text : List UInt8} {dotted : Bool} (h : Scanned 59 text dotted)
    (hregular : Regular text) : FileName text := by
  obtain ⟨hspace, hdot, hcount⟩ := hregular
  cases h with
  | bare hne hbase hroom => exact .bare hne hroom (hbase.plain hspace)
  | @dotted base ext hbase hroom hne hext htrailing =>
      rw [count_dot hbase.dot_not_mem] at hcount
      have hext_dot : dot ∉ ext := List.count_eq_zero.mp (by omega)
      have hbase_ne : base ≠ [] := fun h => hdot (by rw [h]; rfl)
      have hhead : base.head? ≠ some 0x20 := by
        obtain ⟨c, base, rfl⟩ := List.exists_cons_of_ne_nil hbase_ne
        exact hspace
      refine .dotted hbase_ne hroom (hbase.plain hhead) hne hext fun c hc => ?_
      exact (htrailing c hc).plain fun hc_dot => hext_dot (hc_dot ▸ hc)

/-! ## The buffers -/

/-- Store a text from a cursor on. -/
def Cursor.write (text : List UInt8) (cursor : Cursor) : Cursor :=
  { memory := cursor.memory.writeBytes cursor.position text
    position := cursor.position + text.length }

theorem push_write (c : UInt8) (text : List UInt8) (cursor : Cursor) :
    (cursor.push c).write text = cursor.write (c :: text) := by
  have hmemory := writeBytes_append cursor.memory cursor.position [c] text
  have hposition : cursor.position + 1 + text.length = cursor.position + (text.length + 1) := by
    omega
  show Cursor.mk _ _ = Cursor.mk _ _
  exact congrArg₂ Cursor.mk hmemory hposition

theorem write_nil (cursor : Cursor) : cursor.write [] = cursor := by
  unfold Cursor.write
  rw [writeBytes_nil]
  rfl

/-- The characters of a last name go to the first buffer. -/
theorem store_one (text : List UInt8) (names : Names) :
    names.store 1 text = { names with pname1 := names.pname1.write text } := by
  induction text generalizing names with
  | nil => rw [store_nil, write_nil]
  | cons c text ih =>
      rw [store_cons, ih, ← push_write]
      rfl

/-- The characters of a first of two names go to the second buffer. -/
theorem store_two (text : List UInt8) (names : Names) :
    names.store 2 text = { names with pname2 := names.pname2.write text } := by
  induction text generalizing names with
  | nil => rw [store_nil, write_nil]
  | cons c text ih =>
      rw [store_cons, ih, ← push_write]
      rfl

/-- A buffer with a text and perhaps a terminator. -/
def written (dotted : Bool) (memory : ByteMemory) (text : List UInt8) : ByteMemory :=
  memory.writeBytes 0 (if dotted then text else text ++ [0])

/-- What is stored at a terminator. -/
theorem ended_zero (dotted : Bool) (memory₁ memory₂ : ByteMemory) (text₁ text₂ : List UInt8) :
    (Names.mk ((Cursor.mk memory₁ 0).write text₁) ((Cursor.mk memory₂ 0).write text₂)).ended
        dotted 0 =
      ⟨⟨written dotted memory₁ text₁, 0 + text₁.length⟩,
        ⟨written dotted memory₂ text₂, 0 + text₂.length⟩⟩ := by
  cases dotted with
  | true => rfl
  | false =>
      have hmemory := fun memory text => writeBytes_append memory 0 text [0]
      show Names.terminate _ = _
      exact congrArg₂ (fun memory memory' => Names.mk ⟨memory, _⟩ ⟨memory', _⟩) (hmemory _ _)
        (hmemory _ _)

/-- A buffer holds the text it got exactly if the terminator was stored or was there. -/
theorem holds_written_iff (dotted : Bool) (memory : ByteMemory) (text : List UInt8) :
    Holds (written dotted memory text) text ↔ (dotted = true → memory text.length = 0) := by
  unfold Holds written
  cases dotted with
  | false =>
      refine iff_of_true ?_ fun h => (by cases h)
      have hread := readBytes_writeBytes memory 0 (text ++ [0])
      rw [List.length_append] at hread
      exact hread
  | true =>
      have habove : memory.writeBytes 0 text (0 + text.length) = memory text.length := by
        rw [writeBytes_above memory (Nat.le_refl _), Nat.zero_add]
      rw [if_pos rfl, readBytes_succ, readBytes_writeBytes, habove]
      constructor
      · intro h _
        exact List.singleton_inj.mp (List.append_cancel_left h)
      · intro h
        rw [h rfl]

/-! ## Runs -/

/-- A character of a terminated text is the terminator or what follows is terminated. -/
theorem terminated_split {s text rest : List UInt8} {e : UInt8} (h : s ++ [0] = text ++ e :: rest) :
    (e = 0 ∧ rest = [] ∧ s = text) ∨ ∃ t, rest = t ++ [0] ∧ s = text ++ e :: t := by
  obtain rfl | ⟨t, last, hrest⟩ := rest.eq_nil_or_concat
  · obtain ⟨hs, he⟩ := List.append_inj' h rfl
    exact Or.inl ⟨(List.singleton_inj.mp he).symm, rfl, hs⟩
  · rw [List.concat_eq_append] at hrest
    have hconcat : s ++ [0] = (text ++ e :: t) ++ [last] := by
      rw [h, hrest, List.append_assoc]
      rfl
    obtain ⟨hs, hlast⟩ := List.append_inj' hconcat rfl
    exact Or.inr ⟨t, by rw [hrest, ← hlast], hs⟩

/-- A scanned name is passed over. -/
theorem scan_names_scanned {number num : ℕ} {text rest : List UInt8} {dotted : Bool} {e : UInt8}
    {names : Names} (htext : Scanned 59 text dotted) (hend : Ends number (num + 1) dotted e) :
    scanNames number (num + 1) (0x20 :: (text ++ e :: rest)) names =
      scanNames number num (e :: rest) ((names.store (num + 1) text).ended dotted e) := by
  rw [scanNames, if_neg (not_not_intro rfl), scan_name htext rfl hend]

/-- Where a name should begin there is an error, a name is missing or a name is scanned. -/
theorem scan_names_cases {number num : ℕ} {s : List UInt8} (names : Names) (hs : 0 ∉ s) :
    (∃ out, scanNames number (num + 1) (s ++ [0]) names = some (apiFilenameError, out)) ∨
      s = [0x20] ∨
      ∃ text dotted e rest, s ++ [0] = 0x20 :: (text ++ e :: rest) ∧ Scanned 59 text dotted ∧
        Ends number (num + 1) dotted e := by
  cases s with
  | nil => exact Or.inl ⟨names, rfl⟩
  | cons c s =>
      obtain ⟨-, hs⟩ := not_or.mp (mt List.mem_cons.mpr hs)
      rw [List.cons_append, scanNames]
      by_cases hspace : c = 0x20
      · rw [if_neg (not_not_intro hspace), hspace]
        cases hscan : scanName number (num + 1) .nome (s ++ [0]) 0 0 names with
        | overread =>
            have hs_nil : s = [] := by
              by_contra hne
              exact name_ne_overread hne hscan
            exact Or.inr (Or.inl (by rw [hs_nil]))
        | returned code out =>
            rw [scan_returned hscan]
            exact Or.inl ⟨out, rfl⟩
        | fim pfile out =>
            obtain ⟨text, dotted, e, rest, hpfile, rfl, htext, hend, -⟩ :=
              name_of_fim hs (Nat.zero_add 59) hscan
            exact Or.inr (Or.inr ⟨text, dotted, e, rest, by rw [hpfile], htext, hend⟩)
      · rw [if_pos hspace]
        exact Or.inl ⟨names, rfl⟩

/-- A single name is accepted with what is stored of it. -/
theorem verify_one_scanned {pname1 pname2 : ByteMemory} {text : List UInt8} {dotted : Bool}
    (htext : Scanned 59 text dotted) :
    fileNameVerify pname1 pname2 (0x20 :: text ++ [0]) 1 =
      some (apiCommandOk, ⟨⟨written dotted pname1 text, 0 + text.length⟩,
        ⟨written dotted pname2 [], 0⟩⟩) := by
  show scanNames 1 (0 + 1) (0x20 :: (text ++ 0 :: [])) _ = _
  rw [scan_names_scanned htext (Or.inl rfl), store_one]
  have hended := ended_zero dotted pname1 pname2 text []
  rw [write_nil] at hended
  rw [hended]
  rfl

/-- The first of two names is passed over. -/
theorem verify_two_first {pname1 pname2 : ByteMemory} {text rest : List UInt8} {dotted : Bool}
    (htext : Scanned 59 text dotted) :
    fileNameVerify pname1 pname2 (0x20 :: (text ++ 0x20 :: rest)) 2 =
      scanNames 2 1 (0x20 :: rest) ⟨⟨pname1, 0⟩, (Cursor.mk pname2 0).write text⟩ := by
  have hend : Ends 2 (1 + 1) dotted 0x20 := by
    refine Or.inr ⟨rfl, ?_⟩
    cases dotted with
    | true => exact fun h => (by cases h)
    | false => exact ⟨Nat.lt_succ_self 1, rfl⟩
  have hended : ∀ names : Names, names.ended dotted 0x20 = names :=
    fun names => if_neg fun h => (by cases h.2)
  show scanNames 2 (1 + 1) (0x20 :: (text ++ 0x20 :: rest)) _ = _
  rw [scan_names_scanned htext hend, hended, store_two]

/-- Two names are accepted with what is stored of them. -/
theorem verify_two_scanned {pname1 pname2 : ByteMemory} {first second trail : List UInt8}
    {first_dotted dotted : Bool} (hfirst : Scanned 59 first first_dotted)
    (hsecond : Scanned 59 second dotted)
    (htrail : trail = [] ∨ dotted = true ∧ trail.head? = some 0x20) :
    fileNameVerify pname1 pname2 (0x20 :: (first ++ 0x20 :: (second ++ trail)) ++ [0]) 2 =
      some (apiCommandOk, ⟨⟨written dotted pname1 second, 0 + second.length⟩,
        ⟨written dotted pname2 first, 0 + first.length⟩⟩) := by
  obtain ⟨e, rest, hrest, hend, hended⟩ : ∃ e rest, trail ++ [0] = e :: rest ∧
      Ends 2 (0 + 1) dotted e ∧ ∀ names : Names, names.ended dotted e = names.ended dotted 0 := by
    obtain rfl | ⟨hdotted, hspace⟩ := htrail
    · exact ⟨0, [], rfl, Or.inl rfl, fun _ => rfl⟩
    · obtain ⟨rest, rfl⟩ := List.head?_eq_some_iff.mp hspace
      refine ⟨0x20, rest ++ [0], rfl, Or.inr ⟨rfl, ?_⟩, ?_⟩
      · rw [if_pos hdotted]
        exact fun h => (by cases h)
      · rw [hdotted]
        exact fun _ => rfl
  have htail : 0x20 :: (first ++ 0x20 :: (second ++ trail)) ++ [0] =
      0x20 :: (first ++ 0x20 :: (second ++ e :: rest)) := by
    rw [← hrest]
    simp only [List.cons_append, List.append_assoc]
  rw [htail, verify_two_first hfirst]
  show scanNames 2 (0 + 1) (0x20 :: (second ++ e :: rest)) _ = _
  rw [scan_names_scanned hsecond hend, hended, store_one, ended_zero]
  rfl

/-- The end of a scanned name in a tail without a terminator. -/
theorem scanned_end {s text rest : List UInt8} {e : UInt8} (hs : 0 ∉ s)
    (h : s ++ [0] = 0x20 :: (text ++ e :: rest)) :
    (e = 0 ∧ rest = [] ∧ s = 0x20 :: text) ∨
      e ≠ 0 ∧ ∃ t, rest = t ++ [0] ∧ s = 0x20 :: (text ++ e :: t) := by
  obtain hend | ⟨t, hrest, hs_eq⟩ := @terminated_split s (0x20 :: text) rest e h
  · exact Or.inl hend
  · refine Or.inr ⟨fun he => hs ?_, t, hrest, hs_eq⟩
    rw [hs_eq, he]
    exact List.mem_append_right _ List.mem_cons_self

/-- A tail for a single name is refused, is cut or is accepted. -/
theorem verify_one_cases (pname1 pname2 : ByteMemory) {s : List UInt8} (hs : 0 ∉ s) :
    (∃ out, fileNameVerify pname1 pname2 (s ++ [0]) 1 = some (apiFilenameError, out)) ∨
      CutTail 1 s ∨ ∃ texts dotted trail, ScannedTail 1 texts dotted trail s := by
  obtain herror | rfl | ⟨text, dotted, e, rest, htail, htext, hend⟩ :=
    @scan_names_cases 1 0 s ⟨⟨pname1, 0⟩, ⟨pname2, 0⟩⟩ hs
  · exact Or.inl herror
  · exact Or.inr (Or.inl .first)
  · have he : e = 0 := by
      refine hend.resolve_right fun h => ?_
      cases dotted with
      | true => exact h.2 rfl
      | false => exact absurd h.2.1 (Nat.lt_irrefl 1)
    obtain ⟨-, -, rfl⟩ | ⟨hne, -⟩ := scanned_end hs htail
    · exact Or.inr (Or.inr ⟨[text], dotted, [], .one htext⟩)
    · exact absurd he hne

/-- A tail for two names is refused, is cut or is accepted. -/
theorem verify_two_cases (pname1 pname2 : ByteMemory) {s : List UInt8} (hs : 0 ∉ s) :
    (∃ out, fileNameVerify pname1 pname2 (s ++ [0]) 2 = some (apiFilenameError, out)) ∨
      CutTail 2 s ∨ ∃ texts dotted trail, ScannedTail 2 texts dotted trail s := by
  obtain herror | rfl | ⟨first, first_dotted, e, rest, htail, hfirst, hend⟩ :=
    @scan_names_cases 2 1 s ⟨⟨pname1, 0⟩, ⟨pname2, 0⟩⟩ hs
  · exact Or.inl herror
  · exact Or.inr (Or.inl .first)
  obtain ⟨rfl, rfl, rfl⟩ | ⟨hne, t, rfl, rfl⟩ := scanned_end hs htail
  · -- There is no second name.
    refine Or.inl ⟨((Names.mk ⟨pname1, 0⟩ ⟨pname2, 0⟩).store 2 first).ended first_dotted 0, ?_⟩
    show scanNames 2 (1 + 1) (0x20 :: (first ++ 0 :: [])) _ = _
    rw [scan_names_scanned hfirst hend]
    rfl
  have he : e = 0x20 := (hend.resolve_left hne).1
  have ht : 0 ∉ 0x20 :: t := by
    rw [he] at hs
    exact fun h => hs (List.mem_cons_of_mem _ (List.mem_append_right first h))
  have hverify := @verify_two_first pname1 pname2 first (t ++ [0]) first_dotted hfirst
  obtain ⟨out, herror⟩ | hcut | ⟨second, dotted, e', rest, htail', hsecond, hend'⟩ :=
    @scan_names_cases 2 0 (0x20 :: t) ⟨⟨pname1, 0⟩, (Cursor.mk pname2 0).write first⟩ ht
  · rw [he, List.cons_append, List.append_assoc]
    exact Or.inl ⟨out, hverify.trans herror⟩
  · obtain rfl := (List.cons.inj hcut).2
    rw [he]
    exact Or.inr (Or.inl (.second hfirst))
  · obtain ⟨-, -, hsecond_eq⟩ | ⟨hne', trail, -, hsecond_eq⟩ := scanned_end ht htail'
    · obtain rfl := (List.cons.inj hsecond_eq).2
      have htail_eq : 0x20 :: (first ++ e :: t) = 0x20 :: (first ++ 0x20 :: (t ++ [])) := by
        rw [he, List.append_nil]
      rw [htail_eq]
      exact Or.inr (Or.inr ⟨_, dotted, [], .two hfirst hsecond (Or.inl rfl)⟩)
    · -- Only after an extension may there be something after the second name.
      obtain rfl := (List.cons.inj hsecond_eq).2
      obtain ⟨rfl, hlast⟩ := hend'.resolve_left hne'
      have hdotted : dotted = true := by
        cases dotted with
        | true => rfl
        | false => cases hlast.2
      rw [he]
      exact Or.inr (Or.inr ⟨_, dotted, _, .two hfirst hsecond (Or.inr ⟨hdotted, rfl⟩)⟩)

/-- A tail the scanner accepts is accepted, with its names in the buffers. -/
theorem ScannedTail.verify {pname1 pname2 : ByteMemory} {num : UInt8} {texts : List (List UInt8)}
    {dotted : Bool} {trail s : List UInt8} (h : ScannedTail num texts dotted trail s) :
    ∃ names, fileNameVerify pname1 pname2 (s ++ [0]) num = some (apiCommandOk, names) ∧
      buffers num names.pname1.memory names.pname2.memory =
        List.zipWith (written dotted) (buffers num pname1 pname2) texts := by
  cases h with
  | one htext => exact ⟨_, verify_one_scanned htext, rfl⟩
  | two hfirst hsecond htrail => exact ⟨_, verify_two_scanned hfirst hsecond htrail, rfl⟩

/-- A cut tail is read past its terminator. -/
theorem CutTail.verify {pname1 pname2 : ByteMemory} {num : UInt8} {s : List UInt8}
    (h : CutTail num s) (hnum : num = 1 ∨ num = 2) :
    fileNameVerify pname1 pname2 (s ++ [0]) num = none := by
  cases h with
  | first => obtain rfl | rfl := hnum <;> rfl
  | @second text dotted htext =>
      rw [List.cons_append, List.append_assoc]
      exact verify_two_first htext

/-- A tail is refused, is cut or is accepted. -/
theorem verify_cases (pname1 pname2 : ByteMemory) {num : UInt8} {s : List UInt8}
    (hnum : num = 1 ∨ num = 2) (hs : 0 ∉ s) :
    (∃ out, fileNameVerify pname1 pname2 (s ++ [0]) num = some (apiFilenameError, out)) ∨
      CutTail num s ∨ ∃ texts dotted trail, ScannedTail num texts dotted trail s := by
  obtain rfl | rfl := hnum
  · exact verify_one_cases pname1 pname2 hs
  · exact verify_two_cases pname1 pname2 hs

/-! ## One way to read a tail -/

/-- A character that is in neither of two texts ends both at the same place. -/
theorem split_unique {c : UInt8} {first first' rest rest' : List UInt8} (h : c ∉ first)
    (h' : c ∉ first') (heq : first ++ c :: rest = first' ++ c :: rest') :
    first = first' ∧ rest = rest' := by
  induction first generalizing first' with
  | nil =>
      cases first' with
      | nil => exact ⟨rfl, (List.cons.inj heq).2⟩
      | cons d first' => exact absurd ((List.cons.inj heq).1 ▸ List.mem_cons_self) h'
  | cons d first ih =>
      cases first' with
      | nil => exact absurd ((List.cons.inj heq).1 ▸ List.mem_cons_self) h
      | cons d' first' =>
          obtain ⟨rfl, htail⟩ := List.cons.inj heq
          obtain ⟨rfl, rfl⟩ := ih (mt (List.mem_cons_of_mem d) h) (mt (List.mem_cons_of_mem d) h')
            htail
          exact ⟨rfl, rfl⟩

/-- A first name ends at the first space after its first character. -/
theorem first_unique {first first' rest rest' : List UInt8} (hne : first ≠ []) (hne' : first' ≠ [])
    (hspace : 0x20 ∉ first.tail) (hspace' : 0x20 ∉ first'.tail)
    (h : first ++ 0x20 :: rest = first' ++ 0x20 :: rest') : first = first' ∧ rest = rest' := by
  obtain ⟨c, first, rfl⟩ := List.exists_cons_of_ne_nil hne
  obtain ⟨c', first', rfl⟩ := List.exists_cons_of_ne_nil hne'
  obtain ⟨rfl, htail⟩ := List.cons.inj h
  obtain ⟨rfl, rfl⟩ := split_unique hspace hspace' htail
  exact ⟨rfl, rfl⟩

/-- A last name ends at the first space after its first character or at the end. -/
theorem last_unique {last last' trail trail' : List UInt8} (hne : last ≠ []) (hne' : last' ≠ [])
    (hspace : 0x20 ∉ last.tail) (hspace' : 0x20 ∉ last'.tail)
    (htrail : trail = [] ∨ trail.head? = some 0x20)
    (htrail' : trail' = [] ∨ trail'.head? = some 0x20) (h : last ++ trail = last' ++ trail') :
    last = last' ∧ trail = trail' := by
  -- With a space behind them both names end at a space.
  have hcons : ∀ l : List UInt8, l = [] ∨ l.head? = some 0x20 → ∃ t, l ++ [0x20] = 0x20 :: t := by
    intro l hl
    obtain rfl | hl := hl
    · exact ⟨[], rfl⟩
    · obtain ⟨t, rfl⟩ := List.head?_eq_some_iff.mp hl
      exact ⟨t ++ [0x20], rfl⟩
  obtain ⟨t, ht⟩ := hcons trail htrail
  obtain ⟨t', ht'⟩ := hcons trail' htrail'
  have hspaces : last ++ 0x20 :: t = last' ++ 0x20 :: t' := by
    rw [← ht, ← ht', ← List.append_assoc, h, List.append_assoc]
  obtain ⟨rfl, rfl⟩ := first_unique hne hne' hspace hspace' hspaces
  exact ⟨rfl, List.append_cancel_left h⟩

/-- Whether a name has an extension is seen from its characters. -/
theorem Scanned.dotted_unique {room : ℕ} {text : List UInt8} {dotted dotted' : Bool}
    (h : Scanned room text dotted) (h' : Scanned room text dotted') : dotted = dotted' :=
  Bool.eq_iff_iff.mpr (h.dotted_iff.trans h'.dotted_iff.symm)

/-- What an accepted tail for two names consists of. -/
theorem ScannedTail.of_two {texts : List (List UInt8)} {dotted : Bool} {trail s : List UInt8}
    (h : ScannedTail 2 texts dotted trail s) :
    ∃ first second first_dotted, texts = [first, second] ∧ Scanned 59 first first_dotted ∧
      Scanned 59 second dotted ∧ (trail = [] ∨ trail.head? = some 0x20) ∧
      s = 0x20 :: (first ++ 0x20 :: (second ++ trail)) := by
  cases h with
  | two hfirst hsecond htrail =>
      exact ⟨_, _, _, rfl, hfirst, hsecond, htrail.imp_right And.right, rfl⟩

/-- A tail is accepted in one way only. -/
theorem ScannedTail.unique {num : UInt8} {texts texts' : List (List UInt8)} {dotted dotted' : Bool}
    {trail trail' s : List UInt8} (h : ScannedTail num texts dotted trail s)
    (h' : ScannedTail num texts' dotted' trail' s) :
    texts = texts' ∧ dotted = dotted' ∧ trail = trail' := by
  cases h with
  | one htext =>
      cases h' with
      | one htext' => exact ⟨rfl, htext.dotted_unique htext', rfl⟩
  | two hfirst hsecond htrail =>
      obtain ⟨first', second', _, rfl, hfirst', hsecond', htrail', hs⟩ := h'.of_two
      obtain ⟨rfl, hrest⟩ := first_unique hfirst.ne_nil hfirst'.ne_nil hfirst.space_not_mem
        hfirst'.space_not_mem (List.cons.inj hs).2
      obtain ⟨rfl, rfl⟩ := last_unique hsecond.ne_nil hsecond'.ne_nil hsecond.space_not_mem
        hsecond'.space_not_mem (htrail.imp_right And.right) htrail' hrest
      exact ⟨rfl, hsecond.dotted_unique hsecond', rfl⟩

/-! ## The grammar and the scanner -/

/-- A tail of the grammar is accepted. -/
theorem IsTail.scanned {num : UInt8} {texts : List (List UInt8)} {s : List UInt8}
    (h : IsTail num texts s) (hnum : num = 1 ∨ num = 2) :
    ∃ dotted, ScannedTail num texts dotted [] s := by
  obtain ⟨hcount, hnames, rfl⟩ := h
  obtain rfl | rfl := hnum
  · obtain ⟨text, rfl⟩ := List.length_eq_one_iff.mp hcount
    obtain ⟨dotted, htext⟩ := (hnames text List.mem_cons_self).scanned.1
    rw [List.flatMap_singleton]
    exact ⟨dotted, .one htext⟩
  · obtain ⟨first, second, rfl⟩ := List.length_eq_two.mp hcount
    obtain ⟨_, hfirst⟩ := (hnames first List.mem_cons_self).scanned.1
    obtain ⟨dotted, hsecond⟩ :=
      (hnames second (List.mem_cons_of_mem _ List.mem_cons_self)).scanned.1
    exact ⟨dotted, .two hfirst hsecond (Or.inl rfl)⟩

/-- An accepted tail is one of the grammar if its names are regular and nothing is left of it. -/
theorem ScannedTail.isTail {num : UInt8} {texts : List (List UInt8)} {dotted : Bool}
    {s : List UInt8} (h : ScannedTail num texts dotted [] s)
    (hregular : ∀ text ∈ texts, Regular text) : IsTail num texts s := by
  cases h with
  | @one text _ htext =>
      obtain ⟨htext_regular, -⟩ := List.forall_mem_cons.mp hregular
      exact ⟨rfl, List.forall_mem_singleton.mpr (htext.fileName htext_regular),
        (List.flatMap_singleton ..).symm⟩
  | @two first second _ _ _ hfirst hsecond _ =>
      obtain ⟨hfirst_regular, hregular⟩ := List.forall_mem_cons.mp hregular
      obtain ⟨hsecond_regular, -⟩ := List.forall_mem_cons.mp hregular
      exact ⟨rfl, List.forall_mem_cons.mpr ⟨hfirst.fileName hfirst_regular,
        List.forall_mem_singleton.mpr (hsecond.fileName hsecond_regular)⟩, rfl⟩

/-- The buffers hold their names if the terminators were stored or were there. -/
theorem forall_holds_iff {dotted : Bool} {memories : List ByteMemory} {texts : List (List UInt8)}
    (h : memories.length = texts.length) :
    List.Forall₂ Holds (List.zipWith (written dotted) memories texts) texts ↔
      (dotted = true →
        List.Forall₂ (fun memory text => memory text.length = 0) memories texts) := by
  induction memories generalizing texts with
  | nil =>
      obtain rfl := List.length_eq_zero_iff.mp h.symm
      exact iff_of_true .nil fun _ => .nil
  | cons memory memories ih =>
      cases texts with
      | nil => cases h
      | cons text texts =>
          rw [List.zipWith_cons_cons, List.forall₂_cons, List.forall₂_cons, holds_written_iff,
            ih (Nat.succ.inj h)]
          exact ⟨fun h hdotted => ⟨h.1 hdotted, h.2 hdotted⟩,
            fun h => ⟨fun hdotted => (h hdotted).1, fun hdotted => (h hdotted).2⟩⟩

/-- There is a buffer for each name. -/
theorem ScannedTail.length_buffers {num : UInt8} {texts : List (List UInt8)} {dotted : Bool}
    {trail s : List UInt8} (h : ScannedTail num texts dotted trail s)
    (pname1 pname2 : ByteMemory) : (buffers num pname1 pname2).length = texts.length := by
  cases h <;> rfl

/-- The function does what it is for exactly on the readable tails. -/
theorem verifies_iff (pname1 pname2 : ByteMemory) {num : UInt8} {s : List UInt8}
    (hnum : num = 1 ∨ num = 2) (hs : 0 ∉ s) :
    Verifies pname1 pname2 s num ↔ Readable pname1 pname2 s num := by
  constructor
  · intro ⟨code, names, hverify, _, hholds⟩
    refine ⟨fun hcut => ?_, fun texts dotted trail hscanned => ?_⟩
    · cases hverify.symm.trans (hcut.verify hnum)
    · obtain ⟨names', hverify', hbuffers⟩ := @hscanned.verify pname1 pname2
      cases hverify.symm.trans hverify'
      obtain ⟨texts', htail, hholds⟩ := hholds rfl
      obtain ⟨dotted', hscanned'⟩ := htail.scanned hnum
      obtain ⟨rfl, rfl, rfl⟩ := hscanned.unique hscanned'
      rw [hbuffers, forall_holds_iff (hscanned.length_buffers pname1 pname2)] at hholds
      exact ⟨rfl, fun text htext => (htail.fileName text htext).scanned.2, hholds⟩
  · intro ⟨huncut, haccepted⟩
    obtain ⟨names, herror⟩ | hcut | ⟨texts, dotted, trail, hscanned⟩ :=
      verify_cases pname1 pname2 hnum hs
    · refine ⟨apiFilenameError, names, herror, fun ⟨texts, htail⟩ => ?_, fun h => (by cases h)⟩
      obtain ⟨dotted, hscanned⟩ := htail.scanned hnum
      obtain ⟨names', hverify, -⟩ := @hscanned.verify pname1 pname2
      cases herror.symm.trans hverify
    · exact absurd hcut huncut
    · obtain ⟨rfl, hregular, hterminated⟩ := haccepted texts dotted trail hscanned
      obtain ⟨names, hverify, hbuffers⟩ := @hscanned.verify pname1 pname2
      refine ⟨apiCommandOk, names, hverify, fun _ => rfl, fun _ => ?_⟩
      refine ⟨texts, hscanned.isTail hregular, ?_⟩
      rw [hbuffers, forall_holds_iff (hscanned.length_buffers pname1 pname2)]
      exact hterminated

/-- A single name of one letter. -/
theorem verifies_letter :
    Verifies (fun _ => 0xFF) (fun _ => 0xFF) [0x20, 0x61] 1 ↔
      Readable (fun _ => 0xFF) (fun _ => 0xFF) [0x20, 0x61] 1 :=
  verifies_iff _ _ (Or.inl rfl) (by decide)

/-- A tail of a space only is read past its terminator. -/
theorem overread_of_space : ¬ Verifies (fun _ => 0xFF) (fun _ => 0xFF) [0x20] 1 := by
  intro ⟨code, names, hverify, _⟩
  cases hverify

end TivaAws.Sd
