import TivaAws.Shadow.Client

/-!
# Comparing topics

What `strlen` and `strncmp` compute on the strings in a memory, and the topic that `prvCreateTopic`
makes from a format and any Thing name. A name whose length does not fit in 16 bits is cut, and if
the topic does not fit in the buffer, none is made and the buffer stays as it was
(`create_topic_string`).
-/

namespace TivaAws.Shadow

open ByteMemory

/-! ## Comparing strings -/

section Strncmp

variable {first second : ByteMemory}

/-- Without a NUL in the second memory, a comparison is one of bytes. -/
theorem strncmp_bytes {i count : Nat} (hnul : ∀ j < count, second (i + j) ≠ 0) :
    strncmp first second i count = true ↔
      first.readBytes i count = second.readBytes i count := by
  induction count generalizing i with
  | zero => simp [strncmp]
  | succ count ih =>
      have hfirst : second i ≠ 0 := hnul 0 (Nat.succ_pos count)
      rw [readBytes_cons, readBytes_cons, List.cons.injEq, strncmp]
      split_ifs with hne hzero
      · exact iff_of_false id fun h => hne h.1
      · exact absurd ((not_not.mp hne).symm.trans hzero) hfirst
      · rw [ih fun j hj => ?_]
        · exact (and_iff_right (not_not.mp hne)).symm
        · rw [Nat.add_assoc, Nat.add_comm 1]
          exact hnul (j + 1) (Nat.succ_lt_succ hj)

/-- A comparison with a string ends behind its NUL. -/
theorem strncmp_string {string : List UInt8} (hnul : 0 ∉ string) {i count : Nat}
    (hfirst : first.readBytes i (string.length + 1) = string ++ [0]) :
    strncmp first second i count = true ↔
      second.readBytes i (min count (string.length + 1)) = (string ++ [0]).take count := by
  induction string generalizing i count with
  | nil =>
      have hzero : first i = 0 := (List.cons.inj hfirst).1
      cases count with
      | zero => simp [strncmp]
      | succ count =>
          rw [strncmp, List.length_nil, Nat.zero_add, Nat.min_eq_right (Nat.succ_pos count),
            List.nil_append, List.take_succ_cons, List.take_nil, hzero]
          show _ ↔ [second (i + 0)] = [0]
          rw [Nat.add_zero, List.singleton_inj]
          split_ifs with hne hzero'
          · exact iff_of_false id fun h => hne h.symm
          · exact iff_of_true rfl (not_not.mp hne).symm
          · exact absurd rfl hzero'
  | cons byte string ih =>
      rw [List.length_cons, readBytes_cons, List.cons_append, List.cons.injEq] at hfirst
      obtain ⟨hbyte, hrest⟩ := hfirst
      have hne : byte ≠ 0 := fun h => hnul (h ▸ List.mem_cons_self)
      cases count with
      | zero => simp [strncmp]
      | succ count =>
          rw [strncmp, List.length_cons, Nat.succ_min_succ, readBytes_cons, List.cons_append,
            List.take_succ_cons, List.cons.injEq, hbyte, if_neg hne]
          split_ifs with hdiffers
          · exact iff_of_false id fun h => hdiffers h.1.symm
          · rw [ih (fun h => hnul (List.mem_cons_of_mem _ h)) hrest]
            exact (and_iff_right (not_not.mp hdiffers).symm).symm

end Strncmp

section Strlen

variable {memory : ByteMemory} {size : Nat}

theorem strlen_le (memory : ByteMemory) (size : Nat) : strlen memory size ≤ size := by
  unfold strlen
  cases hfind : (List.range size).find? fun i => memory i == 0 with
  | none => exact Nat.le_refl size
  | some i => exact Nat.le_of_lt (List.mem_range.mp (List.mem_of_find?_eq_some hfind))

/-- There is no NUL in front of the end of a string. -/
theorem ne_zero_of_lt_strlen {i : Nat} (hi : i < strlen memory size) : memory i ≠ 0 := by
  intro hzero
  have hrange : i < size := Nat.lt_of_lt_of_le hi (strlen_le _ _)
  unfold strlen at hi
  cases hfind : (List.range size).find? fun i => memory i == 0 with
  | none =>
      have hnone := List.find?_range_eq_none.mp hfind i hrange
      simp [hzero] at hnone
  | some stop =>
      rw [hfind, Option.getD_some] at hi
      have hnot := (List.find?_range_eq_some.mp hfind).2.2 i hi
      simp [hzero] at hnot

/-- The length of a string with its NUL in the memory. -/
theorem strlen_string {string : List UInt8} (hnul : 0 ∉ string) (hsize : string.length < size)
    (hmemory : memory.readBytes 0 (string.length + 1) = string ++ [0]) :
    strlen memory size = string.length := by
  rw [readBytes_succ] at hmemory
  obtain ⟨hstring, hzero⟩ := List.append_inj' hmemory rfl
  have hend : memory string.length = 0 := by
    rw [← Nat.zero_add string.length]
    exact (List.cons.inj hzero).1
  have hfind : (List.range size).find? (fun i => memory i == 0) = some string.length := by
    refine List.find?_range_eq_some.mpr ⟨by rw [hend]; rfl, List.mem_range.mpr hsize, ?_⟩
    intro i hi
    have hmem : memory i ∈ string := by
      rw [← hstring]
      exact (mem_readBytes _).mpr ⟨i, hi, by rw [Nat.zero_add]⟩
    have hne : memory i ≠ 0 := fun h => hnul (h ▸ hmem)
    simp [hne]
  rw [strlen, hfind, Option.getD_some]

/-- The string in a memory. -/
def stringIn (memory : ByteMemory) (size : Nat) : List UInt8 :=
  memory.readBytes 0 (strlen memory size)

/-- Two lists agree up to the end of the shorter one if one begins with the other. -/
theorem take_min_eq_iff {first second : List UInt8} :
    first.take (min second.length first.length) = second.take (min second.length first.length) ↔
      first <+: second ∨ second <+: first := by
  constructor
  · intro h
    rcases Nat.le_total first.length second.length with hle | hle
    · rw [Nat.min_eq_right hle, List.take_length] at h
      exact Or.inl (List.prefix_iff_eq_take.mpr h)
    · rw [Nat.min_eq_left hle, List.take_length] at h
      exact Or.inr (List.prefix_iff_eq_take.mpr h.symm)
  · intro h
    rcases h with hbegins | hbegins
    · rw [Nat.min_eq_right hbegins.length_le, List.take_length]
      exact List.prefix_iff_eq_take.mp hbegins
    · rw [Nat.min_eq_left hbegins.length_le, List.take_length]
      exact (List.prefix_iff_eq_take.mp hbegins).symm

/-- A comparison over the shorter of two lengths only says that one string begins with the other. -/
theorem strncmp_shorter (received : ByteMemory) (length : Nat) :
    strncmp received memory 0 (min (strlen memory size) length) = true ↔
      received.readBytes 0 length <+: stringIn memory size ∨
        stringIn memory size <+: received.readBytes 0 length := by
  have hnul : ∀ j < min (strlen memory size) length, memory (0 + j) ≠ 0 := by
    intro j hj
    rw [Nat.zero_add]
    exact ne_zero_of_lt_strlen (Nat.lt_of_lt_of_le hj (Nat.min_le_left _ _))
  rw [strncmp_bytes hnul, ← take_min_eq_iff, stringIn, length_readBytes, length_readBytes,
    take_readBytes _ _ (Nat.min_le_right _ _), take_readBytes _ _ (Nat.min_le_left _ _)]

end Strlen

/-! ## Created topics -/

/-- What follows the Thing name in the format of a topic, behind `/shadow/`. -/
structure TopicSuffix (suffix : List UInt8) : Prop where
  chain : ('s'.toUInt8 :: (ascii "/shadow/" ++ suffix)).IsChain NotDirective
  no_nul : 0 ∉ suffix
  short : (topicPrefix ++ suffix).length < 2 ^ 16

/-- The part of a Thing name that `prvCreateTopic` uses. -/
def cutName (name : List UInt8) : List UInt8 := name.take (name.length % 2 ^ 16)

/-- The topic fits in the buffer. -/
def TopicFits (suffix name : List UInt8) : Prop :=
  (topicPrefix ++ suffix).length + (cutName name).length < topicBufferLength

instance (suffix name : List UInt8) : Decidable (TopicFits suffix name) :=
  inferInstanceAs (Decidable (_ < _))

/-- The topic that is made, if any. -/
def createdTopic (suffix : List UInt8) (name : CString) : Option (List UInt8) :=
  if TopicFits suffix name.bytes then some (shadowTopic (cutName name.bytes) suffix) else none

/-- The topic of an MQTT call, empty if none is made. -/
def topicBytes (suffix : List UInt8) (name : CString) : List UInt8 :=
  (createdTopic suffix name).getD []

/-- The topic buffer after a topic has been made in it. -/
def fillTopic (suffix : List UInt8) (name : CString) (buffer : ByteMemory) : ByteMemory :=
  (prvCreateTopic buffer topicBufferLength (topicPrefix ++ suffix) name).2

section Created

variable {suffix topic : List UInt8} {name : CString}

theorem cut_name_of_short {name : List UInt8} (h : name.length < 2 ^ 16) : cutName name = name := by
  rw [cutName, Nat.mod_eq_of_lt h, List.take_length]

theorem length_cut_name (name : List UInt8) : (cutName name).length = name.length % 2 ^ 16 := by
  rw [cutName, List.length_take]
  exact Nat.min_eq_left (Nat.mod_le _ _)

/-- The cut name is a string as well. -/
theorem cut_name_no_nul (name : CString) : 0 ∉ cutName name.bytes :=
  fun h => name.no_nul (List.mem_of_mem_take h)

theorem shadow_topic_no_nul {name : List UInt8} (hname : 0 ∉ name) (hsuffix : 0 ∉ suffix) :
    0 ∉ shadowTopic name suffix := by
  have hfront : (0 : UInt8) ∉ ascii "$aws/things/" := by decide
  have hmiddle : (0 : UInt8) ∉ ascii "/shadow/" := by decide
  simp only [shadowTopic, List.mem_append, not_or]
  exact ⟨hfront, hname, hmiddle, hsuffix⟩

theorem length_shadow_topic (name suffix : List UInt8) :
    (shadowTopic name suffix).length + 2 = (topicPrefix ++ suffix).length + name.length := by
  have hfront : (ascii "$aws/things/").length + (ascii "/shadow/").length + 2 =
    topicPrefix.length := by decide
  simp only [shadowTopic, List.length_append]
  omega

/-- The topic of a Thing begins with its prefix. -/
theorem shadow_topic_append (name suffix : List UInt8) :
    shadowTopic name suffix = shadowTopic name [] ++ suffix := by
  simp only [shadowTopic, List.append_nil, List.append_assoc]

/-- Only the cut name counts. -/
theorem create_topic_cut (memory : ByteMemory) (bufferLength : Nat) (topicFormat : List UInt8)
    (name : CString) :
    prvCreateTopic memory bufferLength topicFormat name =
      prvCreateTopic memory bufferLength topicFormat
        ⟨cutName name.bytes, cut_name_no_nul name⟩ := by
  have hlength : (cutName name.bytes).length % 2 ^ 16 = name.bytes.length % 2 ^ 16 := by
    rw [length_cut_name, Nat.mod_mod]
  have htake : (cutName name.bytes).take (name.bytes.length % 2 ^ 16) =
      name.bytes.take (name.bytes.length % 2 ^ 16) := by
    rw [cutName, List.take_take, Nat.min_self]
  unfold prvCreateTopic
  simp only [hlength, htake]

/-- The topic is written into the buffer with a NUL behind it, or the buffer stays. -/
theorem create_topic_string (hsuffix : TopicSuffix suffix) (memory : ByteMemory)
    (name : CString) :
    prvCreateTopic memory topicBufferLength (topicPrefix ++ suffix) name =
      match createdTopic suffix name with
      | some topic => (topic.length, memory.writeBytes 0 (topic ++ [0]))
      | none => (0, memory) := by
  unfold createdTopic
  split_ifs with hfits
  · rw [create_topic_cut]
    exact create_shadow_topic hsuffix.chain hfits
  · unfold TopicFits at hfits
    rw [length_cut_name] at hfits
    unfold prvCreateTopic
    simp only
    rw [Nat.mod_eq_of_lt hsuffix.short, if_pos (Nat.not_lt.mp hfits)]

theorem create_topic_some (hsuffix : TopicSuffix suffix) (memory : ByteMemory)
    (h : createdTopic suffix name = some topic) :
    prvCreateTopic memory topicBufferLength (topicPrefix ++ suffix) name =
      (topic.length, memory.writeBytes 0 (topic ++ [0])) := by
  rw [create_topic_string hsuffix, h]

theorem create_topic_none (hsuffix : TopicSuffix suffix) (memory : ByteMemory)
    (h : createdTopic suffix name = none) :
    prvCreateTopic memory topicBufferLength (topicPrefix ++ suffix) name = (0, memory) := by
  rw [create_topic_string hsuffix, h]

theorem created_topic_some (h : createdTopic suffix name = some topic) :
    TopicFits suffix name.bytes ∧ topic = shadowTopic (cutName name.bytes) suffix := by
  unfold createdTopic at h
  split_ifs at h with hfits
  exact ⟨hfits, (Option.some.inj h).symm⟩

/-- A created topic has no NUL and leaves room for one in the buffer. -/
theorem created_topic_string (hsuffix : TopicSuffix suffix)
    (h : createdTopic suffix name = some topic) :
    0 ∉ topic ∧ topic.length + 1 < topicBufferLength := by
  obtain ⟨hfits, rfl⟩ := created_topic_some h
  have hlength := length_shadow_topic (cutName name.bytes) suffix
  unfold TopicFits at hfits
  exact ⟨shadow_topic_no_nul (cut_name_no_nul name) hsuffix.no_nul, by omega⟩

/-- A longer topic fits only if a shorter one does. -/
theorem TopicFits.shorter {suffix' name : List UInt8} (h : TopicFits suffix name)
    (hlength : suffix'.length ≤ suffix.length) : TopicFits suffix' name := by
  unfold TopicFits at h ⊢
  rw [List.length_append] at h ⊢
  omega

/-- The topic of a call is made from a format and the Thing name. -/
theorem call_topic_bytes (hsuffix : TopicSuffix suffix)
    (buffer : ByteMemory) (name : CString) :
    (fillTopic suffix name buffer).readBytes 0
        (prvCreateTopic buffer topicBufferLength (topicPrefix ++ suffix) name).1 =
      topicBytes suffix name := by
  unfold fillTopic topicBytes
  rw [create_topic_string hsuffix]
  cases createdTopic suffix name with
  | none => rfl
  | some topic => exact readBytes_writeBytes_append buffer 0 topic [0]

/-- A string in a buffer. -/
theorem string_in_buffer (memory : ByteMemory) {string : List UInt8} :
    (memory.writeBytes 0 (string ++ [0])).readBytes 0 (string.length + 1) = string ++ [0] := by
  have hread := readBytes_writeBytes memory 0 (string ++ [0])
  rwa [List.length_append] at hread

end Created

/-! ## The formats -/

theorem suffix_nil : TopicSuffix [] := ⟨by decide, by decide, by decide⟩

theorem suffix_word (operation : Operation) : TopicSuffix operation.word := by
  constructor <;> cases operation <;> decide

theorem suffix_accepted (operation : Operation) :
    TopicSuffix (operation.word ++ topicSuffixAccepted) := by
  constructor <;> cases operation <;> decide

theorem suffix_rejected (operation : Operation) :
    TopicSuffix (operation.word ++ topicSuffixRejected) := by
  constructor <;> cases operation <;> decide

/-! ## Comparisons with a created topic -/

section Compare

variable {suffix topic : List UInt8} {name : CString} {received : ByteMemory}

/-- A created topic and the received one are compared, and it stays in the buffer. -/
theorem compare_topic_some (hsuffix : TopicSuffix suffix)
    (h : createdTopic suffix name = some topic) (received : ByteMemory)
    (compareLength : Nat → Nat) (buffer : ByteMemory) :
    compareTopic (topicPrefix ++ suffix) name received compareLength buffer =
      (strncmp (buffer.writeBytes 0 (topic ++ [0])) received 0 (compareLength topic.length),
        buffer.writeBytes 0 (topic ++ [0])) := by
  unfold compareTopic
  rw [create_topic_some hsuffix buffer h]

/-- Otherwise the buffer is compared as it is. -/
theorem compare_topic_none (hsuffix : TopicSuffix suffix) (h : createdTopic suffix name = none)
    (received : ByteMemory) (compareLength : Nat → Nat) (buffer : ByteMemory) :
    compareTopic (topicPrefix ++ suffix) name received compareLength buffer =
      (strncmp buffer received 0 (compareLength 0), buffer) := by
  unfold compareTopic
  rw [create_topic_none hsuffix buffer h]

/-- Up to its length, a string is compared byte by byte. -/
theorem strncmp_within {string : List UInt8} (hnul : 0 ∉ string) (buffer : ByteMemory)
    {count : Nat} (hcount : count ≤ string.length) :
    strncmp (buffer.writeBytes 0 (string ++ [0])) received 0 count = true ↔
      received.readBytes 0 count = string.take count := by
  rw [strncmp_string hnul (string_in_buffer buffer), Nat.min_eq_left (by omega),
    List.take_append_of_le_length hcount]

/-- Beyond its length, it is compared with its NUL. -/
theorem strncmp_beyond {string : List UInt8} (hnul : 0 ∉ string) (buffer : ByteMemory)
    {count : Nat} (hcount : string.length < count) :
    strncmp (buffer.writeBytes 0 (string ++ [0])) received 0 count = true ↔
      received.readBytes 0 (string.length + 1) = string ++ [0] := by
  rw [strncmp_string hnul (string_in_buffer buffer), Nat.min_eq_right (by omega),
    List.take_of_length_le (by rw [List.length_append, List.length_singleton]; omega)]

/-- The prefix of a Thing is compared over its own length. -/
theorem compare_begun (h : createdTopic [] name = some topic) (received buffer : ByteMemory) :
    compareTopic topicPrefix name received id buffer =
      (strncmp (buffer.writeBytes 0 (topic ++ [0])) received 0 topic.length,
        buffer.writeBytes 0 (topic ++ [0])) := by
  have hcompare := compare_topic_some suffix_nil h received id buffer
  rw [List.append_nil] at hcompare
  exact hcompare

/-- A prefix that does not fit always compares equal. -/
theorem compare_begun_none (h : createdTopic [] name = none) (received buffer : ByteMemory) :
    compareTopic topicPrefix name received id buffer = (true, buffer) := by
  have hcompare := compare_topic_none suffix_nil h received id buffer
  rw [List.append_nil] at hcompare
  rw [hcompare]
  rfl

/-- The received topic begins with the prefix of a Thing. -/
theorem compare_thing (h : createdTopic [] name = some topic) (received buffer : ByteMemory) :
    (compareTopic topicPrefix name received id buffer).1 = true ↔
      received.readBytes 0 topic.length = topic := by
  have hwithin := @strncmp_within received topic (created_topic_string suffix_nil h).1
    buffer _ (le_refl topic.length)
  rw [List.take_length] at hwithin
  rw [compare_begun h]
  exact hwithin

end Compare

end TivaAws.Shadow
