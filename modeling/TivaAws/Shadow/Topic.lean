import TivaAws.Foundation.ByteMemory
import Mathlib.Tactic.Common

/-!
# Shadow topics

The topics of the Shadow service are format strings in which `%s` stands for the Thing name.
`prvCreateTopic` fills one in. With room in the buffer it writes the substitution and a NUL and
returns the length of the substitution (`create_topic_eq`).
-/

namespace TivaAws.Shadow

open ByteMemory

/-! ## C strings -/

/-- A string of the source. -/
def ascii (string : String) : List UInt8 := string.toList.map Char.toUInt8

/-- The bytes of a C string, without its NUL. -/
structure CString where
  bytes : List UInt8
  no_nul : 0 ∉ bytes

/-- `strlen` on a buffer of `size` bytes. -/
def strlen (memory : ByteMemory) (size : Nat) : Nat :=
  ((List.range size).find? fun i => memory i == 0).getD size

/-- `strncmp( first, second, count ) == 0`. -/
def strncmp (first second : ByteMemory) : Nat → Nat → Bool
  | _, 0 => true
  | i, count + 1 =>
      if first i ≠ second i then false
      else if first i = 0 then true
      else strncmp first second (i + 1) count

/-! ## Formats -/

/-- `shadowTOPIC_PREFIX`. -/
def topicPrefix : List UInt8 := ascii "$aws/things/%s/shadow/"

/-- `shadowTOPIC_SUFFIX_ACCEPTED`. -/
def topicSuffixAccepted : List UInt8 := ascii "/accepted"

/-- `shadowTOPIC_SUFFIX_REJECTED`. -/
def topicSuffixRejected : List UInt8 := ascii "/rejected"

/-- `ShadowOperationName_t`. -/
inductive ShadowOperationName where
  | update
  | get
  | delete
  | updateDocuments
  | updateDelta
  | deletedByAnother
  | other
  deriving DecidableEq, Repr

/-- The operations a client performs. -/
inductive Operation where
  | update
  | get
  | delete
  deriving DecidableEq, Repr

/-- The member of `ShadowOperationName_t` for an operation. -/
def Operation.toName : Operation → ShadowOperationName
  | .update => .update
  | .get => .get
  | .delete => .delete

/-- `shadowTOPIC_OPERATION_UPDATE`, `shadowTOPIC_OPERATION_GET` and
`shadowTOPIC_OPERATION_DELETE`. -/
def Operation.word : Operation → List UInt8
  | .update => ascii "update"
  | .get => ascii "get"
  | .delete => ascii "delete"

/-- `shadowTOPIC_UPDATE`, `shadowTOPIC_GET` and `shadowTOPIC_DELETE`. -/
def Operation.topic (operation : Operation) : List UInt8 := topicPrefix ++ operation.word

/-- `shadowTOPIC_UPDATE_ACCEPTED` and the like. -/
def Operation.acceptedTopic (operation : Operation) : List UInt8 :=
  operation.topic ++ topicSuffixAccepted

/-- `shadowTOPIC_UPDATE_REJECTED` and the like. -/
def Operation.rejectedTopic (operation : Operation) : List UInt8 :=
  operation.topic ++ topicSuffixRejected

/-- `shadowTOPIC_UPDATE_DOCUMENTS`. -/
def topicUpdateDocuments : List UInt8 := Operation.update.topic ++ ascii "/documents"

/-- `shadowTOPIC_UPDATE_DELTA`. -/
def topicUpdateDelta : List UInt8 := Operation.update.topic ++ ascii "/delta"

/-- `shadowTOPIC_BUFFER_LENGTH`: the longest Thing name and the longest format with its NUL. -/
def topicBufferLength : Nat := 128 + (topicUpdateDocuments.length + 1)

/-! ## Creating topics -/

/-- The loop of `prvCreateTopic` over the characters of the format from `formatIdx` on. All indices
have 16 bits. -/
def createTopicLoop (thingName : List UInt8) :
    List UInt8 → (formatIdx topicIdx : Nat) → (prevChar : UInt8) → ByteMemory → Nat × ByteMemory
  | [], _, topicIdx, _, memory => (topicIdx, memory)
  | currentChar :: rest, formatIdx, topicIdx, prevChar, memory =>
      if prevChar = '%'.toUInt8 ∧ currentChar = 's'.toUInt8 then
        createTopicLoop thingName rest (formatIdx + 1)
          ((topicIdx + thingName.length + 2 ^ 16 - 1) % 2 ^ 16) currentChar
          (memory.writeBytes (formatIdx - 1) thingName)
      else
        createTopicLoop thingName rest (formatIdx + 1) ((topicIdx + 1) % 2 ^ 16) currentChar
          (memory.writeBytes topicIdx [currentChar])

/-- `prvCreateTopic`: the length of the topic, zero if the buffer is too short, and the buffer. The
length of the name is cut to 16 bits, and so many characters of it are used. -/
def prvCreateTopic (memory : ByteMemory) (bufferLength : Nat) (topicFormat : List UInt8)
    (thingName : CString) : Nat × ByteMemory :=
  let topicFormatSize := topicFormat.length % 2 ^ 16
  let thingNameSize := thingName.bytes.length % 2 ^ 16
  if topicFormatSize + thingNameSize ≥ bufferLength then (0, memory)
  else
    let topicSize := (topicFormatSize + thingNameSize + 2 ^ 16 - 2) % 2 ^ 16
    let last := createTopicLoop (thingName.bytes.take thingNameSize)
      (topicFormat.take topicFormatSize) 0 0 '0'.toUInt8 memory
    (topicSize, last.2.writeBytes last.1 [0])

/-! ## What is created -/

/-- Two neighbours in a format that are not `%s`. -/
def NotDirective (first second : UInt8) : Prop := ¬ (first = '%'.toUInt8 ∧ second = 's'.toUInt8)

instance (first second : UInt8) : Decidable (NotDirective first second) :=
  inferInstanceAs (Decidable (¬ _))

section CreateTopic

variable {thingName : List UInt8} {memory : ByteMemory}

/-- Characters that are not part of a directive are copied. -/
theorem create_topic_loop_copy (chars rest : List UInt8) {formatIdx topicIdx : Nat}
    {prevChar : UInt8} (hchars : (prevChar :: chars).IsChain NotDirective)
    (hroom : topicIdx + chars.length < 2 ^ 16) :
    createTopicLoop thingName (chars ++ rest) formatIdx topicIdx prevChar memory =
      createTopicLoop thingName rest (formatIdx + chars.length) (topicIdx + chars.length)
        ((prevChar :: chars).getLast (List.cons_ne_nil _ _))
          (memory.writeBytes topicIdx chars) := by
  induction chars generalizing formatIdx topicIdx prevChar memory with
  | nil => simp
  | cons currentChar chars ih =>
      obtain ⟨hpair, hrest⟩ := List.isChain_cons_cons.mp hchars
      rw [List.length_cons] at hroom ⊢
      rw [List.cons_append, createTopicLoop, if_neg hpair, Nat.mod_eq_of_lt (by omega),
        ih hrest (by omega)]
      have happend := writeBytes_append memory topicIdx [currentChar] chars
      rw [List.length_singleton, List.singleton_append] at happend
      rw [happend, List.getLast_cons_cons, Nat.add_assoc, Nat.add_assoc, Nat.add_comm 1]

/-- The end of a format. -/
theorem create_topic_loop_end {chars : List UInt8} {formatIdx topicIdx : Nat} {prevChar : UInt8}
    (hchars : (prevChar :: chars).IsChain NotDirective)
    (hroom : topicIdx + chars.length < 2 ^ 16) :
    createTopicLoop thingName chars formatIdx topicIdx prevChar memory =
      (topicIdx + chars.length, memory.writeBytes topicIdx chars) := by
  rw [← List.append_nil chars, create_topic_loop_copy chars [] hchars hroom, createTopicLoop,
    List.append_nil]

/-- A format with one `%s` that fits is filled in, with a NUL behind it. -/
theorem create_topic_eq {bufferLength : Nat} {front back : List UInt8} {name : CString}
    (hfront : ('0'.toUInt8 :: (front ++ ['%'.toUInt8])).IsChain NotDirective)
    (hback : ('s'.toUInt8 :: back).IsChain NotDirective) (hbuffer : bufferLength < 2 ^ 16)
    (hroom : (front ++ '%'.toUInt8 :: 's'.toUInt8 :: back).length + name.bytes.length <
      bufferLength) :
    prvCreateTopic memory bufferLength (front ++ '%'.toUInt8 :: 's'.toUInt8 :: back) name =
      ((front ++ (name.bytes ++ back)).length,
        memory.writeBytes 0 (front ++ (name.bytes ++ back) ++ [0])) := by
  have hlength : (front ++ '%'.toUInt8 :: 's'.toUInt8 :: back).length =
      front.length + 2 + back.length := by
    simp only [List.length_append, List.length_cons]
    omega
  rw [hlength] at hroom
  unfold prvCreateTopic
  simp only
  rw [hlength, Nat.mod_eq_of_lt (by omega), Nat.mod_eq_of_lt (by omega), if_neg (by omega),
    List.take_length, List.take_of_length_le (by omega)]
  have hsplit : front ++ '%'.toUInt8 :: 's'.toUInt8 :: back =
      (front ++ ['%'.toUInt8]) ++ ('s'.toUInt8 :: back) := by simp
  have hfrontLength : (front ++ ['%'.toUInt8]).length = front.length + 1 := by simp
  have hlast : ('0'.toUInt8 :: (front ++ ['%'.toUInt8])).getLast (List.cons_ne_nil _ _) =
      '%'.toUInt8 := by simp
  have hwrap : (0 + (front.length + 1) + name.bytes.length + 2 ^ 16 - 1) % 2 ^ 16 =
      0 + front.length + name.bytes.length := by omega
  -- The format up to the percent sign, the directive, and what follows it.
  rw [hsplit, create_topic_loop_copy _ _ hfront (by rw [hfrontLength]; omega), hlast, hfrontLength,
    createTopicLoop, if_pos ⟨rfl, rfl⟩, hwrap]
  rw [create_topic_loop_end hback (by omega)]
  have hpercent := writeBytes_append memory 0 front ['%'.toUInt8]
  have hthing := writeBytes_append (memory.writeBytes 0 (front ++ ['%'.toUInt8])) (0 + front.length)
    name.bytes back
  have hnul := writeBytes_append (memory.writeBytes 0 (front ++ ['%'.toUInt8])) (0 + front.length)
    (name.bytes ++ back) [0]
  have hwhole := writeBytes_append memory 0 front (name.bytes ++ back ++ [0])
  have hend : 0 + front.length + name.bytes.length + back.length =
      0 + front.length + (name.bytes ++ back).length := by
    rw [List.length_append]
    omega
  refine Prod.ext ?_ ?_
  · show (front.length + 2 + back.length + name.bytes.length + 2 ^ 16 - 2) % 2 ^ 16 = _
    simp only [List.length_append]
    omega
  · show ByteMemory.writeBytes _ (0 + front.length + name.bytes.length + back.length) [0] = _
    -- The percent sign is behind the name or, if the name is empty, behind what follows it.
    have hover : ((memory.writeBytes 0 front).writeBytes (0 + front.length)
        ['%'.toUInt8]).writeBytes (0 + front.length) (name.bytes ++ back ++ [0]) =
          (memory.writeBytes 0 front).writeBytes (0 + front.length) (name.bytes ++ back ++ [0]) :=
      writeBytes_overwrite _ _ (by simp; omega)
    rw [show 0 + (front.length + 1) - 1 = 0 + front.length by omega, hthing, hend, hnul, ← hpercent,
      hover, hwhole, List.append_assoc front]

end CreateTopic

/-! ## Topics of operations -/

/-- The topic of a Thing, without its NUL. -/
def shadowTopic (name suffix : List UInt8) : List UInt8 :=
  ascii "$aws/things/" ++ (name ++ (ascii "/shadow/" ++ suffix))

/-- A topic whose format starts with `topicPrefix` is created if it fits. -/
theorem create_shadow_topic {memory : ByteMemory} {name : CString} {suffix : List UInt8}
    (hsuffix : ('s'.toUInt8 :: (ascii "/shadow/" ++ suffix)).IsChain NotDirective)
    (hroom : (topicPrefix ++ suffix).length + name.bytes.length < topicBufferLength) :
    prvCreateTopic memory topicBufferLength (topicPrefix ++ suffix) name =
      ((shadowTopic name.bytes suffix).length,
        memory.writeBytes 0 (shadowTopic name.bytes suffix ++ [0])) := by
  have hdirective : topicPrefix ++ suffix =
      ascii "$aws/things/" ++ '%'.toUInt8 :: 's'.toUInt8 :: (ascii "/shadow/" ++ suffix) := by
    show ascii "$aws/things/" ++ ('%'.toUInt8 :: 's'.toUInt8 :: ascii "/shadow/") ++ suffix = _
    rw [List.append_assoc]
    rfl
  rw [hdirective] at hroom ⊢
  exact create_topic_eq (by decide) hsuffix (by decide) hroom

/-- The topic on which the service accepts an operation on a Thing. -/
def Operation.accepted (operation : Operation) (name : List UInt8) : List UInt8 :=
  shadowTopic name (operation.word ++ topicSuffixAccepted)

/-- The topic on which the service rejects an operation on a Thing. -/
def Operation.rejected (operation : Operation) (name : List UInt8) : List UInt8 :=
  shadowTopic name (operation.word ++ topicSuffixRejected)

/-- The topics of an operation on a Thing fit in the buffer. -/
def Operation.Fits (operation : Operation) (name : List UInt8) : Prop :=
  operation.acceptedTopic.length + name.length < topicBufferLength

instance (operation : Operation) (name : List UInt8) : Decidable (operation.Fits name) :=
  inferInstanceAs (Decidable (_ < _))

section Fits

variable {operation other : Operation} {name : CString} {memory : ByteMemory}

theorem create_accepted (h : operation.Fits name.bytes) :
    prvCreateTopic memory topicBufferLength operation.acceptedTopic name =
      ((operation.accepted name.bytes).length,
        memory.writeBytes 0 (operation.accepted name.bytes ++ [0])) := by
  have hformat : operation.acceptedTopic = topicPrefix ++ (operation.word ++ topicSuffixAccepted) :=
    List.append_assoc _ _ _
  unfold Operation.Fits at h
  rw [hformat] at h ⊢
  exact create_shadow_topic (by cases operation <;> decide) h

theorem create_rejected (h : operation.Fits name.bytes) :
    prvCreateTopic memory topicBufferLength operation.rejectedTopic name =
      ((operation.rejected name.bytes).length,
        memory.writeBytes 0 (operation.rejected name.bytes ++ [0])) := by
  have hformat : operation.rejectedTopic = topicPrefix ++ (operation.word ++ topicSuffixRejected) :=
    List.append_assoc _ _ _
  have hlength : operation.acceptedTopic.length = operation.rejectedTopic.length := by
    have hsuffix : topicSuffixAccepted.length = topicSuffixRejected.length := by decide
    rw [Operation.acceptedTopic, Operation.rejectedTopic, List.length_append, List.length_append,
      hsuffix]
  unfold Operation.Fits at h
  rw [hlength] at h
  rw [hformat] at h ⊢
  exact create_shadow_topic (by cases operation <;> decide) h

end Fits

/-- Topics whose ends differ are different. -/
theorem shadow_topic_ne {name name' suffix suffix' : List UInt8} (count : Nat)
    (hlong : count ≤ suffix.length) (hlong' : count ≤ suffix'.length)
    (h : suffix.reverse.take count ≠ suffix'.reverse.take count) :
    shadowTopic name suffix ≠ shadowTopic name' suffix' := by
  intro heq
  have hreverse := congrArg (fun topic => topic.reverse.take count) heq
  simp only [shadowTopic, List.reverse_append, List.append_assoc] at hreverse
  rw [List.take_append_of_le_length (by simpa using hlong),
    List.take_append_of_le_length (by simpa using hlong')] at hreverse
  exact h hreverse

/-- Different operations have different topics, and no topic is for both answers. -/
theorem accepted_ne {operation other : Operation} (h : operation ≠ other)
    (name name' : List UInt8) : operation.accepted name ≠ other.accepted name' := by
  refine shadow_topic_ne 12 ?_ ?_ ?_ <;> revert h <;> cases operation <;> cases other <;> decide

theorem rejected_ne {operation other : Operation} (h : operation ≠ other)
    (name name' : List UInt8) : operation.rejected name ≠ other.rejected name' := by
  refine shadow_topic_ne 12 ?_ ?_ ?_ <;> revert h <;> cases operation <;> cases other <;> decide

theorem accepted_ne_rejected (operation other : Operation) (name name' : List UInt8) :
    operation.accepted name ≠ other.rejected name' := by
  refine shadow_topic_ne 12 ?_ ?_ ?_ <;> cases operation <;> cases other <;> decide

end TivaAws.Shadow
