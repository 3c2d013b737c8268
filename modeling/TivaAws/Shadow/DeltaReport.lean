import TivaAws.Shadow.ClientToken
import Mathlib.Data.Nat.Digits.Defs

/-!
# Reporting a delta

`prvDeltaCallback` of the shadow demo, which looks for the word `state` among the tokens of a delta
and queues a document that reports what the next token covers, for `prvUpdateQueueTask` to send.
-/

namespace TivaAws.Shadow

open ByteMemory Jsmn Json

/-! ## Model -/

/-- `shadowDemoBUFFER_LENGTH`. -/
def shadowDemoBufferLength : Nat := 128

/-- `shadowDemoMAX_TOKENS`. -/
def shadowDemoMaxTokens : Nat := 40

/-- `ShadowQueueData_t`. -/
structure ShadowQueueData where
  taskToNotify : Option Nat
  dataLength : Nat
  updateBuffer : ByteMemory

/-- `%d`. -/
def decimal (n : Int) : List UInt8 :=
  let digits := if n = 0 then [0] else (Nat.digits 10 n.natAbs).reverse
  (if n < 0 then ['-'.toUInt8] else []) ++ digits.map fun digit => '0'.toUInt8 + UInt8.ofNat digit

/-- `( int ) xTaskGetTickCount()`. -/
def tickCount (ticks : UInt32) : Int := ticks.toBitVec.toInt

/-- `%.*s`: no more characters than the precision, and none from a NUL on. -/
def precise (memory : ByteMemory) (precision : Nat) : List UInt8 :=
  (memory.readBytes 0 precision).takeWhile (· ≠ 0)

/-- `shadowDemoREPORT_JSON` with its arguments. -/
def shadowDemoReportJson (reported : List UInt8) (ticks : UInt32) : List UInt8 :=
  ascii "\x7b\"state\":\x7b\"reported\":" ++ (reported ++
    (ascii "\x7d,\"clientToken\": \"token-" ++ (decimal (tickCount ticks) ++ ascii "\"\x7d")))

/-- `snprintf`: what it returns and the buffer. -/
def snprintf (buffer : ByteMemory) (size : Nat) (text : List UInt8) : Nat × ByteMemory :=
  (text.length, buffer.writeBytes 0 (text.take (size - 1) ++ [0]))

/-- `prvGenerateReportedJSON`. -/
def prvGenerateReportedJSON (data : ShadowQueueData) (reportedData : ByteMemory)
    (reportedDataLength : Nat) (ticks : UInt32) : Nat × ByteMemory :=
  snprintf data.updateBuffer shadowDemoBufferLength
    (shadowDemoReportJson (precise reportedData reportedDataLength) ticks)

/-- `end - start` as a `uint32_t`. -/
def stringSize (token : JsmnToken) : Nat :=
  match token.stop with
  | some stop => (stop + 2 ^ 32 - token.start) % 2 ^ 32
  | none => (2 ^ 32 - 1 + 2 ^ 32 - token.start) % 2 ^ 32

/-- `prvIsStringEqual`. Behind its NUL the constant is taken to go on with more of them. -/
def prvIsStringEqual (document : Document) (token : JsmnToken) (string : List UInt8) : Bool :=
  token.type == .string && constant string (stringSize token) == 0 &&
    strncmp (document.at token.start) (constant string) 0 (stringSize token)

/-- What comes of a delta: nothing, a look at a token that is not parsed, a failed assertion, or
data that is offered to the update queue. -/
inductive DeltaOutcome where
  | ignored
  | unparsed
  | asserted
  | offered (data : ShadowQueueData)

/-- What is done with the token behind the word. -/
def reportToken (document : Document) (ticks : UInt32) (following : Option JsmnToken) :
    DeltaOutcome :=
  match following with
  | none => .unparsed
  | some token =>
      if stringSize token < shadowDemoBufferLength then
        let data : ShadowQueueData := ⟨none, 0, fun _ => 0⟩
        let (length, buffer) :=
          prvGenerateReportedJSON data (document.at token.start) (stringSize token) ticks
        .offered { data with dataLength := length, updateBuffer := buffer }
      else .asserted

/-- The word that is looked for. -/
def stateWord : List UInt8 := ascii "state"

/-- The loop of `prvDeltaCallback` over the tokens from one on. -/
def findState (document : Document) (ticks : UInt32) : List JsmnToken → DeltaOutcome
  | [] => .ignored
  | token :: rest =>
      if prvIsStringEqual document token stateWord then reportToken document ticks rest.head?
      else findState document ticks rest

/-- `prvDeltaCallback`. -/
def prvDeltaCallback (document : Document) (ticks : UInt32) : DeltaOutcome :=
  match jsmnParse shadowDemoMaxTokens document.text with
  | .error _ => .ignored
  | .ok tokens => findState document ticks tokens

/-- What `prvUpdateQueueTask` gives to `SHADOW_Update` as `pcData` and `ulDataLength`. -/
def updateDocument (data : ShadowQueueData) : Document := ⟨data.updateBuffer, 0, data.dataLength⟩

/-! ## What is to be reported -/

/-- The document that reports a value. -/
def reportText (value : Value) (ticks : UInt32) : Text where
  before := []
  value := .group .object (.more (plainKey stateWord) []
    (.group .object (.last (plainKey (ascii "reported")) [] value [])) []
    (.last (plainKey shadowJsonClientToken) [' '.toUInt8]
      (.string (ascii "token-" ++ decimal (tickCount ticks))) []))
  after := []

/-- The data is the whole document that reports the value of the member `state` of the delta. -/
def Reports (document : Document) (ticks : UInt32) (data : ShadowQueueData) : Prop :=
  data.dataLength < shadowDemoBufferLength ∧
    ∃ delta value, IsText delta document ∧ (stateWord, value) ∈ delta.members ∧
      IsText (reportText value ticks) (updateDocument data)

/-- No assertion fails, only parsed tokens are looked at, and what is offered to the queue reports
the delta. -/
def DeltaOutcome.Right (document : Document) (ticks : UInt32) : DeltaOutcome → Prop
  | .ignored => True
  | .unparsed => False
  | .asserted => False
  | .offered data => Reports document ticks data

/-- A delta is handled as it should be. -/
def Handled (document : Document) (ticks : UInt32) : Prop :=
  (prvDeltaCallback document ticks).Right document ticks

/-- A token covers the value of the member `state` of a well-formed delta, and the report of it
fits into the buffer. -/
def Reportable (document : Document) (ticks : UInt32) (token : JsmnToken) : Prop :=
  stringSize token < shadowDemoBufferLength ∧
    (precise (document.at token.start) (stringSize token)).length +
      (decimal (tickCount ticks)).length ≤ 80 ∧
    ∃ delta value, IsText delta document ∧ (stateWord, value) ∈ delta.members ∧
      value.write = precise (document.at token.start) (stringSize token)

/-- If the tokens have the word, then there is a token behind the first such token, and that one is
reportable. -/
def StateReportable (document : Document) (ticks : UInt32) : Prop :=
  ∀ tokens, jsmnParse shadowDemoMaxTokens document.text = .ok tokens →
    ∀ before word behind, tokens = before ++ word :: behind →
      (∀ token ∈ before, prvIsStringEqual document token stateWord = false) →
      prvIsStringEqual document word stateWord = true →
      ∃ token, behind.head? = some token ∧ Reportable document ticks token

/-! ## The report -/

section Report

variable {document : Document} {ticks : UInt32} {value : Value} {text : List UInt8}

/-- The format is the report. -/
theorem report_write : (reportText value ticks).write = shadowDemoReportJson value.write ticks := by
  have hvalue : (Value.group .object (.last (plainKey (ascii "reported")) [] value [])).write =
      ascii "\x7b\"reported\":" ++ (value.write ++ ascii "\x7d") := by
    show '{'.toUInt8 :: ((lead _ [] ++ (value.write ++ [])) ++ ['}'.toUInt8]) = _
    rw [List.append_nil, List.append_assoc]
    rfl
  have htoken : (Value.string (ascii "token-" ++ decimal (tickCount ticks))).write =
      ascii "\"token-" ++ (decimal (tickCount ticks) ++ ascii "\"") := by
    show '"'.toUInt8 :: ((ascii "token-" ++ decimal (tickCount ticks)) ++ ['"'.toUInt8]) = _
    rw [List.append_assoc]
    rfl
  show [] ++ ('{'.toUInt8 :: ((lead (plainKey stateWord) [] ++
    ((Value.group .object (.last (plainKey (ascii "reported")) [] value [])).write ++
      ([] ++ ','.toUInt8 :: (lead (plainKey shadowJsonClientToken) [' '.toUInt8] ++
        ((Value.string (ascii "token-" ++ decimal (tickCount ticks))).write ++ []))))) ++
    ['}'.toUInt8]) ++ []) = _
  rw [hvalue, htoken]
  simp only [List.nil_append, List.append_nil, List.append_assoc, List.cons_append,
    shadowDemoReportJson]
  rfl

theorem report_length : (shadowDemoReportJson text ticks).length =
    47 + text.length + (decimal (tickCount ticks)).length := by
  unfold shadowDemoReportJson
  simp only [List.length_append]
  have hfront : (ascii "\x7b\"state\":\x7b\"reported\":").length = 21 := rfl
  have hmiddle : (ascii "\x7d,\"clientToken\": \"token-").length = 24 := rfl
  have hback : (ascii "\"\x7d").length = 2 := rfl
  omega

theorem report_injective {text' : List UInt8}
    (h : shadowDemoReportJson text ticks = shadowDemoReportJson text' ticks) : text = text' :=
  List.append_cancel_right (List.append_cancel_left h)

theorem decimal_plain (n : Int) : isPlain (decimal n) = true := by
  have hdigit : ∀ digit < 10, (32 ≤ '0'.toUInt8 + UInt8.ofNat digit ∧
      '0'.toUInt8 + UInt8.ofNat digit ≠ '"'.toUInt8 ∧
      '0'.toUInt8 + UInt8.ofNat digit ≠ '\\'.toUInt8) := by decide
  have hdigits :
      ∀ digit ∈ (if n = 0 then [0] else (Nat.digits 10 n.natAbs).reverse), digit < 10 := by
    intro digit hmem
    split_ifs at hmem
    · rw [List.mem_singleton.mp hmem]
      omega
    · exact Nat.digits_lt_base (by omega) (List.mem_reverse.mp hmem)
  unfold isPlain decimal
  rw [List.all_append, Bool.and_eq_true]
  constructor
  · split_ifs <;> decide
  · rw [List.all_map, List.all_eq_true]
    exact fun digit hmem => decide_eq_true (hdigit digit (hdigits digit hmem))

/-- The report of a value is well formed. -/
theorem report_well_formed (h : value.WellFormed) : (reportText value ticks).WellFormed := by
  have htoken : isPlain (ascii "token-" ++ decimal (tickCount ticks)) = true := by
    have hdecimal := decimal_plain (tickCount ticks)
    unfold isPlain at hdecimal ⊢
    rw [List.all_append, hdecimal, Bool.and_true]
    decide
  have hspace : IsBlank [' '.toUInt8] := fun c hc => Or.inl (List.mem_singleton.mp hc)
  exact ⟨blank_nil, ⟨by decide, plain_key_well_formed (by decide), blank_nil,
    ⟨by decide, plain_key_well_formed (by decide), blank_nil, h, blank_nil⟩, blank_nil,
    by decide, plain_key_well_formed (by decide), hspace, string_text_of_plain htoken, blank_nil⟩,
    blank_nil⟩

/-- The values of the members among well-formed entries are well formed. -/
theorem members_well_formed {bracket : Bracket} {key : List UInt8} : (entries : Entries) →
    entries.WellFormed bracket → (key, value) ∈ entries.members → value.WellFormed
  | .last k _ member _, h, hmem => by
      obtain ⟨_, _, hpair⟩ := Option.map_eq_some_iff.mp (Option.mem_toList.mp hmem)
      cases hpair
      exact h.2.2.2.1
  | .more k _ member _ rest, h, hmem => by
      obtain hmem | hmem := List.mem_append.mp hmem
      · obtain ⟨_, _, hpair⟩ := Option.map_eq_some_iff.mp (Option.mem_toList.mp hmem)
        cases hpair
        exact h.2.2.2.1
      · exact members_well_formed rest h.2.2.2.2.2 hmem

/-- The value of a member of a well-formed text is well formed. -/
theorem member_well_formed {delta : Text} {key : List UInt8} (h : delta.WellFormed)
    (hmem : (key, value) ∈ delta.members) : value.WellFormed := by
  have hvalue := h.value
  unfold Text.members at hmem
  cases hdelta : delta.value with
  | group bracket entries =>
      rw [hdelta] at hvalue hmem
      cases bracket with
      | array => cases hmem
      | object => exact members_well_formed entries hvalue hmem
  | _ =>
      rw [hdelta] at hmem
      cases hmem

/-- What is printed is all there if it is shorter than the buffer. -/
theorem snprintf_read {buffer : ByteMemory} {size : Nat} (h : text.length < size) :
    (snprintf buffer size text).2.readBytes 0 text.length = text := by
  unfold snprintf
  rw [List.take_of_length_le (by omega)]
  exact readBytes_writeBytes_append buffer 0 text [0]

end Report

/-! ## What is offered -/

section Offered

variable {document : Document} {ticks : UInt32} {token : JsmnToken}

/-- The data that is offered reports a value exactly if what the token covers is the value as it is
written and the report is shorter than the buffer. -/
theorem offered_is_text_iff {buffer : ByteMemory} {printed : List UInt8} {value : Value}
    (hvalue : value.WellFormed)
    (hfits : (shadowDemoReportJson printed ticks).length < shadowDemoBufferLength) :
    IsText (reportText value ticks) (updateDocument ⟨none,
      (snprintf buffer shadowDemoBufferLength (shadowDemoReportJson printed ticks)).1,
      (snprintf buffer shadowDemoBufferLength (shadowDemoReportJson printed ticks)).2⟩) ↔
      value.write = printed := by
  have hread := @snprintf_read _ buffer _ hfits
  constructor
  · intro h
    exact report_injective (report_write.symm.trans (h.write_eq.trans hread))
  · intro h
    refine ⟨report_well_formed hvalue, ?_⟩
    rw [report_write, h]
    exact hread.symm

/-- What a token covers is reported if it is reportable, and only then. -/
theorem report_token_iff :
    (reportToken document ticks (some token)).Right document ticks ↔
      Reportable document ticks token := by
  unfold reportToken
  by_cases hsize : stringSize token < shadowDemoBufferLength
  · simp only [if_pos hsize]
    have hlength := @report_length ticks (precise (document.at token.start) (stringSize token))
    constructor
    · intro ⟨hfits, delta, value, hdelta, hmem, htext⟩
      have hfits : (shadowDemoReportJson _ ticks).length < shadowDemoBufferLength := hfits
      have hvalue := member_well_formed hdelta.wellFormed hmem
      refine ⟨hsize, ?_, delta, value, hdelta, hmem, (offered_is_text_iff hvalue hfits).mp htext⟩
      rw [hlength] at hfits
      unfold shadowDemoBufferLength at hfits
      omega
    · intro ⟨_, hshort, delta, value, hdelta, hmem, hwrite⟩
      have hfits : (shadowDemoReportJson (precise (document.at token.start) (stringSize token))
          ticks).length < shadowDemoBufferLength := by
        rw [hlength]
        unfold shadowDemoBufferLength
        omega
      have hvalue := member_well_formed hdelta.wellFormed hmem
      exact ⟨hfits, delta, value, hdelta, hmem, (offered_is_text_iff hvalue hfits).mpr hwrite⟩
  · simp only [if_neg hsize]
    exact iff_of_false id fun h => hsize h.1

/-- The first token that is the word decides. -/
theorem find_state_append {before later : List JsmnToken}
    (hbefore : ∀ token ∈ before, prvIsStringEqual document token stateWord = false) :
    findState document ticks (before ++ later) = findState document ticks later := by
  induction before with
  | nil => rfl
  | cons token before ih =>
      obtain ⟨htoken, hbefore⟩ := List.forall_mem_cons.mp hbefore
      rw [List.cons_append, findState, htoken]
      exact ih hbefore

/-- Without the word nothing is done. -/
theorem find_state_none {tokens : List JsmnToken}
    (h : ∀ token ∈ tokens, prvIsStringEqual document token stateWord = false) :
    findState document ticks tokens = .ignored := by
  have happend := @find_state_append document ticks tokens [] h
  rw [List.append_nil] at happend
  exact happend

/-- Either there is no token that is the word or there is a first one. -/
theorem first_word (document : Document) (tokens : List JsmnToken) :
    (∀ token ∈ tokens, prvIsStringEqual document token stateWord = false) ∨
      ∃ before word behind, tokens = before ++ word :: behind ∧
        (∀ token ∈ before, prvIsStringEqual document token stateWord = false) ∧
        prvIsStringEqual document word stateWord = true := by
  induction tokens with
  | nil => exact Or.inl (List.forall_mem_nil _)
  | cons token tokens ih =>
      cases htoken : prvIsStringEqual document token stateWord with
      | true => exact Or.inr ⟨[], token, tokens, rfl, List.forall_mem_nil _, htoken⟩
      | false =>
          obtain hnone | ⟨before, word, behind, rfl, hbefore, hword⟩ := ih
          · exact Or.inl (List.forall_mem_cons.mpr ⟨htoken, hnone⟩)
          · exact Or.inr ⟨token :: before, word, behind, rfl,
              List.forall_mem_cons.mpr ⟨htoken, hbefore⟩, hword⟩

/-- What is done at the first token that is the word. -/
theorem find_state_word {before behind : List JsmnToken} {word : JsmnToken}
    (hbefore : ∀ token ∈ before, prvIsStringEqual document token stateWord = false)
    (hword : prvIsStringEqual document word stateWord = true) :
    findState document ticks (before ++ word :: behind) =
      reportToken document ticks behind.head? := by
  rw [find_state_append hbefore, findState, if_pos hword]

/-- A delta is handled exactly if its state is reportable. -/
theorem handled_iff (document : Document) (ticks : UInt32) :
    Handled document ticks ↔ StateReportable document ticks := by
  unfold Handled StateReportable prvDeltaCallback
  cases hparse : jsmnParse shadowDemoMaxTokens document.text with
  | error error => exact iff_of_true trivial fun tokens h => (by cases h)
  | ok tokens =>
      show (findState document ticks tokens).Right document ticks ↔ _
      constructor
      · intro hright parsed hparsed before word behind hsplit hbefore hword
        cases hparsed
        rw [hsplit, find_state_word hbefore hword] at hright
        cases hhead : behind.head? with
        | none =>
            rw [hhead] at hright
            exact hright.elim
        | some token =>
            rw [hhead] at hright
            exact ⟨token, rfl, report_token_iff.mp hright⟩
      · intro hreportable
        obtain hnone | ⟨before, word, behind, hsplit, hbefore, hword⟩ := first_word document tokens
        · rw [find_state_none hnone]
          trivial
        · obtain ⟨token, hhead, htoken⟩ :=
            hreportable tokens rfl before word behind hsplit hbefore hword
          rw [hsplit, find_state_word hbefore hword, hhead]
          exact report_token_iff.mpr htoken

end Offered

/-! ## A long state -/

/-- `{"powerOn":"aa…a"}` with as many characters as said. -/
def powerOn (count : Nat) : Value :=
  .group .object (.last (plainKey (ascii "powerOn")) []
    (.string (List.replicate count 'a'.toUInt8)) [])

/-- `{"state":{"powerOn":"aa…a"}}`. -/
def stateText (count : Nat) : Text where
  before := []
  value := .group .object (.last (plainKey stateWord) [] (powerOn count) [])
  after := []

theorem state_text_well_formed (count : Nat) : (stateText count).WellFormed := by
  have hplain : isPlain (List.replicate count 'a'.toUInt8) = true := by
    rw [isPlain, List.all_replicate]
    split_ifs <;> decide
  exact ⟨blank_nil, ⟨by decide, plain_key_well_formed (by decide), blank_nil,
    ⟨by decide, plain_key_well_formed (by decide), blank_nil, string_text_of_plain hplain,
      blank_nil⟩, blank_nil⟩, blank_nil⟩

/-- A state of 134 characters fails the assertion. -/
theorem long_state_asserted : ¬ Handled (documentOf (stateText 120)) 0 := by
  generalize hcount : 120 = count
  have htext := is_text_document (state_text_well_formed count)
  have hparse : jsmnParse shadowDemoMaxTokens (documentOf (stateText count)).text =
      .ok (textTokens (stateText count)) := by
    rw [← htext.write_eq]
    exact @parse_text shadowDemoMaxTokens _ htext.wellFormed (show 5 ≤ 40 by decide)
  rw [handled_iff]
  intro hreportable
  obtain ⟨token, hhead, htoken⟩ := hreportable _ hparse [_] _ _ rfl
    (List.forall_mem_singleton.mpr rfl) (by subst hcount; decide)
  cases hhead
  have hwrite : (Entries.last (plainKey (ascii "powerOn")) []
      (Value.string (List.replicate count 'a'.toUInt8)) []).write.length = 12 + count := by
    show (lead _ [] ++ ('"'.toUInt8 :: List.replicate count _ ++ [_] ++ [])).length = _
    rw [List.append_nil, List.length_append, List.length_append, List.length_cons,
      List.length_replicate]
    show 10 + (count + 1 + 1) = _
    omega
  have hsize : (9 + _ + 2 + 2 ^ 32 - 9) % 2 ^ 32 < 128 := htoken.1
  rw [hwrite] at hsize
  omega

end TivaAws.Shadow
