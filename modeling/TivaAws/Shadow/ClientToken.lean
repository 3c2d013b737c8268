import TivaAws.Jsmn.Lax
import TivaAws.Shadow.TopicStrings

/-!
# Client tokens

`SHADOW_JSONDocClientTokenMatch`, which decides what message completes an update. The key is
searched backwards among all tokens that jsmn returns, whatever they are nested in, and positions
are cut to 16 bits before they are subtracted.
-/

namespace TivaAws.Shadow

open ByteMemory Jsmn Json

/-! ## Searching a document -/

/-- `shadowconfigJSON_JSMN_TOKENS`. -/
def jsonJsmnTokens : Nat := 64

/-- `shadowJSON_CLIENT_TOKEN`. -/
def shadowJsonClientToken : List UInt8 := ascii "clientToken"

/-- The characters of a document. -/
def Document.text (document : Document) : List UInt8 :=
  document.memory.readBytes document.pointer document.length

/-- What stands at a position of a document, and behind it. -/
def Document.at (document : Document) (position : Nat) : ByteMemory :=
  fun i => document.memory (document.pointer + position + i)

/-- A string constant with its NUL. -/
def constant (string : List UInt8) : ByteMemory := fun i => (string ++ [0]).getD i 0

/-- `prvParseJSON`: the tokens, of which it returns the number. -/
def prvParseJSON (document : Document) : Except JsmnError (List JsmnToken) :=
  jsmnParse jsonJsmnTokens document.text

/-- `( uint16_t ) pxJSMNToken->start`. -/
def start16 (token : JsmnToken) : Nat := token.start % 2 ^ 16

/-- `( uint16_t ) pxJSMNToken->end`. -/
def stop16 (token : JsmnToken) : Nat :=
  match token.stop with
  | some stop => stop % 2 ^ 16
  | none => 2 ^ 16 - 1

/-- `usCompareLength`: the larger of two `int`s, of which the first may be negative. -/
def compareLength (key : List UInt8) (token : JsmnToken) : Nat :=
  max ((stop16 token : Int) - start16 token) (key.length % 2 ^ 16 : Nat) |>.toNat

/-- A token is taken for the key. -/
def keyMatches (document : Document) (key : List UInt8) (token : JsmnToken) : Bool :=
  strncmp (constant key) (document.at token.start) 0 (compareLength key token) && token.size == 1

/-- The loop of `prvGetJSONValue` over the tokens before an index: the token behind the key. Only a
token with others behind it has a size, so there is one. -/
def getJSONValueLoop (document : Document) (key : List UInt8) (tokens : List JsmnToken) :
    Nat → Option JsmnToken
  | 0 => none
  | iterator + 1 =>
      match tokens[iterator]? with
      | some token =>
          if keyMatches document key token then tokens[iterator + 1]?
          else getJSONValueLoop document key tokens iterator
      | none => getJSONValueLoop document key tokens iterator

/-- `prvGetJSONValue`: where the value begins and the length that is returned, which is zero if the
key is not found. -/
def prvGetJSONValue (document : Document) (key : List UInt8) (tokens : List JsmnToken) :
    Nat × Nat :=
  match getJSONValueLoop document key tokens tokens.length with
  | some token => (token.start, (stop16 token + 2 ^ 16 - start16 token) % 2 ^ 16)
  | none => (0, 0)

/-- `SHADOW_JSONDocClientTokenMatch`. -/
def shadowJSONDocClientTokenMatch (document1 document2 : Document) : Bool :=
  match prvParseJSON document1 with
  | .error _ => false
  | .ok tokens1 =>
      let clientToken1 := prvGetJSONValue document1 shadowJsonClientToken tokens1
      if clientToken1.2 > 0 then
        match prvParseJSON document2 with
        | .error _ => false
        | .ok tokens2 =>
            let clientToken2 := prvGetJSONValue document2 shadowJsonClientToken tokens2
            clientToken2.2 == clientToken1.2 &&
              strncmp (document1.at clientToken1.1) (document2.at clientToken2.1) 0 clientToken1.2
      else false

/-! ## What the documents say -/

/-- What a value is as written, without the quotes of a string. -/
def content : Value → List UInt8
  | .string text => text
  | value => value.write

/-- The document is written like this. -/
structure IsText (text : Text) (document : Document) : Prop where
  wellFormed : text.WellFormed
  write_eq : text.write = document.text

/-- The documents are well formed and have the same value, which is not empty, for a member
`clientToken` at the top level. -/
def ClientTokensEqual (document1 document2 : Document) : Prop :=
  ∃ text1 text2, IsText text1 document1 ∧ IsText text2 document2 ∧
    ∃ value, (shadowJsonClientToken, value) ∈ text1.members ∧
      (shadowJsonClientToken, value) ∈ text2.members ∧ content value ≠ []

/-- jsmn has room for the tokens of a document if it is well formed. -/
def WithinTokenLimit (document : Document) : Prop :=
  (∃ text, IsText text document) →
    ∃ text, IsText text document ∧ valueCount text.value ≤ jsonJsmnTokens

/-- Within the token limit, the function passes just when the documents have equal client tokens. -/
def ClientTokensDecided (document1 document2 : Document) : Prop :=
  WithinTokenLimit document1 → WithinTokenLimit document2 →
    (shadowJSONDocClientTokenMatch document1 document2 = true ↔
      ClientTokensEqual document1 document2)

/-! ## What the search sees -/

/-- A member at any depth, with the positions of the text of its key and of its value. -/
structure Member where
  keyStart : Nat
  key : List UInt8
  valueStart : Nat
  value : Value

/-- The member of an entry at a position. -/
def keyMember (pos : Nat) (key : Option Key) (before : List UInt8) (value : Value) : List Member :=
  (key.map fun k => Member.mk (pos + k.before.length + 1) k.text
    (pos + (lead key before).length) value).toList

mutual

/-- The members within a value at a position, in the order they are written. -/
def valueMembers (pos : Nat) : Value → List Member
  | .group _ entries => entriesMembers (pos + 1) entries
  | .string _ | .primitive _ | .empty _ _ => []

/-- The members of entries at a position and those within their values. -/
def entriesMembers (pos : Nat) : Entries → List Member
  | .last key before value _ =>
      keyMember pos key before value ++ valueMembers (pos + (lead key before).length) value
  | .more key before value after rest =>
      keyMember pos key before value ++
        (valueMembers (pos + (lead key before).length) value ++
        entriesMembers (pos + (lead key before).length + value.write.length + after.length + 1)
          rest)

end

/-- The search takes the key of a member for `clientToken`: it begins so, and its end minus its
start, both cut to 16 bits, is not larger than the length of `clientToken`. -/
def Member.KeyTaken (m : Member) : Prop :=
  shadowJsonClientToken <+: m.key ∧
    (m.keyStart + m.key.length) % 2 ^ 16 ≤ m.keyStart % 2 ^ 16 + shadowJsonClientToken.length

instance (m : Member) : Decidable m.KeyTaken := inferInstanceAs (Decidable (_ ∧ _))

/-- The last member of a text, at any depth, whose key is taken for `clientToken`. -/
def takenMember (text : Text) : Option Member :=
  ((valueMembers text.before.length text.value).filter fun m => m.KeyTaken).getLast?

/-- Two values are taken for equal: the lengths, cut to 16 bits, are equal and not zero, and the
values are equal as far as this length says. -/
def TakenForEqual (value1 value2 : List UInt8) : Prop :=
  value1.length % 2 ^ 16 = value2.length % 2 ^ 16 ∧ value1.length % 2 ^ 16 ≠ 0 ∧
    value1.take (value1.length % 2 ^ 16) = value2.take (value1.length % 2 ^ 16)

/-! ## The search in the tokens of a text -/

section Search

variable {document : Document} {key : List UInt8} {tokens first later : List JsmnToken}
  {next : Option JsmnToken} {token : JsmnToken}

/-- The token behind the last one that is taken for the key, where `next` is behind them all. -/
def searchTokens (document : Document) (key : List UInt8) (next : Option JsmnToken) :
    List JsmnToken → Option (Option JsmnToken)
  | [] => none
  | token :: rest =>
      (searchTokens document key next rest).or
        (if keyMatches document key token then some (rest.head?.or next) else none)

theorem search_single : searchTokens document key next [token] =
    if keyMatches document key token then some next else none := by
  show (none : Option (Option JsmnToken)).or (if _ then some ((none : Option JsmnToken).or next)
    else none) = _
  rw [Option.none_or, Option.none_or]

theorem search_append :
    searchTokens document key next (first ++ later) =
      (searchTokens document key next later).or
        (searchTokens document key (later.head?.or next) first) := by
  induction first with
  | nil => exact (Option.or_none).symm
  | cons token first ih =>
      have hhead : (first ++ later).head?.or next = first.head?.or (later.head?.or next) := by
        rw [List.head?_append, Option.or_assoc]
      rw [List.cons_append, searchTokens, searchTokens, ih, hhead, Option.or_assoc]

theorem loop_search {i : Nat} (hi : i ≤ tokens.length) :
    getJSONValueLoop document key tokens i =
      (searchTokens document key tokens[i]? (tokens.take i)).join := by
  induction i with
  | zero => rfl
  | succ i ih =>
      have hlt : i < tokens.length := hi
      rw [getJSONValueLoop, List.take_succ_eq_append_getElem hlt, search_append, List.head?_cons,
        List.getElem?_eq_getElem hlt]
      simp only [searchTokens, List.head?_nil, Option.none_or, Option.some_or]
      by_cases hmatches : keyMatches document key tokens[i] = true
      · rw [if_pos hmatches, if_pos hmatches]
        rfl
      · rw [if_neg hmatches, if_neg hmatches, Option.none_or, ih hlt.le,
          List.getElem?_eq_getElem hlt]

/-- The search over all tokens. -/
theorem loop_search_all :
    getJSONValueLoop document key tokens tokens.length =
      (searchTokens document key none tokens).join := by
  rw [loop_search (le_refl _), List.take_length, List.getElem?_eq_none (le_refl _)]

end Search

/-! ## Reading a document -/

section Reading

variable {document : Document} {pos : Nat} {string first later : List UInt8}

/-- The string stands at a position of the document. -/
def HasAt (document : Document) (pos : Nat) (string : List UInt8) : Prop :=
  ∃ front back, document.text = front ++ (string ++ back) ∧ front.length = pos

theorem HasAt.append (h : HasAt document pos (first ++ later)) :
    HasAt document pos first ∧ HasAt document (pos + first.length) later := by
  obtain ⟨front, back, htext, rfl⟩ := h
  rw [List.append_assoc] at htext
  exact ⟨⟨front, later ++ back, htext, rfl⟩, front ++ first, back,
    by rw [htext, List.append_assoc], List.length_append⟩

theorem HasAt.cons {c : UInt8} (h : HasAt document pos (c :: later)) :
    HasAt document (pos + 1) later :=
  (HasAt.append (show HasAt document pos ([c] ++ later) from h)).2

/-- What stands at a position is read there. -/
theorem HasAt.read (h : HasAt document pos string) :
    (document.at pos).readBytes 0 string.length = string := by
  obtain ⟨front, back, htext, rfl⟩ := h
  have hlength : front.length + (string.length + back.length) = document.length := by
    rw [← List.length_append, ← List.length_append, ← htext]
    exact length_readBytes _ _ _
  have hat : (document.at front.length).readBytes 0 string.length =
      document.memory.readBytes (document.pointer + front.length) string.length := by
    unfold readBytes Document.at
    simp only [Nat.zero_add]
  have hdrop := document.memory.drop_readBytes document.pointer
    (show front.length ≤ document.length by omega)
  rw [show document.memory.readBytes document.pointer document.length = document.text from rfl,
    htext, List.drop_left] at hdrop
  have htake := document.memory.take_readBytes (document.pointer + front.length)
    (show string.length ≤ document.length - front.length by omega)
  rw [← hdrop, List.take_left] at htake
  exact hat.trans htake.symm

/-- A shorter read is the beginning of it. -/
theorem HasAt.read_take (h : HasAt document pos string) {count : Nat}
    (hcount : count ≤ string.length) : (document.at pos).readBytes 0 count = string.take count := by
  rw [← (document.at pos).take_readBytes 0 hcount, h.read]

theorem constant_read (key : List UInt8) :
    (constant key).readBytes 0 (key.length + 1) = key ++ [0] := by
  refine List.ext_getElem (by simp) ?_
  intro i hi hi'
  simp only [readBytes, List.getElem_map, List.getElem_range, Nat.zero_add, constant]
  rw [List.getD_eq_getElem?_getD, List.getElem?_eq_getElem hi', Option.getD_some]

theorem no_nul_of_text {text : List UInt8} (h : IsStringText text) : 0 ∉ text := by
  induction h with
  | nil => exact List.not_mem_nil
  | char hlow _ _ _ ih =>
      rintro (_ | ⟨_, hmem⟩)
      · exact absurd hlow (by decide)
      · exact ih hmem
  | escape hc _ ih =>
      intro hmem
      rcases List.mem_cons.mp hmem with h | hmem
      · exact absurd h (by decide)
      rcases List.mem_cons.mp hmem with rfl | hmem
      · exact absurd hc (by decide)
      · exact ih hmem
  | unicode _ hdigits _ ih =>
      intro hmem
      rcases List.mem_cons.mp hmem with h | hmem
      · exact absurd h (by decide)
      rcases List.mem_cons.mp hmem with h | hmem
      · exact absurd h (by decide)
      rcases List.mem_append.mp hmem with hmem | hmem
      · exact absurd (hdigits 0 hmem) (by decide)
      · exact ih hmem

theorem client_token_length : shadowJsonClientToken.length = 11 := rfl

theorem client_token_no_nul : 0 ∉ shadowJsonClientToken := by decide

/-- The comparison is at least over the length of the key. -/
theorem compare_length_eq {token : JsmnToken} :
    compareLength shadowJsonClientToken token = max (stop16 token - start16 token) 11 := by
  unfold compareLength
  rw [client_token_length]
  omega

/-- The comparison with the key, as a comparison of what is read. -/
theorem key_compare_iff {token : JsmnToken} {count : Nat} :
    strncmp (constant shadowJsonClientToken) (document.at token.start) 0 count = true ↔
      (document.at token.start).readBytes 0 (min count 12) =
        (shadowJsonClientToken ++ [0]).take count :=
  strncmp_string client_token_no_nul (constant_read _)

/-- A token that begins with another character is not taken. -/
theorem not_matches_of_head {token : JsmnToken} {c : UInt8}
    (h : HasAt document token.start (c :: later)) (hc : c ≠ 'c'.toUInt8) :
    keyMatches document shadowJsonClientToken token = false := by
  unfold keyMatches
  rw [Bool.and_eq_false_iff]
  left
  rw [Bool.eq_false_iff, Ne, key_compare_iff, compare_length_eq]
  intro hread
  obtain ⟨count, hcount⟩ : ∃ count, max (stop16 token - start16 token) 11 = count + 1 :=
    ⟨max (stop16 token - start16 token) 11 - 1, by omega⟩
  have hfirst := (HasAt.append (show HasAt document token.start ([c] ++ later) from h)).1.read
  rw [hcount, Nat.succ_min_succ, readBytes_cons] at hread
  rw [List.length_singleton, readBytes_cons] at hfirst
  exact hc ((List.cons.inj hfirst).1.symm.trans (List.cons.inj hread).1)

/-- Over the length of the key, what is read is the key just when the text of the string begins with
it, as the key has no quote. -/
theorem key_read_iff {text : List UInt8} (h : HasAt document pos (text ++ ['"'.toUInt8])) :
    (document.at pos).readBytes 0 11 = shadowJsonClientToken ↔ shadowJsonClientToken <+: text := by
  have hquote : '"'.toUInt8 ∉ shadowJsonClientToken := by decide
  by_cases hlong : 11 ≤ text.length
  · rw [(h.append).1.read_take hlong]
    constructor
    · exact fun heq => heq ▸ List.take_prefix 11 text
    · exact fun hprefix => (List.prefix_iff_eq_take.mp hprefix).symm
  · refine iff_of_false (fun hread => hquote ?_) fun hprefix => hlong hprefix.length_le
    have hshort : (text ++ ['"'.toUInt8]).length ≤ 11 := by
      rw [List.length_append, List.length_singleton]
      omega
    have htake := (document.at pos).take_readBytes 0 hshort
    rw [hread, h.read] at htake
    exact List.mem_of_mem_take (htake ▸ List.mem_append_right text List.mem_cons_self)

/-- The token of a key is taken just as the key is. -/
theorem key_matches_iff {text : List UInt8} {parent : Option Nat} (htext : IsStringText text)
    (h : HasAt document pos (text ++ ['"'.toUInt8])) :
    keyMatches document shadowJsonClientToken
        ⟨.string, pos, some (pos + text.length), 1, parent⟩ = true ↔
      shadowJsonClientToken <+: text ∧
        (pos + text.length) % 2 ^ 16 ≤ pos % 2 ^ 16 + shadowJsonClientToken.length := by
  have hcompare := @key_compare_iff document ⟨.string, pos, some (pos + text.length), 1, parent⟩
    (max ((pos + text.length) % 2 ^ 16 - pos % 2 ^ 16) 11)
  unfold keyMatches
  rw [compare_length_eq, client_token_length, Bool.and_eq_true]
  show strncmp _ _ 0 (max ((pos + text.length) % 2 ^ 16 - pos % 2 ^ 16) 11) = true ∧ _ ↔ _
  rw [and_iff_left (by rfl), hcompare, ← key_read_iff h]
  by_cases hcut : (pos + text.length) % 2 ^ 16 ≤ pos % 2 ^ 16 + 11
  · have hcount : max ((pos + text.length) % 2 ^ 16 - pos % 2 ^ 16) 11 = 11 := by omega
    rw [hcount, and_iff_left hcut]
    exact Iff.rfl
  · -- The comparison goes on to the NUL of the key, and the text has none.
    refine iff_of_false (fun hread => ?_) fun hkey => hcut hkey.2
    have hcount : min (max ((pos + text.length) % 2 ^ 16 - pos % 2 ^ 16) 11) 12 = 12 := by omega
    have hlong : 12 ≤ text.length := by omega
    have hall : (shadowJsonClientToken ++ [0]).take
        (max ((pos + text.length) % 2 ^ 16 - pos % 2 ^ 16) 11) = shadowJsonClientToken ++ [0] := by
      refine List.take_of_length_le ?_
      rw [List.length_append, client_token_length, List.length_singleton]
      omega
    have htaken : text.take 12 = shadowJsonClientToken ++ [0] := by
      rw [← (h.append).1.read_take hlong, ← hall, ← hread, hcount]
    refine no_nul_of_text htext (List.mem_of_mem_take (i := 12) ?_)
    rw [htaken]
    exact List.mem_append_right shadowJsonClientToken List.mem_cons_self

end Reading

/-! ## The tokens of a text are searched -/

section Tokens

variable {document : Document}

/-- What a token covers. -/
def span (token : JsmnToken) : Nat × Option Nat := (token.start, token.stop)

/-- What the token of a value at a position covers. -/
def valueSpan (pos : Nat) : Value → Nat × Option Nat
  | .string text => (pos + 1, some (pos + 1 + text.length))
  | value => (pos, some (pos + value.write.length))

/-- The value of a member is where the search finds it. -/
def Member.span (m : Member) : Nat × Option Nat := valueSpan m.valueStart m.value

theorem head_span {index pos : Nat} {parent : Option Nat} {value : Value} :
    ∃ token rest, valueTokens index pos parent value = token :: rest ∧
      span token = valueSpan pos value := by
  cases value with
  | string text => exact ⟨_, _, rfl, rfl⟩
  | primitive text => exact ⟨_, _, rfl, rfl⟩
  | empty bracket blank =>
      refine ⟨_, _, rfl, ?_⟩
      show (pos, some (pos + blank.length + 2)) =
        (pos, some (pos + ((blank ++ [bracket.closing]).length + 1)))
      rw [List.length_append, List.length_singleton]
      rfl
  | group bracket entries =>
      refine ⟨_, _, rfl, ?_⟩
      show (pos, some (pos + entries.write.length + 2)) =
        (pos, some (pos + ((entries.write ++ [bracket.closing]).length + 1)))
      rw [List.length_append, List.length_singleton]
      rfl

/-- The last of the members that are taken, with what its value covers. -/
def lastTaken (members : List Member) : Option (Option (Nat × Option Nat)) :=
  (members.filter fun m => m.KeyTaken).getLast?.map fun m => some m.span

theorem last_taken_append {first later : List Member} :
    lastTaken (first ++ later) = (lastTaken later).or (lastTaken first) := by
  unfold lastTaken
  rw [List.filter_append, List.getLast?_append, Option.map_or]

theorem last_taken_single {m : Member} :
    lastTaken [m] = if m.KeyTaken then some (some m.span) else none := by
  unfold lastTaken
  by_cases htaken : m.KeyTaken
  · rw [if_pos htaken, List.filter_cons_of_pos (by rwa [decide_eq_true_eq])]
    rfl
  · rw [if_neg htaken, List.filter_cons_of_neg (by rwa [decide_eq_true_eq])]
    rfl

theorem not_matches_of_size {key : List UInt8} {token : JsmnToken} (h : token.size ≠ 1) :
    keyMatches document key token = false := by
  unfold keyMatches
  rw [Bool.and_eq_false_iff]
  exact .inr (beq_false_of_ne h)

/-- Where the key of an entry stands. -/
theorem has_key {pos : Nat} {k : Key} {before later : List UInt8}
    (h : HasAt document pos (lead (some k) before ++ later)) :
    HasAt document (pos + k.before.length + 1) (k.text ++ ['"'.toUInt8]) := by
  have hlead : lead (some k) before ++ later =
      k.before ++ (quoted k.text ++ (k.after ++ (':'.toUInt8 :: (before ++ later)))) := by
    unfold lead Key.write
    simp only [Option.map_some, Option.getD_some, List.append_assoc, List.cons_append,
      List.nil_append]
  rw [hlead] at h
  exact h.append.2.append.1.cons

/-- The search in the tokens of an entry. -/
theorem search_entry {super index pos : Nat} {key : Option Key} {before later : List UInt8}
    {value : Value}
    (hvalue : ∀ index parent next,
      (searchTokens document shadowJsonClientToken next
        (valueTokens index (pos + (lead key before).length) parent value)).map (Option.map span) =
      lastTaken (valueMembers (pos + (lead key before).length) value))
    (hkey : ∀ k ∈ key, k.WellFormed) (h : HasAt document pos (lead key before ++ later))
    (next : Option JsmnToken) :
    (searchTokens document shadowJsonClientToken next
      (keyTokens super pos key ++
        valueTokens (index + keyCount key) (pos + (lead key before).length)
          (some (entryParent super index key)) value)).map (Option.map span) =
      lastTaken (keyMember pos key before value ++
        valueMembers (pos + (lead key before).length) value) := by
  rw [search_append, Option.map_or, hvalue, last_taken_append]
  congr 1
  cases key with
  | none => rfl
  | some k =>
      obtain ⟨token, rest, htokens, hspan⟩ := @head_span (index + keyCount (some k))
        (pos + (lead (some k) before).length) (some (entryParent super index (some k))) value
      have hmatches : keyMatches document shadowJsonClientToken
          (stringToken 1 (pos + k.before.length) (some super) k.text) = true ↔
          (Member.mk (pos + k.before.length + 1) k.text (pos + (lead (some k) before).length)
            value).KeyTaken :=
        key_matches_iff (hkey k rfl).text (has_key h)
      rw [htokens]
      show (searchTokens document shadowJsonClientToken (some token)
        [stringToken 1 (pos + k.before.length) (some super) k.text]).map _ = lastTaken [_]
      rw [last_taken_single, search_single]
      by_cases htaken : (Member.mk (pos + k.before.length + 1) k.text
          (pos + (lead (some k) before).length) value).KeyTaken
      · rw [if_pos (hmatches.mpr htaken), if_pos htaken]
        show some (some (span token)) = some (some (valueSpan _ value))
        rw [hspan]
      · rw [if_neg (fun hmatch => htaken (hmatches.mp hmatch)), if_neg htaken]
        rfl

mutual

/-- The search finds what the last member with a taken key has for a value. -/
theorem search_value (index pos : Nat) (parent : Option Nat) (next : Option JsmnToken) :
    (value : Value) → value.WellFormed → HasAt document pos value.write →
      (searchTokens document shadowJsonClientToken next
        (valueTokens index pos parent value)).map (Option.map span) =
        lastTaken (valueMembers pos value)
  | .string text, _, _ => by
      show (searchTokens document shadowJsonClientToken next [_]).map _ = none
      rw [search_single, if_neg (Bool.eq_false_iff.mp (not_matches_of_size Nat.zero_ne_one))]
      rfl
  | .primitive text, _, _ => by
      show (searchTokens document shadowJsonClientToken next [_]).map _ = none
      rw [search_single, if_neg (Bool.eq_false_iff.mp (not_matches_of_size Nat.zero_ne_one))]
      rfl
  | .empty bracket blank, _, _ => by
      show (searchTokens document shadowJsonClientToken next [_]).map _ = none
      rw [search_single, if_neg (Bool.eq_false_iff.mp (not_matches_of_size Nat.zero_ne_one))]
      rfl
  | .group bracket entries, h, hat => by
      have hbracket : bracket.opening ≠ 'c'.toUInt8 := by cases bracket <;> decide
      have hentries := (show HasAt document pos
        (bracket.opening :: (entries.write ++ [bracket.closing])) from hat).cons.append.1
      show (searchTokens document shadowJsonClientToken next
        (_ :: entriesTokens index (index + 1) (pos + 1) entries)).map _ =
          lastTaken (entriesMembers (pos + 1) entries)
      rw [searchTokens, if_neg (Bool.eq_false_iff.mp (not_matches_of_head hat hbracket)),
        Option.or_none, search_entries index (index + 1) (pos + 1) next entries bracket h hentries]

theorem search_entries (super index pos : Nat) (next : Option JsmnToken) :
    (entries : Entries) → (bracket : Bracket) → entries.WellFormed bracket →
      HasAt document pos entries.write →
      (searchTokens document shadowJsonClientToken next
        (entriesTokens super index pos entries)).map (Option.map span) =
        lastTaken (entriesMembers pos entries)
  | .last key before value after, bracket, h, hat => by
      obtain ⟨_, hkey, _, hvalue, _⟩ := h
      have hat' : HasAt document pos (lead key before ++ (value.write ++ after)) := hat
      exact search_entry (fun index parent next =>
        search_value index _ parent next value hvalue hat'.append.2.append.1) hkey hat' next
  | .more key before value after rest, bracket, h, hat => by
      obtain ⟨_, hkey, _, hvalue, _, hrest⟩ := h
      have hat' : HasAt document pos (lead key before ++ (value.write ++ (after ++
        ','.toUInt8 :: rest.write))) := hat
      show (searchTokens document shadowJsonClientToken next (keyTokens super pos key ++
        (valueTokens _ _ _ value ++ entriesTokens _ _ _ rest))).map _ =
          lastTaken (keyMember pos key before value ++ (valueMembers _ value ++
            entriesMembers _ rest))
      rw [← List.append_assoc, ← List.append_assoc, search_append, Option.map_or, last_taken_append,
        search_entries super _ _ next rest bracket hrest
          hat'.append.2.append.2.append.2.cons,
        search_entry (fun index parent next =>
          search_value index _ parent next value hvalue hat'.append.2.append.1) hkey hat' _]

end

mutual

/-- The values of the members stand where the members say. -/
theorem value_members_at {pos : Nat} : (value : Value) → value.WellFormed →
    HasAt document pos value.write → ∀ m ∈ valueMembers pos value,
      m.value.WellFormed ∧ HasAt document m.valueStart m.value.write
  | .string _, _, _ => fun _ hm => absurd hm List.not_mem_nil
  | .primitive _, _, _ => fun _ hm => absurd hm List.not_mem_nil
  | .empty _ _, _, _ => fun _ hm => absurd hm List.not_mem_nil
  | .group bracket entries, h, hat =>
      entries_members_at entries bracket h
        (show HasAt document pos (bracket.opening :: (entries.write ++ [bracket.closing])) from
          hat).cons.append.1

theorem entries_members_at {pos : Nat} : (entries : Entries) → (bracket : Bracket) →
    entries.WellFormed bracket → HasAt document pos entries.write →
    ∀ m ∈ entriesMembers pos entries,
      m.value.WellFormed ∧ HasAt document m.valueStart m.value.write
  | .last key before value after, _, h, hat => by
      obtain ⟨_, _, _, hvalue, _⟩ := h
      have hvalueAt := (show HasAt document pos (lead key before ++ (value.write ++ after)) from
        hat).append.2.append.1
      intro m hm
      rcases List.mem_append.mp hm with hm | hm
      · obtain ⟨k, _, rfl⟩ := Option.map_eq_some_iff.mp (Option.mem_toList.mp hm)
        exact ⟨hvalue, hvalueAt⟩
      · exact value_members_at value hvalue hvalueAt m hm
  | .more key before value after rest, bracket, h, hat => by
      obtain ⟨_, _, _, hvalue, _, hrest⟩ := h
      have hlater := (show HasAt document pos (lead key before ++ (value.write ++ (after ++
        ','.toUInt8 :: rest.write))) from hat).append.2
      intro m hm
      rcases List.mem_append.mp hm with hm | hm
      · obtain ⟨k, _, rfl⟩ := Option.map_eq_some_iff.mp (Option.mem_toList.mp hm)
        exact ⟨hvalue, hlater.append.1⟩
      rcases List.mem_append.mp hm with hm | hm
      · exact value_members_at value hvalue hlater.append.1 m hm
      · exact entries_members_at rest bracket hrest hlater.append.2.append.2.cons m hm

end

end Tokens

/-! ## No NUL in a text -/

section Nul

theorem blank_no_nul {blank : List UInt8} (h : IsBlank blank) : 0 ∉ blank := by
  intro hmem
  rcases h 0 hmem with h | h | h | h <;> exact absurd h (by decide)

theorem quoted_no_nul {text : List UInt8} (h : IsStringText text) : 0 ∉ quoted text := by
  intro hmem
  rcases List.mem_cons.mp hmem with h' | hmem
  · exact absurd h' (by decide)
  rcases List.mem_append.mp hmem with hmem | hmem
  · exact no_nul_of_text h hmem
  · exact absurd (List.mem_singleton.mp hmem) (by decide)

theorem lead_no_nul {key : Option Key} {before : List UInt8} (hkey : ∀ k ∈ key, k.WellFormed)
    (hbefore : IsBlank before) : 0 ∉ lead key before := by
  intro hmem
  rcases List.mem_append.mp hmem with hmem | hmem
  · cases key with
    | none => cases hmem
    | some k =>
        have hk := hkey k rfl
        have hmem' : 0 ∈ k.before ++ quoted k.text ++ k.after ++ [':'.toUInt8] := hmem
        simp only [List.mem_append, List.mem_singleton] at hmem'
        rcases hmem' with ((hmem | hmem) | hmem) | hmem
        · exact blank_no_nul hk.before hmem
        · exact quoted_no_nul hk.text hmem
        · exact blank_no_nul hk.after hmem
        · exact absurd hmem (by decide)
  · exact blank_no_nul hbefore hmem

theorem opening_ne_nul (bracket : Bracket) : 0 ≠ bracket.opening := by
  cases bracket <;> decide

theorem closing_ne_nul (bracket : Bracket) : 0 ≠ bracket.closing := by
  cases bracket <;> decide

mutual

theorem value_no_nul : (value : Value) → value.WellFormed → 0 ∉ value.write
  | .string text, h => quoted_no_nul h
  | .primitive text, h => fun hmem => absurd ((primitive_text_characters h).2 0 hmem).1 (by decide)
  | .empty bracket blank, h => by
      intro hmem
      rcases List.mem_cons.mp hmem with h' | hmem
      · exact opening_ne_nul bracket h'
      rcases List.mem_append.mp hmem with hmem | hmem
      · exact blank_no_nul h hmem
      · exact closing_ne_nul bracket (List.mem_singleton.mp hmem)
  | .group bracket entries, h => by
      intro hmem
      rcases List.mem_cons.mp hmem with h' | hmem
      · exact opening_ne_nul bracket h'
      rcases List.mem_append.mp hmem with hmem | hmem
      · exact entries_no_nul entries bracket h hmem
      · exact closing_ne_nul bracket (List.mem_singleton.mp hmem)

theorem entries_no_nul : (entries : Entries) → (bracket : Bracket) →
    entries.WellFormed bracket → 0 ∉ entries.write
  | .last key before value after, _, h => by
      obtain ⟨_, hkey, hbefore, hvalue, hafter⟩ := h
      intro hmem
      rcases List.mem_append.mp hmem with hmem | hmem
      · exact lead_no_nul hkey hbefore hmem
      rcases List.mem_append.mp hmem with hmem | hmem
      · exact value_no_nul value hvalue hmem
      · exact blank_no_nul hafter hmem
  | .more key before value after rest, bracket, h => by
      obtain ⟨_, hkey, hbefore, hvalue, hafter, hrest⟩ := h
      intro hmem
      rcases List.mem_append.mp hmem with hmem | hmem
      · exact lead_no_nul hkey hbefore hmem
      rcases List.mem_append.mp hmem with hmem | hmem
      · exact value_no_nul value hvalue hmem
      rcases List.mem_append.mp hmem with hmem | hmem
      · exact blank_no_nul hafter hmem
      rcases List.mem_cons.mp hmem with h' | hmem
      · exact absurd h' (by decide)
      · exact entries_no_nul rest bracket hrest hmem

end

end Nul

/-! ## The answer for well-formed documents -/

section Answer

variable {document document1 document2 : Document} {text text1 text2 : Text} {m : Member}

theorem IsText.value_at (h : IsText text document) :
    HasAt document text.before.length text.value.write :=
  ⟨text.before, text.after, h.write_eq.symm, rfl⟩

theorem IsText.parse (h : IsText text document) (hroom : valueCount text.value ≤ jsonJsmnTokens) :
    prvParseJSON document = .ok (textTokens text) := by
  unfold prvParseJSON
  rw [← h.write_eq]
  exact parse_text h.wellFormed hroom

/-- What the loop finds in the tokens of a text. -/
theorem IsText.search (h : IsText text document) :
    (getJSONValueLoop document shadowJsonClientToken (textTokens text)
      (textTokens text).length).map span = (takenMember text).map Member.span := by
  have hsearch :=
    search_value 0 text.before.length none none text.value h.wellFormed.value h.value_at
  rw [loop_search_all]
  unfold takenMember
  unfold lastTaken at hsearch
  show (searchTokens document shadowJsonClientToken none (valueTokens 0 text.before.length none
    text.value)).join.map span = _
  cases hmembers :
    ((valueMembers text.before.length text.value).filter fun m => m.KeyTaken).getLast? with
  | none =>
      rw [hmembers] at hsearch
      rw [Option.map_eq_none_iff.mp hsearch]
      rfl
  | some m =>
      rw [hmembers] at hsearch
      obtain ⟨token, htoken, hspan⟩ := Option.map_eq_some_iff.mp hsearch
      rw [htoken]
      exact hspan

/-- The content of a value stands where its token says. -/
theorem content_at {pos : Nat} {value : Value} (hat : HasAt document pos value.write) :
    HasAt document (valueSpan pos value).1 (content value) ∧
      (valueSpan pos value).2 = some ((valueSpan pos value).1 + (content value).length) := by
  cases value with
  | string text =>
      exact ⟨(show HasAt document pos ('"'.toUInt8 :: (text ++ ['"'.toUInt8])) from
        hat).cons.append.1, rfl⟩
  | _ => exact ⟨hat, rfl⟩

theorem content_no_nul {value : Value} (h : value.WellFormed) : 0 ∉ content value := by
  cases value with
  | string text => exact no_nul_of_text h
  | primitive text => exact value_no_nul _ h
  | empty bracket blank => exact value_no_nul _ h
  | group bracket entries => exact value_no_nul _ h

/-- No member is taken: the length is zero. -/
theorem IsText.get_value_none (h : IsText text document) (htaken : takenMember text = none) :
    prvGetJSONValue document shadowJsonClientToken (textTokens text) = (0, 0) := by
  have hsearch := h.search
  rw [htaken, Option.map_none, Option.map_eq_none_iff] at hsearch
  unfold prvGetJSONValue
  rw [hsearch]

/-- The length of a value is cut to 16 bits. -/
theorem IsText.get_value_some (h : IsText text document) (htaken : takenMember text = some m) :
    ∃ start, prvGetJSONValue document shadowJsonClientToken (textTokens text) =
        (start, (content m.value).length % 2 ^ 16) ∧
      HasAt document start (content m.value) ∧ 0 ∉ content m.value := by
  have hsearch := h.search
  rw [htaken, Option.map_some] at hsearch
  obtain ⟨token, htoken, hspan⟩ := Option.map_eq_some_iff.mp hsearch
  obtain ⟨hvalue, hat⟩ := value_members_at text.value h.wellFormed.value h.value_at m
    (List.mem_of_mem_filter (List.mem_of_getLast? htaken))
  obtain ⟨hcontent, hstop⟩ := content_at hat
  have hstart : token.start = (valueSpan m.valueStart m.value).1 := congrArg Prod.fst hspan
  have hend : token.stop = some (token.start + (content m.value).length) := by
    rw [hstart, ← hstop]
    exact congrArg Prod.snd hspan
  refine ⟨token.start, ?_, hstart ▸ hcontent, content_no_nul hvalue⟩
  unfold prvGetJSONValue start16 stop16
  rw [htoken]
  simp only [hend, Prod.mk.injEq, true_and]
  omega

/-- The comparison of two values. -/
theorem compare_iff {start1 start2 : Nat} {content1 content2 : List UInt8}
    (h1 : HasAt document1 start1 content1) (h2 : HasAt document2 start2 content2)
    (hnul : 0 ∉ content2) :
    content1.length % 2 ^ 16 > 0 ∧ content2.length % 2 ^ 16 = content1.length % 2 ^ 16 ∧
        strncmp (document1.at start1) (document2.at start2) 0 (content1.length % 2 ^ 16) = true ↔
      TakenForEqual content1 content2 := by
  have hlength1 : content1.length % 2 ^ 16 ≤ content1.length := Nat.mod_le _ _
  unfold TakenForEqual
  constructor
  · rintro ⟨hpositive, hlength, hcompare⟩
    have hlength2 : content1.length % 2 ^ 16 ≤ content2.length := hlength ▸ Nat.mod_le _ _
    refine ⟨hlength.symm, Nat.ne_of_gt hpositive, ?_⟩
    rw [← h1.read_take hlength1, ← h2.read_take hlength2]
    refine (strncmp_bytes fun j hj hzero => hnul ?_).mp hcompare
    rw [← h2.read]
    exact (mem_readBytes _).mpr ⟨j, by omega, hzero⟩
  · rintro ⟨hlength, hpositive, htake⟩
    have hlength2 : content1.length % 2 ^ 16 ≤ content2.length := hlength ▸ Nat.mod_le _ _
    refine ⟨Nat.pos_of_ne_zero hpositive, hlength.symm, ?_⟩
    rw [← h1.read_take hlength1, ← h2.read_take hlength2] at htake
    refine (strncmp_bytes fun j hj hzero => hnul ?_).mpr htake
    rw [← h2.read]
    exact (mem_readBytes _).mpr ⟨j, by omega, hzero⟩

/-- What the function decides on well-formed documents within the token limit. -/
theorem match_iff (h1 : IsText text1 document1) (h2 : IsText text2 document2)
    (hroom1 : valueCount text1.value ≤ jsonJsmnTokens)
    (hroom2 : valueCount text2.value ≤ jsonJsmnTokens) :
    shadowJSONDocClientTokenMatch document1 document2 = true ↔
      ∃ m1 ∈ takenMember text1, ∃ m2 ∈ takenMember text2,
        TakenForEqual (content m1.value) (content m2.value) := by
  unfold shadowJSONDocClientTokenMatch
  rw [h1.parse hroom1, h2.parse hroom2]
  dsimp only
  cases htaken1 : takenMember text1 with
  | none =>
      rw [h1.get_value_none htaken1]
      exact iff_of_false Bool.false_ne_true fun ⟨_, hm1, _⟩ => (by cases hm1)
  | some m1 =>
      obtain ⟨start1, hvalue1, hat1, _⟩ := h1.get_value_some htaken1
      cases htaken2 : takenMember text2 with
      | none =>
          rw [hvalue1, h2.get_value_none htaken2]
          refine iff_of_false (fun hmatch => ?_) fun ⟨_, _, _, hm2, _⟩ => (by cases hm2)
          simp only at hmatch
          split_ifs at hmatch with hpositive
          rw [Bool.and_eq_true, beq_iff_eq] at hmatch
          omega
      | some m2 =>
          obtain ⟨start2, hvalue2, hat2, hnul2⟩ := h2.get_value_some htaken2
          have hcompare := compare_iff hat1 hat2 hnul2
          rw [hvalue1, hvalue2]
          simp only [Option.mem_def, Option.some.injEq, exists_eq_left', ← hcompare]
          split_ifs with hpositive
          · rw [Bool.and_eq_true, beq_iff_eq, and_iff_right hpositive]
          · exact iff_of_false not_false fun h => hpositive h.1

end Answer

/-! ## When the answer is right -/

section Decided

variable {document document1 document2 : Document} {text text' text1 text2 : Text}
  {tokens : List JsmnToken}

/-- A text whose members at the top level that are named `clientToken` are those that the search
takes. -/
def PlainText (text : Text) : Prop :=
  ∀ value, (shadowJsonClientToken, value) ∈ text.members ↔ ∃ m ∈ takenMember text, m.value = value

/-- Two values that are compared as a whole, of which not one is a string and the other something
else with the same characters. -/
def ToldApart (value1 value2 : Value) : Prop :=
  (content value1).length < 2 ^ 16 ∧ (content value2).length < 2 ^ 16 ∧
    (content value1 = content value2 → value1 = value2)

/-- Both documents are well formed and plain, and the values of their client tokens can be told
apart. -/
structure BothPlain (text1 text2 : Text) (document1 document2 : Document) : Prop where
  isText1 : IsText text1 document1
  isText2 : IsText text2 document2
  plain1 : PlainText text1
  plain2 : PlainText text2
  toldApart : ∀ m1 ∈ takenMember text1, ∀ m2 ∈ takenMember text2, ToldApart m1.value m2.value

/-- No string or primitive that begins with `clientToken` has a colon behind it. -/
def NamesNoToken (document : Document) : Prop :=
  ∀ position, shadowJsonClientToken <+: document.text.drop position →
    ¬ IsKeyAt document.text position

/-- A document in which there is no client token to be found: it is well formed and has none, at
whatever depth, or its strings and brackets do not match, it is too large, or it has no such key. -/
inductive WithoutToken (document : Document) : Prop where
  | wellFormed {text : Text} : IsText text document → takenMember text = none →
      (∀ value, (shadowJsonClientToken, value) ∉ text.members) → WithoutToken document
  | malformed : (∀ text, ¬ IsText text document) →
      (¬ LaxText [] jsonJsmnTokens document.text ∨ NamesNoToken document) → WithoutToken document

/-- One of the documents has no client token, or both are plain. -/
def TokensClear (document1 document2 : Document) : Prop :=
  WithoutToken document1 ∨ WithoutToken document2 ∨
    ∃ text1 text2, BothPlain text1 text2 document1 document2

theorem IsText.unique (h : IsText text document) (h' : IsText text' document) : text = text' :=
  Text.write_injective h.wellFormed h'.wellFormed (h.write_eq.trans h'.write_eq.symm)

/-- The tokens of a well-formed document within the limit. -/
theorem IsText.parse_limited (h : IsText text document) (hlimit : WithinTokenLimit document) :
    prvParseJSON document = .ok (textTokens text) := by
  obtain ⟨text', h', hroom⟩ := hlimit ⟨text, h⟩
  obtain rfl := h.unique h'
  exact h.parse hroom

/-- What is found in two documents for which jsmn returns tokens is compared. -/
theorem match_cases (hmatch : shadowJSONDocClientTokenMatch document1 document2 = true) :
    ∃ tokens1 tokens2, prvParseJSON document1 = .ok tokens1 ∧ prvParseJSON document2 = .ok tokens2 ∧
      (prvGetJSONValue document1 shadowJsonClientToken tokens1).2 ≠ 0 ∧
      (prvGetJSONValue document2 shadowJsonClientToken tokens2).2 ≠ 0 := by
  unfold shadowJSONDocClientTokenMatch at hmatch
  cases hparse1 : prvParseJSON document1 with
  | error error =>
      rw [hparse1] at hmatch
      cases hmatch
  | ok tokens1 =>
      rw [hparse1] at hmatch
      simp only at hmatch
      split_ifs at hmatch with hpositive
      cases hparse2 : prvParseJSON document2 with
      | error error =>
          rw [hparse2] at hmatch
          cases hmatch
      | ok tokens2 =>
          rw [hparse2] at hmatch
          obtain ⟨hlength, -⟩ := (Bool.and_eq_true _ _).mp hmatch
          refine ⟨tokens1, tokens2, rfl, rfl, Nat.ne_of_gt hpositive, ?_⟩
          rw [beq_iff_eq.mp hlength]
          exact Nat.ne_of_gt hpositive

theorem loop_none {key : List UInt8} {i : Nat}
    (h : ∀ token ∈ tokens, keyMatches document key token = false) :
    getJSONValueLoop document key tokens i = none := by
  induction i with
  | zero => rfl
  | succ i ih =>
      unfold getJSONValueLoop
      split
      next token htoken =>
        rw [h token (List.mem_of_getElem? htoken)]
        exact ih
      next => exact ih

/-- A token that is taken begins with the key, where the text goes on up to a colon. -/
theorem prefix_of_matches {token : JsmnToken} {later : List UInt8}
    (hat : HasAt document token.start later) (hcolon : ':'.toUInt8 ∈ later)
    (h : keyMatches document shadowJsonClientToken token = true) :
    shadowJsonClientToken <+: later := by
  obtain ⟨hcompare, -⟩ := (Bool.and_eq_true _ _).mp h
  rw [key_compare_iff, compare_length_eq] at hcompare
  have hread : (document.at token.start).readBytes 0 11 = shadowJsonClientToken := by
    have htake := congrArg (List.take 11) hcompare
    rw [take_readBytes _ _ (by omega), List.take_take, Nat.min_eq_left (by omega)] at htake
    exact htake
  by_cases hlong : 11 ≤ later.length
  · rw [hat.read_take hlong] at hread
    exact hread ▸ List.take_prefix 11 later
  · -- The text would end within the key, but the key has no colon.
    have htake := (document.at token.start).take_readBytes 0 (Nat.le_of_not_le hlong)
    rw [hread, hat.read] at htake
    exact absurd (List.mem_of_mem_take (htake ▸ hcolon)) (by decide)

/-- Nothing is found where no key begins with `clientToken`. -/
theorem NamesNoToken.get_value (h : NamesNoToken document)
    (hparse : prvParseJSON document = .ok tokens) :
    prvGetJSONValue document shadowJsonClientToken tokens = (0, 0) := by
  unfold prvGetJSONValue
  rw [loop_none fun token hmem => ?_]
  rw [Bool.eq_false_iff]
  intro hmatches
  obtain ⟨hle, hparent⟩ := parent_of_parse hparse token hmem
  have hsize : token.size ≠ 0 := by
    rw [beq_iff_eq.mp ((Bool.and_eq_true _ _).mp hmatches).2]
    exact Nat.one_ne_zero
  have hat : HasAt document token.start (document.text.drop token.start) := by
    refine ⟨document.text.take token.start, [], ?_, List.length_take_of_le hle⟩
    rw [List.append_nil, List.take_append_drop]
  rcases hparent hsize with ⟨bracket, hbracket⟩ | hkey
  · have hdrop := List.drop_eq_getElem_cons (List.getElem?_eq_some_iff.mp hbracket).1
    rw [(List.getElem?_eq_some_iff.mp hbracket).2] at hdrop
    rw [hdrop] at hat
    rw [not_matches_of_head hat (by cases bracket <;> decide)] at hmatches
    cases hmatches
  · refine h token.start (prefix_of_matches hat ?_ hmatches) hkey
    obtain ⟨key, gap, later, hdrop, -, -⟩ := hkey
    rw [hdrop]
    exact List.mem_append_right _ (List.mem_append_right _ List.mem_cons_self)

/-- In a document without client token none is found. -/
theorem WithoutToken.get_value (h : WithoutToken document) (hlimit : WithinTokenLimit document)
    (hparse : prvParseJSON document = .ok tokens) :
    (prvGetJSONValue document shadowJsonClientToken tokens).2 = 0 := by
  cases h with
  | wellFormed htext htaken =>
      rw [htext.parse_limited hlimit] at hparse
      cases hparse
      rw [htext.get_value_none htaken]
  | malformed _ h =>
      rcases h with hlax | hnames
      · exact absurd (lax_of_parse hparse) hlax
      · rw [hnames.get_value hparse]

/-- It has none that could be equal. -/
theorem WithoutToken.not_member (h : WithoutToken document) (htext : IsText text document)
    (value : Value) : (shadowJsonClientToken, value) ∉ text.members := by
  cases h with
  | wellFormed htext' _ hnone => exact htext.unique htext' ▸ hnone value
  | malformed hnone => exact absurd htext (hnone text)

/-- Of plain texts the client tokens are compared as they should be. -/
theorem BothPlain.match_iff (h : BothPlain text1 text2 document1 document2)
    (hroom1 : valueCount text1.value ≤ jsonJsmnTokens)
    (hroom2 : valueCount text2.value ≤ jsonJsmnTokens) :
    shadowJSONDocClientTokenMatch document1 document2 = true ↔
      ∃ value, (shadowJsonClientToken, value) ∈ text1.members ∧
        (shadowJsonClientToken, value) ∈ text2.members ∧ content value ≠ [] := by
  rw [Shadow.match_iff h.isText1 h.isText2 hroom1 hroom2]
  constructor
  · rintro ⟨m1, hm1, m2, hm2, hlength, hpositive, htake⟩
    obtain ⟨hshort1, hshort2, happart⟩ := h.toldApart m1 hm1 m2 hm2
    rw [Nat.mod_eq_of_lt hshort1] at hlength hpositive htake
    rw [Nat.mod_eq_of_lt hshort2] at hlength
    rw [List.take_length, hlength, List.take_length] at htake
    refine ⟨m1.value, (h.plain1 _).mpr ⟨m1, hm1, rfl⟩,
      (h.plain2 _).mpr ⟨m2, hm2, (happart htake).symm⟩, ?_⟩
    exact fun hnil => hpositive (congrArg List.length hnil)
  · rintro ⟨value, hmember1, hmember2, hne⟩
    obtain ⟨m1, hm1, rfl⟩ := (h.plain1 value).mp hmember1
    obtain ⟨m2, hm2, hvalue⟩ := (h.plain2 m1.value).mp hmember2
    obtain ⟨hshort1, -, -⟩ := h.toldApart m1 hm1 m2 hm2
    refine ⟨m1, hm1, m2, hm2, by rw [hvalue], ?_, by rw [hvalue]⟩
    rw [Nat.mod_eq_of_lt hshort1]
    exact fun hzero => hne (List.eq_nil_of_length_eq_zero hzero)

end Decided

/-! ## A nested client token -/

/-- A document with these characters in memory. -/
def documentWith (text : List UInt8) : Document := ⟨fun i => text.getD i 0, 0, text.length⟩

def documentOf (text : Text) : Document := documentWith text.write

theorem document_text (text : List UInt8) : (documentWith text).text = text := by
  refine List.ext_getElem (by simp [documentWith, Document.text]) ?_
  intro i hi hi'
  simp only [documentWith, Document.text, readBytes, List.getElem_map, List.getElem_range,
    Nat.zero_add]
  rw [List.getD_eq_getElem?_getD, List.getElem?_eq_getElem hi', Option.getD_some]

theorem is_text_document {text : Text} (h : text.WellFormed) : IsText text (documentOf text) :=
  ⟨h, (document_text _).symm⟩

/-- Characters that stand for themselves in a string. -/
def isPlain (string : List UInt8) : Bool :=
  string.all fun c => 32 ≤ c ∧ c ≠ '"'.toUInt8 ∧ c ≠ '\\'.toUInt8

theorem string_text_of_plain {string : List UInt8} (h : isPlain string = true) :
    IsStringText string := by
  induction string with
  | nil => exact .nil
  | cons c string ih =>
      obtain ⟨hc, hstring⟩ := (Bool.and_eq_true _ _).mp h
      obtain ⟨hlow, hquote, hbackslash⟩ := of_decide_eq_true hc
      exact .char hlow hquote hbackslash (ih hstring)

/-- A key without blanks. -/
def plainKey (key : List UInt8) : Option Key := some ⟨[], key, []⟩

theorem plain_key_well_formed {key : List UInt8} (h : isPlain key = true) :
    ∀ k ∈ plainKey key, k.WellFormed := by
  rintro k ⟨⟩
  exact ⟨fun _ hc => (by cases hc), string_text_of_plain h, fun _ hc => (by cases hc)⟩

/-- `{"clientToken":"b"}`. -/
def nestedState : Value :=
  .group .object (.last (plainKey shadowJsonClientToken) [] (.string (ascii "b")) [])

/-- `{"clientToken":"a","state":{"clientToken":"b"}}`. -/
def tokenBeforeState : Text where
  before := []
  value := .group .object (.more (plainKey shadowJsonClientToken) [] (.string (ascii "a")) []
    (.last (plainKey (ascii "state")) [] nestedState []))
  after := []

/-- `{"state":{"clientToken":"b"},"clientToken":"a"}`. -/
def tokenBehindState : Text where
  before := []
  value := .group .object (.more (plainKey (ascii "state")) [] nestedState []
    (.last (plainKey shadowJsonClientToken) [] (.string (ascii "a")) []))
  after := []

theorem blank_nil : IsBlank [] := fun _ hc => (by cases hc)

theorem plain_last_well_formed {key : List UInt8} {value : Value} (hkey : isPlain key = true)
    (hvalue : value.WellFormed) :
    (Entries.last (plainKey key) [] value []).WellFormed .object :=
  ⟨iff_of_true rfl rfl, plain_key_well_formed hkey, blank_nil, hvalue, blank_nil⟩

theorem plain_more_well_formed {key : List UInt8} {value : Value} {rest : Entries}
    (hkey : isPlain key = true) (hvalue : value.WellFormed) (hrest : rest.WellFormed .object) :
    (Entries.more (plainKey key) [] value [] rest).WellFormed .object :=
  ⟨iff_of_true rfl rfl, plain_key_well_formed hkey, blank_nil, hvalue, blank_nil, hrest⟩

theorem client_token_plain : isPlain shadowJsonClientToken = true := rfl

theorem state_plain : isPlain (ascii "state") = true := rfl

theorem nested_state_well_formed : nestedState.WellFormed :=
  plain_last_well_formed client_token_plain (string_text_of_plain rfl)

theorem token_before_state_well_formed : tokenBeforeState.WellFormed :=
  ⟨blank_nil, plain_more_well_formed client_token_plain (string_text_of_plain rfl)
    (plain_last_well_formed state_plain nested_state_well_formed), blank_nil⟩

theorem token_behind_state_well_formed : tokenBehindState.WellFormed :=
  ⟨blank_nil, plain_more_well_formed state_plain nested_state_well_formed
    (plain_last_well_formed client_token_plain (string_text_of_plain rfl)), blank_nil⟩

/-- `,{"state":"clientToken"}`, which jsmn accepts. -/
def leadingComma : List UInt8 := ascii ",\x7b\"state\":\"clientToken\"\x7d"

theorem leading_comma_without_token : WithoutToken (documentWith leadingComma) := by
  refine .malformed (fun text htext => ?_) (Or.inr fun position hprefix hkey => ?_)
  · -- A comma is neither a blank nor the first character of a value.
    obtain ⟨c, rest, hwrite, hc⟩ := value_begins_apart htext.wellFormed.value text.after
    have hcomma : ∃ tail, [] ++ ','.toUInt8 :: tail = text.before ++ c :: rest :=
      ⟨_, by rw [← hwrite]; exact ((document_text leadingComma).symm.trans htext.write_eq.symm)⟩
    obtain ⟨tail, hcomma⟩ := hcomma
    obtain ⟨-, rfl, -⟩ := blank_unique blank_nil htext.wellFormed.before comma_delimiter.2
      (mt blank_delimiter hc) hcomma
    exact hc comma_delimiter.1
  · -- `clientToken` is not followed by a colon.
    rw [document_text] at hprefix hkey
    obtain ⟨key, gap, later, hdrop, -, -⟩ := hkey
    have hnone : ∀ position < leadingComma.length,
        shadowJsonClientToken <+: leadingComma.drop position →
          ':'.toUInt8 ∉ leadingComma.drop position := by decide
    refine hnone position ?_ hprefix (hdrop ▸ ?_)
    · by_contra hle
      rw [List.drop_eq_nil_of_le (Nat.le_of_not_lt hle)] at hdrop
      cases key <;> cases gap <;> cases hdrop
    · exact List.mem_append_right _ (List.mem_append_right _ List.mem_cons_self)

/-- Behind the state the client token is the last one, which the search takes. -/
theorem token_behind_state_taken : takenMember tokenBehindState =
    some ⟨30, shadowJsonClientToken, 43, .string (ascii "a")⟩ := rfl

theorem token_behind_state_plain : PlainText tokenBehindState := by
  intro value
  have hmembers : tokenBehindState.members =
      [(ascii "state", nestedState), (shadowJsonClientToken, .string (ascii "a"))] := rfl
  have hne : shadowJsonClientToken ≠ ascii "state" := by decide
  rw [token_behind_state_taken, hmembers]
  constructor
  · intro hmember
    rcases List.mem_cons.mp hmember with h | hmember
    · exact absurd (congrArg Prod.fst h) hne
    · rw [List.mem_singleton] at hmember
      exact ⟨_, rfl, (congrArg Prod.snd hmember).symm⟩
  · rintro ⟨m, hm, rfl⟩
    cases hm
    exact .tail _ (.head _)

end TivaAws.Shadow
