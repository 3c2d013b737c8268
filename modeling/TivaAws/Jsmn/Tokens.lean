import Mathlib.Order.Basic
import TivaAws.Foundation.JsonReading
import TivaAws.Jsmn.Parse

/-!
# The tokens of well-formed texts

What jsmn makes of a well-formed text: one token for each value and for each key, in the order they
begin. The size of a bracket is the number of its entries and the size of a key is one.
-/

namespace TivaAws.Jsmn

open Json

/-! ## Tokens of a text -/

/-- The type of the token of a bracket. -/
def bracketType : Bracket → JsmnType
  | .array => .array
  | .object => .object

/-- The number of entries. -/
def entryCount : Entries → Nat
  | .last _ _ _ _ => 1
  | .more _ _ _ _ rest => entryCount rest + 1

/-- The number of tokens of the key of an entry. -/
def keyCount (key : Option Key) : Nat := if key.isSome then 1 else 0

mutual

/-- The number of tokens of a value. -/
def valueCount : Value → Nat
  | .string _ | .primitive _ | .empty _ _ => 1
  | .group _ entries => entriesCount entries + 1

def entriesCount : Entries → Nat
  | .last key _ value _ => keyCount key + valueCount value
  | .more key _ value _ rest => keyCount key + valueCount value + entriesCount rest

end

/-- The token of a string that begins at a position. -/
def stringToken (size pos : Nat) (parent : Option Nat) (text : List UInt8) : JsmnToken :=
  ⟨.string, pos + 1, some (pos + 1 + text.length), size, parent⟩

/-- The token of the key of an entry. -/
def keyTokens (super pos : Nat) (key : Option Key) : List JsmnToken :=
  (key.map fun k => stringToken 1 (pos + k.before.length) (some super) k.text).toList

/-- The parent of the value of an entry: its key, or else the bracket. -/
def entryParent (super index : Nat) (key : Option Key) : Nat := if key.isSome then index else super

mutual

/-- The tokens of a value that begins at a position, with the index of the first of them and its
parent. -/
def valueTokens (index pos : Nat) (parent : Option Nat) : Value → List JsmnToken
  | .string text => [stringToken 0 pos parent text]
  | .primitive text => [⟨.primitive, pos, some (pos + text.length), 0, parent⟩]
  | .empty bracket blank => [⟨bracketType bracket, pos, some (pos + blank.length + 2), 0, parent⟩]
  | .group bracket entries =>
      ⟨bracketType bracket, pos, some (pos + entries.write.length + 2), entryCount entries,
        parent⟩ :: entriesTokens index (index + 1) (pos + 1) entries

/-- The tokens of entries behind a position, with the index of their bracket and of the first of
them. -/
def entriesTokens (super index pos : Nat) : Entries → List JsmnToken
  | .last key before value _ =>
      keyTokens super pos key ++
        valueTokens (index + keyCount key) (pos + (lead key before).length)
          (some (entryParent super index key)) value
  | .more key before value after rest =>
      keyTokens super pos key ++
        (valueTokens (index + keyCount key) (pos + (lead key before).length)
          (some (entryParent super index key)) value ++
        entriesTokens super (index + keyCount key + valueCount value)
          (pos + (lead key before).length + value.write.length + after.length + 1) rest)

end

/-- The tokens of a text. -/
def textTokens (text : Text) : List JsmnToken := valueTokens 0 text.before.length none text.value

theorem key_tokens_length {super pos : Nat} {key : Option Key} :
    (keyTokens super pos key).length = keyCount key := by
  cases key with
  | none => rfl
  | some k => rfl

mutual

theorem value_tokens_length (index pos : Nat) (parent : Option Nat) :
    (value : Value) → (valueTokens index pos parent value).length = valueCount value
  | .string _ => rfl
  | .primitive _ => rfl
  | .empty _ _ => rfl
  | .group _ entries => congrArg (· + 1) (entries_tokens_length _ _ _ entries)

theorem entries_tokens_length (super index pos : Nat) :
    (entries : Entries) → (entriesTokens super index pos entries).length = entriesCount entries
  | .last key before value _ => by
      show (keyTokens super pos key ++ valueTokens _ _ _ value).length = _
      rw [List.length_append, key_tokens_length, value_tokens_length _ _ _ value]
      rfl
  | .more key before value after rest => by
      show (keyTokens super pos key ++ (valueTokens _ _ _ value ++
        entriesTokens super _ _ rest)).length = keyCount key + valueCount value + entriesCount rest
      rw [List.length_append, List.length_append, key_tokens_length,
        value_tokens_length _ _ _ value, entries_tokens_length _ _ _ rest, Nat.add_assoc]

end

/-! ## Tokens within a bracket -/

/-- The tokens have ends, and each has a parent in front of it that is not in front of the
bracket. -/
def Within (super index : Nat) (tokens : List JsmnToken) : Prop :=
  ∀ i token, tokens[i]? = some token →
    token.stop ≠ none ∧ ∃ parent, token.parent = some parent ∧ super ≤ parent ∧ parent < index + i

section Within

variable {base index parent : Nat} {first later : List JsmnToken} {token : JsmnToken}

theorem within_nil : Within base index [] := fun _ _ h => (by cases h)

theorem Within.append (hfirst : Within base index first)
    (hlater : Within base (index + first.length) later) : Within base index (first ++ later) := by
  intro i token htoken
  by_cases hi : i < first.length
  · rw [List.getElem?_append_left hi] at htoken
    exact hfirst i token htoken
  · rw [List.getElem?_append_right (Nat.le_of_not_lt hi)] at htoken
    obtain ⟨hstop, parent, hparent, hbase, hlt⟩ := hlater _ token htoken
    exact ⟨hstop, parent, hparent, hbase, by omega⟩

theorem within_single (hstop : token.stop ≠ none) (hparent : token.parent = some parent)
    (hbase : base ≤ parent) (hlt : parent < index) : Within base index [token] := by
  intro i other hother
  obtain ⟨rfl, rfl⟩ : i = 0 ∧ token = other := by
    cases i with
    | zero => exact ⟨rfl, Option.some.inj hother⟩
    | succ i => cases hother
  exact ⟨hstop, parent, hparent, hbase, hlt⟩

/-- The token of a key, and the parent of the value behind it. -/
theorem key_tokens_within {pos super : Nat} (hbase : base ≤ super) (hlt : super < index)
    (key : Option Key) :
    Within base index (keyTokens super pos key) ∧ base ≤ entryParent super index key ∧
      entryParent super index key < index + keyCount key := by
  cases key with
  | none => exact ⟨within_nil, hbase, hlt⟩
  | some k =>
      exact ⟨within_single (Option.some_ne_none _) rfl hbase hlt,
        Nat.le_of_lt (Nat.lt_of_le_of_lt hbase hlt), Nat.lt_succ_self _⟩

mutual

theorem value_tokens_within {base index pos parent : Nat} (hbase : base ≤ parent)
    (hlt : parent < index) :
    (value : Value) → Within base index (valueTokens index pos (some parent) value)
  | .string _ => within_single (Option.some_ne_none _) rfl hbase hlt
  | .primitive _ => within_single (Option.some_ne_none _) rfl hbase hlt
  | .empty _ _ => within_single (Option.some_ne_none _) rfl hbase hlt
  | .group _ entries =>
      Within.append (within_single (Option.some_ne_none _) rfl hbase hlt)
        (entries_tokens_within (Nat.le_of_lt (Nat.lt_of_le_of_lt hbase hlt)) (Nat.lt_succ_self _)
          entries)

theorem entries_tokens_within {base index pos super : Nat} (hbase : base ≤ super)
    (hlt : super < index) :
    (entries : Entries) → Within base index (entriesTokens super index pos entries)
  | .last key _ value _ => by
      obtain ⟨hkey, hparent, hindex⟩ := @key_tokens_within base index pos super hbase hlt key
      refine hkey.append ?_
      rw [key_tokens_length]
      exact value_tokens_within hparent hindex value
  | .more key _ value _ rest => by
      obtain ⟨hkey, hparent, hindex⟩ := @key_tokens_within base index pos super hbase hlt key
      refine hkey.append ?_
      rw [key_tokens_length]
      refine (value_tokens_within hparent hindex value).append ?_
      rw [value_tokens_length]
      exact entries_tokens_within hbase (by omega) rest

end

end Within

/-! ## Blanks, strings and primitives -/

section Loop

variable {numTokens pos : Nat} {c : UInt8} {rest later text blank : List UInt8}
  {parser next : JsmnParser} {toksuper : Option Nat} {tokens : List JsmnToken}

theorem loop_step (hnul : c ≠ 0) (h : jsmnStep numTokens c rest parser = .ok (next, later)) :
    jsmnLoop numTokens (c :: rest) parser = jsmnLoop numTokens later next := by
  rw [jsmnLoop, dif_neg hnul]
  split
  · rw [h] at *
    simp_all
  · simp_all

theorem loop_blank (hblank : IsBlank blank) :
    jsmnLoop numTokens (blank ++ rest) ⟨pos, toksuper, tokens⟩ =
      jsmnLoop numTokens rest ⟨pos + blank.length, toksuper, tokens⟩ := by
  induction blank generalizing pos with
  | nil => rfl
  | cons c blank ih =>
      have hc := hblank c List.mem_cons_self
      have hstep : jsmnStep numTokens c (blank ++ rest) ⟨pos, toksuper, tokens⟩ =
          .ok (⟨pos + 1, toksuper, tokens⟩, blank ++ rest) := by
        rcases hc with rfl | rfl | rfl | rfl <;> rfl
      have hnul : c ≠ 0 := by
        rcases hc with rfl | rfl | rfl | rfl <;> decide
      rw [List.cons_append, loop_step hnul hstep,
        ih fun d hd => hblank d (List.mem_cons_of_mem c hd),
        List.length_cons, Nat.add_assoc, Nat.add_comm 1]

/-- Hex digits are scanned one after the other. -/
theorem scan_hex {digits : List UInt8} (h : ∀ c ∈ digits, IsHexDigit c) (hne : digits ≠ []) :
    scanString (.hex digits.length) pos (digits ++ rest) =
      scanString .plain (pos + digits.length) rest := by
  induction digits generalizing pos with
  | nil => exact absurd rfl hne
  | cons c digits ih =>
      have hc := h c List.mem_cons_self
      have hnul : c ≠ 0 := by
        rintro rfl
        revert hc
        decide
      have hhex : isHexCharacter c = true := by
        unfold IsHexDigit IsDigit at hc
        unfold isHexCharacter
        simp only [Bool.or_eq_true, Bool.and_eq_true, decide_eq_true_eq]
        rcases hc with hc | hc | hc
        · exact .inl (.inl hc)
        · exact .inl (.inr hc)
        · exact .inr hc
      rw [List.cons_append, scanString, if_neg hnul, if_pos hhex]
      cases digits with
      | nil => rfl
      | cons d digits =>
          rw [if_neg (by simp), show (c :: d :: digits).length - 1 = (d :: digits).length from rfl,
            ih (fun e he => h e (List.mem_cons_of_mem c he)) (List.cons_ne_nil _ _)]
          congr 1
          simp only [List.length_cons]
          omega

theorem scan_text (h : IsStringText text) :
    scanString .plain pos (text ++ '"'.toUInt8 :: rest) = .ok (pos + text.length, rest) := by
  induction h generalizing pos with
  | nil => rfl
  | @char c text hlow hquote hbackslash _ ih =>
      have hnul : c ≠ 0 := by
        rintro rfl
        exact absurd hlow (by decide)
      rw [List.cons_append, scanString, if_neg hnul, if_neg hquote, if_neg hbackslash, ih,
        List.length_cons, Nat.add_assoc, Nat.add_comm 1]
  | @escape c text hc _ ih =>
      rw [List.cons_append, List.cons_append, scanString, if_neg (by decide), if_neg (by decide),
        if_pos rfl, scanString, if_pos (show c ∈ escapedSymbols from hc), ih]
      simp only [List.length_cons, Nat.add_assoc, Nat.add_comm 1]
  | @unicode digits text hfour hdigits _ ih =>
      rw [List.cons_append, List.cons_append, List.append_assoc, scanString, if_neg (by decide),
        if_neg (by decide), if_pos rfl, scanString, if_neg (by decide), if_pos rfl, ← hfour,
        scan_hex hdigits (by rintro rfl; cases hfour), ih]
      simp only [List.length_cons, List.length_append]
      congr 2
      omega

theorem modify_append {α : Type*} {f : α → α} {i : Nat} {first later : List α}
    (h : i < first.length) : (first ++ later).modify i f = first.modify i f ++ later := by
  induction first generalizing i with
  | nil => exact absurd h (Nat.not_lt_zero i)
  | cons a first ih =>
      cases i with
      | zero => rfl
      | succ i =>
          show a :: (first ++ later).modify i f = a :: (first.modify i f ++ later)
          rw [ih (Nat.lt_of_succ_lt_succ h)]

theorem modify_append_cons {α : Type*} {f : α → α} {a : α} {first later : List α} :
    (first ++ a :: later).modify first.length f = first ++ f a :: later := by
  induction first with
  | nil => rfl
  | cons b first ih =>
      show b :: (first ++ a :: later).modify first.length f = _
      rw [ih]
      rfl

/-- A parent that is counted in is not among the tokens after it. -/
theorem grow_super_append {token : JsmnToken} (h : ∀ super ∈ toksuper, super < tokens.length) :
    growSuper toksuper (tokens ++ [token]) = growSuper toksuper tokens ++ [token] := by
  cases toksuper with
  | none => rfl
  | some super => exact modify_append (h super rfl)

theorem loop_string (htext : IsStringText text) (hroom : tokens.length < numTokens)
    (hsuper : ∀ super ∈ toksuper, super < tokens.length) :
    jsmnLoop numTokens (quoted text ++ rest) ⟨pos, toksuper, tokens⟩ =
      jsmnLoop numTokens rest ⟨pos + (quoted text).length, toksuper,
        growSuper toksuper tokens ++ [stringToken 0 pos toksuper text]⟩ := by
  have hstep : jsmnStep numTokens '"'.toUInt8 (text ++ '"'.toUInt8 :: rest)
      ⟨pos, toksuper, tokens⟩ = .ok (⟨pos + 1 + text.length + 1, toksuper,
        growSuper toksuper tokens ++ [stringToken 0 pos toksuper text]⟩, rest) := by
    show jsmnParseString numTokens _ _ = _
    unfold jsmnParseString
    rw [scan_text htext]
    simp only [bind, Except.bind, jsmnAllocToken, if_neg (Nat.not_le.mpr hroom)]
    rw [grow_super_append hsuper]
    rfl
  unfold quoted
  rw [List.cons_append, List.append_assoc, List.singleton_append, loop_step (by decide) hstep]
  congr 2
  simp only [List.length_cons, List.length_append, List.length_nil]
  omega

/-- What may follow a primitive. -/
def Delimited (later : List UInt8) : Prop := ∀ c ∈ later.head?, c ∈ primitiveEnds

/-- A character of a primitive. -/
def IsPrimitiveCharacter (c : UInt8) : Prop :=
  32 ≤ c ∧ c < 127 ∧ c ∉ primitiveEnds ∧ c ∉ ['{'.toUInt8, '['.toUInt8, '"'.toUInt8]

instance (c : UInt8) : Decidable (IsPrimitiveCharacter c) := inferInstanceAs (Decidable (_ ∧ _))

theorem scan_primitive (htext : ∀ c ∈ text, IsPrimitiveCharacter c) (hlater : Delimited later) :
    scanPrimitive pos (text ++ later) = .ok (pos + text.length, later) := by
  induction text generalizing pos with
  | nil =>
      cases later with
      | nil => rfl
      | cons c later => exact if_pos (.inr (hlater c rfl))
  | cons c text ih =>
      obtain ⟨hlow, hhigh, hends, _⟩ := htext c List.mem_cons_self
      have hnul : c ≠ 0 := by
        rintro rfl
        exact absurd hlow (by decide)
      have hrange : ¬ (c < 32 ∨ c ≥ 127) := by
        rintro (h | h)
        · exact absurd hlow (UInt8.not_le.mpr h)
        · exact absurd hhigh (UInt8.not_lt.mpr h)
      rw [List.cons_append, scanPrimitive, if_neg (not_or.mpr ⟨hnul, hends⟩), if_neg hrange,
        ih fun d hd => htext d (List.mem_cons_of_mem c hd), List.length_cons, Nat.add_assoc,
        Nat.add_comm 1]

theorem digit_character {c : UInt8} (h : IsDigit c) : IsPrimitiveCharacter c := by
  refine ⟨UInt8.le_trans (by decide) h.1, UInt8.lt_of_le_of_lt h.2 (by decide), fun hc => ?_,
    fun hc => ?_⟩
  · simp only [primitiveEnds, List.map_cons, List.map_nil, List.mem_cons, List.not_mem_nil,
      or_false] at hc
    rcases hc with rfl | rfl | rfl | rfl | rfl | rfl | rfl | rfl <;> exact absurd h (by decide)
  · simp only [List.mem_cons, List.not_mem_nil, or_false] at hc
    rcases hc with rfl | rfl | rfl <;> exact absurd h (by decide)

theorem primitive_text_characters (h : IsPrimitive text) :
    text ≠ [] ∧ ∀ c ∈ text, IsPrimitiveCharacter c :=
  primitive_characters (fun _ => digit_character) (by decide +kernel) h

/-- Everything but the characters of the cases before it is left to `jsmn_parse_primitive`. -/
theorem step_primitive (h : IsPrimitiveCharacter c) :
    jsmnStep numTokens c rest parser = jsmnParsePrimitive numTokens (c :: rest) parser := by
  obtain ⟨_, _, hends, hothers⟩ := h
  simp only [primitiveEnds, List.map_cons, List.map_nil, List.mem_cons, List.not_mem_nil,
    or_false, not_or] at hends hothers
  unfold jsmnStep
  simp only [hends, hothers, or_self, if_false]

theorem loop_primitive (htext : IsPrimitive text) (hlater : Delimited later)
    (hroom : tokens.length < numTokens) (hsuper : ∀ super ∈ toksuper, super < tokens.length) :
    jsmnLoop numTokens (text ++ later) ⟨pos, toksuper, tokens⟩ =
      jsmnLoop numTokens later ⟨pos + text.length, toksuper,
        growSuper toksuper tokens ++
          [⟨.primitive, pos, some (pos + text.length), 0, toksuper⟩]⟩ := by
  obtain ⟨hne, hcharacters⟩ := primitive_text_characters htext
  cases text with
  | nil => exact absurd rfl hne
  | cons c text =>
      have hc := hcharacters c List.mem_cons_self
      have hnul : c ≠ 0 := by
        rintro rfl
        exact absurd hc.1 (by decide)
      refine loop_step hnul ?_
      show jsmnStep numTokens c (text ++ later) _ = _
      rw [step_primitive hc]
      unfold jsmnParsePrimitive
      rw [← List.cons_append, scan_primitive hcharacters hlater]
      simp only [bind, Except.bind, jsmnAllocToken, if_neg (Nat.not_le.mpr hroom)]
      rw [grow_super_append hsuper]
      rfl

end Loop

/-! ## Brackets -/

section Brackets

variable {numTokens pos index : Nat} {rest later : List UInt8} {toksuper : Option Nat}
  {tokens front done : List JsmnToken} {opened : JsmnToken} {bracket : Bracket}

/-- A bracket with one entry more. -/
def JsmnToken.grow (token : JsmnToken) : JsmnToken := { token with size := token.size + 1 }

/-- A bracket that is closed. -/
def JsmnToken.close (stop : Nat) (token : JsmnToken) : JsmnToken := { token with stop := some stop }

/-- The tokens while a bracket is open: it and the closed ones after it. -/
structure Opened (bracket : Bracket) (index : Nat) (opened : JsmnToken) (done : List JsmnToken) :
    Prop where
  stop : opened.stop = none
  type : opened.type = bracketType bracket
  done : Within index (index + 1) done

theorem get_opened : (front ++ opened :: done)[front.length]? = some opened := by
  rw [List.getElem?_append_right (Nat.le_refl _), Nat.sub_self]
  rfl

theorem get_done {i : Nat} : (front ++ opened :: done)[front.length + 1 + i]? = done[i]? := by
  rw [List.getElem?_append_right (by omega),
    show front.length + 1 + i - front.length = i + 1 by omega]
  rfl

/-- From any token within an open bracket the parents lead to the bracket. -/
theorem close_from (h : Opened bracket front.length opened done) (hi : index ≤ done.length) :
    closeFrom (bracketType bracket) ⟨pos, toksuper, front ++ opened :: done⟩
        (front.length + index) =
      .ok ⟨pos, opened.parent, front ++ opened.close (pos + 1) :: done⟩ := by
  induction index using Nat.strongRecOn with
  | ind index ih =>
      cases index with
      | zero =>
          rw [closeFrom]
          simp only [Nat.add_zero, get_opened, h.stop, h.type, if_true, ne_eq, not_true, if_false]
          rw [List.set_append_right _ _ (Nat.le_refl _), Nat.sub_self]
          unfold JsmnToken.close
          rw [h.type]
          rfl
      | succ i =>
          have hlt : i < done.length := hi
          obtain ⟨hstop, parent, hparent, hbase, hbound⟩ :=
            h.done i done[i] (List.getElem?_eq_getElem hlt)
          rw [show front.length + (i + 1) = front.length + 1 + i by omega, closeFrom]
          simp only [get_done, List.getElem?_eq_getElem hlt, hstop, if_false, hparent]
          rw [if_pos (by omega), show parent = front.length + (parent - front.length) by omega]
          exact ih (parent - front.length) (by omega) (by omega)

theorem loop_close (h : Opened bracket front.length opened done) :
    jsmnLoop numTokens (bracket.closing :: later) ⟨pos, toksuper, front ++ opened :: done⟩ =
      jsmnLoop numTokens later
        ⟨pos + 1, opened.parent, front ++ opened.close (pos + 1) :: done⟩ := by
  have hclose : jsmnClose (bracketType bracket) ⟨pos, toksuper, front ++ opened :: done⟩ =
      .ok ⟨pos + 1, opened.parent, front ++ opened.close (pos + 1) :: done⟩ := by
    have hlength : (front ++ opened :: done).length = front.length + done.length + 1 := by
      rw [List.length_append, List.length_cons, Nat.add_assoc]
    unfold jsmnClose
    simp only [hlength]
    rw [if_neg (by omega),
      show front.length + done.length + 1 - 1 = front.length + done.length from rfl,
      close_from h (Nat.le_refl _)]
    rfl
  refine loop_step (by cases bracket <;> decide) ?_
  cases bracket with
  | array =>
      show (jsmnClose (bracketType .array) _).map _ = _
      rw [hclose]
      rfl
  | object =>
      show (jsmnClose (bracketType .object) _).map _ = _
      rw [hclose]
      rfl

theorem loop_open (hroom : tokens.length < numTokens)
    (hsuper : ∀ super ∈ toksuper, super < tokens.length) :
    jsmnLoop numTokens (bracket.opening :: rest) ⟨pos, toksuper, tokens⟩ =
      jsmnLoop numTokens rest ⟨pos + 1, some tokens.length,
        growSuper toksuper tokens ++ [⟨bracketType bracket, pos, none, 0, toksuper⟩]⟩ := by
  have hopen : jsmnOpen numTokens (bracketType bracket) ⟨pos, toksuper, tokens⟩ =
      .ok ⟨pos + 1, some tokens.length,
        growSuper toksuper tokens ++ [⟨bracketType bracket, pos, none, 0, toksuper⟩]⟩ := by
    unfold jsmnOpen
    simp only [jsmnAllocToken, if_neg (Nat.not_le.mpr hroom), bind, Except.bind]
    rw [grow_super_append hsuper]
    rfl
  refine loop_step (by cases bracket <;> decide) ?_
  cases bracket with
  | array =>
      show (jsmnOpen numTokens (bracketType .array) _).map _ = _
      rw [hopen]
      rfl
  | object =>
      show (jsmnOpen numTokens (bracketType .object) _).map _ = _
      rw [hopen]
      rfl

theorem grow_super_length : (growSuper toksuper tokens).length = tokens.length := by
  cases toksuper with
  | none => rfl
  | some super => exact List.length_modify _ _ _

end Brackets

/-! ## Entries -/

section Entries

variable {numTokens pos : Nat} {rest later : List UInt8} {front done : List JsmnToken}
  {opened : JsmnToken} {bracket : Bracket} {key : Option Key} {before after : List UInt8}
  {value : Value}

/-- jsmn makes the tokens of the value, counts it in its parent and goes on behind it. -/
def Tokenises (numTokens : Nat) (value : Value) : Prop :=
  ∀ (pos : Nat) (toksuper : Option Nat) (tokens : List JsmnToken) (later : List UInt8),
    (∀ super ∈ toksuper, super < tokens.length) → tokens.length + valueCount value ≤ numTokens →
    Delimited later →
    jsmnLoop numTokens (value.write ++ later) ⟨pos, toksuper, tokens⟩ =
      jsmnLoop numTokens later ⟨pos + value.write.length, toksuper,
        growSuper toksuper tokens ++ valueTokens tokens.length pos toksuper value⟩

/-- The token of a bracket grows with each entry. -/
theorem grow_opened : growSuper (some front.length) (front ++ opened :: done) =
    front ++ opened.grow :: done :=
  modify_append_cons

/-- The colon behind a key makes the key the parent of the value. -/
theorem loop_colon {tokens : List JsmnToken} {token : JsmnToken} {toksuper : Option Nat} :
    jsmnLoop numTokens (':'.toUInt8 :: rest) ⟨pos, toksuper, tokens ++ [token]⟩ =
      jsmnLoop numTokens rest ⟨pos + 1, some tokens.length, tokens ++ [token]⟩ := by
  refine loop_step (by decide) ?_
  show Except.ok (jsmnColon _, rest) = _
  unfold jsmnColon
  simp only [List.length_append, List.length_singleton, Nat.add_sub_cancel,
    Nat.succ_ne_zero, if_false]

/-- The comma makes the bracket the parent again. -/
theorem loop_comma (htype : opened.type = bracketType bracket) {tokens : List JsmnToken}
    {position : Nat} : jsmnLoop numTokens (','.toUInt8 :: rest)
        ⟨pos, some (entryParent front.length (front.length + 1 + done.length) key),
          front ++ opened :: (done ++ (keyTokens front.length position key ++ tokens))⟩ =
      jsmnLoop numTokens rest
        ⟨pos + 1, some front.length,
          front ++ opened :: (done ++ (keyTokens front.length position key ++ tokens))⟩ := by
  refine loop_step (by decide) ?_
  show Except.ok (jsmnComma _, rest) = _
  unfold jsmnComma
  cases key with
  | none =>
      simp only [entryParent, Option.isSome_none, Bool.false_eq_true, if_false, Option.bind_some,
        get_opened, htype]
      rw [if_neg]
      rintro ⟨harray, hobject⟩
      cases bracket with
      | array => exact harray rfl
      | object => exact hobject rfl
  | some k =>
      simp only [entryParent, Option.isSome_some, if_true, Option.bind_some, get_done]
      rw [List.getElem?_append_right (Nat.le_refl _), Nat.sub_self]
      rfl

/-- A key: the bracket grows, and the token of the key is to be the parent. -/
theorem loop_key {k : Key} (hk : k.WellFormed)
    (hroom : front.length + 1 + done.length < numTokens) :
    jsmnLoop numTokens (k.write ++ rest) ⟨pos, some front.length, front ++ opened :: done⟩ =
      jsmnLoop numTokens rest
        ⟨pos + k.write.length, some (front.length + 1 + done.length),
          (front ++ opened.grow :: done) ++
            [stringToken 0 (pos + k.before.length) (some front.length) k.text]⟩ := by
  have hlength : ∀ opened : JsmnToken,
      (front ++ opened :: done).length = front.length + 1 + done.length := by
    intro opened
    rw [List.length_append, List.length_cons]
    omega
  have hsuper : ∀ super ∈ some front.length, super < (front ++ opened :: done).length := by
    intro super hsuper
    cases hsuper
    rw [hlength]
    omega
  have hwrite : k.write ++ rest =
      k.before ++ (quoted k.text ++ (k.after ++ ':'.toUInt8 :: rest)) := by
    unfold Key.write
    simp only [List.append_assoc, List.singleton_append]
  have hpos : pos + k.write.length =
      pos + k.before.length + (quoted k.text).length + k.after.length + 1 := by
    unfold Key.write
    simp only [List.length_append, List.length_singleton, Nat.add_assoc]
  rw [hwrite, hpos, loop_blank hk.before, loop_string hk.text (by rwa [hlength]) hsuper,
    loop_blank hk.after, grow_opened, loop_colon, hlength]

/-- An entry up to the end of its value: the bracket has grown by one, and the tokens of the key and
of the value have been added. -/
theorem loop_entry (hvalue : Tokenises numTokens value) (hkey : ∀ k ∈ key, k.WellFormed)
    (hbefore : IsBlank before)
    (hroom : front.length + 1 + done.length + (keyCount key + valueCount value) ≤ numTokens)
    (hlater : Delimited later) :
    jsmnLoop numTokens (lead key before ++ (value.write ++ later))
        ⟨pos, some front.length, front ++ opened :: done⟩ =
      jsmnLoop numTokens later
        ⟨pos + (lead key before).length + value.write.length,
          some (entryParent front.length (front.length + 1 + done.length) key),
          front ++ opened.grow :: (done ++ (keyTokens front.length pos key ++
            valueTokens (front.length + 1 + done.length + keyCount key)
              (pos + (lead key before).length)
              (some (entryParent front.length (front.length + 1 + done.length) key)) value))⟩ := by
  have hlength : ∀ opened : JsmnToken,
      (front ++ opened :: done).length = front.length + 1 + done.length := by
    intro opened
    rw [List.length_append, List.length_cons]
    omega
  cases key with
  | none =>
      have hroom' : (front ++ opened :: done).length + valueCount value ≤ numTokens := by
        rw [hlength]
        exact (Nat.zero_add (valueCount value)) ▸ hroom
      show jsmnLoop numTokens (before ++ _) _ = _
      rw [loop_blank hbefore, hvalue _ _ _ _ (fun super hsuper => ?_) hroom' hlater,
        grow_opened, hlength, List.append_assoc, List.cons_append]
      · rfl
      · cases hsuper
        rw [hlength]
        omega
  | some k =>
      have hk := hkey k rfl
      have hroom' : front.length + 1 + done.length + (1 + valueCount value) ≤ numTokens := hroom
      have hwrite : lead (some k) before = k.write ++ before := rfl
      have hkeyed : (front ++ opened.grow :: done ++
          [stringToken 0 (pos + k.before.length) (some front.length) k.text]).length =
          front.length + 1 + done.length + 1 := by
        rw [List.length_append, hlength]
        rfl
      -- The value counts in its key, which is the last token.
      have hgrow :
          growSuper (some (front.length + 1 + done.length)) (front ++ opened.grow :: done ++
          [stringToken 0 (pos + k.before.length) (some front.length) k.text]) =
          front ++ opened.grow :: done ++
            [stringToken 1 (pos + k.before.length) (some front.length) k.text] := by
        rw [← hlength opened.grow]
        exact modify_append_cons
      rw [hwrite, List.append_assoc, loop_key hk (by omega), loop_blank hbefore,
        hvalue _ _ _ _ (fun super hsuper => ?_) (by omega) hlater, hgrow, hkeyed,
          List.length_append]
      · simp only [keyTokens, keyCount, entryParent, Option.map_some, Option.toList_some,
          Option.isSome_some, if_true, List.append_assoc, List.cons_append, List.nil_append,
          Nat.add_assoc]
      · cases hsuper
        omega

/-- The tokens of an entry. -/
theorem entry_within (hbase : front.length < front.length + 1 + done.length) :
    Within front.length (front.length + 1 + done.length)
      (keyTokens front.length pos key ++
        valueTokens (front.length + 1 + done.length + keyCount key) (pos + (lead key before).length)
          (some (entryParent front.length (front.length + 1 + done.length) key)) value) := by
  obtain ⟨hkey, hparent, hindex⟩ :=
    @key_tokens_within front.length (front.length + 1 + done.length) pos front.length
      (Nat.le_refl _) hbase key
  refine hkey.append ?_
  rw [key_tokens_length]
  exact value_tokens_within hparent hindex value

/-- A bracket stays open while entries are added. -/
theorem Opened.entry (h : Opened bracket front.length opened done) :
    Opened bracket front.length opened.grow (done ++ (keyTokens front.length pos key ++
      valueTokens (front.length + 1 + done.length + keyCount key) (pos + (lead key before).length)
        (some (entryParent front.length (front.length + 1 + done.length) key)) value)) :=
  ⟨h.stop, h.type, h.done.append (entry_within (by omega))⟩

theorem delimited_of_blank {c : UInt8} (hafter : IsBlank after) (hc : c ∈ primitiveEnds) :
    Delimited (after ++ c :: later) := by
  cases after with
  | nil =>
      intro d hd
      cases hd
      exact hc
  | cons b after =>
      intro d hd
      cases hd
      rcases hafter b List.mem_cons_self with rfl | rfl | rfl | rfl <;> decide

theorem closing_ends (bracket : Bracket) : bracket.closing ∈ primitiveEnds := by
  cases bracket <;> decide

end Entries

/-! ## Values -/

/-- Growing once for each entry. -/
def JsmnToken.growBy (count : Nat) (token : JsmnToken) : JsmnToken :=
  { token with size := token.size + count }

mutual

theorem tokenises {numTokens : Nat} : (value : Value) → value.WellFormed → Tokenises numTokens value
  | .string text, h => fun _ _ _ _ hsuper hroom _ => loop_string h hroom hsuper
  | .primitive text, h => fun _ _ _ _ hsuper hroom hlater => loop_primitive h hlater hroom hsuper
  | .empty bracket blank, h => by
      intro pos toksuper tokens later hsuper hroom _
      have hopened : Opened bracket (growSuper toksuper tokens).length
          ⟨bracketType bracket, pos, none, 0, toksuper⟩ [] := ⟨rfl, rfl, within_nil⟩
      show jsmnLoop numTokens (bracket.opening :: (blank ++ [bracket.closing]) ++ later) _ = _
      rw [List.cons_append, List.append_assoc, List.singleton_append, loop_open hroom hsuper,
        loop_blank h, loop_close hopened]
      congr 2
      · show pos + 1 + blank.length + 1 = pos + (blank ++ [bracket.closing]).length + 1
        rw [List.length_append, List.length_singleton]
        omega
      · show _ = growSuper toksuper tokens ++
          [⟨bracketType bracket, pos, some (pos + blank.length + 2), 0, toksuper⟩]
        rw [show pos + blank.length + 2 = pos + 1 + blank.length + 1 by omega]
        rfl
  | .group bracket entries, h => by
      intro pos toksuper tokens later hsuper hroom _
      have hroom' : tokens.length + (entriesCount entries + 1) ≤ numTokens := hroom
      have hlength := @grow_super_length toksuper tokens
      have hopened : Opened bracket (growSuper toksuper tokens).length
          ⟨bracketType bracket, pos, none, 0, toksuper⟩ [] := ⟨rfl, rfl, within_nil⟩
      show jsmnLoop numTokens (bracket.opening :: (entries.write ++ [bracket.closing]) ++ later) _ =
        _
      rw [List.cons_append, List.append_assoc, List.singleton_append,
        loop_open (by omega) hsuper, ← hlength,
        loop_entries hopened entries h (by rw [hlength]; simp only [List.length_nil]; omega)]
      congr 2
      · show pos + 1 + entries.write.length + 1 =
          pos + (entries.write ++ [bracket.closing]).length + 1
        rw [List.length_append, List.length_singleton]
        omega
      · rw [hlength]
        show _ = growSuper toksuper tokens ++
          ⟨bracketType bracket, pos, some (pos + entries.write.length + 2), entryCount entries,
            toksuper⟩ :: entriesTokens tokens.length (tokens.length + 1) (pos + 1) entries
        rw [show pos + entries.write.length + 2 = pos + 1 + entries.write.length + 1 by omega]
        simp only [JsmnToken.growBy, JsmnToken.close, Nat.zero_add, List.nil_append,
          List.length_nil, Nat.add_zero]

theorem loop_entries {numTokens pos : Nat} {bracket : Bracket} {front done : List JsmnToken}
    {opened : JsmnToken} {later : List UInt8} (hopened : Opened bracket front.length opened done) :
    (entries : Entries) → entries.WellFormed bracket →
      front.length + 1 + done.length + entriesCount entries ≤ numTokens →
      jsmnLoop numTokens (entries.write ++ bracket.closing :: later)
          ⟨pos, some front.length, front ++ opened :: done⟩ =
        jsmnLoop numTokens later
          ⟨pos + entries.write.length + 1, opened.parent,
            front ++ (opened.growBy (entryCount entries)).close (pos + entries.write.length + 1) ::
              (done ++ entriesTokens front.length (front.length + 1 + done.length) pos entries)⟩
  | .last key before value after, h, hroom => by
      obtain ⟨_, hkey, hbefore, hvalue, hafter⟩ := h
      show jsmnLoop numTokens (lead key before ++ (value.write ++ after) ++ _) _ = _
      rw [List.append_assoc, List.append_assoc,
        loop_entry (tokenises value hvalue) hkey hbefore hroom
          (delimited_of_blank hafter (closing_ends bracket)),
        loop_blank hafter, loop_close hopened.entry]
      have hpos : pos + (lead key before).length + value.write.length + after.length + 1 =
          pos + (lead key before ++ (value.write ++ after)).length + 1 := by
        simp only [List.length_append]
        omega
      rw [hpos]
      rfl
  | .more key before value after rest, h, hroom => by
      obtain ⟨_, hkey, hbefore, hvalue, hafter, hrest⟩ := h
      have hroom' : front.length + 1 + done.length +
          (keyCount key + valueCount value + entriesCount rest) ≤ numTokens := hroom
      show jsmnLoop numTokens (lead key before ++ (value.write ++ (after ++ ','.toUInt8 ::
        rest.write)) ++ _) _ = _
      rw [List.append_assoc, List.append_assoc, List.append_assoc, List.cons_append,
        loop_entry (tokenises value hvalue) hkey hbefore (by omega)
          (delimited_of_blank hafter (by decide)),
        loop_blank hafter, loop_comma (show opened.grow.type = _ from hopened.type),
        loop_entries hopened.entry rest hrest ?_]
      · have hpos : pos + (lead key before).length + value.write.length + after.length + 1 +
              rest.write.length + 1 =
            pos + (Entries.more key before value after rest).write.length + 1 := by
          show _ = pos + (lead key before ++ (value.write ++ (after ++ ','.toUInt8 ::
            rest.write))).length + 1
          simp only [List.length_append, List.length_cons]
          omega
        have hindex : ∀ tokens : List JsmnToken, tokens.length = valueCount value →
            front.length + 1 + (done ++ (keyTokens front.length pos key ++ tokens)).length =
              front.length + 1 + done.length + keyCount key + valueCount value := by
          intro tokens htokens
          simp only [List.length_append, key_tokens_length, htokens]
          omega
        rw [hpos, hindex _ (value_tokens_length _ _ _ _)]
        simp only [entriesTokens, entryCount, JsmnToken.growBy, JsmnToken.grow, JsmnToken.close,
          List.append_assoc, Nat.add_assoc, Nat.add_comm 1]
      · simp only [List.length_append, key_tokens_length, value_tokens_length]
        omega

end

/-! ## Texts -/

theorem Within.closed {base index : Nat} {tokens : List JsmnToken} (h : Within base index tokens) :
    ∀ token ∈ tokens, token.stop ≠ none := by
  intro token htoken
  obtain ⟨i, hi⟩ := List.getElem?_of_mem htoken
  exact (h i token hi).1

/-- All tokens of a value have ends. -/
theorem value_tokens_closed {index pos : Nat} {parent : Option Nat} {value : Value} :
    ∀ token ∈ valueTokens index pos parent value, token.stop ≠ none := by
  intro token htoken
  cases value with
  | group bracket entries =>
      rcases List.mem_cons.mp htoken with rfl | htoken
      · exact Option.some_ne_none _
      · exact (entries_tokens_within (Nat.le_refl _) (Nat.lt_succ_self _) entries).closed
          token htoken
  | _ =>
      obtain rfl := List.mem_singleton.mp htoken
      exact Option.some_ne_none _

/-- jsmn tokenises a well-formed text that has no more tokens than there is room for. -/
theorem parse_text {numTokens : Nat} {text : Text} (h : text.WellFormed)
    (hroom : valueCount text.value ≤ numTokens) :
    jsmnParse numTokens text.write = .ok (textTokens text) := by
  have hdelimited : Delimited text.after := by
    intro c hc
    rcases h.after c (List.mem_of_mem_head? hc) with rfl | rfl | rfl | rfl <;> decide
  have hloop : jsmnLoop numTokens text.write jsmnInit =
      .ok ⟨text.write.length, none, textTokens text⟩ := by
    have hafter := @loop_blank numTokens (0 + text.before.length + text.value.write.length) []
      text.after none (textTokens text) h.after
    rw [List.append_nil] at hafter
    unfold Text.write jsmnInit
    rw [loop_blank h.before,
      tokenises text.value h.value _ _ _ _ (fun _ hsuper => (by cases hsuper))
        (by rw [List.length_nil, Nat.zero_add]; exact hroom) hdelimited]
    simp only [growSuper, List.nil_append, List.length_nil, Nat.zero_add] at hafter ⊢
    rw [show valueTokens 0 text.before.length none text.value = textTokens text from rfl, hafter,
      jsmnLoop]
    simp only [List.length_append, Nat.add_assoc]
  have hclosed : ((textTokens text).any fun token => token.stop = none) = false := by
    rw [List.any_eq_false]
    intro token htoken
    simpa using value_tokens_closed token htoken
  unfold jsmnParse
  simp only [hloop, bind, Except.bind, hclosed, Bool.false_eq_true, if_false]
  rfl

end TivaAws.Jsmn
