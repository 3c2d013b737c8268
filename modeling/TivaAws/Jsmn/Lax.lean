import TivaAws.Jsmn.Tokens

/-!
# What jsmn accepts

jsmn does not look at the order of keys, values, colons and commas, but every text that it accepts
has strings that end and brackets that match (`lax_of_parse`), up to a colon outside all brackets. A
token is counted as the parent of another one only if it is a bracket or a string or primitive with
a colon behind it (`parent_of_parse`).
-/

namespace TivaAws.Jsmn

open Json

/-! ## Lax texts -/

/-- What may stand between two quotes: control characters too, but no NUL. -/
inductive IsLaxString : List UInt8 → Prop where
  | nil : IsLaxString []
  | char {c : UInt8} {rest : List UInt8} : c ≠ 0 → c ≠ '"'.toUInt8 → c ≠ '\\'.toUInt8 →
      IsLaxString rest → IsLaxString (c :: rest)
  | escape {c : UInt8} {rest : List UInt8} : c ∈ escapable → IsLaxString rest →
      IsLaxString ('\\'.toUInt8 :: c :: rest)
  | unicode {digits rest : List UInt8} : digits.length = 4 → (∀ c ∈ digits, IsHexDigit c) →
      IsLaxString rest → IsLaxString ('\\'.toUInt8 :: 'u'.toUInt8 :: (digits ++ rest))

/-- The characters with which something else than a primitive begins. -/
def notPrimitive : List UInt8 :=
  ['{', '[', '}', ']', '"', '\t', '\r', '\n', ' ', ':', ','].map Char.toUInt8

theorem primitive_ends_not_primitive : primitiveEnds ⊆ notPrimitive := by decide +kernel

/-- A string or a primitive in front of what follows it. -/
inductive IsLeaf : List UInt8 → List UInt8 → Prop where
  | string {text : List UInt8} (later : List UInt8) : IsLaxString text → IsLeaf (quoted text) later
  | primitive {c : UInt8} {text later : List UInt8} : c ∉ notPrimitive →
      (∀ d ∈ c :: text, 32 ≤ d ∧ d < 127 ∧ d ∉ primitiveEnds) →
      (∀ d ∈ later.head?, d = 0 ∨ d ∈ primitiveEnds) → IsLeaf (c :: text) later

/-- A string from its first character to its closing quote, or a primitive. -/
inductive IsKey : List UInt8 → Prop where
  | string {text : List UInt8} : IsLaxString text → IsKey (text ++ ['"'.toUInt8])
  | primitive {text : List UInt8} : (∀ d ∈ text, 32 ≤ d ∧ d < 127 ∧ d ∉ primitiveEnds) → IsKey text

/-- What may stand between a string or primitive and the colon that makes it a key. -/
def keyGaps : List UInt8 := ['\t', '\r', '\n', ' ', ',', '}', ']'].map Char.toUInt8

/-- What stands at a position of a text is followed by a colon, with nothing between that begins
anew. -/
def IsKeyAt (text : List UInt8) (position : Nat) : Prop :=
  ∃ key gap later, text.drop position = key ++ (gap ++ ':'.toUInt8 :: later) ∧ IsKey key ∧
    ∀ c ∈ gap, c ∈ keyGaps

/-- The strings of a text end and its brackets match up to its end or a NUL, where some brackets are
open already, and there is room for its brackets, strings and primitives. Nothing is said of what
comes after a colon outside all brackets. -/
inductive LaxText : List Bracket → Nat → List UInt8 → Prop where
  | done (room : Nat) : LaxText [] room []
  | nul (room : Nat) (later : List UInt8) : LaxText [] room (0 :: later)
  | outside (room : Nat) (later : List UInt8) : LaxText [] room (':'.toUInt8 :: later)
  | colon {brackets : List Bracket} {room : Nat} {later : List UInt8} :
      LaxText brackets room later → LaxText brackets room (':'.toUInt8 :: later)
  | blank {c : UInt8} {brackets : List Bracket} {room : Nat} {later : List UInt8} :
      c ∈ ['\t', '\r', '\n', ' ', ','].map Char.toUInt8 → LaxText brackets room later →
      LaxText brackets room (c :: later)
  | opening (bracket : Bracket) {brackets : List Bracket} {room : Nat} {later : List UInt8} :
      LaxText (bracket :: brackets) room later →
      LaxText brackets (room + 1) (bracket.opening :: later)
  | closing (bracket : Bracket) {brackets : List Bracket} {room : Nat} {later : List UInt8} :
      LaxText brackets room later → LaxText (bracket :: brackets) room (bracket.closing :: later)
  | leaf {leaf : List UInt8} {brackets : List Bracket} {room : Nat} {later : List UInt8} :
      IsLeaf leaf later → LaxText brackets room later → LaxText brackets (room + 1) (leaf ++ later)

/-! ## Scanning -/

section Scanning

variable {pos stop : Nat} {js later : List UInt8}

theorem hex_digit_of_character {c : UInt8} (h : isHexCharacter c = true) : IsHexDigit c := by
  unfold isHexCharacter at h
  simp only [Bool.or_eq_true, Bool.and_eq_true, decide_eq_true_eq] at h
  rcases h with (h | h) | h
  · exact Or.inl h
  · exact Or.inr (Or.inl h)
  · exact Or.inr (Or.inr h)

/-- The hex digits that are scanned. -/
theorem scan_hex_digits {digits : Nat}
    (h : scanString (.hex (digits + 1)) pos js = .ok (stop, later)) :
    ∃ hex rest, js = hex ++ rest ∧ hex.length = digits + 1 ∧ (∀ c ∈ hex, IsHexDigit c) ∧
      scanString .plain (pos + hex.length) rest = .ok (stop, later) := by
  induction digits generalizing pos js with
  | zero =>
      cases js with
      | nil => cases h
      | cons c rest =>
          simp only [scanString] at h
          split_ifs at h with hnul hhex hone
          · refine ⟨[c], rest, rfl, rfl, ?_, h⟩
            intro d hd
            rw [List.mem_singleton.mp hd]
            exact hex_digit_of_character hhex
          · exact absurd (Nat.le_refl 1) hone
  | succ digits ih =>
      cases js with
      | nil => cases h
      | cons c rest =>
          simp only [scanString] at h
          split_ifs at h with hnul hhex hone
          · exact absurd hone (by omega)
          · obtain ⟨hex, rest', rfl, hlength, hdigits, hscan⟩ := ih h
            refine ⟨c :: hex, rest', rfl, by rw [List.length_cons, hlength], ?_, ?_⟩
            · intro d hd
              rcases List.mem_cons.mp hd with rfl | hd
              · exact hex_digit_of_character hhex
              · exact hdigits d hd
            · rw [List.length_cons, ← hscan]
              congr 1
              omega

/-- A string that is scanned to its end. -/
theorem scan_string_lax (h : scanString .plain pos js = .ok (stop, later)) :
    ∃ text, IsLaxString text ∧ js = text ++ '"'.toUInt8 :: later ∧ stop = pos + text.length := by
  induction hlength : js.length using Nat.strongRecOn generalizing js pos with
  | ind length ih =>
      subst hlength
      cases js with
      | nil => cases h
      | cons c rest =>
          simp only [scanString] at h
          split_ifs at h with hnul hquote hbackslash
          · cases h
            exact ⟨[], .nil, by rw [hquote]; rfl, rfl⟩
          · subst hbackslash
            cases rest with
            | nil => cases h
            | cons d rest =>
                simp only [scanString] at h
                split_ifs at h with hsymbol hunicode
                · obtain ⟨text, hlax, rfl, rfl⟩ := ih rest.length
                    (by simp only [List.length_cons]; omega) h rfl
                  refine ⟨_, .escape hsymbol hlax, rfl, ?_⟩
                  simp only [List.length_cons]
                  omega
                · subst hunicode
                  obtain ⟨hex, rest', rfl, hcount, hdigits, hscan⟩ := scan_hex_digits h
                  obtain ⟨text, hlax, rfl, rfl⟩ := ih rest'.length
                    (by simp only [List.length_cons, List.length_append]; omega) hscan rfl
                  refine ⟨_, .unicode hcount hdigits hlax, ?_, ?_⟩
                  · simp
                  · simp only [List.length_cons, List.length_append]
                    omega
          · obtain ⟨text, hlax, rfl, rfl⟩ := ih rest.length (by simp) h rfl
            refine ⟨_, .char hnul hquote hbackslash hlax, rfl, ?_⟩
            simp only [List.length_cons]
            omega

/-- The characters of a primitive that is scanned, and what stops it. -/
theorem scan_primitive_lax (h : scanPrimitive pos js = .ok (stop, later)) :
    ∃ text, js = text ++ later ∧ stop = pos + text.length ∧
      (∀ d ∈ text, 32 ≤ d ∧ d < 127 ∧ d ∉ primitiveEnds) ∧
      ∀ d ∈ later.head?, d = 0 ∨ d ∈ primitiveEnds := by
  induction js generalizing pos with
  | nil =>
      cases h
      exact ⟨[], rfl, rfl, fun _ hd => absurd hd List.not_mem_nil, fun _ hd => by cases hd⟩
  | cons c rest ih =>
      simp only [scanPrimitive] at h
      split_ifs at h with hends hprints
      · cases h
        refine ⟨[], rfl, rfl, fun _ hd => absurd hd List.not_mem_nil, fun d hd => ?_⟩
        cases hd
        exact hends
      · obtain ⟨text, rfl, rfl, hchars, hlater⟩ := ih h
        refine ⟨c :: text, rfl, by rw [List.length_cons]; omega, ?_, hlater⟩
        intro d hd
        rcases List.mem_cons.mp hd with rfl | hd
        · obtain ⟨hlow, hhigh⟩ := not_or.mp hprints
          exact ⟨UInt8.not_lt.mp hlow, UInt8.not_le.mp hhigh, (not_or.mp hends).2⟩
        · exact hchars d hd

end Scanning

/-! ## Steps -/

section Steps

variable {numTokens : Nat} {c : UInt8} {rest later js : List UInt8} {parser next : JsmnParser}

/-- The parser after a token has been added and counted in its parent. -/
def JsmnParser.add (token : JsmnToken) (stop : Nat) (parser : JsmnParser) : JsmnParser :=
  ⟨stop, parser.toksuper, growSuper parser.toksuper (parser.tokens ++ [token])⟩

/-- What a step does that succeeds at a character. -/
inductive StepCase (numTokens : Nat) (parser : JsmnParser) :
    List UInt8 → JsmnParser → List UInt8 → Prop where
  | blank {c : UInt8} {later : List UInt8} : c ∈ ['\t', '\r', '\n', ' '].map Char.toUInt8 →
      StepCase numTokens parser (c :: later) { parser with pos := parser.pos + 1 } later
  | colon (later : List UInt8) :
      StepCase numTokens parser (':'.toUInt8 :: later) (jsmnColon parser) later
  | comma (later : List UInt8) :
      StepCase numTokens parser (','.toUInt8 :: later) (jsmnComma parser) later
  | opening (bracket : Bracket) (later : List UInt8) : parser.tokens.length < numTokens →
      StepCase numTokens parser (bracket.opening :: later)
        { parser.add ⟨bracketType bracket, parser.pos, none, 0, parser.toksuper⟩ (parser.pos + 1)
          with toksuper := some parser.tokens.length } later
  | closing (bracket : Bracket) (later : List UInt8) {closed : JsmnParser} :
      parser.tokens.length ≠ 0 →
      closeFrom (bracketType bracket) parser (parser.tokens.length - 1) = .ok closed →
      StepCase numTokens parser (bracket.closing :: later) { closed with pos := parser.pos + 1 }
        later
  | leaf {leaf later : List UInt8} {token : JsmnToken} : parser.tokens.length < numTokens →
      IsLeaf leaf later → token.stop ≠ none → (∀ bracket, token.type ≠ bracketType bracket) →
      parser.pos ≤ token.start → token.start ≤ parser.pos + leaf.length →
      IsKey (leaf.drop (token.start - parser.pos)) → token.size = 0 →
      token.parent = parser.toksuper →
      StepCase numTokens parser (leaf ++ later) (parser.add token (parser.pos + leaf.length)) later

theorem alloc_ok {token : JsmnToken} {allocated : JsmnParser}
    (h : jsmnAllocToken numTokens token parser = .ok allocated) :
    parser.tokens.length < numTokens ∧
      allocated = { parser with tokens := parser.tokens ++ [token] } := by
  unfold jsmnAllocToken at h
  split_ifs at h with hfull
  cases h
  exact ⟨Nat.lt_of_not_le hfull, rfl⟩

theorem open_case (bracket : Bracket)
    (h : (jsmnOpen numTokens (bracketType bracket) parser).map (·, rest) = .ok (next, later)) :
    StepCase numTokens parser (bracket.opening :: rest) next later := by
  unfold jsmnOpen at h
  cases halloc : jsmnAllocToken numTokens
      ⟨bracketType bracket, parser.pos, none, 0, parser.toksuper⟩ parser with
  | error error =>
      rw [halloc] at h
      cases h
  | ok allocated =>
      rw [halloc] at h
      obtain ⟨hroom, rfl⟩ := alloc_ok halloc
      cases h
      exact .opening bracket rest hroom

theorem close_case (bracket : Bracket)
    (h : (jsmnClose (bracketType bracket) parser).map (·, rest) = .ok (next, later)) :
    StepCase numTokens parser (bracket.closing :: rest) next later := by
  unfold jsmnClose at h
  split_ifs at h with hempty
  · cases h
  · cases hclose : closeFrom (bracketType bracket) parser (parser.tokens.length - 1) with
    | error error =>
        rw [hclose] at h
        cases h
    | ok closed =>
        rw [hclose] at h
        cases h
        exact .closing bracket rest (fun hzero => hempty (by omega)) hclose

theorem string_not_bracket (bracket : Bracket) : JsmnType.string ≠ bracketType bracket := by
  cases bracket <;> decide

theorem primitive_not_bracket (bracket : Bracket) :
    JsmnType.primitive ≠ bracketType bracket := by
  cases bracket <;> decide

theorem string_case (h : jsmnParseString numTokens rest parser = .ok (next, later)) :
    StepCase numTokens parser ('"'.toUInt8 :: rest) next later := by
  unfold jsmnParseString at h
  cases hscan : scanString .plain (parser.pos + 1) rest with
  | error error =>
      rw [hscan] at h
      cases h
  | ok scanned =>
      rw [hscan] at h
      simp only [bind, Except.bind] at h
      split at h
      next => cases h
      next allocated halloc =>
        obtain ⟨hroom, rfl⟩ := alloc_ok halloc
        cases h
        obtain ⟨text, hlax, rfl, hstop⟩ := scan_string_lax hscan
        have hlength : parser.pos + (quoted text).length = scanned.1 + 1 := by
          simp only [quoted, List.length_cons, List.length_append, List.length_nil, hstop]
          omega
        have hkey : IsKey ((quoted text).drop (parser.pos + 1 - parser.pos)) := by
          rw [Nat.add_sub_cancel_left]
          exact .string hlax
        have hcase : StepCase numTokens parser (quoted text ++ scanned.2)
            (parser.add ⟨.string, parser.pos + 1, some scanned.1, 0, parser.toksuper⟩
              (parser.pos + (quoted text).length)) scanned.2 :=
          .leaf hroom (.string scanned.2 hlax) (Option.some_ne_none _) string_not_bracket
          (Nat.le_succ _) (by simp [quoted]) hkey rfl rfl
        rw [hlength] at hcase
        simpa [quoted, JsmnParser.add] using hcase

theorem primitive_case (hc : c ∉ notPrimitive) (hnul : c ≠ 0)
    (h : jsmnParsePrimitive numTokens (c :: rest) parser = .ok (next, later)) :
    StepCase numTokens parser (c :: rest) next later := by
  unfold jsmnParsePrimitive at h
  cases hscan : scanPrimitive parser.pos (c :: rest) with
  | error error =>
      rw [hscan] at h
      cases h
  | ok scanned =>
      rw [hscan] at h
      simp only [bind, Except.bind] at h
      split at h
      next => cases h
      next allocated halloc =>
        obtain ⟨hroom, rfl⟩ := alloc_ok halloc
        cases h
        obtain ⟨text, htext, hstop, hchars, hlater⟩ := scan_primitive_lax hscan
        cases text with
        | nil =>
            -- The first character would end the primitive.
            rw [List.nil_append] at htext
            rw [← htext] at hlater
            rcases hlater c rfl with hzero | hends
            · exact absurd hzero hnul
            · exact absurd (primitive_ends_not_primitive hends) hc
        | cons d text =>
            obtain ⟨rfl, rfl⟩ := List.cons_eq_cons.mp htext
            have hkey : IsKey ((c :: text).drop (parser.pos - parser.pos)) := by
              rw [Nat.sub_self]
              exact .primitive hchars
            have hcase : StepCase numTokens parser (c :: text ++ scanned.2)
                (parser.add ⟨.primitive, parser.pos, some scanned.1, 0, parser.toksuper⟩
                  (parser.pos + (c :: text).length)) scanned.2 :=
              .leaf hroom (.primitive hc hchars hlater) (Option.some_ne_none _)
                primitive_not_bracket (Nat.le_refl _) (Nat.le_add_right _ _) hkey rfl rfl
            rw [← hstop] at hcase
            exact hcase

/-- What a step does. -/
theorem step_cases (hnul : c ≠ 0) (h : jsmnStep numTokens c rest parser = .ok (next, later)) :
    StepCase numTokens parser (c :: rest) next later := by
  unfold jsmnStep at h
  split_ifs at h with hobject harray hobject' harray' hquote hblank hcolon hcomma
  · exact hobject ▸ open_case .object h
  · exact harray ▸ open_case .array h
  · exact hobject' ▸ close_case .object h
  · exact harray' ▸ close_case .array h
  · exact hquote ▸ string_case h
  · cases h
    refine .blank ?_
    simpa only [List.map_cons, List.map_nil, List.mem_cons, List.not_mem_nil, or_false] using hblank
  · cases h
    exact hcolon ▸ .colon _
  · cases h
    exact hcomma ▸ .comma _
  · refine primitive_case ?_ hnul h
    simp only [notPrimitive, List.map_cons, List.map_nil, List.mem_cons, List.not_mem_nil, or_false]
    tauto

/-- What a step that succeeds keeps, the whole loop keeps up to where it stops. -/
theorem loop_induction {P : JsmnParser → List UInt8 → Prop} {finish : JsmnParser}
    (hdone : P finish []) (hnul : ∀ later, P finish (0 :: later))
    (hstep : ∀ parser js next later, StepCase numTokens parser js next later → P next later →
      P parser js)
    (h : jsmnLoop numTokens js parser = .ok finish) : P parser js := by
  induction hlength : js.length using Nat.strongRecOn generalizing js parser with
  | ind length ih =>
      subst hlength
      cases js with
      | nil =>
          rw [jsmnLoop] at h
          cases h
          exact hdone
      | cons c rest =>
          rw [jsmnLoop] at h
          split_ifs at h with hzero
          · cases h
            exact hzero ▸ hnul rest
          · split at h
            next => cases h
            next next later hnext =>
              refine hstep parser (c :: rest) next later (step_cases hzero hnext) ?_
              exact ih later.length (Nat.lt_succ_of_le (step_length hzero hnext)) h rfl

end Steps

/-! ## Matching brackets -/

section Brackets

variable {numTokens pos index k : Nat} {toksuper : Option Nat} {tokens tokens' : List JsmnToken}
  {stack : List (Nat × Bracket)} {bracket : Bracket} {type : JsmnType} {token : JsmnToken}
  {parser closed : JsmnParser} {js : List UInt8}

/-- A token without its count. -/
def JsmnToken.shape (token : JsmnToken) : JsmnToken := { token with size := 0 }

/-- The brackets that are open, with their tokens, innermost first. From every token behind an open
one the parents lead to it, and so does the next parent. -/
structure Brackets (toksuper : Option Nat) (tokens : List JsmnToken)
    (stack : List (Nat × Bracket)) : Prop where
  opened : ∀ entry ∈ stack, ∃ token, tokens[entry.1]? = some token ∧ token.stop = none ∧
    token.type = bracketType entry.2
  all : ∀ k token, tokens[k]? = some token → token.stop = none → ∃ entry ∈ stack, entry.1 = k
  sorted : stack.Pairwise fun inner outer => outer.1 < inner.1
  parents : ∀ i token, tokens[i]? = some token → ∀ entry ∈ stack, entry.1 < i →
    ∃ parent, token.parent = some parent ∧ entry.1 ≤ parent
  super : ∀ entry ∈ stack, ∃ super, toksuper = some super ∧ entry.1 ≤ super
  outermost : ∀ entry, stack.getLast? = some entry → ∀ token, tokens[entry.1]? = some token →
    token.parent = none
  outside : stack = [] → toksuper = none

theorem Brackets.lt (h : Brackets toksuper tokens stack) {entry : Nat × Bracket}
    (hmem : entry ∈ stack) : entry.1 < tokens.length := by
  obtain ⟨token, htoken, -⟩ := h.opened entry hmem
  exact (List.getElem?_eq_some_iff.mp htoken).1

/-- The counts do not matter. -/
theorem Brackets.congr (h : Brackets toksuper tokens stack)
    (hshape : ∀ i : Nat, tokens'[i]?.map JsmnToken.shape = tokens[i]?.map JsmnToken.shape) :
    Brackets toksuper tokens' stack := by
  have hback : ∀ (i : Nat) (token' : JsmnToken), tokens'[i]? = some token' →
      ∃ token, tokens[i]? = some token ∧ token.shape = token'.shape := by
    intro i token' htoken'
    have hsame := hshape i
    rw [htoken', Option.map_some] at hsame
    obtain ⟨token, htoken, heq⟩ := Option.map_eq_some_iff.mp hsame.symm
    exact ⟨token, htoken, heq⟩
  have hforth : ∀ (i : Nat) (token : JsmnToken), tokens[i]? = some token →
      ∃ token', tokens'[i]? = some token' ∧ token'.shape = token.shape := by
    intro i token htoken
    have hsame := hshape i
    rw [htoken, Option.map_some] at hsame
    obtain ⟨token', htoken', heq⟩ := Option.map_eq_some_iff.mp hsame
    exact ⟨token', htoken', heq⟩
  refine ⟨?_, ?_, h.sorted, ?_, h.super, ?_, h.outside⟩
  · intro entry hmem
    obtain ⟨token, htoken, hstop, htype⟩ := h.opened entry hmem
    obtain ⟨token', htoken', hsame⟩ := hforth _ token htoken
    exact ⟨token', htoken', (congrArg JsmnToken.stop hsame).trans hstop,
      (congrArg JsmnToken.type hsame).trans htype⟩
  · intro k token' htoken' hstop
    obtain ⟨token, htoken, hsame⟩ := hback k token' htoken'
    exact h.all k token htoken ((congrArg JsmnToken.stop hsame).trans hstop)
  · intro i token' htoken' entry hmem hlt
    obtain ⟨token, htoken, hsame⟩ := hback i token' htoken'
    obtain ⟨parent, hparent, hle⟩ := h.parents i token htoken entry hmem hlt
    exact ⟨parent, ((congrArg JsmnToken.parent hsame).symm).trans hparent, hle⟩
  · intro entry hlast token' htoken'
    obtain ⟨token, htoken, hsame⟩ := hback _ token' htoken'
    exact ((congrArg JsmnToken.parent hsame).symm).trans (h.outermost entry hlast token htoken)

theorem grow_super_shape (toksuper : Option Nat) (tokens : List JsmnToken) (i : Nat) :
    (growSuper toksuper tokens)[i]?.map JsmnToken.shape = tokens[i]?.map JsmnToken.shape := by
  cases toksuper with
  | none => rfl
  | some super =>
      unfold growSuper
      rw [List.getElem?_modify]
      cases tokens[i]? with
      | none => rfl
      | some token =>
          split_ifs
          · rfl
          · rfl

theorem get_added {found : JsmnToken} {i : Nat} (h : (tokens ++ [token])[i]? = some found) :
    tokens[i]? = some found ∨ i = tokens.length ∧ found = token := by
  rw [List.getElem?_append] at h
  split_ifs at h with hlt
  · exact Or.inl h
  · rw [List.getElem?_singleton] at h
    split_ifs at h with hzero
    cases h
    exact Or.inr ⟨by omega, rfl⟩

/-- A token that is complete leaves the brackets as they are. -/
theorem Brackets.leaf (h : Brackets toksuper tokens stack) (hstop : token.stop ≠ none)
    (hparent : token.parent = toksuper) : Brackets toksuper (tokens ++ [token]) stack := by
  refine ⟨?_, ?_, h.sorted, ?_, h.super, ?_, h.outside⟩
  · intro entry hmem
    obtain ⟨found, hfound, hrest⟩ := h.opened entry hmem
    exact ⟨found, by rw [List.getElem?_append_left (h.lt hmem), hfound], hrest⟩
  · intro k found hfound hopen
    rcases get_added hfound with hfound | ⟨-, rfl⟩
    · exact h.all k found hfound hopen
    · exact absurd hopen hstop
  · intro i found hfound entry hmem hlt
    rcases get_added hfound with hfound | ⟨rfl, rfl⟩
    · exact h.parents i found hfound entry hmem hlt
    · rw [hparent]
      exact h.super entry hmem
  · intro entry hlast found hfound
    rcases get_added hfound with hfound | ⟨heq, -⟩
    · exact h.outermost entry hlast found hfound
    · exact absurd heq (Nat.ne_of_lt (h.lt (List.mem_of_getLast? hlast)))

/-- An opening bracket is the innermost one. -/
theorem Brackets.opening (h : Brackets toksuper tokens stack) (hstop : token.stop = none)
    (htype : token.type = bracketType bracket) (hparent : token.parent = toksuper) :
    Brackets (some tokens.length) (tokens ++ [token]) ((tokens.length, bracket) :: stack) := by
  have hlength : ∀ {i found}, tokens[i]? = some found → i < tokens.length :=
    fun hfound => (List.getElem?_eq_some_iff.mp hfound).1
  refine ⟨?_, ?_, ?_, ?_, ?_, ?_, fun habsurd => by cases habsurd⟩
  · intro entry hmem
    rcases List.mem_cons.mp hmem with rfl | hmem
    · exact ⟨token, by simp, hstop, htype⟩
    · obtain ⟨found, hfound, hrest⟩ := h.opened entry hmem
      exact ⟨found, by rw [List.getElem?_append_left (h.lt hmem), hfound], hrest⟩
  · intro k found hfound hopen
    rcases get_added hfound with hfound | ⟨rfl, -⟩
    · obtain ⟨entry, hmem, heq⟩ := h.all k found hfound hopen
      exact ⟨entry, List.mem_cons_of_mem _ hmem, heq⟩
    · exact ⟨_, List.mem_cons_self, rfl⟩
  · exact List.pairwise_cons.mpr ⟨fun entry hmem => h.lt hmem, h.sorted⟩
  · intro i found hfound entry hmem hlt
    rcases List.mem_cons.mp hmem with rfl | hmem
    · rcases get_added hfound with hfound | ⟨rfl, -⟩
      · exact absurd (hlength hfound) (Nat.lt_asymm hlt)
      · exact absurd hlt (Nat.lt_irrefl _)
    · rcases get_added hfound with hfound | ⟨rfl, rfl⟩
      · exact h.parents i found hfound entry hmem hlt
      · rw [hparent]
        exact h.super entry hmem
  · intro entry hmem
    refine ⟨tokens.length, rfl, ?_⟩
    rcases List.mem_cons.mp hmem with rfl | hmem
    · exact Nat.le_refl _
    · exact Nat.le_of_lt (h.lt hmem)
  · intro entry hlast found hfound
    cases stack with
    | nil =>
        cases hlast
        rcases get_added hfound with hfound | ⟨-, rfl⟩
        · exact absurd (hlength hfound) (Nat.lt_irrefl _)
        · rw [hparent]
          exact h.outside rfl
    | cons inner rest =>
        rw [List.getLast?_cons_cons] at hlast
        rcases get_added hfound with hfound | ⟨heq, -⟩
        · exact h.outermost entry hlast found hfound
        · exact absurd heq (Nat.ne_of_lt (h.lt (List.mem_of_getLast? hlast)))

/-- Within brackets a colon makes the last token the next parent. -/
theorem Brackets.colon (h : Brackets parser.toksuper parser.tokens stack) (hne : stack ≠ []) :
    Brackets (jsmnColon parser).toksuper (jsmnColon parser).tokens stack := by
  refine ⟨h.opened, h.all, h.sorted, h.parents, ?_, h.outermost, fun habsurd => absurd habsurd hne⟩
  intro entry hmem
  have hlt := h.lt hmem
  refine ⟨parser.tokens.length - 1, if_neg (by omega), by omega⟩

/-- A comma leads to the parent of a key, which is within the same brackets. -/
theorem Brackets.comma (h : Brackets parser.toksuper parser.tokens stack) :
    Brackets (jsmnComma parser).toksuper (jsmnComma parser).tokens stack := by
  refine ⟨h.opened, h.all, h.sorted, h.parents, ?_, h.outermost, ?_⟩
  · intro entry hmem
    obtain ⟨super, hsuper, hle⟩ := h.super entry hmem
    unfold jsmnComma
    rw [hsuper]
    simp only [Option.bind_some]
    cases htoken : parser.tokens[super]? with
    | none => exact ⟨super, rfl, hle⟩
    | some token =>
        simp only
        split_ifs with hkey
        · refine h.parents super token htoken entry hmem (Nat.lt_of_le_of_ne hle fun heq => ?_)
          obtain ⟨found, hfound, -, htype⟩ := h.opened entry hmem
          rw [heq, htoken, Option.some.injEq] at hfound
          rw [hfound, htype] at hkey
          cases hbracket : entry.2 with
          | array => exact hkey.1 (by rw [hbracket]; rfl)
          | object => exact hkey.2 (by rw [hbracket]; rfl)
        · exact ⟨super, rfl, hle⟩
  · intro hnil
    unfold jsmnComma
    rw [h.outside hnil]
    rfl

/-- From a token behind the innermost bracket a closing one finds it. -/
theorem Brackets.close_from (h : Brackets parser.toksuper parser.tokens ((k, bracket) :: stack))
    (hle : k ≤ index) (hclose : closeFrom type parser index = .ok closed) :
    type = bracketType bracket ∧ ∃ token, parser.tokens[k]? = some token ∧
      closed = { parser with
        toksuper := token.parent
        tokens := parser.tokens.set k { token with stop := some (parser.pos + 1) } } := by
  induction index using Nat.strongRecOn with
  | ind index ih =>
      rw [closeFrom] at hclose
      obtain ⟨opened, hopened, hopen, htype⟩ := h.opened _ List.mem_cons_self
      cases htoken : parser.tokens[index]? with
      | none =>
          rw [htoken] at hclose
          cases hclose
      | some token =>
          rw [htoken] at hclose
          simp only at hclose
          -- The search ends at the innermost open token and passes the closed ones by their
          -- parents.
          by_cases hstop : token.stop = none
          · rw [if_pos hstop] at hclose
            obtain ⟨entry, hmem, heq⟩ := h.all index token htoken hstop
            have hinnermost : index = k := by
              rcases List.mem_cons.mp hmem with rfl | hmem
              · exact heq.symm
              · have hlt := (List.pairwise_cons.mp h.sorted).1 entry hmem
                simp only at hlt
                omega
            subst hinnermost
            rw [htoken, Option.some.injEq] at hopened
            subst hopened
            split_ifs at hclose with hsame
            cases hclose
            exact ⟨(not_not.mp hsame).symm.trans htype, token, htoken, rfl⟩
          · rw [if_neg hstop] at hclose
            have hne : k ≠ index := by
              rintro rfl
              rw [htoken, Option.some.injEq] at hopened
              exact hstop (hopened ▸ hopen)
            obtain ⟨parent, hparent, hbase⟩ := h.parents index token htoken _ List.mem_cons_self
              (Nat.lt_of_le_of_ne hle hne)
            rw [hparent] at hclose
            simp only at hclose
            split_ifs at hclose with hlt
            exact ih parent hlt hbase hclose

/-- Outside all brackets a closing one fails. -/
theorem Brackets.close_outside (h : Brackets parser.toksuper parser.tokens []) :
    closeFrom type parser index ≠ .ok closed := by
  induction index using Nat.strongRecOn with
  | ind index ih =>
      intro hclose
      rw [closeFrom] at hclose
      cases htoken : parser.tokens[index]? with
      | none =>
          rw [htoken] at hclose
          cases hclose
      | some token =>
          rw [htoken] at hclose
          simp only at hclose
          by_cases hstop : token.stop = none
          · obtain ⟨entry, hmem, -⟩ := h.all index token htoken hstop
            exact absurd hmem List.not_mem_nil
          · rw [if_neg hstop] at hclose
            cases hparent : token.parent with
            | none =>
                rw [hparent] at hclose
                simp only [h.outside rfl, or_true, if_true] at hclose
                cases hclose
            | some parent =>
                rw [hparent] at hclose
                simp only at hclose
                split_ifs at hclose with hlt
                exact ih parent hlt hclose

/-- Closing the innermost bracket. -/
theorem Brackets.closing (h : Brackets toksuper tokens ((k, bracket) :: stack))
    (htoken : tokens[k]? = some token) (stop : Nat) :
    Brackets token.parent (tokens.set k { token with stop := some stop }) stack := by
  have hne : ∀ entry ∈ stack, entry.1 < k := (List.pairwise_cons.mp h.sorted).1
  have hlt : k < tokens.length := (List.getElem?_eq_some_iff.mp htoken).1
  -- The closed token is the only one that has changed.
  have hcases : ∀ i found, (tokens.set k { token with stop := some stop })[i]? = some found →
      ∃ before, tokens[i]? = some before ∧ found.parent = before.parent ∧
        (found.stop = none → before.stop = none ∧ i ≠ k) := by
    intro i found hfound
    rw [List.getElem?_set] at hfound
    split_ifs at hfound with hk
    · cases hfound
      exact ⟨token, hk ▸ htoken, rfl, fun habsurd => by cases habsurd⟩
    · exact ⟨found, hfound, rfl, fun hstop => ⟨hstop, Ne.symm hk⟩⟩
  refine ⟨?_, ?_, (List.pairwise_cons.mp h.sorted).2, ?_, ?_, ?_, ?_⟩
  · intro entry hmem
    obtain ⟨found, hfound, hrest⟩ := h.opened entry (List.mem_cons_of_mem _ hmem)
    refine ⟨found, ?_, hrest⟩
    rw [List.getElem?_set_ne (Nat.ne_of_gt (hne entry hmem)), hfound]
  · intro i found hfound hopen
    obtain ⟨before, hbefore, -, hstop⟩ := hcases i found hfound
    obtain ⟨hopen', hother⟩ := hstop hopen
    obtain ⟨entry, hmem, heq⟩ := h.all i before hbefore hopen'
    rcases List.mem_cons.mp hmem with rfl | hmem
    · exact absurd heq.symm hother
    · exact ⟨entry, hmem, heq⟩
  · intro i found hfound entry hmem hi
    obtain ⟨before, hbefore, hparent, -⟩ := hcases i found hfound
    rw [hparent]
    exact h.parents i before hbefore entry (List.mem_cons_of_mem _ hmem) hi
  · intro entry hmem
    exact h.parents k token htoken entry (List.mem_cons_of_mem _ hmem) (hne entry hmem)
  · intro entry hlast found hfound
    obtain ⟨before, hbefore, hparent, -⟩ := hcases _ found hfound
    rw [hparent]
    refine h.outermost entry ?_ before hbefore
    cases stack with
    | nil => cases hlast
    | cons inner rest =>
        rw [List.getLast?_cons_cons]
        exact hlast
  · intro hnil
    subst hnil
    exact h.outermost _ rfl token htoken

/-- A token that is added and counted in its parent. -/
theorem Brackets.add_leaf (h : Brackets parser.toksuper parser.tokens stack)
    (hstop : token.stop ≠ none) (hparent : token.parent = parser.toksuper) (stop : Nat) :
    Brackets (parser.add token stop).toksuper (parser.add token stop).tokens stack :=
  (h.leaf hstop hparent).congr (grow_super_shape _ _)

/-- A token that is added takes one of the places that are left. -/
theorem add_room (token : JsmnToken) (stop : Nat) (h : parser.tokens.length < numTokens) :
    numTokens - parser.tokens.length =
      numTokens - (parser.add token stop).tokens.length + 1 := by
  have hlength : (parser.add token stop).tokens.length = parser.tokens.length + 1 := by
    unfold JsmnParser.add growSuper
    cases parser.toksuper with
    | none => exact List.length_append
    | some super => exact (List.length_modify ..).trans List.length_append
  omega

/-- The characters that are left close the brackets that are open, and there is room for their
tokens. -/
theorem lax_of_loop {finish : JsmnParser} (h : jsmnLoop numTokens js parser = .ok finish)
    (hclosed : ∀ token ∈ finish.tokens, token.stop ≠ none)
    (hbrackets : Brackets parser.toksuper parser.tokens stack) :
    LaxText (stack.map Prod.snd) (numTokens - parser.tokens.length) js := by
  have hfinish : ∀ {stack}, Brackets finish.toksuper finish.tokens stack → stack = [] := by
    intro stack hbrackets
    refine List.eq_nil_iff_forall_not_mem.mpr fun entry hmem => ?_
    obtain ⟨token, htoken, hopen, -⟩ := hbrackets.opened entry hmem
    exact hclosed token (List.mem_of_getElem? htoken) hopen
  -- The loop ends only with all brackets closed, so what is on the stack has to be closed by the
  -- text that is left.
  revert stack
  refine loop_induction (P := fun parser js => ∀ {stack : List (Nat × Bracket)},
    Brackets parser.toksuper parser.tokens stack →
      LaxText (stack.map Prod.snd) (numTokens - parser.tokens.length) js) ?_ ?_ ?_ h
  · intro stack hbrackets
    rw [hfinish hbrackets]
    exact .done _
  · intro later stack hbrackets
    rw [hfinish hbrackets]
    exact .nul _ later
  · intro parser js next later hcase ih stack hbrackets
    cases hcase with
    | blank hblank =>
        refine .blank ?_ (ih hbrackets)
        simp only [List.map_cons, List.map_nil, List.mem_cons, List.not_mem_nil, or_false]
          at hblank ⊢
        tauto
    | comma => exact .blank (by decide) (ih hbrackets.comma)
    | colon later =>
        -- Behind a colon outside all brackets `toksuper` points to a token that is no open bracket.
        by_cases hstack : stack = []
        · rw [hstack]
          exact .outside _ later
        · exact .colon (ih (hbrackets.colon hstack))
    | opening bracket later hroom =>
        rw [add_room ⟨bracketType bracket, parser.pos, none, 0, parser.toksuper⟩ (parser.pos + 1)
          hroom]
        exact .opening bracket
          (ih ((hbrackets.opening rfl rfl rfl).congr (grow_super_shape _ _)))
    | closing bracket later hlength hclose =>
        cases stack with
        | nil => exact absurd hclose hbrackets.close_outside
        | cons entry rest =>
            obtain ⟨k, inner⟩ := entry
            have hlt := hbrackets.lt List.mem_cons_self
            simp only at hlt
            obtain ⟨htype, token, htoken, rfl⟩ := hbrackets.close_from (by omega) hclose
            have hsame : bracket = inner := by
              revert htype
              cases bracket <;> cases inner <;> simp [bracketType]
            subst hsame
            have hclosed := ih (hbrackets.closing htoken _)
            simp only [List.length_set] at hclosed
            exact .closing bracket hclosed
    | @leaf leaf later token hroom hleaf hstop _ _ _ _ _ hparent =>
        rw [add_room token (parser.pos + leaf.length) hroom]
        exact .leaf hleaf (ih (hbrackets.add_leaf hstop hparent _))

/-- What jsmn accepts is lax. -/
theorem lax_of_parse (h : jsmnParse numTokens js = .ok tokens) : LaxText [] numTokens js := by
  unfold jsmnParse at h
  cases hloop : jsmnLoop numTokens js jsmnInit with
  | error error =>
      rw [hloop] at h
      cases h
  | ok finish =>
      rw [hloop] at h
      simp only [bind, Except.bind] at h
      split_ifs at h with hopen
      have hbegun : Brackets jsmnInit.toksuper jsmnInit.tokens [] := by
        refine ⟨?_, ?_, .nil, ?_, ?_, ?_, fun _ => rfl⟩
        · exact fun _ habsurd => absurd habsurd List.not_mem_nil
        · exact fun _ _ habsurd => by cases habsurd
        · exact fun _ _ _ _ habsurd => absurd habsurd List.not_mem_nil
        · exact fun _ habsurd => absurd habsurd List.not_mem_nil
        · exact fun _ habsurd => by cases habsurd
      refine lax_of_loop hloop (fun token hmem habsurd => hopen ?_) hbegun
      exact List.any_eq_true.mpr ⟨token, hmem, decide_eq_true habsurd⟩

end Brackets

/-! ## Parents -/

section Parents

variable {numTokens pos start : Nat} {text js : List UInt8} {toksuper : Option Nat}
  {tokens : List JsmnToken} {token : JsmnToken} {parser : JsmnParser}

/-- A bracket or a key stands at a position. -/
def IsParentAt (text : List UInt8) (start : Nat) : Prop :=
  (∃ bracket : Bracket, text[start]? = some bracket.opening) ∨ IsKeyAt text start

/-- There may still be a colon for the string or primitive that begins at a position. -/
def KeyBegun (text : List UInt8) (pos start : Nat) : Prop :=
  IsParentAt text start ∨
    ∃ key gap, text.drop start = key ++ (gap ++ text.drop pos) ∧ IsKey key ∧ ∀ c ∈ gap, c ∈ keyGaps

theorem drop_succ_of_get {c : UInt8} (h : text[pos]? = some c) :
    text.drop pos = c :: text.drop (pos + 1) := by
  obtain ⟨hlt, rfl⟩ := List.getElem?_eq_some_iff.mp h
  exact List.drop_eq_getElem_cons hlt

/-- A gap goes on. -/
theorem KeyBegun.gap {c : UInt8} (h : KeyBegun text pos start) (hget : text[pos]? = some c)
    (hc : c ∈ keyGaps) : KeyBegun text (pos + 1) start := by
  rcases h with hparent | ⟨key, gap, hdrop, hkey, hgap⟩
  · exact Or.inl hparent
  · refine Or.inr ⟨key, gap ++ [c], ?_, hkey, ?_⟩
    · rw [hdrop, drop_succ_of_get hget, List.append_assoc gap]
      rfl
    · intro d hd
      rcases List.mem_append.mp hd with hd | hd
      · exact hgap d hd
      · exact List.mem_singleton.mp hd ▸ hc

/-- The colon makes a key. -/
theorem KeyBegun.colon (h : KeyBegun text pos start) (hget : text[pos]? = some ':'.toUInt8) :
    IsParentAt text start := by
  rcases h with hparent | ⟨key, gap, hdrop, hkey, hgap⟩
  · exact hparent
  · exact Or.inr ⟨key, gap, text.drop (pos + 1), by rw [hdrop, drop_succ_of_get hget], hkey, hgap⟩

/-- The tokens that are parents are brackets or keys, and the last token may be one. -/
structure Parents (text : List UInt8) (pos : Nat) (toksuper : Option Nat)
    (tokens : List JsmnToken) : Prop where
  starts : ∀ token ∈ tokens, token.start ≤ text.length
  super : ∀ super, toksuper = some super →
    ∃ token, tokens[super]? = some token ∧ IsParentAt text token.start
  parents : ∀ token ∈ tokens, ∀ parent, token.parent = some parent →
    ∃ token, tokens[parent]? = some token ∧ IsParentAt text token.start
  sizes : ∀ token ∈ tokens, token.size ≠ 0 → IsParentAt text token.start
  last : ∀ token, tokens.getLast? = some token → KeyBegun text pos token.start

/-- A character that belongs to a gap. -/
theorem Parents.gap {c : UInt8} (h : Parents text pos toksuper tokens) (hget : text[pos]? = some c)
    (hc : c ∈ keyGaps) : Parents text (pos + 1) toksuper tokens :=
  ⟨h.starts, h.super, h.parents, h.sizes, fun token hlast => (h.last token hlast).gap hget hc⟩

/-- A token is added. -/
theorem Parents.append (pos' : Nat) (h : Parents text pos toksuper tokens)
    (hstart : token.start ≤ text.length) (hbegun : KeyBegun text pos' token.start)
    (hsize : token.size = 0) (hparent : token.parent = toksuper) :
    Parents text pos' toksuper (tokens ++ [token]) := by
  have hkept : ∀ {i : Nat} {P : JsmnToken → Prop},
      (∃ found, tokens[i]? = some found ∧ P found) →
      ∃ found, (tokens ++ [token])[i]? = some found ∧ P found := by
    rintro i P ⟨found, hfound, hholds⟩
    have hlt := (List.getElem?_eq_some_iff.mp hfound).1
    exact ⟨found, by rw [List.getElem?_append_left hlt, hfound], hholds⟩
  refine ⟨?_, fun super hsuper => hkept (h.super super hsuper), ?_, ?_, ?_⟩
  · intro other hmem
    rcases List.mem_append.mp hmem with hmem | hmem
    · exact h.starts other hmem
    · rw [List.mem_singleton.mp hmem]
      exact hstart
  · intro other hmem parent hother
    rcases List.mem_append.mp hmem with hmem | hmem
    · exact hkept (h.parents other hmem parent hother)
    · rw [List.mem_singleton.mp hmem, hparent] at hother
      exact hkept (h.super parent hother)
  · intro other hmem hother
    rcases List.mem_append.mp hmem with hmem | hmem
    · exact h.sizes other hmem hother
    · rw [List.mem_singleton.mp hmem] at hother
      exact absurd hsize hother
  · intro other hlast
    rw [List.getLast?_concat, Option.some.injEq] at hlast
    exact hlast ▸ hbegun

/-- Tokens that have changed in their ends and counts only. -/
theorem Parents.changed {tokens' : List JsmnToken} (h : Parents text pos toksuper tokens)
    (hsame : ∀ (i : Nat) (token' : JsmnToken), tokens'[i]? = some token' → ∃ token : JsmnToken,
      tokens[i]? = some token ∧ token'.start = token.start ∧ token'.parent = token.parent ∧
      (token'.size ≠ 0 → token.size ≠ 0 ∨ IsParentAt text token.start))
    (hlength : tokens'.length = tokens.length) : Parents text pos toksuper tokens' := by
  have hkept : ∀ {i : Nat},
      (∃ found, tokens[i]? = some found ∧ IsParentAt text found.start) →
      ∃ found, tokens'[i]? = some found ∧ IsParentAt text found.start := by
    rintro i ⟨found, hfound, hholds⟩
    have hlt : i < tokens'.length := hlength ▸ (List.getElem?_eq_some_iff.mp hfound).1
    obtain ⟨before, hbefore, hstart, -⟩ := hsame i _ (List.getElem?_eq_getElem hlt)
    rw [hfound, Option.some.injEq] at hbefore
    subst hbefore
    exact ⟨_, List.getElem?_eq_getElem hlt, hstart ▸ hholds⟩
  have hback : ∀ token' ∈ tokens', ∃ token ∈ tokens, token'.start = token.start ∧
      token'.parent = token.parent ∧
      (token'.size ≠ 0 → token.size ≠ 0 ∨ IsParentAt text token.start) := by
    intro token' hmem
    obtain ⟨i, hi⟩ := List.getElem?_of_mem hmem
    obtain ⟨token, htoken, hrest⟩ := hsame i token' hi
    exact ⟨token, List.mem_of_getElem? htoken, hrest⟩
  refine ⟨?_, fun super hsuper => hkept (h.super super hsuper), ?_, ?_, ?_⟩
  · intro token' hmem
    obtain ⟨token, htoken, hstart, -⟩ := hback token' hmem
    exact hstart ▸ h.starts token htoken
  · intro token' hmem parent hparent
    obtain ⟨token, htoken, -, hsameParent, -⟩ := hback token' hmem
    exact hkept (h.parents token htoken parent (hsameParent ▸ hparent))
  · intro token' hmem hsize
    obtain ⟨token, htoken, hstart, -, hsizes⟩ := hback token' hmem
    rw [hstart]
    exact (hsizes hsize).elim (h.sizes token htoken) id
  · intro token' hlast
    rw [List.getLast?_eq_getElem?, hlength] at hlast
    obtain ⟨token, htoken, hstart, -⟩ := hsame _ token' hlast
    rw [hstart]
    exact h.last token (by rw [List.getLast?_eq_getElem?, htoken])

/-- A token is counted in the next parent. -/
theorem Parents.grow (h : Parents text pos toksuper tokens) :
    Parents text pos toksuper (growSuper toksuper tokens) := by
  cases toksuper with
  | none => exact h
  | some super =>
      refine h.changed ?_ (List.length_modify _ _ _)
      intro i token' htoken'
      unfold growSuper at htoken'
      rw [List.getElem?_modify] at htoken'
      obtain ⟨token, htoken, rfl⟩ := Option.map_eq_some_iff.mp htoken'
      refine ⟨token, htoken, ?_⟩
      split_ifs with hi
      · refine ⟨rfl, rfl, fun _ => Or.inr ?_⟩
        obtain ⟨found, hfound, hparent⟩ := h.super super rfl
        rw [hi, htoken, Option.some.injEq] at hfound
        exact hfound ▸ hparent
      · exact ⟨rfl, rfl, Or.inl⟩

/-- A closing bracket leaves the parser alone, or it closes a token, whose parent is the next. -/
theorem close_from_cases {type : JsmnType} {index : Nat} {closed : JsmnParser}
    (h : closeFrom type parser index = .ok closed) : closed = parser ∨
      ∃ (k : Nat) (token : JsmnToken), parser.tokens[k]? = some token ∧
        closed = { parser with
          toksuper := token.parent
          tokens := parser.tokens.set k { token with stop := some (parser.pos + 1) } } := by
  induction index using Nat.strongRecOn with
  | ind index ih =>
      rw [closeFrom] at h
      split at h
      next => cases h
      next token htoken =>
        by_cases hstop : token.stop = none
        · rw [if_pos hstop] at h
          split_ifs at h
          cases h
          exact Or.inr ⟨index, token, htoken, rfl⟩
        · rw [if_neg hstop] at h
          split at h
          next =>
            split_ifs at h
            cases h
            exact Or.inl rfl
          next parent _ =>
            split_ifs at h with hlt
            exact ih parent hlt h

theorem Parents.closed {type : JsmnType} {index : Nat} {closed : JsmnParser}
    (h : Parents text pos parser.toksuper parser.tokens)
    (hclose : closeFrom type parser index = .ok closed) :
    Parents text pos closed.toksuper closed.tokens := by
  rcases close_from_cases hclose with rfl | ⟨k, token, htoken, rfl⟩
  · exact h
  · have hnext : Parents text pos token.parent parser.tokens :=
      ⟨h.starts, h.parents token (List.mem_of_getElem? htoken), h.parents, h.sizes, h.last⟩
    refine hnext.changed ?_ (List.length_set ..)
    intro i token' htoken'
    rw [List.getElem?_set] at htoken'
    split_ifs at htoken' with hk
    · cases htoken'
      exact ⟨token, hk ▸ htoken, rfl, rfl, Or.inl⟩
    · exact ⟨token', htoken', rfl, rfl, Or.inl⟩

/-- After a colon the last token is a parent. -/
theorem Parents.colon (h : Parents text parser.pos parser.toksuper parser.tokens)
    (hcolon : text[parser.pos]? = some ':'.toUInt8) :
    Parents text (parser.pos + 1) (jsmnColon parser).toksuper (jsmnColon parser).tokens := by
  refine ⟨h.starts, ?_, h.parents, h.sizes, fun token hlast => Or.inl ?_⟩
  · intro super hsuper
    unfold jsmnColon at hsuper
    simp only at hsuper
    split_ifs at hsuper with hempty
    cases hsuper
    have hlt : parser.tokens.length - 1 < parser.tokens.length := by omega
    refine ⟨parser.tokens[parser.tokens.length - 1], List.getElem?_eq_getElem hlt, ?_⟩
    refine (h.last _ ?_).colon hcolon
    rw [List.getLast?_eq_getElem?, List.getElem?_eq_getElem hlt]
  · exact (h.last token hlast).colon hcolon

theorem Parents.comma (h : Parents text pos parser.toksuper parser.tokens) :
    Parents text pos (jsmnComma parser).toksuper (jsmnComma parser).tokens := by
  refine ⟨h.starts, ?_, h.parents, h.sizes, h.last⟩
  intro super hsuper
  obtain ⟨old, hold, hnext⟩ := Option.bind_eq_some_iff.mp hsuper
  split at hnext
  next token htoken =>
    split_ifs at hnext
    · exact h.parents token (List.mem_of_getElem? htoken) super hnext
    · exact h.super super (hnext ▸ hold)
  next => exact h.super super (hnext ▸ hold)

/-- An opening bracket is the next parent. -/
theorem Parents.opening {bracket : Bracket}
    (h : Parents text parser.pos parser.toksuper parser.tokens)
    (hbracket : text[parser.pos]? = some bracket.opening) :
    Parents text (parser.pos + 1) (some parser.tokens.length)
      (parser.add ⟨bracketType bracket, parser.pos, none, 0, parser.toksuper⟩
        (parser.pos + 1)).tokens := by
  have hparent : IsParentAt text parser.pos := Or.inl ⟨bracket, hbracket⟩
  have hle : parser.pos ≤ text.length :=
    Nat.le_of_lt (List.getElem?_eq_some_iff.mp hbracket).1
  have happended : Parents text (parser.pos + 1) parser.toksuper (parser.tokens ++
      [⟨bracketType bracket, parser.pos, none, 0, parser.toksuper⟩]) :=
    h.append (parser.pos + 1) hle (Or.inl hparent) rfl rfl
  have hadded := happended.grow
  refine ⟨hadded.starts, ?_, hadded.parents, hadded.sizes, hadded.last⟩
  intro super hsuper
  obtain rfl := Option.some.inj hsuper
  have hshape := grow_super_shape parser.toksuper (parser.tokens ++
    [⟨bracketType bracket, parser.pos, none, 0, parser.toksuper⟩]) parser.tokens.length
  rw [List.getElem?_concat_length, Option.map_some] at hshape
  obtain ⟨token, htoken, hsame⟩ := Option.map_eq_some_iff.mp hshape
  have hstart : token.start = parser.pos := congrArg JsmnToken.start hsame
  exact ⟨token, htoken, hstart ▸ hparent⟩

/-- A string or primitive may turn out to be a key. -/
theorem Parents.leaf {leaf later : List UInt8}
    (h : Parents text parser.pos parser.toksuper parser.tokens)
    (hdrop : text.drop parser.pos = leaf ++ later) (hle : parser.pos + leaf.length ≤ text.length)
    (hbegins : parser.pos ≤ token.start) (hstart : token.start ≤ parser.pos + leaf.length)
    (hkey : IsKey (leaf.drop (token.start - parser.pos))) (hsize : token.size = 0)
    (hparent : token.parent = parser.toksuper) :
    Parents text (parser.pos + leaf.length) (parser.add token (parser.pos + leaf.length)).toksuper
      (parser.add token (parser.pos + leaf.length)).tokens := by
  have hlater : text.drop (parser.pos + leaf.length) = later := by
    rw [← List.drop_drop, hdrop, List.drop_left]
  refine (h.append _ (Nat.le_trans hstart hle) (Or.inr ⟨_, [], ?_, hkey, ?_⟩) hsize hparent).grow
  · rw [hlater, List.nil_append, ← List.drop_append_of_le_length (by omega), ← hdrop,
      List.drop_drop]
    congr 1
    omega
  · exact fun _ habsurd => absurd habsurd List.not_mem_nil

/-- A token that counts others is a bracket or a key, and it begins in the text. -/
theorem parent_of_parse (h : jsmnParse numTokens text = .ok tokens) :
    ∀ token ∈ tokens, token.start ≤ text.length ∧
      (token.size ≠ 0 → IsParentAt text token.start) := by
  have hloop : ∀ {finish}, jsmnLoop numTokens text jsmnInit = .ok finish →
      ∃ pos, Parents text pos finish.toksuper finish.tokens := by
    intro finish h
    refine loop_induction (P := fun parser js => parser.pos ≤ text.length →
      text.drop parser.pos = js → Parents text parser.pos parser.toksuper parser.tokens →
      ∃ pos, Parents text pos finish.toksuper finish.tokens) ?_ ?_ ?_ h (Nat.zero_le _) rfl ?_
    · exact fun _ _ hparents => ⟨_, hparents⟩
    · exact fun _ _ _ hparents => ⟨_, hparents⟩
    · intro parser js next later hcase ih hle hdrop hparents
      -- The position is that of what is left of the text.
      have hused : ∀ used rest : List UInt8, js = used ++ rest →
          parser.pos + used.length ≤ text.length ∧
            text.drop (parser.pos + used.length) = rest := by
        intro used rest hjs
        have hlength := congrArg List.length hdrop
        rw [hjs, List.length_drop, List.length_append] at hlength
        refine ⟨by omega, ?_⟩
        rw [← List.drop_drop, hdrop, hjs, List.drop_left]
      have hfirst : ∀ c rest, js = c :: rest → text[parser.pos]? = some c := by
        intro c rest hjs
        rw [← Nat.add_zero parser.pos, ← List.getElem?_drop, hdrop, hjs]
        rfl
      cases hcase with
      | @blank c _ hblank =>
          obtain ⟨hle', hdrop'⟩ := hused [_] later rfl
          refine ih hle' hdrop' (hparents.gap (hfirst _ _ rfl) ?_)
          simp only [keyGaps, List.map_cons, List.map_nil, List.mem_cons, List.not_mem_nil,
            or_false] at hblank ⊢
          tauto
      | comma =>
          obtain ⟨hle', hdrop'⟩ := hused [_] later rfl
          exact ih hle' hdrop' (hparents.comma.gap (hfirst _ _ rfl) (by decide))
      | colon =>
          obtain ⟨hle', hdrop'⟩ := hused [_] later rfl
          exact ih hle' hdrop' (hparents.colon (hfirst _ _ rfl))
      | opening bracket =>
          obtain ⟨hle', hdrop'⟩ := hused [_] later rfl
          exact ih hle' hdrop' (hparents.opening (hfirst _ _ rfl))
      | closing bracket later hlength hclose =>
          obtain ⟨hle', hdrop'⟩ := hused [_] later rfl
          refine ih hle' hdrop' ((hparents.closed hclose).gap (hfirst _ _ rfl) ?_)
          cases bracket <;> decide
      | leaf _ hleaf hstop _ hbegins hstart hkey hsize hparent =>
          obtain ⟨hle', hdrop'⟩ := hused _ later rfl
          exact ih hle' hdrop' (hparents.leaf hdrop hle' hbegins hstart hkey hsize hparent)
    -- In the beginning there is no token.
    · refine ⟨?_, ?_, ?_, ?_, ?_⟩
      · exact fun _ habsurd => absurd habsurd List.not_mem_nil
      · exact fun _ habsurd => by cases habsurd
      · exact fun _ habsurd => absurd habsurd List.not_mem_nil
      · exact fun _ habsurd => absurd habsurd List.not_mem_nil
      · exact fun _ habsurd => by cases habsurd
  unfold jsmnParse at h
  cases hfinish : jsmnLoop numTokens text jsmnInit with
  | error error =>
      rw [hfinish] at h
      cases h
  | ok finish =>
      rw [hfinish] at h
      simp only [bind, Except.bind] at h
      split_ifs at h
      cases h
      obtain ⟨pos, hparents⟩ := hloop hfinish
      exact fun token hmem => ⟨hparents.starts token hmem, hparents.sizes token hmem⟩

end Parents

end TivaAws.Jsmn
