import Mathlib.Tactic.Common
import Mathlib.Tactic.Tauto

/-!
# jsmn

The tokeniser in `lib/third_party/jsmn`, built with parent links and without strict mode. It makes
one pass over the characters and fills a flat array with the tokens in the order they begin.
-/

namespace TivaAws.Jsmn

/-! ## Tokens -/

/-- `jsmntype_t`. -/
inductive JsmnType where
  | object
  | array
  | string
  | primitive
  deriving DecidableEq, Repr

/-- `enum jsmnerr`. -/
inductive JsmnError where
  | nomem
  | inval
  | part
  deriving DecidableEq, Repr

/-- `jsmntok_t`; `stop` stands for `end`. A token is filled where it is allocated, so only `end` and
`parent` are ever seen to be -1, which is `none` here. -/
structure JsmnToken where
  type : JsmnType
  start : Nat
  stop : Option Nat
  size : Nat
  parent : Option Nat
  deriving DecidableEq, Repr

/-- `jsmn_parser` with the allocated tokens, of which there are `toknext`. -/
structure JsmnParser where
  pos : Nat
  toksuper : Option Nat
  tokens : List JsmnToken
  deriving DecidableEq, Repr

/-- `jsmn_init`. -/
def jsmnInit : JsmnParser := ⟨0, none, []⟩

/-- `jsmn_alloc_token` and what is filled in then. -/
def jsmnAllocToken (numTokens : Nat) (token : JsmnToken) (parser : JsmnParser) :
    Except JsmnError JsmnParser :=
  if parser.tokens.length ≥ numTokens then .error .nomem
  else .ok { parser with tokens := parser.tokens ++ [token] }

/-- `tokens[parser->toksuper].size++`, unless `toksuper` is -1. -/
def growSuper (toksuper : Option Nat) (tokens : List JsmnToken) : List JsmnToken :=
  match toksuper with
  | some super => tokens.modify super fun token => { token with size := token.size + 1 }
  | none => tokens

/-! ## Strings and primitives -/

/-- Where `jsmn_parse_string` is: after a backslash, or in front of hex digits. -/
inductive StringMode where
  | plain
  | escaped
  | hex (digits : Nat)
  deriving DecidableEq, Repr

/-- The escaped symbols that are allowed, apart from `u`. -/
def escapedSymbols : List UInt8 := ['"', '/', '\\', 'b', 'f', 'r', 'n', 't'].map Char.toUInt8

/-- A hex digit, by its code. -/
def isHexCharacter (c : UInt8) : Bool :=
  (48 ≤ c && c ≤ 57) || (65 ≤ c && c ≤ 70) || (97 ≤ c && c ≤ 102)

/-- The loop of `jsmn_parse_string` from a position on: the position of the closing quote and what
follows it. -/
def scanString : StringMode → Nat → List UInt8 → Except JsmnError (Nat × List UInt8)
  | _, _, [] => .error .part
  | .plain, pos, c :: rest =>
      if c = 0 then .error .part
      else if c = '"'.toUInt8 then .ok (pos, rest)
      else if c = '\\'.toUInt8 then scanString .escaped (pos + 1) rest
      else scanString .plain (pos + 1) rest
  | .escaped, pos, c :: rest =>
      if c ∈ escapedSymbols then scanString .plain (pos + 1) rest
      else if c = 'u'.toUInt8 then scanString (.hex 4) (pos + 1) rest
      else .error .inval
  | .hex digits, pos, c :: rest =>
      if c = 0 then .error .part
      else if isHexCharacter c then
        scanString (if digits ≤ 1 then .plain else .hex (digits - 1)) (pos + 1) rest
      else .error .inval

/-- The characters that end a primitive. -/
def primitiveEnds : List UInt8 := [':', '\t', '\r', '\n', ' ', ',', ']', '}'].map Char.toUInt8

/-- The loop of `jsmn_parse_primitive`: the position behind the primitive and what follows it. -/
def scanPrimitive : Nat → List UInt8 → Except JsmnError (Nat × List UInt8)
  | pos, [] => .ok (pos, [])
  | pos, c :: rest =>
      if c = 0 ∨ c ∈ primitiveEnds then .ok (pos, c :: rest)
      else if c < 32 ∨ c ≥ 127 then .error .inval
      else scanPrimitive (pos + 1) rest

/-- `jsmn_parse_string` from the character after the quote on. The token is counted in its
parent. -/
def jsmnParseString (numTokens : Nat) (rest : List UInt8) (parser : JsmnParser) :
    Except JsmnError (JsmnParser × List UInt8) := do
  let (stop, later) ← scanString .plain (parser.pos + 1) rest
  let parser ← jsmnAllocToken numTokens
    ⟨.string, parser.pos + 1, some stop, 0, parser.toksuper⟩ parser
  return (⟨stop + 1, parser.toksuper, growSuper parser.toksuper parser.tokens⟩, later)

/-- `jsmn_parse_primitive`. The token is counted in its parent. -/
def jsmnParsePrimitive (numTokens : Nat) (js : List UInt8) (parser : JsmnParser) :
    Except JsmnError (JsmnParser × List UInt8) := do
  let (stop, later) ← scanPrimitive parser.pos js
  let parser ← jsmnAllocToken numTokens
    ⟨.primitive, parser.pos, some stop, 0, parser.toksuper⟩ parser
  return (⟨stop, parser.toksuper, growSuper parser.toksuper parser.tokens⟩, later)

/-! ## Brackets -/

/-- An opening bracket: a token without an end, which becomes the one to be the parent. -/
def jsmnOpen (numTokens : Nat) (type : JsmnType) (parser : JsmnParser) :
    Except JsmnError JsmnParser := do
  let opened ← jsmnAllocToken numTokens ⟨type, parser.pos, none, 0, parser.toksuper⟩ parser
  return ⟨parser.pos + 1, some parser.tokens.length, growSuper parser.toksuper opened.tokens⟩

/-- The loop for a closing bracket, from a token up through its parents to one that is open. A
parent always has the lower index. -/
def closeFrom (type : JsmnType) (parser : JsmnParser) (index : Nat) :
    Except JsmnError JsmnParser :=
  match parser.tokens[index]? with
  | none => .error .inval
  | some token =>
      if token.stop = none then
        if token.type ≠ type then .error .inval
        else .ok
          { parser with
            toksuper := token.parent
            tokens := parser.tokens.set index { token with stop := some (parser.pos + 1) } }
      else
        match token.parent with
        | none =>
            if token.type ≠ type ∨ parser.toksuper = none then .error .inval else .ok parser
        | some parent => if parent < index then closeFrom type parser parent else .error .inval
  termination_by index

/-- A closing bracket. -/
def jsmnClose (type : JsmnType) (parser : JsmnParser) : Except JsmnError JsmnParser :=
  if parser.tokens.length < 1 then .error .inval
  else do
    let closed ← closeFrom type parser (parser.tokens.length - 1)
    return { closed with pos := parser.pos + 1 }

/-! ## The pass -/

/-- `:`, after which the last token is the one to be the parent. -/
def jsmnColon (parser : JsmnParser) : JsmnParser :=
  { parser with
    pos := parser.pos + 1
    toksuper := if parser.tokens.length = 0 then none else some (parser.tokens.length - 1) }

/-- `,`, after which a key is not the one to be the parent any more. -/
def jsmnComma (parser : JsmnParser) : JsmnParser :=
  { parser with
    pos := parser.pos + 1
    toksuper := parser.toksuper.bind fun super =>
      match parser.tokens[super]? with
      | some token =>
          if token.type ≠ .array ∧ token.type ≠ .object then token.parent else some super
      | none => some super }

/-- One round of the loop of `jsmn_parse` at a character: the parser and the characters that are
left. -/
def jsmnStep (numTokens : Nat) (c : UInt8) (rest : List UInt8) (parser : JsmnParser) :
    Except JsmnError (JsmnParser × List UInt8) :=
  if c = '{'.toUInt8 then (jsmnOpen numTokens .object parser).map (·, rest)
  else if c = '['.toUInt8 then (jsmnOpen numTokens .array parser).map (·, rest)
  else if c = '}'.toUInt8 then (jsmnClose .object parser).map (·, rest)
  else if c = ']'.toUInt8 then (jsmnClose .array parser).map (·, rest)
  else if c = '"'.toUInt8 then jsmnParseString numTokens rest parser
  else if c = '\t'.toUInt8 ∨ c = '\r'.toUInt8 ∨ c = '\n'.toUInt8 ∨ c = ' '.toUInt8 then
    .ok ({ parser with pos := parser.pos + 1 }, rest)
  else if c = ':'.toUInt8 then .ok (jsmnColon parser, rest)
  else if c = ','.toUInt8 then .ok (jsmnComma parser, rest)
  else jsmnParsePrimitive numTokens (c :: rest) parser

/-! ## Every round uses up characters -/

section Length

variable {numTokens pos : Nat} {c : UInt8} {js rest later : List UInt8}
  {parser next : JsmnParser}

theorem scan_string_length {mode : StringMode} {stop : Nat}
    (h : scanString mode pos js = .ok (stop, later)) : later.length < js.length := by
  induction js generalizing mode pos with
  | nil =>
      cases mode <;> cases h
  | cons c rest ih =>
      cases mode with
      | plain =>
          simp only [scanString] at h
          split_ifs at h
          · cases h
            exact Nat.lt_succ_self _
          · exact Nat.lt_succ_of_lt (ih h)
          · exact Nat.lt_succ_of_lt (ih h)
      | escaped =>
          simp only [scanString] at h
          split_ifs at h
          · exact Nat.lt_succ_of_lt (ih h)
          · exact Nat.lt_succ_of_lt (ih h)
      | hex digits =>
          simp only [scanString] at h
          split_ifs at h
          · exact Nat.lt_succ_of_lt (ih h)
          · exact Nat.lt_succ_of_lt (ih h)

theorem scan_primitive_length {stop : Nat} (h : scanPrimitive pos js = .ok (stop, later)) :
    later.length ≤ js.length := by
  induction js generalizing pos with
  | nil =>
      cases h
      exact Nat.le_refl _
  | cons c rest ih =>
      simp only [scanPrimitive] at h
      split_ifs at h
      · cases h
        exact Nat.le_refl _
      · exact Nat.le_succ_of_le (ih h)

/-- A step that is not one of strings and primitives leaves what follows the character. -/
theorem later_of_map {result : Except JsmnError JsmnParser}
    (h : result.map (·, rest) = .ok (next, later)) : later = rest := by
  cases result with
  | error error => cases h
  | ok parser =>
      cases h
      rfl

theorem parse_string_length (h : jsmnParseString numTokens rest parser = .ok (next, later)) :
    later.length < rest.length := by
  unfold jsmnParseString at h
  cases hscan : scanString .plain (parser.pos + 1) rest with
  | error error =>
      rw [hscan] at h
      cases h
  | ok scanned =>
      rw [hscan] at h
      have hlength := scan_string_length hscan
      simp only [bind, Except.bind] at h
      split at h
      · cases h
      · cases h
        exact hlength

theorem parse_primitive_length (hnul : c ≠ 0) (hends : c ∉ primitiveEnds)
    (h : jsmnParsePrimitive numTokens (c :: rest) parser = .ok (next, later)) :
    later.length ≤ rest.length := by
  unfold jsmnParsePrimitive at h
  simp only [scanPrimitive, hnul, hends, or_self, if_false] at h
  split_ifs at h
  · cases h
  cases hscan : scanPrimitive (parser.pos + 1) rest with
  | error error =>
      rw [hscan] at h
      cases h
  | ok scanned =>
      rw [hscan] at h
      have hlength := scan_primitive_length hscan
      simp only [bind, Except.bind] at h
      split at h
      · cases h
      · cases h
        exact hlength

theorem step_length (hnul : c ≠ 0) (h : jsmnStep numTokens c rest parser = .ok (next, later)) :
    later.length ≤ rest.length := by
  unfold jsmnStep at h
  split_ifs at h with hopen hopen' hclose hclose' hquote hblank hcolon hcomma
  · exact later_of_map h ▸ Nat.le_refl _
  · exact later_of_map h ▸ Nat.le_refl _
  · exact later_of_map h ▸ Nat.le_refl _
  · exact later_of_map h ▸ Nat.le_refl _
  · exact Nat.le_of_lt (parse_string_length h)
  · cases h
    exact Nat.le_refl _
  · cases h
    exact Nat.le_refl _
  · cases h
    exact Nat.le_refl _
  · refine parse_primitive_length hnul (fun hends => ?_) h
    simp only [primitiveEnds, List.map_cons, List.map_nil, List.mem_cons, List.not_mem_nil,
      or_false] at hends
    tauto

end Length

/-- The loop of `jsmn_parse`. -/
def jsmnLoop (numTokens : Nat) (js : List UInt8) (parser : JsmnParser) :
    Except JsmnError JsmnParser :=
  match js with
  | [] => .ok parser
  | c :: rest =>
      if _hnul : c = 0 then .ok parser
      else
        match _hstep : jsmnStep numTokens c rest parser with
        | .error error => .error error
        | .ok (next, later) => jsmnLoop numTokens later next
  termination_by js.length
  decreasing_by exact Nat.lt_succ_of_le (step_length _hnul _hstep)

/-- `jsmn_parse` with a fresh parser: the tokens, of which it returns the number. -/
def jsmnParse (numTokens : Nat) (js : List UInt8) : Except JsmnError (List JsmnToken) := do
  let parser ← jsmnLoop numTokens js jsmnInit
  if parser.tokens.any fun token => token.stop = none then .error .part else return parser.tokens

end TivaAws.Jsmn
