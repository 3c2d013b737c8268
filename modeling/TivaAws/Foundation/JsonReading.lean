import TivaAws.Foundation.Json

/-!
# Reading JSON

A well-formed text is written by one tree only (`Text.write_injective`). A value is over where a
delimiter comes, so its tree does not depend on what stands behind it.
-/

namespace TivaAws.Json

/-! ## Characters -/

section Characters

variable {p : UInt8 → Prop} {first first' later later' text text' : List UInt8}

/-- The characters of a primitive other than digits. -/
def primitiveLetters : List UInt8 :=
  ['+', '-', '.', 'e', 'E', 't', 'r', 'u', 'f', 'a', 'l', 's', 'n'].map Char.toUInt8

theorem sign_characters (hletter : ∀ c ∈ primitiveLetters, p c) {sign : List UInt8}
    (h : sign = [] ∨ sign = ['+'.toUInt8] ∨ sign = ['-'.toUInt8]) : ∀ c ∈ sign, p c := by
  rcases h with rfl | rfl | rfl
  · exact fun _ hc => (by cases hc)
  · exact List.forall_mem_singleton.mpr (hletter _ (by decide))
  · exact List.forall_mem_singleton.mpr (hletter _ (by decide))

theorem number_characters (hdigit : ∀ c, IsDigit c → p c) (hletter : ∀ c ∈ primitiveLetters, p c)
    {sign integer fraction exponent : List UInt8}
    (h : IsNumber text sign integer fraction exponent) : text ≠ [] ∧ ∀ c ∈ text, p c := by
  constructor
  · rw [h.text_eq]
    intro hnil
    simp only [List.append_eq_nil_iff] at hnil
    exact h.integer_digits.1 hnil.2.1
  · intro c hc
    rw [h.text_eq] at hc
    simp only [List.mem_append] at hc
    rcases hc with hc | hc | hc | hc
    · exact sign_characters hletter (h.sign_eq.imp_right .inr) c hc
    · exact hdigit c (h.integer_digits.2 c hc)
    · rcases h.fraction_eq with rfl | ⟨digits, rfl, hdigits⟩
      · cases hc
      · rcases List.mem_cons.mp hc with rfl | hc
        · exact hletter _ (by decide)
        · exact hdigit c (hdigits.2 c hc)
    · rcases h.exponent_eq with rfl | ⟨letter, sign, digits, rfl, hexponent, hsign, hdigits⟩
      · cases hc
      · rcases List.mem_cons.mp hc with rfl | hc
        · rcases hexponent with rfl | rfl
          · exact hletter _ (by decide)
          · exact hletter _ (by decide)
        · rcases List.mem_append.mp hc with hc | hc
          · exact sign_characters hletter hsign c hc
          · exact hdigit c (hdigits.2 c hc)

/-- A primitive has digits and a few other characters only. -/
theorem primitive_characters (hdigit : ∀ c, IsDigit c → p c)
    (hletter : ∀ c ∈ primitiveLetters, p c) (h : IsPrimitive text) :
    text ≠ [] ∧ ∀ c ∈ text, p c := by
  rcases h with hword | ⟨sign, integer, fraction, exponent, hnumber⟩
  · have hletters : ∀ word ∈ words, word ≠ [] ∧ ∀ c ∈ word, c ∈ primitiveLetters := by
      decide +kernel
    obtain ⟨hne, hcharacters⟩ := hletters text hword
    exact ⟨hne, fun c hc => hletter c (hcharacters c hc)⟩
  · exact number_characters hdigit hletter hnumber

/-- What has a property is told from what comes behind it. -/
theorem span_unique (hfirst : ∀ c ∈ first, p c) (hfirst' : ∀ c ∈ first', p c)
    (hlater : ∀ c ∈ later.head?, ¬ p c) (hlater' : ∀ c ∈ later'.head?, ¬ p c)
    (h : first ++ later = first' ++ later') : first = first' ∧ later = later' := by
  induction first generalizing first' with
  | nil =>
      cases first' with
      | nil => exact ⟨rfl, h⟩
      | cons c first' =>
          have hhead : later.head? = some c := congrArg List.head? h
          exact absurd (hfirst' c List.mem_cons_self) (hlater c hhead)
  | cons c first ih =>
      cases first' with
      | nil =>
          have hhead : later'.head? = some c := (congrArg List.head? h).symm
          exact absurd (hfirst c List.mem_cons_self) (hlater' c hhead)
      | cons c' first' =>
          obtain ⟨rfl, hrest⟩ := List.cons.inj h
          obtain ⟨rfl, rfl⟩ := ih (fun d hd => hfirst d (List.mem_cons_of_mem c hd))
            (fun d hd => hfirst' d (List.mem_cons_of_mem c hd)) hrest
          exact ⟨rfl, rfl⟩

theorem quote_ne_backslash : '"'.toUInt8 ≠ '\\'.toUInt8 := by decide

theorem u_not_escapable : 'u'.toUInt8 ∉ escapable := by decide

/-- A string ends at its first quote that no backslash stands in front of. -/
theorem string_unique (h : IsStringText text) (h' : IsStringText text')
    (heq : text ++ '"'.toUInt8 :: later = text' ++ '"'.toUInt8 :: later') :
    text = text' ∧ later = later' := by
  -- On the first string. The second one begins with the same character, which settles how it
  -- goes on, but for the two kinds of escapes that are told by their second character.
  induction h generalizing text' with
  | nil =>
      cases h' with
      | nil => exact ⟨rfl, (List.cons.inj heq).2⟩
      | char _ hquote => exact absurd (List.cons.inj heq).1.symm hquote
      | escape => exact absurd (List.cons.inj heq).1 quote_ne_backslash
      | unicode => exact absurd (List.cons.inj heq).1 quote_ne_backslash
  | char _ hquote hbackslash _ ih =>
      cases h' with
      | nil => exact absurd (List.cons.inj heq).1 hquote
      | char _ _ _ hrest =>
          obtain ⟨rfl, hlater⟩ := List.cons.inj heq
          obtain ⟨rfl, rfl⟩ := ih hrest hlater
          exact ⟨rfl, rfl⟩
      | escape => exact absurd (List.cons.inj heq).1 hbackslash
      | unicode => exact absurd (List.cons.inj heq).1 hbackslash
  | escape hc _ ih =>
      cases h' with
      | nil => exact absurd (List.cons.inj heq).1.symm quote_ne_backslash
      | char _ _ hbackslash => exact absurd (List.cons.inj heq).1.symm hbackslash
      | escape _ hrest =>
          obtain ⟨rfl, hlater⟩ := List.cons.inj (List.cons.inj heq).2
          obtain ⟨rfl, rfl⟩ := ih hrest hlater
          exact ⟨rfl, rfl⟩
      | unicode =>
          obtain ⟨rfl, _⟩ := List.cons.inj (List.cons.inj heq).2
          exact absurd hc u_not_escapable
  | unicode hlength _ _ ih =>
      cases h' with
      | nil => exact absurd (List.cons.inj heq).1.symm quote_ne_backslash
      | char _ _ hbackslash => exact absurd (List.cons.inj heq).1.symm hbackslash
      | escape hc =>
          obtain ⟨rfl, _⟩ := List.cons.inj (List.cons.inj heq).2
          exact absurd hc u_not_escapable
      | unicode hlength' _ hrest =>
          simp only [List.cons_append, List.append_assoc] at heq
          have hdigits := (List.cons.inj (List.cons.inj heq).2).2
          obtain ⟨rfl, hlater⟩ := List.append_inj hdigits (hlength.trans hlength'.symm)
          obtain ⟨rfl, rfl⟩ := ih hrest hlater
          exact ⟨rfl, rfl⟩

end Characters

/-! ## Delimiters -/

section Delimiters

variable {key key' : Option Key} {before before' after after' later later' : List UInt8}
  {value : Value} {bracket : Bracket} {entries : Entries} {c c' : UInt8}

/-- The characters of which blanks are made. -/
def blanks : List UInt8 := [' ', '\t', '\n', '\r'].map Char.toUInt8

/-- The characters that may come behind a value, blanks among them. -/
def delimiters : List UInt8 := blanks ++ [','.toUInt8, ']'.toUInt8, '}'.toUInt8]

/-- What follows a value: a delimiter or nothing. -/
def Ends (later : List UInt8) : Prop := ∀ c ∈ later.head?, c ∈ delimiters

theorem IsBlank.mem_blanks (h : IsBlank before) : ∀ c ∈ before, c ∈ blanks := by
  intro c hc
  have hblank := h c hc
  simpa only [blanks, List.map_cons, List.map_nil, List.mem_cons, List.not_mem_nil, or_false]
    using hblank

theorem blank_delimiter (h : c ∈ blanks) : c ∈ delimiters := List.mem_append_left _ h

theorem closing_delimiter (bracket : Bracket) :
    bracket.closing ∈ delimiters ∧ bracket.closing ∉ blanks := by
  cases bracket <;> decide

theorem comma_delimiter : ','.toUInt8 ∈ delimiters ∧ ','.toUInt8 ∉ blanks := by decide

theorem closing_ne_comma (bracket : Bracket) : bracket.closing ≠ ','.toUInt8 := by
  cases bracket <;> decide

theorem quote_not_delimiter : '"'.toUInt8 ∉ delimiters := by decide

theorem colon_not_blank : ':'.toUInt8 ∉ blanks := by decide

/-- A blank and what comes behind it. -/
theorem blank_unique (hbefore : IsBlank before) (hbefore' : IsBlank before') (hc : c ∉ blanks)
    (hc' : c' ∉ blanks) (h : before ++ c :: later = before' ++ c' :: later') :
    before = before' ∧ c = c' ∧ later = later' := by
  have hhead : ∀ {d : UInt8} {rest : List UInt8}, d ∉ blanks →
      ∀ e ∈ (d :: rest).head?, ¬ e ∈ blanks := by
    intro d rest hd e he
    cases he
    exact hd
  obtain ⟨hblank, hrest⟩ := span_unique hbefore.mem_blanks hbefore'.mem_blanks (hhead hc)
    (hhead hc') h
  exact ⟨hblank, List.cons.inj hrest⟩

theorem ends_of_blank (hafter : IsBlank after) (hc : c ∈ delimiters) :
    Ends (after ++ c :: later) := by
  cases after with
  | nil =>
      intro d hd
      cases hd
      exact hc
  | cons b after =>
      intro d hd
      cases hd
      exact blank_delimiter (hafter.mem_blanks _ List.mem_cons_self)

/-- The first character of a value, unless it is that of a primitive. -/
def Value.mark : Value → Option UInt8
  | .string _ => some '"'.toUInt8
  | .primitive _ => none
  | .empty bracket _ | .group bracket _ => some bracket.opening

/-- The characters with which something else than a primitive begins. -/
def marks : List UInt8 := ['"'.toUInt8, '['.toUInt8, '{'.toUInt8]

theorem digit_not_mem {others : List UInt8} (h : ∀ d ∈ others, ¬ IsDigit d) (hc : IsDigit c) :
    c ∉ others := fun hmem => h c hmem hc

/-- The characters of a primitive neither end a value nor begin another one. -/
theorem primitive_characters_apart {text : List UInt8} (h : IsPrimitive text) :
    text ≠ [] ∧ ∀ c ∈ text, c ∉ delimiters ++ marks :=
  primitive_characters (fun _ hc => digit_not_mem (by decide +kernel) hc) (by decide +kernel) h

/-- The first character of a value tells a primitive from other values, and it is no delimiter. -/
theorem value_begins (h : value.WellFormed) : ∃ c rest, value.write = c :: rest ∧
    c ∉ delimiters ∧ value.mark = if c ∈ marks then some c else none := by
  have hopening : ∀ bracket : Bracket, bracket.opening ∉ delimiters ∧ bracket.opening ∈ marks := by
    intro bracket
    cases bracket <;> decide
  cases value with
  | string text => exact ⟨_, _, rfl, quote_not_delimiter, (if_pos List.mem_cons_self).symm⟩
  | primitive text =>
      obtain ⟨hne, hcharacters⟩ := primitive_characters_apart h
      cases text with
      | nil => exact absurd rfl hne
      | cons c text =>
          have hc := hcharacters c List.mem_cons_self
          rw [List.mem_append, not_or] at hc
          exact ⟨c, text, rfl, hc.1, (if_neg hc.2).symm⟩
  | empty bracket blank =>
      exact ⟨_, _, rfl, (hopening bracket).1, (if_pos (hopening bracket).2).symm⟩
  | group bracket entries =>
      exact ⟨_, _, rfl, (hopening bracket).1, (if_pos (hopening bracket).2).symm⟩

theorem value_begins_apart (h : value.WellFormed) (later : List UInt8) :
    ∃ c rest, value.write ++ later = c :: rest ∧ c ∉ delimiters := by
  obtain ⟨c, rest, hwrite, hc, -⟩ := value_begins h
  exact ⟨c, rest ++ later, by rw [hwrite, List.cons_append], hc⟩

/-- An entry begins with something else than a delimiter, after a blank. -/
theorem lead_begins (hkey : ∀ k ∈ key, k.WellFormed) (hbefore : IsBlank before)
    (hvalue : value.WellFormed) (later : List UInt8) :
    ∃ blank c rest, lead key before ++ (value.write ++ later) = blank ++ c :: rest ∧
      IsBlank blank ∧ c ∉ delimiters := by
  cases key with
  | none =>
      obtain ⟨c, rest, hwrite, hc⟩ := value_begins_apart hvalue later
      exact ⟨before, c, rest, by rw [hwrite]; rfl, hbefore, hc⟩
  | some k =>
      refine ⟨k.before, '"'.toUInt8, k.text ++ ('"'.toUInt8 :: (k.after ++ (':'.toUInt8 ::
        (before ++ (value.write ++ later))))), ?_, (hkey k rfl).before, quote_not_delimiter⟩
      simp [lead, Key.write, quoted]

/-- The key of an entry and the blank in front of its value. -/
theorem lead_unique (hkey : ∀ k ∈ key, k.WellFormed) (hkey' : ∀ k ∈ key', k.WellFormed)
    (hsame : key.isSome = key'.isSome) (hbefore : IsBlank before) (hbefore' : IsBlank before')
    (hc : c ∉ blanks) (hc' : c' ∉ blanks)
    (h : lead key before ++ c :: later = lead key' before' ++ c' :: later') :
    key = key' ∧ before = before' ∧ c :: later = c' :: later' := by
  cases key with
  | none =>
      cases key' with
      | some k => exact absurd hsame Bool.false_ne_true
      | none =>
          obtain ⟨rfl, rfl, rfl⟩ := blank_unique hbefore hbefore' hc hc' h
          exact ⟨rfl, rfl, rfl⟩
  | some k =>
      cases key' with
      | none => exact absurd hsame.symm Bool.false_ne_true
      | some k' =>
          have hk := hkey k rfl
          have hk' := hkey' k' rfl
          simp only [lead, Option.map_some, Option.getD_some, Key.write, quoted, List.append_assoc,
            List.cons_append, List.nil_append] at h
          have hquote := mt blank_delimiter quote_not_delimiter
          obtain ⟨hbegin, -, htext⟩ := blank_unique hk.before hk'.before hquote hquote h
          obtain ⟨hstring, hafter⟩ := string_unique hk.text hk'.text htext
          obtain ⟨hblank, -, hvalue⟩ :=
            blank_unique hk.after hk'.after colon_not_blank colon_not_blank hafter
          obtain ⟨rfl, rfl, rfl⟩ := blank_unique hbefore hbefore' hc hc' hvalue
          refine ⟨congrArg some ?_, rfl, rfl⟩
          obtain ⟨before, text, after⟩ := k
          obtain ⟨before', text', after'⟩ := k'
          cases hbegin
          cases hstring
          cases hblank
          rfl

end Delimiters

/-! ## Trees -/

section Trees

variable {bracket : Bracket}

/-- Behind a value, a comma and a closing bracket cannot be taken for one another. -/
theorem behind_unique {after after' later later' : List UInt8} {c c' : UInt8}
    (hafter : IsBlank after) (hafter' : IsBlank after') (hc : c ∉ blanks) (hc' : c' ∉ blanks)
    (hne : c ≠ c') : after ++ c :: later ≠ after' ++ c' :: later' :=
  fun h => hne (blank_unique hafter hafter' hc hc' h).2.1

/-- The entries of a group do not begin as it ends. -/
theorem entries_begin {entries : Entries} (h : entries.WellFormed bracket) (later : List UInt8) :
    ∃ blank c rest, entries.write ++ later = blank ++ c :: rest ∧ IsBlank blank ∧
      c ∉ delimiters := by
  cases entries with
  | last key before value after =>
      obtain ⟨-, hkey, hbefore, hvalue, -⟩ := h
      rw [Entries.write, List.append_assoc, List.append_assoc]
      exact lead_begins hkey hbefore hvalue _
  | more key before value after rest =>
      obtain ⟨-, hkey, hbefore, hvalue, -⟩ := h
      rw [Entries.write, List.append_assoc, List.append_assoc]
      exact lead_begins hkey hbefore hvalue _

/-- A bracket is closed at once or it has entries. -/
theorem empty_ne_group {blank later later' : List UInt8} {entries : Entries}
    (hblank : IsBlank blank) (h : entries.WellFormed bracket) :
    blank ++ bracket.closing :: later ≠ entries.write ++ later' := by
  intro heq
  obtain ⟨blank', c, rest, hwrite, hblank', hc⟩ := entries_begin h later'
  rw [hwrite] at heq
  refine behind_unique hblank hblank' (closing_delimiter bracket).2
    (mt blank_delimiter hc) ?_ heq
  rintro rfl
  exact hc (closing_delimiter bracket).1

/-- The key, the blank and the value of an entry, where values are read uniquely. -/
theorem entry_unique {key key' : Option Key} {before before' later later' : List UInt8}
    {value value' : Value}
    (hread : value'.WellFormed → Ends later → Ends later' →
      value.write ++ later = value'.write ++ later' → value = value' ∧ later = later')
    (hkey : ∀ k ∈ key, k.WellFormed) (hkey' : ∀ k ∈ key', k.WellFormed)
    (hkind : key.isSome ↔ bracket = .object) (hkind' : key'.isSome ↔ bracket = .object)
    (hbefore : IsBlank before) (hbefore' : IsBlank before') (hvalue : value.WellFormed)
    (hvalue' : value'.WellFormed) (hends : Ends later) (hends' : Ends later')
    (h : lead key before ++ (value.write ++ later) =
      lead key' before' ++ (value'.write ++ later')) :
    key = key' ∧ before = before' ∧ value = value' ∧ later = later' := by
  obtain ⟨c, rest, hwrite, hc⟩ := value_begins_apart hvalue later
  obtain ⟨c', rest', hwrite', hc'⟩ := value_begins_apart hvalue' later'
  rw [hwrite, hwrite'] at h
  obtain ⟨hk, hb, heq⟩ := lead_unique hkey hkey' (Bool.eq_iff_iff.mpr (hkind.trans hkind'.symm))
    hbefore hbefore' (mt blank_delimiter hc) (mt blank_delimiter hc') h
  rw [← hwrite, ← hwrite'] at heq
  exact ⟨hk, hb, hread hvalue' hends hends' heq⟩

theorem value_mark_eq {value value' : Value} {later later' : List UInt8} (h : value.WellFormed)
    (h' : value'.WellFormed) (heq : value.write ++ later = value'.write ++ later') :
    value.mark = value'.mark := by
  obtain ⟨c, rest, hwrite, -, hmark⟩ := value_begins h
  obtain ⟨c', rest', hwrite', -, hmark'⟩ := value_begins h'
  rw [hwrite, hwrite'] at heq
  rw [hmark, hmark', (List.cons.inj heq).1]

theorem quote_ne_opening (bracket : Bracket) :
    some '"'.toUInt8 ≠ some bracket.opening := by
  cases bracket <;> decide

theorem opening_unique {bracket' : Bracket}
    (h : some bracket.opening = some bracket'.opening) : bracket = bracket' := by
  have hopening : ∀ bracket bracket' : Bracket, bracket.opening = bracket'.opening →
      bracket = bracket' := by
    intro bracket bracket'
    cases bracket <;> cases bracket' <;> decide
  exact hopening _ _ (Option.some.inj h)

mutual

/-- A value is read uniquely where a delimiter or nothing comes behind it. -/
theorem value_unique {later later' : List UInt8} : (value value' : Value) → value.WellFormed →
    value'.WellFormed → Ends later → Ends later' →
    value.write ++ later = value'.write ++ later' → value = value' ∧ later = later'
  | .string text, value', h, h', _, _, heq => by
      have hmark := value_mark_eq h h' heq
      cases value' with
      | string text' =>
          simp only [Value.write, quoted, List.cons_append, List.append_assoc,
            List.nil_append] at heq
          obtain ⟨rfl, rfl⟩ := string_unique h h' (List.cons.inj heq).2
          exact ⟨rfl, rfl⟩
      | primitive => cases hmark
      | empty bracket => exact absurd hmark (quote_ne_opening bracket)
      | group bracket => exact absurd hmark (quote_ne_opening bracket)
  -- Only here it matters what comes behind: nothing else says where a primitive ends.
  | .primitive text, value', h, h', hends, hends', heq => by
      have hmark := value_mark_eq h h' heq
      cases value' with
      | string => cases hmark
      | primitive text' =>
          have hcharacters : ∀ {text : List UInt8}, IsPrimitive text →
              ∀ c ∈ text, c ∉ delimiters := fun htext c hc =>
            (not_or.mp (mt List.mem_append.mpr ((primitive_characters_apart htext).2 c hc))).1
          obtain ⟨rfl, rfl⟩ := span_unique (hcharacters h) (hcharacters h')
            (fun c hc => not_not.mpr (hends c hc)) (fun c hc => not_not.mpr (hends' c hc)) heq
          exact ⟨rfl, rfl⟩
      | empty => cases hmark
      | group => cases hmark
  | .empty bracket blank, value', h, h', _, _, heq => by
      have hmark := value_mark_eq h h' heq
      cases value' with
      | string => exact absurd hmark.symm (quote_ne_opening bracket)
      | primitive => cases hmark
      | empty bracket' blank' =>
          obtain rfl := opening_unique hmark
          simp only [Value.write, List.cons_append, List.append_assoc, List.nil_append] at heq
          obtain ⟨rfl, -, rfl⟩ := blank_unique h h' (closing_delimiter bracket).2
            (closing_delimiter bracket).2 (List.cons.inj heq).2
          exact ⟨rfl, rfl⟩
      | group bracket' entries' =>
          obtain rfl := opening_unique hmark
          simp only [Value.write, List.cons_append, List.append_assoc, List.nil_append] at heq
          exact absurd (List.cons.inj heq).2 (empty_ne_group h h')
  | .group bracket entries, value', h, h', _, _, heq => by
      have hmark := value_mark_eq h h' heq
      cases value' with
      | string => exact absurd hmark.symm (quote_ne_opening bracket)
      | primitive => cases hmark
      | empty bracket' blank' =>
          obtain rfl := opening_unique hmark
          simp only [Value.write, List.cons_append, List.append_assoc, List.nil_append] at heq
          exact absurd (List.cons.inj heq).2.symm (empty_ne_group h' h)
      | group bracket' entries' =>
          obtain rfl := opening_unique hmark
          simp only [Value.write, List.cons_append, List.append_assoc, List.nil_append] at heq
          obtain ⟨rfl, rfl⟩ := entries_unique entries entries' h h' (List.cons.inj heq).2
          exact ⟨rfl, rfl⟩

/-- So are the entries in front of a closing bracket. -/
theorem entries_unique {later later' : List UInt8} {bracket : Bracket} :
    (entries entries' : Entries) → entries.WellFormed bracket → entries'.WellFormed bracket →
    entries.write ++ bracket.closing :: later = entries'.write ++ bracket.closing :: later' →
    entries = entries' ∧ later = later'
  | .last key before value after, entries', h, h', heq => by
      obtain ⟨hkind, hkey, hbefore, hvalue, hafter⟩ := h
      have hclosing := closing_delimiter bracket
      cases entries' with
      | last key' before' value' after' =>
          obtain ⟨hkind', hkey', hbefore', hvalue', hafter'⟩ := h'
          simp only [Entries.write, List.append_assoc] at heq
          obtain ⟨rfl, rfl, rfl, hbehind⟩ := entry_unique (value_unique value value' hvalue) hkey
            hkey' hkind hkind' hbefore hbefore' hvalue hvalue' (ends_of_blank hafter hclosing.1)
            (ends_of_blank hafter' hclosing.1) heq
          obtain ⟨rfl, -, rfl⟩ := blank_unique hafter hafter' hclosing.2 hclosing.2 hbehind
          exact ⟨rfl, rfl⟩
      | more key' before' value' after' rest' =>
          obtain ⟨hkind', hkey', hbefore', hvalue', hafter', -⟩ := h'
          simp only [Entries.write, List.append_assoc, List.cons_append] at heq
          -- One is over and the other one is not, so different characters come behind the value.
          obtain ⟨-, -, -, hbehind⟩ := entry_unique (value_unique value value' hvalue) hkey hkey'
            hkind hkind' hbefore hbefore' hvalue hvalue' (ends_of_blank hafter hclosing.1)
            (ends_of_blank hafter' comma_delimiter.1) heq
          exact absurd hbehind (behind_unique hafter hafter' hclosing.2 comma_delimiter.2
            (closing_ne_comma bracket))
  | .more key before value after rest, entries', h, h', heq => by
      obtain ⟨hkind, hkey, hbefore, hvalue, hafter, hrest⟩ := h
      have hclosing := closing_delimiter bracket
      cases entries' with
      | last key' before' value' after' =>
          obtain ⟨hkind', hkey', hbefore', hvalue', hafter'⟩ := h'
          simp only [Entries.write, List.append_assoc, List.cons_append] at heq
          obtain ⟨-, -, -, hbehind⟩ := entry_unique (value_unique value value' hvalue) hkey hkey'
            hkind hkind' hbefore hbefore' hvalue hvalue' (ends_of_blank hafter comma_delimiter.1)
            (ends_of_blank hafter' hclosing.1) heq
          exact absurd hbehind (behind_unique hafter hafter' comma_delimiter.2 hclosing.2
            (closing_ne_comma bracket).symm)
      | more key' before' value' after' rest' =>
          obtain ⟨hkind', hkey', hbefore', hvalue', hafter', hrest'⟩ := h'
          simp only [Entries.write, List.append_assoc, List.cons_append] at heq
          obtain ⟨rfl, rfl, rfl, hbehind⟩ := entry_unique (value_unique value value' hvalue) hkey
            hkey' hkind hkind' hbefore hbefore' hvalue hvalue'
            (ends_of_blank hafter comma_delimiter.1) (ends_of_blank hafter' comma_delimiter.1) heq
          obtain ⟨rfl, -, hothers⟩ :=
            blank_unique hafter hafter' comma_delimiter.2 comma_delimiter.2 hbehind
          obtain ⟨rfl, rfl⟩ := entries_unique rest rest' hrest hrest' hothers
          exact ⟨rfl, rfl⟩

end

/-- A text is written by one tree only. -/
theorem Text.write_injective {text text' : Text} (h : text.WellFormed) (h' : text'.WellFormed)
    (heq : text.write = text'.write) : text = text' := by
  obtain ⟨before, value, after⟩ := text
  obtain ⟨before', value', after'⟩ := text'
  have hends : ∀ {after : List UInt8}, IsBlank after → Ends after :=
    fun hafter c hc => blank_delimiter (hafter.mem_blanks c (List.mem_of_mem_head? hc))
  have hlead : lead none before ++ (value.write ++ after) =
      lead none before' ++ (value'.write ++ after') := heq
  have hkeys : ∀ k ∈ (none : Option Key), k.WellFormed := fun _ hk => (by cases hk)
  have hkinds : (none : Option Key).isSome ↔ Bracket.array = .object := by decide
  obtain ⟨-, rfl, rfl, rfl⟩ := entry_unique (value_unique value value' h.value) hkeys hkeys hkinds
    hkinds h.before h'.before h.value h'.value (hends h.after) (hends h'.after) hlead
  rfl

end Trees

end TivaAws.Json
