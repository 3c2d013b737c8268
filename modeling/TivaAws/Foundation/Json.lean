import Mathlib.Tactic.Common

/-!
# JSON as it is written

The grammar of JSON texts over bytes, with the blanks between tokens kept, so that a tree stands for
exactly one text. What the bytes beyond ASCII stand for in a string is not looked into.
-/

namespace TivaAws.Json

/-! ## Syntax -/

/-- The two kinds of brackets. -/
inductive Bracket where
  | array
  | object
  deriving DecidableEq, Repr

/-- The bytes of the brackets. -/
def Bracket.opening : Bracket → UInt8
  | .array => '['.toUInt8
  | .object => '{'.toUInt8

def Bracket.closing : Bracket → UInt8
  | .array => ']'.toUInt8
  | .object => '}'.toUInt8

/-- The key of a member, with the blanks in front of it and in front of the colon. -/
structure Key where
  before : List UInt8
  text : List UInt8
  after : List UInt8

mutual

/-- A value. The text of a string stands between the quotes, escapes and all. -/
inductive Value where
  | string (text : List UInt8)
  | primitive (text : List UInt8)
  | empty (bracket : Bracket) (blank : List UInt8)
  | group (bracket : Bracket) (entries : Entries)

/-- The entries of an array or an object. Those of an array have no keys. -/
inductive Entries where
  | last (key : Option Key) (before : List UInt8) (value : Value) (after : List UInt8)
  | more (key : Option Key) (before : List UInt8) (value : Value) (after : List UInt8)
      (rest : Entries)

end

/-- A text: a value between blanks. -/
structure Text where
  before : List UInt8
  value : Value
  after : List UInt8

/-! ## Writing -/

/-- A string with its quotes. -/
def quoted (text : List UInt8) : List UInt8 := '"'.toUInt8 :: (text ++ ['"'.toUInt8])

/-- What stands in front of the value of an entry. -/
def Key.write (key : Key) : List UInt8 :=
  key.before ++ quoted key.text ++ key.after ++ [':'.toUInt8]

/-- The key of an entry and the blank in front of its value. -/
def lead (key : Option Key) (before : List UInt8) : List UInt8 :=
  (key.map Key.write).getD [] ++ before

mutual

def Value.write : Value → List UInt8
  | .string text => quoted text
  | .primitive text => text
  | .empty bracket blank => bracket.opening :: (blank ++ [bracket.closing])
  | .group bracket entries => bracket.opening :: (entries.write ++ [bracket.closing])

def Entries.write : Entries → List UInt8
  | .last key before value after => lead key before ++ (value.write ++ after)
  | .more key before value after rest =>
      lead key before ++ (value.write ++ (after ++ ','.toUInt8 :: rest.write))

end

def Text.write (text : Text) : List UInt8 := text.before ++ (text.value.write ++ text.after)

/-! ## Well-formed texts -/

/-- Blanks. -/
def IsBlank (text : List UInt8) : Prop :=
  ∀ c ∈ text, c = ' '.toUInt8 ∨ c = '\t'.toUInt8 ∨ c = '\n'.toUInt8 ∨ c = '\r'.toUInt8

def IsDigit (c : UInt8) : Prop := '0'.toUInt8 ≤ c ∧ c ≤ '9'.toUInt8

def IsHexDigit (c : UInt8) : Prop :=
  IsDigit c ∨ 'A'.toUInt8 ≤ c ∧ c ≤ 'F'.toUInt8 ∨ 'a'.toUInt8 ≤ c ∧ c ≤ 'f'.toUInt8

instance (c : UInt8) : Decidable (IsDigit c) := inferInstanceAs (Decidable (_ ∧ _))

instance (c : UInt8) : Decidable (IsHexDigit c) := inferInstanceAs (Decidable (_ ∨ _))

/-- The letters that may follow a backslash, apart from `u`. -/
def escapable : List UInt8 := ['"', '/', '\\', 'b', 'f', 'r', 'n', 't'].map Char.toUInt8

/-- What may stand between the quotes of a string. -/
inductive IsStringText : List UInt8 → Prop where
  | nil : IsStringText []
  | char {c : UInt8} {rest : List UInt8} : 32 ≤ c → c ≠ '"'.toUInt8 → c ≠ '\\'.toUInt8 →
      IsStringText rest → IsStringText (c :: rest)
  | escape {c : UInt8} {rest : List UInt8} : c ∈ escapable → IsStringText rest →
      IsStringText ('\\'.toUInt8 :: c :: rest)
  | unicode {digits rest : List UInt8} : digits.length = 4 → (∀ c ∈ digits, IsHexDigit c) →
      IsStringText rest → IsStringText ('\\'.toUInt8 :: 'u'.toUInt8 :: (digits ++ rest))

/-- One digit or more. -/
def IsDigits (text : List UInt8) : Prop := text ≠ [] ∧ ∀ c ∈ text, IsDigit c

/-- The sign, the integer, the fraction and the exponent of a number. -/
structure IsNumber (text sign integer fraction exponent : List UInt8) : Prop where
  text_eq : text = sign ++ (integer ++ (fraction ++ exponent))
  sign_eq : sign = [] ∨ sign = ['-'.toUInt8]
  integer_digits : IsDigits integer
  no_leading_zero : integer.head? = some '0'.toUInt8 → integer = ['0'.toUInt8]
  fraction_eq : fraction = [] ∨ ∃ digits, fraction = '.'.toUInt8 :: digits ∧ IsDigits digits
  exponent_eq : exponent = [] ∨ ∃ letter sign digits,
    exponent = letter :: (sign ++ digits) ∧ (letter = 'e'.toUInt8 ∨ letter = 'E'.toUInt8) ∧
      (sign = [] ∨ sign = ['+'.toUInt8] ∨ sign = ['-'.toUInt8]) ∧ IsDigits digits

/-- The words for the truth values and for nothing. -/
def words : List (List UInt8) :=
  ["true", "false", "null"].map fun word => word.toList.map Char.toUInt8

/-- Numbers and words. -/
def IsPrimitive (text : List UInt8) : Prop :=
  text ∈ words ∨ ∃ sign integer fraction exponent, IsNumber text sign integer fraction exponent

/-- A key with its blanks. -/
structure Key.WellFormed (key : Key) : Prop where
  before : IsBlank key.before
  text : IsStringText key.text
  after : IsBlank key.after

mutual

def Value.WellFormed : Value → Prop
  | .string text => IsStringText text
  | .primitive text => IsPrimitive text
  | .empty _ blank => IsBlank blank
  | .group bracket entries => entries.WellFormed bracket

/-- The entries may stand between the brackets. -/
def Entries.WellFormed (bracket : Bracket) : Entries → Prop
  | .last key before value after =>
      (key.isSome ↔ bracket = .object) ∧ (∀ k ∈ key, k.WellFormed) ∧ IsBlank before ∧
        value.WellFormed ∧ IsBlank after
  | .more key before value after rest =>
      (key.isSome ↔ bracket = .object) ∧ (∀ k ∈ key, k.WellFormed) ∧ IsBlank before ∧
        value.WellFormed ∧ IsBlank after ∧ rest.WellFormed bracket

end

/-- A well-formed text. -/
structure Text.WellFormed (text : Text) : Prop where
  before : IsBlank text.before
  value : text.value.WellFormed
  after : IsBlank text.after

/-! ## Members -/

/-- The members among the entries of an object, in the order they are written. -/
def Entries.members : Entries → List (List UInt8 × Value)
  | .last key _ value _ => (key.map fun k => (k.text, value)).toList
  | .more key _ value _ rest => (key.map fun k => (k.text, value)).toList ++ rest.members

/-- The members of a text at the top level. -/
def Text.members (text : Text) : List (List UInt8 × Value) :=
  match text.value with
  | .group .object entries => entries.members
  | _ => []

end TivaAws.Json
