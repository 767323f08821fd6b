import BridgeFinder.Json.Reader

/-!
# The grammar of JSON

What counts as a text of JSON is said here without reference to a reader.  A name or a text has many
spellings; an array or an object is described by the texts of its parts, in their order; and a value
of any shape is one of the six kinds, with blanks wherever the grammar has them.
-/

namespace BridgeFinder.Json

/-- Nothing but blanks. -/
def IsBlank (text : List Char) : Prop :=
  ∀ c ∈ text, isSpace c

instance (text : List Char) : Decidable (IsBlank text) :=
  List.decidableBAll _ text

theorem isBlank_nil : IsBlank [] :=
  nofun

/-! ## Strings -/

/-- The letters that may follow a backslash, with the characters they stand for. -/
def escapes : List (Char × Char) :=
  [('"', '"'), ('\\', '\\'), ('/', '/'), ('b', '\x08'), ('f', '\x0c'), ('n', '\n'), ('r', '\r'),
    ('t', '\t')]

/-- A character that may stand for itself in a string. -/
def IsPlain (c : Char) : Prop :=
  c ≠ '"' ∧ c ≠ '\\' ∧ 0x20 ≤ c.toNat

instance (c : Char) : Decidable (IsPlain c) :=
  inferInstanceAs (Decidable (_ ∧ _))

/-- Four hexadecimal digits that write the number of a code unit. -/
def IsCodeUnit (digits : List Char) (unit : Nat) : Prop :=
  digits.length = 4 ∧ Text.naturalInBase? 16 digits = some unit

instance (digits : List Char) (unit : Nat) : Decidable (IsCodeUnit digits unit) :=
  inferInstanceAs (Decidable (_ ∧ _))

/-- The spellings of one character in a string. -/
inductive SpelledChar : Char → List Char → Prop where
  | plain {c : Char} (isPlain : IsPlain c) : SpelledChar c [c]
  | escaped {letter c : Char} (known : (letter, c) ∈ escapes) : SpelledChar c ['\\', letter]
  | unit {c : Char} {digits : List Char} (isUnit : IsCodeUnit digits c.toNat) :
      SpelledChar c ('\\' :: 'u' :: digits)
  | pair {c : Char} {leading trailing : List Char} {high low : Nat}
      (isHigh : IsCodeUnit leading (0xD800 + high)) (highFits : high < 0x400)
      (isLow : IsCodeUnit trailing (0xDC00 + low)) (lowFits : low < 0x400)
      (value : c.toNat = 0x10000 + high * 0x400 + low) :
      SpelledChar c ('\\' :: 'u' :: leading ++ '\\' :: 'u' :: trailing)

/-- The spellings of characters in a string. -/
inductive Spelled : List Char → List Char → Prop where
  | nil : Spelled [] []
  | cons {c : Char} {chars piece text : List Char} (first : SpelledChar c piece)
      (others : Spelled chars text) : Spelled (c :: chars) (piece ++ text)

/-- A string that stands for the given characters. -/
def IsText (value : String) (text : List Char) : Prop :=
  ∃ body, Spelled value.toList body ∧ text = '"' :: body ++ ['"']

/-- A piece of a string, whether it stands for a character or is half of a pair only. -/
inductive IsPiece : List Char → Prop where
  | plain {c : Char} (isPlain : IsPlain c) : IsPiece [c]
  | escaped {letter c : Char} (known : (letter, c) ∈ escapes) : IsPiece ['\\', letter]
  | unit {digits : List Char} {unit : Nat} (isUnit : IsCodeUnit digits unit) :
      IsPiece ('\\' :: 'u' :: digits)

/-- A string, whatever it stands for. -/
def IsString (text : List Char) : Prop :=
  ∃ pieces : List (List Char), (∀ piece ∈ pieces, IsPiece piece) ∧
    text = '"' :: pieces.flatten ++ ['"']

/-! ## Numbers -/

/-- One or more digits. -/
def IsDigits (text : List Char) : Prop :=
  text ≠ [] ∧ ∀ c ∈ text, c.isDigit

instance (text : List Char) : Decidable (IsDigits text) :=
  @instDecidableAnd _ _ inferInstance (List.decidableBAll _ text)

/-- The digits before the decimal point: a zero stands alone. -/
def IsWhole (text : List Char) : Prop :=
  text = ['0'] ∨ IsDigits text ∧ text.head? ≠ some '0'

instance (text : List Char) : Decidable (IsWhole text) :=
  inferInstanceAs (Decidable (_ ∨ _))

/-- The decimal point and the digits after it, if there are any. -/
def IsFraction (text : List Char) : Prop :=
  text = [] ∨ ∃ digits, IsDigits digits ∧ text = '.' :: digits

/-- The exponent, if there is one. -/
def IsExponent (text : List Char) : Prop :=
  text = [] ∨ ∃ letter ∈ ['e', 'E'], ∃ sign ∈ [[], ['+'], ['-']], ∃ digits, IsDigits digits ∧
    text = letter :: (sign ++ digits)

/-- A number. -/
def IsNumber (text : List Char) : Prop :=
  ∃ sign ∈ [[], ['-']], ∃ whole fraction exponent, IsWhole whole ∧ IsFraction fraction ∧
    IsExponent exponent ∧ text = sign ++ (whole ++ (fraction ++ exponent))

/-! ## Arrays and objects -/

/-- The comma before an item, unless it is the first one. -/
def comma (first : Bool) : List Char :=
  if first then [] else [',']

@[simp]
theorem comma_true : comma true = [] :=
  rfl

@[simp]
theorem comma_false : comma false = [','] :=
  rfl

/-- The remaining elements of an array, with its bracket. -/
inductive ElementTexts : Bool → List (List Char) → List Char → Prop where
  | close {first : Bool} {gap : List Char} (blank : IsBlank gap) :
      ElementTexts first [] (gap ++ [']'])
  | element {first : Bool} {gap before item text : List Char} {items : List (List Char)}
      (blank : IsBlank gap) (blankBefore : IsBlank before)
      (others : ElementTexts false items text) :
      ElementTexts first (item :: items) (gap ++ (comma first ++ (before ++ (item ++ text))))

/-- The remaining members of an object, with its brace.  `Key` says how a name is written. -/
inductive MemberTexts {κ : Type} (Key : κ → List Char → Prop) :
    Bool → List (κ × List Char) → List Char → Prop where
  | close {first : Bool} {gap : List Char} (blank : IsBlank gap) :
      MemberTexts Key first [] (gap ++ ['\x7d'])
  | member {first : Bool} {gap before after between key item text : List Char} {name : κ}
      {members : List (κ × List Char)} (blank : IsBlank gap) (blankBefore : IsBlank before)
      (isKey : Key name key) (blankAfter : IsBlank after) (blankBetween : IsBlank between)
      (others : MemberTexts Key false members text) :
      MemberTexts Key first ((name, item) :: members)
        (gap ++ (comma first ++ (before ++ (key ++ (after ++ ':' :: (between ++ (item ++ text)))))))

/-- A value of any shape. -/
inductive IsValue : List Char → Prop where
  | null : IsValue ['n', 'u', 'l', 'l']
  | yes : IsValue ['t', 'r', 'u', 'e']
  | no : IsValue ['f', 'a', 'l', 's', 'e']
  | number {text : List Char} (isNumber : IsNumber text) : IsValue text
  | string {text : List Char} (isString : IsString text) : IsValue text
  | array {items : List (List Char)} {text : List Char} (elements : ElementTexts true items text)
      (each : ∀ item ∈ items, IsValue item) : IsValue ('[' :: text)
  | object {members : List (Unit × List Char)} {text : List Char}
      (isObject : MemberTexts (fun _ => IsString) true members text)
      (each : ∀ member ∈ members, IsValue member.2) : IsValue ('\x7b' :: text)

end BridgeFinder.Json
