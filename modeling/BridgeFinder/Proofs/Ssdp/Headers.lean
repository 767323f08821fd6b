import BridgeFinder.Proofs.Text.Front
import BridgeFinder.Ssdp

/-!
# The headers of a response

What counts as the header of a location, as a version, and as a header that says who a bridge is, is
said here without reference to a reader; and every reader takes exactly such a header from the front
of a text.
-/

namespace BridgeFinder.Ssdp

open Text (Ends Folds IsGap ends_cons isCaseless_isBlank isCaseless_isDecimalDigit isDecimalDigit)

/-! ## Digits -/

/-- One or more decimal digits, of any script. -/
def IsNumber (text : List Char) : Prop :=
  text ≠ [] ∧ ∀ c ∈ text, isDecimalDigit c

/-- One to three decimal digits. -/
def IsGroup (text : List Char) : Prop :=
  IsNumber text ∧ text.length ≤ 3

/-- Four groups of digits with points between them. -/
def IsAddress (text : List Char) : Prop :=
  ∃ a b c d, IsGroup a ∧ IsGroup b ∧ IsGroup c ∧ IsGroup d ∧
    text = a ++ '.' :: (b ++ '.' :: (c ++ '.' :: d))

/-- A port after a colon, or nothing. -/
def IsPort (text : List Char) : Prop :=
  text = [] ∨ ∃ number, IsNumber number ∧ text = ':' :: number

/-- A version of two or three numbers. -/
def IsVersion (text : List Char) : Prop :=
  ∃ major minor, IsNumber major ∧ IsNumber minor ∧
    (text = major ++ '.' :: minor ∨
      ∃ patch, IsNumber patch ∧ text = major ++ '.' :: (minor ++ '.' :: patch))

section

variable {text digits rest ip number : List Char}

theorem takeDigits_eq_iff :
    takeDigits text = (digits, rest) ↔
      text = digits ++ rest ∧ (∀ c ∈ digits, isDecimalDigit c) ∧ Ends isDecimalDigit rest :=
  Text.span_eq_iff

theorem IsNumber.takeDigits (isNumber : IsNumber number) (ends : Ends isDecimalDigit rest) :
    Ssdp.takeDigits (number ++ rest) = (number, rest) :=
  takeDigits_eq_iff.mpr ⟨rfl, isNumber.2, ends⟩

theorem IsNumber.length_pos (isNumber : IsNumber number) : 1 ≤ number.length :=
  List.length_pos_iff.mpr isNumber.1

theorem isNumber_of_length_pos (long : 1 ≤ number.length)
    (inside : ∀ c ∈ number, isDecimalDigit c) : IsNumber number :=
  ⟨List.length_pos_iff.mp long, inside⟩

/-- A point ends a number. -/
theorem ends_point (rest : List Char) : Ends isDecimalDigit ('.' :: rest) :=
  ends_cons (by decide) rest

theorem digitGroup?_eq_some :
    digitGroup? text = some (digits, rest) ↔
      IsGroup digits ∧ text = digits ++ rest ∧ Ends isDecimalDigit rest := by
  constructor
  · intro read
    rcases taken : takeDigits text with ⟨front, after⟩
    rcases takeDigits_eq_iff.mp taken with ⟨rfl, inside, ends⟩
    simp only [digitGroup?, taken, Option.ite_none_right_eq_some, Option.some.injEq,
      Prod.mk.injEq] at read
    rcases read with ⟨⟨long, short⟩, rfl, rfl⟩
    exact ⟨⟨isNumber_of_length_pos long inside, short⟩, rfl, ends⟩
  · rintro ⟨⟨isNumber, short⟩, rfl, ends⟩
    simp [digitGroup?, isNumber.takeDigits ends, isNumber.length_pos, short]

theorem furtherGroup?_eq_some :
    furtherGroup? text = some (digits, rest) ↔
      ∃ group, digits = '.' :: group ∧ IsGroup group ∧ text = '.' :: (group ++ rest) ∧
        Ends isDecimalDigit rest := by
  constructor
  · intro read
    rw [furtherGroup?.eq_def] at read
    split at read
    next after =>
      rcases Option.map_eq_some_iff.mp read with ⟨⟨group, later⟩, taken, same⟩
      cases same
      rcases digitGroup?_eq_some.mp taken with ⟨isGroup, rfl, ends⟩
      exact ⟨group, rfl, isGroup, rfl, ends⟩
    next => cases read
  · rintro ⟨group, rfl, isGroup, rfl, ends⟩
    rw [furtherGroup?, digitGroup?_eq_some.mpr ⟨isGroup, rfl, ends⟩]
    rfl

/-- An address is read up to what is no digit any more. -/
theorem groups?_eq_some :
    groups? text = some (ip, rest) ↔
      IsAddress ip ∧ text = ip ++ rest ∧ Ends isDecimalDigit rest := by
  simp only [groups?, Option.bind_eq_bind, Option.bind_eq_some_iff, Prod.exists, Option.pure_def,
    Option.some.injEq, Prod.mk.injEq, digitGroup?_eq_some, furtherGroup?_eq_some]
  constructor
  · rintro ⟨a, _, ⟨isA, rfl, -⟩, _, _, ⟨b, rfl, isB, rfl, -⟩, _, _, ⟨c, rfl, isC, rfl, -⟩, _, _,
      ⟨d, rfl, isD, rfl, ends⟩, rfl, rfl⟩
    exact ⟨⟨a, b, c, d, isA, isB, isC, isD, by simp⟩, by simp, ends⟩
  · rintro ⟨⟨a, b, c, d, isA, isB, isC, isD, rfl⟩, rfl, ends⟩
    exact ⟨a, _, ⟨isA, by simp, ends_point _⟩, _, _, ⟨b, rfl, isB, rfl, ends_point _⟩, _, _,
      ⟨c, rfl, isC, rfl, ends_point _⟩, _, _, ⟨d, rfl, isD, rfl, ends⟩, by simp, rfl⟩

end

/-! ## The location -/

/-- The header of a location, with the address in it. -/
def IsLocation (ip text : List Char) : Prop :=
  ∃ name gap scheme port path, Folds "location:".toList name ∧ IsGap gap ∧
    Folds "http://".toList scheme ∧ IsAddress ip ∧ IsPort port ∧
    Folds "/description.xml".toList path ∧
    text = name ++ (gap ++ (scheme ++ (ip ++ (port ++ path))))

section

variable {text ip port rest : List Char}

/-- A port is skipped up to what continues it neither by a colon nor by a digit. -/
theorem IsPort.skipPort (isPort : IsPort port) (ends : Ends isDecimalDigit rest)
    (apart : Ends (· == ':') rest) : Ssdp.skipPort (port ++ rest) = rest := by
  rcases isPort with rfl | ⟨number, isNumber, rfl⟩
  · rw [List.nil_append, Ssdp.skipPort.eq_def]
    split
    · cases apart ':' rfl
    · rfl
  · rw [List.cons_append, Ssdp.skipPort, isNumber.takeDigits ends]
    split
    next same => exact absurd (congrArg Prod.fst same) isNumber.1
    next same => exact (congrArg Prod.snd same).symm

/-- What is skipped is a port. -/
theorem exists_skipPort (text : List Char) :
    ∃ port, IsPort port ∧ text = port ++ skipPort text := by
  rw [skipPort.eq_def]
  split
  next rest =>
    rcases taken : takeDigits rest with ⟨digits, after⟩
    rcases takeDigits_eq_iff.mp taken with ⟨rfl, inside, -⟩
    cases digits with
    | nil => exact ⟨[], .inl rfl, rfl⟩
    | cons c digits => exact ⟨_, .inr ⟨_, ⟨by simp, inside⟩, rfl⟩, rfl⟩
  next => exact ⟨[], .inl rfl, rfl⟩

/-- The header of a location is read exactly if the text begins with one. -/
theorem location?_eq_some :
    location? text = some (ip, rest) ↔
      ∃ location, IsLocation ip location ∧ text = location ++ rest := by
  simp only [location?, Option.bind_eq_bind, Option.bind_eq_some_iff, Prod.exists, Option.pure_def,
    Option.some.injEq, Prod.mk.injEq, Text.dropFolded?_eq_some, groups?_eq_some]
  constructor
  · rintro ⟨afterName, ⟨name, isName, rfl⟩, afterScheme, ⟨scheme, isScheme, trimmed⟩, _, afterIp,
      ⟨isAddress, rfl, -⟩, _, ⟨path, isPath, skipped⟩, rfl, rfl⟩
    rcases Text.exists_trimStart afterName with ⟨gap, isGap, cut, -⟩
    rcases exists_skipPort afterIp with ⟨port, isPort, skip⟩
    rw [trimmed, skip, skipped] at cut
    exact ⟨_, ⟨name, gap, scheme, port, path, isName, isGap, isScheme, isAddress, isPort, isPath,
      rfl⟩, by simp [cut]⟩
  · rintro ⟨_, ⟨name, gap, scheme, port, path, isName, isGap, isScheme, isAddress, isPort, isPath,
      rfl⟩, rfl⟩
    have schemeLetters : Folds ('h' :: "ttp://".toList) scheme := isScheme
    have pathLetters : Folds ('/' :: "description.xml".toList) path := isPath
    have trimmed := Text.trimStart_append isGap
      (schemeLetters.ends isCaseless_isBlank (by decide) (ip ++ (port ++ (path ++ rest))))
    have ends := pathLetters.ends isCaseless_isDecimalDigit (by decide) rest
    have skipped := isPort.skipPort ends (pathLetters.ends (by decide) (by decide) rest)
    refine ⟨_, ⟨name, isName, by simp⟩, _, ⟨scheme, isScheme, trimmed⟩, _, _,
      ⟨isAddress, rfl, ?_⟩, _, ⟨path, isPath, skipped⟩, rfl, rfl⟩
    rcases isPort with rfl | ⟨number, -, rfl⟩
    · exact ends
    · exact ends_cons (by decide) _

end

/-! ## The version -/

/-- A character of a version. -/
def isVersionChar (c : Char) : Bool :=
  isDecimalDigit c || c == '.'

section

variable {text version number rest : List Char}

/-- What is read for a version is one. -/
theorem isVersion_of_version? (read : version? text = some (version, rest)) :
    IsVersion version ∧ text = version ++ rest := by
  rw [version?.eq_def] at read
  split at read
  next => cases read
  next major afterMajor hasMajor taken =>
    rcases takeDigits_eq_iff.mp taken with ⟨rfl, majorDigits, -⟩
    have isMajor : IsNumber major := ⟨hasMajor, majorDigits⟩
    split at read
    next => cases read
    next minor afterMinor hasMinor taken =>
      rcases takeDigits_eq_iff.mp taken with ⟨rfl, minorDigits, -⟩
      have isMinor : IsNumber minor := ⟨hasMinor, minorDigits⟩
      split at read
      next =>
        cases read
        exact ⟨⟨major, minor, isMajor, isMinor, .inl rfl⟩, by simp⟩
      next patch _ hasPatch taken =>
        rcases takeDigits_eq_iff.mp taken with ⟨rfl, patchDigits, -⟩
        cases read
        have isPatch : IsNumber patch := ⟨hasPatch, patchDigits⟩
        exact ⟨⟨major, minor, isMajor, isMinor, .inr ⟨patch, isPatch, by simp⟩⟩, by simp⟩
    next minor _ hasMinor _ taken =>
      rcases takeDigits_eq_iff.mp taken with ⟨rfl, minorDigits, -⟩
      cases read
      exact ⟨⟨major, minor, isMajor, ⟨hasMinor, minorDigits⟩, .inl rfl⟩, by simp⟩
  next => cases read

/-- Digits that follow a number belong to it. -/
theorem IsNumber.append (isNumber : IsNumber number) (inside : ∀ c ∈ rest, isDecimalDigit c) :
    IsNumber (number ++ rest) :=
  ⟨List.append_ne_nil_of_left_ne_nil isNumber.1 rest,
    List.forall_mem_append.mpr ⟨isNumber.2, inside⟩⟩

theorem version?_eq {major minor after : List Char} (isMajor : IsNumber major)
    (isMinor : IsNumber minor) (ends : Ends isDecimalDigit after) :
    version? (major ++ '.' :: (minor ++ after)) =
      match after with
      | '.' :: rest =>
          match takeDigits rest with
          | ([], _) => some (major ++ '.' :: minor, '.' :: rest)
          | (patch, rest) => some (major ++ '.' :: minor ++ '.' :: patch, rest)
      | rest => some (major ++ '.' :: minor, rest) := by
  rcases List.exists_cons_of_ne_nil isMajor.1 with ⟨c, others, rfl⟩
  rcases List.exists_cons_of_ne_nil isMinor.1 with ⟨d, others, rfl⟩
  rw [version?, isMajor.takeDigits (ends_point _)]
  simp only [isMinor.takeDigits ends]
  cases after with
  | nil => rfl
  | cons e after =>
    by_cases point : e = '.'
    · subst point
      rfl
    · simp [point]

/-- A version is read with what continues it, which are digits and points. -/
theorem IsVersion.version? (isVersion : IsVersion version) (rest : List Char) :
    ∃ more after, Ssdp.version? (version ++ rest) = some (version ++ more, after) ∧
      rest = more ++ after ∧ ∀ c ∈ more, isVersionChar c := by
  rcases taken : takeDigits rest with ⟨digits, after⟩
  rcases takeDigits_eq_iff.mp taken with ⟨rfl, inside, ends⟩
  have digitChars : ∀ c ∈ digits, isVersionChar c := fun c member => by
    rw [isVersionChar, inside c member, Bool.true_or]
  rcases isVersion with ⟨major, minor, isMajor, isMinor, rfl | ⟨patch, isPatch, rfl⟩⟩
  · have read := version?_eq isMajor (isMinor.append inside) ends
    split at read
    next later _ =>
      rcases taken : takeDigits later with ⟨_ | ⟨c, patch⟩, others⟩
      · rw [taken] at read
        exact ⟨digits, '.' :: later, by simpa using read, rfl, digitChars⟩
      · rw [taken] at read
        rcases takeDigits_eq_iff.mp taken with ⟨rfl, patchDigits, -⟩
        refine ⟨digits ++ '.' :: c :: patch, others, by simpa using read, by simp, ?_⟩
        rw [List.forall_mem_append, List.forall_mem_cons]
        refine ⟨digitChars, by decide, fun d member => ?_⟩
        rw [isVersionChar, patchDigits d member, Bool.true_or]
    next => exact ⟨digits, after, by simpa using read, rfl, digitChars⟩
  · have read := version?_eq isMajor isMinor (ends_point (patch ++ (digits ++ after)))
    have whole := isPatch.append inside
    rw [← List.append_assoc] at read
    simp only [whole.takeDigits ends] at read
    rcases List.exists_cons_of_ne_nil isPatch.1 with ⟨c, others, rfl⟩
    exact ⟨digits, after, by simpa using read, rfl, digitChars⟩

end

/-! ## The identity -/

/-- The given number of hexadecimal digits, in either case. -/
def IsHexadecimal (count : Nat) (text : List Char) : Prop :=
  text.length = count ∧ ∀ c ∈ text, Text.isHexDigit c

/-- The header of the id, with the id in capitals. -/
def IsBridgeId (id : String) (text : List Char) : Prop :=
  ∃ name gap digits, Folds "hue-bridgeid:".toList name ∧ IsGap gap ∧ IsHexadecimal 16 digits ∧
    text = name ++ (gap ++ digits) ∧ id = Text.upper (String.ofList digits)

/-- The unique service name, with the id that its last twelve digits amount to. -/
def IsServiceName (id : String) (text : List Char) : Prop :=
  ∃ name gap scheme run digits, Folds "usn:".toList name ∧ IsGap gap ∧
    Folds "uuid:".toList scheme ∧ (∀ c ∈ run, isNameChar c) ∧ IsHexadecimal 12 digits ∧
    text = name ++ (gap ++ (scheme ++ (run ++ (digits ++ [':', ':'])))) ∧
    id = Text.upper (String.ofList (digits.take 6 ++ ['F', 'F', 'F', 'E'] ++ digits.drop 6))

/-- The numbers of the hexadecimal digits. -/
def hexadecimals : List Nat :=
  List.range' 48 10 ++ List.range' 65 6 ++ List.range' 97 6

section

variable {c : Char} {digits text : List Char} {id : String}

theorem toNat_mem_hexadecimals (isHex : Text.isHexDigit c) : c.toNat ∈ hexadecimals := by
  have range {first last : Char} (inside : first ≤ c ∧ c ≤ last) :
      first.toNat ≤ c.toNat ∧ c.toNat ≤ last.toNat :=
    ⟨UInt32.le_iff_toNat_le.mp inside.1, UInt32.le_iff_toNat_le.mp inside.2⟩
  simp only [hexadecimals, List.mem_append, List.mem_range'_1]
  rw [Text.isHexDigit, Text.hexValue?] at isHex
  split at isHex
  next digit =>
    rw [Char.isDigit, Bool.and_eq_true, decide_eq_true_eq, decide_eq_true_eq] at digit
    have numbers : 48 ≤ c.toNat ∧ c.toNat ≤ 57 := range (show '0' ≤ c ∧ c ≤ '9' from digit)
    omega
  next =>
    split at isHex
    next lower =>
      have numbers : 97 ≤ c.toNat ∧ c.toNat ≤ 102 := range lower
      omega
    next =>
      split at isHex
      next upper =>
        have numbers : 65 ≤ c.toNat ∧ c.toNat ≤ 70 := range upper
        omega
      next => cases isHex

/-- Every hexadecimal digit has a property that all have. -/
theorem of_isHexDigit (property : Char → Prop)
    (each : ∀ n ∈ hexadecimals, property (Char.ofNat n)) (isHex : Text.isHexDigit c) :
    property c := by
  simpa using each c.toNat (toNat_mem_hexadecimals isHex)

/-- Hexadecimal digits are no blanks. -/
theorem IsHexadecimal.ends {count : Nat} (isHexadecimal : IsHexadecimal (count + 1) digits)
    (rest : List Char) : Ends Text.isBlank (digits ++ rest) := by
  rcases isHexadecimal with ⟨long, inside⟩
  cases digits with
  | nil => cases long
  | cons c digits =>
      exact ends_cons (of_isHexDigit (Text.isBlank · = false) (by decide)
        (inside c List.mem_cons_self)) _

/-- The header of the id is read exactly if the text begins with one. -/
theorem bridgeId?_eq_some :
    bridgeId? text = some id ↔ ∃ last after, IsBridgeId id last ∧ text = last ++ after := by
  simp only [bridgeId?, Option.bind_eq_bind, Option.bind_eq_some_iff, Text.dropFolded?_eq_some,
    Option.ite_none_right_eq_some, List.all_eq_true, Option.some.injEq]
  constructor
  · rintro ⟨afterName, ⟨name, isName, rfl⟩, isHexadecimal, rfl⟩
    rcases Text.exists_trimStart afterName with ⟨gap, isGap, cut, -⟩
    refine ⟨name ++ (gap ++ (Text.trimStart afterName).take 16), (Text.trimStart afterName).drop 16,
      ⟨name, gap, _, isName, isGap, isHexadecimal, rfl, rfl⟩, ?_⟩
    simp only [List.append_assoc, List.take_append_drop]
    rw [← cut]
  · rintro ⟨_, after, ⟨name, gap, digits, isName, isGap, isHexadecimal, rfl, rfl⟩, rfl⟩
    have trimmed := Text.trimStart_append isGap (isHexadecimal.ends after)
    have taken : (Text.trimStart (gap ++ (digits ++ after))).take 16 = digits := by
      rw [trimmed, ← isHexadecimal.1, List.take_left]
    refine ⟨gap ++ (digits ++ after), ⟨name, isName, by simp⟩, ?_⟩
    rw [taken]
    exact ⟨isHexadecimal, rfl⟩

/-- Twelve hexadecimal digits are an address of a device. -/
theorem uniqueId?_of_isHexadecimal (isHexadecimal : IsHexadecimal 12 digits) :
    MacAddress.uniqueId? (String.ofList digits) =
      some (Text.upper
        (String.ofList (digits.take 6 ++ ['F', 'F', 'F', 'E'] ++ digits.drop 6))) := by
  have all : MacAddress.digits (String.ofList digits) = digits := by
    rw [MacAddress.digits, String.toList_ofList, List.filter_eq_self]
    exact isHexadecimal.2
  simp only [MacAddress.uniqueId?, all, isHexadecimal.1, if_true, Text.upper, String.toList_ofList]

/-- The unique service name is read exactly if the text begins with one. -/
theorem serviceName?_eq_some :
    serviceName? text = some id ↔ ∃ last after, IsServiceName id last ∧ text = last ++ after := by
  simp only [serviceName?, Option.bind_eq_bind, Option.bind_eq_some_iff, Text.dropFolded?_eq_some]
  constructor
  · rintro ⟨afterName, ⟨name, isName, rfl⟩, afterScheme, ⟨scheme, isScheme, trimmed⟩, read⟩
    rcases Text.exists_trimStart afterName with ⟨gap, isGap, cut, -⟩
    rcases spanned : afterScheme.span isNameChar with ⟨run, after⟩
    rcases Text.span_eq_iff.mp spanned with ⟨rfl, inside, -⟩
    simp only [spanned, Option.ite_none_right_eq_some, List.all_eq_true,
      List.isPrefixOf_iff_prefix] at read
    rcases read with ⟨⟨long, isHex, later, rfl⟩, read⟩
    have isHexadecimal : IsHexadecimal 12 (run.drop (run.length - 12)) := ⟨long, isHex⟩
    rw [uniqueId?_of_isHexadecimal isHexadecimal, Option.some.injEq] at read
    refine ⟨_, later, ⟨name, gap, scheme, run.take (run.length - 12), _, isName, isGap, isScheme,
      fun c member => inside c (List.mem_of_mem_take member), isHexadecimal, rfl, read.symm⟩, ?_⟩
    rw [cut, trimmed]
    simp only [List.append_assoc]
    rw [← List.append_assoc (run.take _), List.take_append_drop]
  · rintro ⟨_, after, ⟨name, gap, scheme, run, digits, isName, isGap, isScheme, inside,
      isHexadecimal, rfl, rfl⟩, rfl⟩
    have schemeLetters : Folds ('u' :: "uid:".toList) scheme := isScheme
    have trimmed := Text.trimStart_append isGap (schemeLetters.ends isCaseless_isBlank (by decide)
      (run ++ (digits ++ ':' :: ':' :: after)))
    -- a colon is no character of a name, so the digits are the last ones before it
    have spanned : (run ++ (digits ++ ':' :: ':' :: after)).span isNameChar =
        (run ++ digits, ':' :: ':' :: after) := by
      rw [Text.span_eq_iff, List.append_assoc, List.forall_mem_append]
      refine ⟨rfl, ⟨inside, fun c member => ?_⟩, ends_cons (by decide) _⟩
      rw [isNameChar, isHexadecimal.2 c member, Bool.true_or]
    have taken : (run ++ digits).drop ((run ++ digits).length - 12) = digits := by
      rw [List.length_append, isHexadecimal.1, Nat.add_sub_cancel, List.drop_left]
    refine ⟨_, ⟨name, isName, by simp⟩, _, ⟨scheme, isScheme, trimmed⟩, ?_⟩
    simp only [spanned, taken, uniqueId?_of_isHexadecimal isHexadecimal, List.all_eq_true,
      Option.ite_none_right_eq_some, and_true]
    exact ⟨isHexadecimal.1, isHexadecimal.2, rfl⟩

end

/-- Sixteen hexadecimal digits in capitals. -/
def IsUniqueId (id : String) : Prop :=
  id.toList.length = 16 ∧ ∀ c ∈ id.toList, c ∈ "0123456789ABCDEF".toList

section

variable {id : String} {text digits : List Char}

/-- Sixteen hexadecimal digits are an id, once they are in capitals. -/
theorem IsHexadecimal.isUniqueId (isHexadecimal : IsHexadecimal 16 digits) :
    IsUniqueId (Text.upper (String.ofList digits)) := by
  simp only [IsUniqueId, Text.upper, String.toList_ofList, List.length_map, List.forall_mem_map]
  exact ⟨isHexadecimal.1, fun c member =>
    of_isHexDigit (·.toUpper ∈ "0123456789ABCDEF".toList) (by decide) (isHexadecimal.2 c member)⟩

theorem IsBridgeId.isUniqueId (isBridgeId : IsBridgeId id text) : IsUniqueId id := by
  rcases isBridgeId with ⟨_, _, _, _, _, isHexadecimal, _, rfl⟩
  exact isHexadecimal.isUniqueId

theorem IsServiceName.isUniqueId (isServiceName : IsServiceName id text) : IsUniqueId id := by
  rcases isServiceName with ⟨_, _, _, _, digits, _, _, _, _, ⟨long, inside⟩, _, rfl⟩
  apply IsHexadecimal.isUniqueId
  constructor
  · simp [long]
  · simp only [List.forall_mem_append]
    exact ⟨⟨fun c member => inside c (List.mem_of_mem_take member), List.all_eq_true.mp rfl⟩,
      fun c member => inside c (List.mem_of_mem_drop member)⟩

/-- A reader recognizes headers that say who a bridge is: it reads a header exactly if a text begins
with one, and no header begins like a version. -/
structure Recognizes (identity? : List Char → Option String)
    (IsIdentity : String → List Char → Prop) : Prop where
  reads : ∀ text id, identity? text = some id ↔
    ∃ last after, IsIdentity id last ∧ text = last ++ after
  ends : ∀ id last after, IsIdentity id last → Ends isVersionChar (last ++ after)

theorem recognizes_bridgeId : Recognizes bridgeId? IsBridgeId where
  reads _ _ := bridgeId?_eq_some
  ends := by
    rintro id _ after ⟨name, gap, digits, isName, -, -, rfl, -⟩
    have letters : Folds ('h' :: "ue-bridgeid:".toList) name := isName
    rw [List.append_assoc]
    exact letters.ends (by decide) (by decide) _

theorem recognizes_serviceName : Recognizes serviceName? IsServiceName where
  reads _ _ := serviceName?_eq_some
  ends := by
    rintro id _ after ⟨name, gap, scheme, run, digits, isName, -, -, -, -, rfl, -⟩
    have letters : Folds ('u' :: "sn:".toList) name := isName
    rw [List.append_assoc]
    exact letters.ends (by decide) (by decide) _

end

end BridgeFinder.Ssdp
