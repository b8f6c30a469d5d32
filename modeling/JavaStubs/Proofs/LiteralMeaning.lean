import JavaStubs.Proofs.LiteralReading
import JavaStubs.Proofs.LiteralText
import JavaStubs.Proofs.NumberText

/-!
# Constants are read back

The text of a constant that is no floating point number is read as this constant and nothing of it
is left over. Between quotes this is proved unit by unit: the text of a unit takes one of four
forms, and each of them is read alone, whatever stands before or behind it. That a unit before it
might end in a backslash, or one behind it begin with a digit, is ruled out by what the forms are.
-/
namespace JavaStubs

namespace Text

/-! ## Units and the text that they encode -/

/-- The units of a text encode this text. -/
theorem ofUnits?_units (s : List Char) : ofUnits? (units s) = some s := by
  induction s with
  | nil => rfl
  | cons c s ih =>
    have hvalid : c.toNat < 0xd800 ∨ 0xdfff < c.toNat ∧ c.toNat < 0x110000 := c.valid
    rw [units_cons]
    by_cases hbasic : c.toNat < 0x10000
    · have hleading : ¬(0xd800 ≤ c.toNat ∧ c.toNat < 0xdc00) := by omega
      have htrailing : ¬(0xdc00 ≤ c.toNat ∧ c.toNat < 0xe000) := by omega
      rw [unitsOf, if_pos hbasic, List.singleton_append, ofUnits?.eq_def]
      simp only [if_neg hleading, if_neg htrailing, ih, Option.map_some, Char.ofNat_toNat]
    · rw [unitsOf, if_neg hbasic]
      generalize hoffset : c.toNat - 0x10000 = offset
      have hleading : 0xd800 ≤ 0xD800 + offset / 0x400 ∧ 0xD800 + offset / 0x400 < 0xdc00 := by
        omega
      have htrailing : 0xdc00 ≤ 0xDC00 + offset % 0x400 ∧ 0xDC00 + offset % 0x400 < 0xe000 := by
        omega
      have hcode : 0x10000 + ((0xD800 + offset / 0x400 - 0xd800) * 0x400 +
          (0xDC00 + offset % 0x400 - 0xdc00)) = c.toNat := by
        omega
      simp only [List.cons_append, List.nil_append, ofUnits?, if_pos hleading, if_pos htrailing,
        ih, Option.map_some, hcode, Char.ofNat_toNat]

theorem lt_of_mem_units {s : List Char} {unit : Nat} (h : unit ∈ units s) : unit < 0x10000 := by
  obtain ⟨c, -, hc⟩ := List.mem_flatMap.mp h
  exact lt_of_mem_unitsOf hc

/-- Basic characters are their own units. -/
theorem units_eq_map {s : List Char} (h : ∀ c ∈ s, c.toNat < 0x10000) :
    units s = s.map Char.toNat := by
  induction s with
  | nil => rfl
  | cons c s ih =>
    rw [List.forall_mem_cons] at h
    rw [units_cons, ih h.2, unitsOf, if_pos h.1, List.map_cons, List.singleton_append]

/-! ## Digits of a fixed number -/

theorem padded_one {base n : Nat} (h : n < base) : padded base 1 n = [n.digitChar] := by
  simp [padded, Nat.toDigits_of_lt_base h]

/-- One more digit: it is the last one, and the others are those of the quotient. -/
theorem padded_succ {base width : Nat} (hbase : 1 < base) (hwidth : 0 < width) (n : Nat) :
    padded base (width + 1) n = padded base width (n / base) ++ [(n % base).digitChar] := by
  rcases Nat.lt_or_ge n base with hsmall | hlarge
  · obtain ⟨width, rfl⟩ := Nat.exists_eq_add_one_of_ne_zero (Nat.ne_of_gt hwidth)
    rw [padded, padded, Nat.div_eq_of_lt hsmall, Nat.mod_eq_of_lt hsmall,
      Nat.toDigits_of_lt_base hsmall, Nat.toDigits_of_lt_base (by omega : 0 < base)]
    simp [List.replicate_succ']
  · rw [padded, padded, Nat.toDigits_of_base_le hbase hlarge]
    simp

theorem padded_octal {n : Nat} (h : n < 0x200) :
    padded 8 3 n = [(n / 64).digitChar, (n / 8 % 8).digitChar, (n % 8).digitChar] := by
  rw [padded_succ (by decide) (by decide), padded_succ (by decide) (by decide),
    padded_one (by omega)]
  simp only [Nat.div_div_eq_div_mul]
  rfl

theorem padded_hexadecimal {n : Nat} (h : n < 0x10000) :
    padded 16 4 n = [(n / 4096).digitChar, (n / 256 % 16).digitChar, (n / 16 % 16).digitChar,
      (n % 16).digitChar] := by
  rw [padded_succ (by decide) (by decide), padded_succ (by decide) (by decide),
    padded_succ (by decide) (by decide), padded_one (by omega)]
  simp only [Nat.div_div_eq_div_mul]
  rfl

end Text

namespace Source

/-! ## Escapes with code points -/

/-- A text without backslashes has no escapes. -/
theorem translate?_append {text : List Char} (h : '\\' ∉ text) (rest : List Char) :
    translate? .outside (text ++ rest) =
      (translate? .outside rest).map (Text.units text ++ ·) := by
  induction text with
  | nil => simp
  | cons c text ih =>
    rw [List.mem_cons, not_or] at h
    rw [List.cons_append, translate?, if_neg (Ne.symm h.1), ih h.2, Option.map_map]
    simp [Function.comp_def]

/-- A backslash with another sign than the marker is not translated, and the sign begins no escape
even if it is a backslash. -/
theorem translate?_backslash {sign : Char} (h : sign ≠ 'u') (rest : List Char) :
    translate? .outside ('\\' :: sign :: rest) =
      (translate? .outside rest).map ('\\'.toNat :: Text.unitsOf sign ++ ·) := by
  rw [translate?, if_pos rfl, translate?, if_neg h]

theorem translate?_codePoint {unit : Nat} (h : unit < 0x10000) (rest : List Char) :
    translate? .outside ('\\' :: 'u' :: Text.padded 16 4 unit ++ rest) =
      (translate? .outside rest).map ([unit] ++ ·) := by
  have hmarker : (unit / 4096).digitChar ≠ 'u' := by
    have hall : ∀ digit < 16, digit.digitChar ≠ 'u' := by decide
    exact hall _ (by omega)
  have hdigit {digit : Nat} (hlt : digit < 16) (value : Nat) :=
    Text.appendDigit?_digitChar (Nat.le_refl 16) hlt value
  have hvalue : (((0 * 16 + unit / 4096) * 16 + unit / 256 % 16) * 16 + unit / 16 % 16) * 16 +
      unit % 16 = unit := by
    omega
  rw [Text.padded_hexadecimal h]
  simp only [List.cons_append, List.nil_append, translate?, if_true, if_neg hmarker,
    hdigit (by omega : unit / 4096 < 16), hdigit (by omega : unit / 256 % 16 < 16),
    hdigit (by omega : unit / 16 % 16 < 16), hdigit (by omega : unit % 16 < 16),
    Option.bind_some, hvalue]
  rfl

/-- A backslash and octal digits are not translated. The first digit stands behind the backslash,
so it must not be the marker. -/
theorem translate?_octal {unit : Nat} (h : unit < 0x80) (rest : List Char) :
    translate? .outside ('\\' :: Text.padded 8 3 unit ++ rest) =
      (translate? .outside rest).map ('\\'.toNat :: Text.units (Text.padded 8 3 unit) ++ ·) := by
  have hdigit : ∀ digit < 8, digit.digitChar ≠ 'u' ∧ '\\' ≠ digit.digitChar := by decide
  have hmarker : (unit / 64).digitChar ≠ 'u' := (hdigit _ (by omega)).1
  have hplain : '\\' ∉ [(unit / 8 % 8).digitChar, (unit % 8).digitChar] := by
    simp [(hdigit (unit / 8 % 8) (by omega)).2, (hdigit (unit % 8) (by omega)).2]
  rw [Text.padded_octal (by omega), List.cons_append, List.cons_append,
    translate?_backslash hmarker, translate?_append hplain, Option.map_map]
  simp [Function.comp_def]

/-! ## Escapes of characters and strings -/

theorem readEscape?_named {sign unit : Nat} (h : namedEscapes.lookup sign = some unit)
    (rest : List Nat) : readEscape? (sign :: rest) = some (unit, rest) := by
  simp only [readEscape?, h]

/-- Three octal digits are all read, and nothing else, whatever comes behind them. -/
theorem readEscape?_octal {first second third : Nat} (hfirst : first < 4) (hsecond : second < 8)
    (hthird : third < 8) (rest : List Nat) :
    readEscape? ((48 + first) :: (48 + second) :: (48 + third) :: rest) =
      some ((first * 8 + second) * 8 + third, rest) := by
  have hdigit : ∀ digit < 8, namedEscapes.lookup (48 + digit) = none ∧
      isOctalDigit (48 + digit) = true := by
    decide
  have hlow : 48 + first ≤ '3'.toNat := by
    have : '3'.toNat = 51 := by decide
    omega
  have hdigits : octalDigits ((48 + first) :: (48 + second) :: (48 + third) :: rest) =
      [48 + first, 48 + second, 48 + third] := by
    simp only [octalDigits, List.head?_cons, Option.any_some, decide_eq_true hlow, if_true,
      List.takeWhile_cons, hdigit first (by omega), hdigit second hsecond, hdigit third hthird,
      List.take_succ_cons, List.take_zero]
  have hvalue : octalValue [48 + first, 48 + second, 48 + third] =
      (first * 8 + second) * 8 + third := by
    have : '0'.toNat = 48 := by decide
    simp only [octalValue, List.foldl_cons, List.foldl_nil]
    omega
  simp only [readEscape?, hdigit first (by omega), hdigits, hvalue]
  rfl

/-- A unit in octal digits is read back. -/
theorem readEscape?_padded {unit : Nat} (h : unit < 0x80) (rest : List Nat) :
    readEscape? (Text.units (Text.padded 8 3 unit) ++ rest) = some (unit, rest) := by
  have hdigit : ∀ digit < 8, Text.unitsOf digit.digitChar = [48 + digit] := by decide
  have hvalue : (unit / 64 * 8 + unit / 8 % 8) * 8 + unit % 8 = unit := by omega
  rw [Text.padded_octal (by omega)]
  simp only [Text.units_cons, Text.units_nil, hdigit (unit / 64) (by omega),
    hdigit (unit / 8 % 8) (by omega), hdigit (unit % 8) (by omega), List.cons_append,
    List.nil_append]
  rw [readEscape?_octal (by omega) (by omega) (by omega), hvalue]

variable {quote : Char}

theorem scan?_plain {unit : Nat} (hquote : unit ≠ quote.toNat) (hend : isLineEnd unit = false)
    (hslash : unit ≠ '\\'.toNat) (rest : List Nat) :
    scan? quote.toNat (unit :: rest) =
      (scan? quote.toNat rest).map fun (read, after) => ([unit] ++ read, after) := by
  rw [scan?, if_neg hquote, if_neg (by simp [hend]), if_neg hslash]
  rfl

theorem scan?_escape (hquote : quote ≠ '\\') {units after : List Nat} {unit : Nat}
    (h : readEscape? units = some (unit, after)) :
    scan? quote.toNat ('\\'.toNat :: units) =
      (scan? quote.toNat after).map fun (read, after) => ([unit] ++ read, after) := by
  have hne : '\\'.toNat ≠ quote.toNat := fun heq => hquote (Char.toNat_inj.mp heq.symm)
  rw [scan?, if_neg hne, if_neg (by decide), if_pos rfl]
  split <;> rename_i hread
  · simp [h] at hread
  · obtain ⟨rfl, rfl⟩ := Prod.mk.inj (Option.some.inj (h.symm.trans hread))
    rfl

/-! ## The four forms of a unit -/

/-- How a unit is written between such quotes. -/
inductive UnitForm (quote : Char) (unit : Nat) : List Char → Prop
  | plain {c : Char} (hunit : c.toNat = unit) (hlow : 0x20 ≤ unit) (hhigh : unit < 0x7f)
      (hquote : c ≠ quote) (hslash : c ≠ '\\') : UnitForm quote unit [c]
  | named {sign : Char} (hsign : (sign.toNat, unit) ∈ namedEscapes) :
      UnitForm quote unit ['\\', sign]
  | octal (hhigh : unit < 0x80) : UnitForm quote unit ('\\' :: Text.padded 8 3 unit)
  | codePoint (hlow : 0x7f < unit) (hhigh : unit < 0x10000) :
      UnitForm quote unit ('\\' :: 'u' :: Text.padded 16 4 unit)

theorem unitForm_unitText (hquote : quote = '"' ∨ quote = '\'') {unit : Nat}
    (h : unit < 0x10000) : UnitForm quote unit (unitText quote unit) := by
  unfold unitText
  split
  · next hunit => exact hunit ▸ .named (by decide)
  split
  · next hunit => exact hunit ▸ .named (by decide)
  split
  · next hunit => exact hunit ▸ .named (by decide)
  split
  · next hunit => exact hunit ▸ .named (by decide)
  split
  · next hunit => exact hunit ▸ .named (by decide)
  split
  · next hunit => exact hunit ▸ .named (by decide)
  next hslash =>
  split
  · next hunit => rcases hquote with rfl | rfl <;> exact hunit ▸ .named (by decide)
  next hne =>
  split
  · next hcontrol =>
    simp only [Bool.or_eq_true, decide_eq_true_eq] at hcontrol
    exact .octal (by omega)
  next hcontrol =>
  simp only [Bool.or_eq_true, decide_eq_true_eq, not_or] at hcontrol
  split
  · next hlt =>
    have hunit := toNat_ofNat_of_lt hlt
    refine .plain hunit (by omega) hlt ?_ ?_
    · rintro rfl
      exact hne hunit.symm
    · intro heq
      rw [heq] at hunit
      exact hslash hunit.symm
  · exact .codePoint (by omega) h

/-- Whatever stands before or behind it, a text between such quotes stands for some units: it is
translated alone, and what it is translated to is read alone. -/
def ReadsAs (quote : Char) (text : List Char) (value : List Nat) : Prop :=
  ∃ units,
    (∀ rest, translate? .outside (text ++ rest) =
      (translate? .outside rest).map (units ++ ·)) ∧
    ∀ rest, scan? quote.toNat (units ++ rest) =
      (scan? quote.toNat rest).map fun (read, after) => (value ++ read, after)

theorem ReadsAs.nil : ReadsAs quote [] [] := ⟨[], by simp, by simp⟩

theorem ReadsAs.append {text text' : List Char} {value value' : List Nat}
    (h : ReadsAs quote text value) (h' : ReadsAs quote text' value') :
    ReadsAs quote (text ++ text') (value ++ value') := by
  obtain ⟨units, htranslate, hscan⟩ := h
  obtain ⟨units', htranslate', hscan'⟩ := h'
  refine ⟨units ++ units', fun rest => ?_, fun rest => ?_⟩
  · rw [List.append_assoc, htranslate, htranslate', Option.map_map]
    simp [Function.comp_def]
  · rw [List.append_assoc, hscan, hscan', Option.map_map]
    simp [Function.comp_def]

theorem isLineEnd_of_le {unit : Nat} (h : 0x20 ≤ unit) : isLineEnd unit = false := by
  have : '\n'.toNat = 10 ∧ '\r'.toNat = 13 := by decide
  simp only [isLineEnd, Bool.or_eq_false_iff, decide_eq_false_iff_not]
  omega

/-- Each form stands for its unit. -/
theorem UnitForm.readsAs (hquote : quote = '"' ∨ quote = '\'') {unit : Nat} {text : List Char}
    (h : UnitForm quote unit text) : ReadsAs quote text [unit] := by
  have hslash : quote ≠ '\\' := by rcases hquote with rfl | rfl <;> decide
  cases h with
  | @plain c hunit hlow hhigh hne hc =>
    have htext : Text.units [c] = [unit] := by
      rw [Text.units_eq_map (by simp; omega), List.map_singleton, hunit]
    refine ⟨[unit], fun rest => ?_, fun rest => ?_⟩
    · rw [translate?_append (by simpa using hc.symm), htext]
    · exact scan?_plain (hunit ▸ fun heq => hne (Char.toNat_inj.mp heq)) (isLineEnd_of_le hlow)
        (hunit ▸ fun heq => hc (Char.toNat_inj.mp heq)) rest
  | @named sign hsign =>
    have hall : ∀ escape ∈ namedEscapes, escape.1 ≠ 'u'.toNat ∧ escape.1 < 0x80 ∧
        namedEscapes.lookup escape.1 = some escape.2 := by
      decide
    obtain ⟨hmarker, hbasic, hlookup⟩ := hall _ hsign
    have htext : Text.unitsOf sign = [sign.toNat] := if_pos (by omega)
    refine ⟨['\\'.toNat, sign.toNat], fun rest => ?_, fun rest => ?_⟩
    · have hne : sign ≠ 'u' := fun heq => hmarker (heq ▸ rfl)
      rw [List.cons_append, List.singleton_append, translate?_backslash hne, htext]
    · exact scan?_escape hslash (readEscape?_named hlookup rest)
  | octal hhigh =>
    exact ⟨'\\'.toNat :: Text.units (Text.padded 8 3 unit), translate?_octal hhigh,
      fun rest => scan?_escape hslash (readEscape?_padded hhigh rest)⟩
  | codePoint hlow hhigh =>
    have hquoteLow : quote.toNat < 0x7f := by rcases hquote with rfl | rfl <;> decide
    have hslashLow : '\\'.toNat < 0x7f := by decide
    exact ⟨[unit], translate?_codePoint hhigh,
      scan?_plain (by omega) (isLineEnd_of_le (by omega)) (by omega)⟩

/-- The texts of units stand for these units. -/
theorem readsAs_unitTexts (hquote : quote = '"' ∨ quote = '\'') {units : List Nat}
    (h : ∀ unit ∈ units, unit < 0x10000) :
    ReadsAs quote (units.flatMap (unitText quote)) units := by
  induction units with
  | nil => exact .nil
  | cons unit units ih =>
    rw [List.forall_mem_cons] at h
    exact ((unitForm_unitText hquote h.1).readsAs hquote).append (ih h.2)

/-! ## Characters and strings -/

/-- A constant that begins with a quote, a sign or a digit is no word. -/
theorem readUnits?_of_lt {first : Nat} (h : first < 'a'.toNat) (rest : List Nat) :
    readUnits? (first :: rest) = readWordless? (first :: rest) := by
  have hword : ∀ word : List Nat, (∀ letter ∈ word.head?, 'a'.toNat ≤ letter) →
      first :: rest ≠ word := by
    rintro _ hletter rfl
    have := hletter first rfl
    omega
  rw [readUnits?, if_neg (hword _ (by decide)), if_neg (hword _ (by decide)),
    if_neg (hword _ (by decide))]

/-- Between quotes, the whole text up to the closing one is read. -/
theorem readLiteral?_quoted (hquote : quote = '"' ∨ quote = '\'') {text : List Char}
    {value : List Nat} (h : ReadsAs quote text value) :
    ∃ units, scan? quote.toNat units = some (value, []) ∧
      readLiteral? (quote :: text ++ [quote]) = readWordless? (quote.toNat :: units) := by
  obtain ⟨units, htranslate, hscan⟩ := h
  have hslash : quote ≠ '\\' := by rcases hquote with rfl | rfl <;> decide
  have hlow : quote.toNat < 'a'.toNat := by rcases hquote with rfl | rfl <;> decide
  have hunits : Text.unitsOf quote = [quote.toNat] := by rcases hquote with rfl | rfl <;> rfl
  refine ⟨units ++ [quote.toNat], ?_, ?_⟩
  · simp [hscan, scan?]
  · rw [readLiteral?, List.cons_append, translate?, if_neg hslash, htranslate, translate?,
      if_neg hslash, translate?, hunits]
    exact readUnits?_of_lt hlow _

/-- A string is read back as its units. -/
theorem readLiteral?_stringText (s : List Char) :
    readLiteral? (stringText s) = some (.string (Text.units s)) := by
  obtain ⟨units, hscan, hread⟩ := readLiteral?_quoted (.inl rfl)
    (readsAs_unitTexts (.inl rfl) fun _ => Text.lt_of_mem_units)
  rw [stringText, hread, readWordless?, if_pos rfl, hscan]

/-- The unit of a character is the character itself if one unit suffices. -/
theorem characterUnit_eq (c : Char) :
    characterUnit c = if c.toNat < 0x10000 then c.toNat else 0xfffd := by
  unfold characterUnit Text.unitsOf
  by_cases hbasic : c.toNat < 0x10000
  · simp only [if_pos hbasic]
  · simp only [if_neg hbasic]

theorem characterUnit_lt (c : Char) : characterUnit c < 0x10000 := by
  rw [characterUnit_eq]
  split <;> omega

/-- A character is read back as its unit. -/
theorem readLiteral?_characterText (c : Char) :
    readLiteral? (characterText c) = some (.char (characterUnit c)) := by
  obtain ⟨units, hscan, hread⟩ := readLiteral?_quoted (.inr rfl)
    ((unitForm_unitText (.inr rfl) (characterUnit_lt c)).readsAs (.inr rfl))
  rw [characterText, hread, readWordless?, if_neg (by decide), if_pos rfl, hscan]

/-- Different strings have different texts. -/
theorem literalText_string_inj {s t : String}
    (h : literalText (.string s) = literalText (.string t)) : s = t := by
  have hread (s : String) : readLiteral? (literalText (.string s)).toList =
      some (.string (Text.units s.toList)) := by
    rw [literalText, String.toList_ofList, readLiteral?_stringText]
  have hunits : Text.units s.toList = Text.units t.toList := by
    have := (hread s).symm.trans (h ▸ hread t)
    simpa using this
  have hchars : s.toList = t.toList := by
    have := (Text.ofUnits?_units s.toList).symm.trans (hunits ▸ Text.ofUnits?_units t.toList)
    simpa using this
  exact String.toList_inj.mp hchars

theorem isPrintableAscii_digitChar {digit : Nat} (h : digit < 16) :
    Text.isPrintableAscii digit.digitChar = true := by
  have hall : ∀ digit < 16, Text.isPrintableAscii digit.digitChar = true := by decide
  exact hall digit h

theorem UnitForm.all_isPrintableAscii {unit : Nat} {text : List Char}
    (h : UnitForm quote unit text) : text.all Text.isPrintableAscii = true := by
  have hslash : Text.isPrintableAscii '\\' = true := by decide
  cases h with
  | plain hunit hlow hhigh =>
    simp only [List.all_cons, List.all_nil, Bool.and_true, Text.isPrintableAscii, hunit,
      Bool.and_eq_true, decide_eq_true_eq]
    omega
  | named hsign =>
    have hall : ∀ escape ∈ namedEscapes, 0x20 ≤ escape.1 ∧ escape.1 ≤ 0x7e := by decide
    obtain ⟨hlow, hhigh⟩ := hall _ hsign
    simp [Text.isPrintableAscii, hlow, hhigh]
  | octal hhigh =>
    rw [Text.padded_octal (by omega)]
    simp [hslash, isPrintableAscii_digitChar (by omega : unit / 64 < 16),
      isPrintableAscii_digitChar (by omega : unit / 8 % 8 < 16),
      isPrintableAscii_digitChar (by omega : unit % 8 < 16)]
  | codePoint hlow hhigh =>
    have hmarker : Text.isPrintableAscii 'u' = true := by decide
    rw [Text.padded_hexadecimal hhigh]
    simp [hslash, hmarker, isPrintableAscii_digitChar (by omega : unit / 4096 < 16),
      isPrintableAscii_digitChar (by omega : unit / 256 % 16 < 16),
      isPrintableAscii_digitChar (by omega : unit / 16 % 16 < 16),
      isPrintableAscii_digitChar (by omega : unit % 16 < 16)]

theorem all_isPrintableAscii_unitText (hquote : quote = '"' ∨ quote = '\'') {unit : Nat}
    (h : unit < 0x10000) : (unitText quote unit).all Text.isPrintableAscii = true :=
  (unitForm_unitText hquote h).all_isPrintableAscii

theorem all_isPrintableAscii_quoted (hquote : quote = '"' ∨ quote = '\'') {text : List Char}
    (h : text.all Text.isPrintableAscii = true) :
    (quote :: text ++ [quote]).all Text.isPrintableAscii = true := by
  have hprintable : Text.isPrintableAscii quote = true := by
    rcases hquote with rfl | rfl <;> decide
  simp [hprintable, h]

theorem all_isPrintableAscii_stringText (s : List Char) :
    (stringText s).all Text.isPrintableAscii = true := by
  refine all_isPrintableAscii_quoted (.inl rfl) ?_
  rw [List.all_flatMap, List.all_eq_true]
  exact fun _ hunit => all_isPrintableAscii_unitText (.inl rfl) (Text.lt_of_mem_units hunit)

theorem all_isPrintableAscii_characterText (c : Char) :
    (characterText c).all Text.isPrintableAscii = true :=
  all_isPrintableAscii_quoted (.inr rfl)
    (all_isPrintableAscii_unitText (.inr rfl) (characterUnit_lt c))

/-! ## Integers -/

/-- The text of an integer: its sign, its digits and the suffix. -/
theorem toList_integerText (value : Int) :
    (integerText value).toList = (if value < 0 then ['-'] else []) ++
      Nat.toDigits 10 value.natAbs ++ if fitsInt value then [] else ['L'] := by
  have htext : (toString value).toList =
      (if value < 0 then ['-'] else []) ++ Nat.toDigits 10 value.natAbs := by
    rw [Int.toString_eq_repr, Int.repr_eq_if]
    split <;> rename_i hsign
    · rw [if_neg (by omega), List.nil_append, Nat.toList_repr, ← Int.natAbs_of_nonneg hsign]
      rfl
    · rw [if_pos (by omega), String.toList_append, Nat.toList_repr]
      have : (-value).toNat = value.natAbs := by omega
      rw [this]
      rfl
  unfold integerText
  split
  · rw [htext, List.append_nil]
  · rw [String.toList_append, htext]
    rfl

theorem readInteger?_toDigits (negative : Bool) (n : Nat) {suffix : List Char}
    (h : ∀ c ∈ suffix.head?, c.isDigit = false) :
    readInteger? negative (Nat.toDigits 10 n ++ suffix) =
      typeInteger? (if negative then -n else n) suffix := by
  have htake : (Nat.toDigits 10 n ++ suffix).takeWhile Char.isDigit = Nat.toDigits 10 n :=
    Text.takeWhile_append (fun c => Nat.isDigit_of_mem_toDigits (by decide) (by decide)) h
  have hdrop : (Nat.toDigits 10 n ++ suffix).dropWhile Char.isDigit = suffix := by
    have hsplit : (Nat.toDigits 10 n ++ suffix).takeWhile Char.isDigit ++ _ = _ :=
      List.takeWhile_append_dropWhile
    rw [htake] at hsplit
    exact List.append_cancel_left hsplit
  have hzero : ¬((Nat.toDigits 10 n).head? = some '0' ∧ 1 < (Nat.toDigits 10 n).length) := by
    rintro ⟨hhead, hlength⟩
    rcases Nat.eq_zero_or_pos n with rfl | hpos
    · simp at hlength
    · exact Json.Numeral.head?_toDigits hpos hhead
  simp only [readInteger?, htake, hdrop, if_neg hzero,
    Text.number?_toDigits (by decide : 1 < 10) (by decide) n, Option.bind_some]

/-- A text without escapes is read from its own characters. -/
theorem readLiteral?_of_basic {text : List Char} (hslash : '\\' ∉ text)
    (hbasic : ∀ c ∈ text, c.toNat < 0x10000) :
    readLiteral? text = readUnits? (text.map Char.toNat) := by
  have htranslate := translate?_append hslash []
  rw [List.append_nil, translate?, Option.map_some, List.append_nil] at htranslate
  rw [readLiteral?, htranslate, Option.bind_some, Text.units_eq_map hbasic]

theorem toNat_of_isDigit {c : Char} (h : c.isDigit = true) : 48 ≤ c.toNat ∧ c.toNat ≤ 57 := by
  simpa [Char.isDigit, UInt32.le_iff_toNat_le] using h

/-- A signed number with its suffix is read as an integer. -/
theorem readUnits?_signed (value : Int) {suffix : List Char}
    (h : ∀ c ∈ suffix.head?, c.isDigit = false) :
    readUnits? (((if value < 0 then ['-'] else []) ++ Nat.toDigits 10 value.natAbs ++
      suffix).map Char.toNat) = typeInteger? value suffix := by
  have hback (chars : List Char) : (chars.map Char.toNat).map Char.ofNat = chars := by
    simp [Function.comp_def]
  by_cases hnegative : value < 0
  · have hvalue : -(value.natAbs : Int) = value := by omega
    have hread := readInteger?_toDigits true value.natAbs h
    rw [if_pos rfl, hvalue] at hread
    rw [if_pos hnegative, List.singleton_append, List.cons_append, List.map_cons,
      readUnits?_of_lt (by decide), readWordless?, if_neg (by decide), if_neg (by decide),
      if_pos rfl, hback, hread]
  · have hvalue : (value.natAbs : Int) = value := by omega
    have hread := readInteger?_toDigits false value.natAbs h
    rw [if_neg (by decide), hvalue] at hread
    rw [if_neg hnegative, List.nil_append]
    obtain ⟨first, rest, hdigits⟩ :=
      List.exists_cons_of_ne_nil (Nat.toDigits_ne_nil (n := value.natAbs) (b := 10))
    -- Digits come behind the quotes and the sign, and before the letters.
    have hfirst := toNat_of_isDigit (Nat.isDigit_of_mem_toDigits (by decide : 0 < 10) (by decide)
      (hdigits ▸ List.mem_cons_self))
    have hsigns : '"'.toNat = 34 ∧ '\''.toNat = 39 ∧ '-'.toNat = 45 ∧ 'a'.toNat = 97 := by decide
    rw [hdigits] at hread ⊢
    rw [List.cons_append, List.map_cons, readUnits?_of_lt (by omega), readWordless?,
      if_neg (by omega), if_neg (by omega), if_neg (by omega), ← List.map_cons, hback,
      ← List.cons_append, hread]

/-- An integer of 64 bits is read back with the least type that has it. -/
theorem readLiteral?_integerText {value : Int} (h : fitsBits 64 value = true) :
    readLiteral? (integerText value).toList =
      some (if fitsInt value then .int value else .long value) := by
  have hslash : '\\' ∉ (integerText value).toList :=
    not_mem_integerText ⟨by decide +kernel, by decide⟩ value
  have hbasic : ∀ c ∈ (integerText value).toList, c.toNat < 0x10000 := by
    rw [toList_integerText]
    intro c hc
    rcases List.mem_append.mp hc with hc | hc
    · rcases List.mem_append.mp hc with hc | hc
      · split at hc <;> simp_all
      · have := toNat_of_isDigit (Nat.isDigit_of_mem_toDigits (by decide) (by decide) hc)
        omega
    · split at hc <;> simp_all
  have hsuffix : ∀ c ∈ (if fitsInt value then [] else ['L']).head?, c.isDigit = false := by
    split
    · simp
    · rintro _ ⟨⟩
      decide
  rw [readLiteral?_of_basic hslash hbasic, toList_integerText, readUnits?_signed value hsuffix]
  by_cases hint : fitsInt value = true
  · have hbits : fitsBits 32 value = true := hint
    simp only [if_pos hint, typeInteger?, if_pos hbits]
  · simp only [if_neg hint, typeInteger?, if_pos h]

/-- A suffix stands exactly behind the integers that are too great for the type `int`. -/
theorem getLast?_integerText (value : Int) :
    (integerText value).toList.getLast? = some 'L' ↔ ¬fitsInt value = true := by
  rw [toList_integerText]
  by_cases hint : fitsInt value = true
  · refine iff_of_false (fun hlast => ?_) (not_not_intro hint)
    have hmem : 'L' ∈ Nat.toDigits 10 value.natAbs := by
      rw [if_pos hint, List.append_nil, List.getLast?_append,
        List.getLast?_eq_some_getLast Nat.toDigits_ne_nil, Option.some_or] at hlast
      exact Option.some.inj hlast ▸ List.getLast_mem _
    exact absurd (Nat.isDigit_of_mem_toDigits (by decide) (by decide) hmem) (by decide)
  · simp [hint]

theorem fitsInt_iff (value : Int) :
    fitsInt value = true ↔ -0x80000000 ≤ value ∧ value ≤ 0x7fffffff := by
  have : Int.pow 2 31 = 0x80000000 := by decide
  simp only [fitsInt, this, Bool.and_eq_true, decide_eq_true_eq]
  omega

theorem fitsBits_toInt (value : Int64) : fitsBits 64 value.toInt = true := by
  have hlow := value.le_toInt
  have hhigh := value.toInt_lt
  have : Int.pow 2 63 = 0x8000000000000000 := by decide
  simp only [fitsBits, this, Bool.and_eq_true, decide_eq_true_eq]
  omega

/-! ## The constants -/

/-- The texts of the constants other than floating point numbers are read back, and nothing of them
is left. An integer has the type `int` if this type has its value, and else a suffix and the type
`long`. A character that one unit does not suffice for is read as the replacement character; a
string is read as the units that encode it. Characters and strings come out as printable ASCII, and
different strings as different texts. -/
theorem literalText_reads_back :
    readLiteral? (literalText .null).toList = some .null ∧
    (∀ value : Bool, readLiteral? (literalText (.bool value)).toList = some (.bool value)) ∧
    (∀ value : Int64,
      readLiteral? (literalText (.int value)).toList =
          some (if -0x80000000 ≤ value.toInt ∧ value.toInt ≤ 0x7fffffff then .int value.toInt
            else .long value.toInt) ∧
        ((literalText (.int value)).toList.getLast? = some 'L' ↔
          ¬(-0x80000000 ≤ value.toInt ∧ value.toInt ≤ 0x7fffffff))) ∧
    (∀ c : Char,
      readLiteral? (literalText (.char c)).toList =
          some (.char (if c.toNat < 0x10000 then c.toNat else 0xfffd)) ∧
        (literalText (.char c)).toList.all Text.isPrintableAscii = true) ∧
    (∀ s : String,
      readLiteral? (literalText (.string s)).toList = some (.string (Text.units s.toList)) ∧
        Text.ofUnits? (Text.units s.toList) = some s.toList ∧
        (literalText (.string s)).toList.all Text.isPrintableAscii = true) ∧
    ∀ s t : String, literalText (.string s) = literalText (.string t) ↔ s = t := by
  refine ⟨by decide, fun value => ?bool, fun value => ⟨?int, ?suffix⟩, fun c => ⟨?char, ?charText⟩,
    fun s => ⟨?string, Text.ofUnits?_units _, ?stringText⟩,
    fun s t => ⟨literalText_string_inj, fun h => h ▸ rfl⟩⟩
  case bool => cases value <;> decide
  case int =>
    rw [literalText, readLiteral?_integerText (fitsBits_toInt value)]
    simp only [fitsInt_iff]
  case suffix => rw [literalText, getLast?_integerText, fitsInt_iff]
  case char => rw [literalText, String.toList_ofList, readLiteral?_characterText, characterUnit_eq]
  case charText => rw [literalText, String.toList_ofList, all_isPrintableAscii_characterText]
  case string => rw [literalText, String.toList_ofList, readLiteral?_stringText]
  case stringText => rw [literalText, String.toList_ofList, all_isPrintableAscii_stringText]

end Source

end JavaStubs
