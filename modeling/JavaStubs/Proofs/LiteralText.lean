import JavaStubs.Proofs.Scanning

/-!
# Characters in constants

The text of a number has digits, signs and a few letters only. A character or a string is written
unit by unit between its quotes, and the scanner for balanced braces stays in the literal over each
unit: an escape takes its first character, and no other character of it is a quote or a backslash.
So the text of a constant is quiet whatever it holds.
-/
namespace JavaStubs

theorem exists_digitChar_of_mem_toDigitsCore {base fuel n : Nat} {digits : List Char} {d : Char}
    (h : d ∈ Nat.toDigitsCore base fuel n digits) : d ∈ digits ∨ ∃ k, d = Nat.digitChar k := by
  induction fuel generalizing n digits with
  | zero => exact .inl h
  | succ fuel ih =>
    simp only [Nat.toDigitsCore] at h
    split at h
    · rcases List.mem_cons.mp h with rfl | h
      · exact .inr ⟨_, rfl⟩
      · exact .inl h
    · rcases ih h with h | h
      · rcases List.mem_cons.mp h with rfl | h
        · exact .inr ⟨_, rfl⟩
        · exact .inl h
      · exact .inr h

/-- The characters of a number are digits of some base. -/
theorem exists_digitChar_of_mem_toDigits {base n : Nat} {d : Char} (h : d ∈ Nat.toDigits base n) :
    ∃ k, d = Nat.digitChar k := by
  rcases exists_digitChar_of_mem_toDigitsCore h with h | h
  · simp at h
  · exact h

theorem isAlphanum_or_star_digitChar (k : Nat) :
    (Nat.digitChar k).isAlphanum = true ∨ Nat.digitChar k = '*' := by
  by_cases hk : 16 ≤ k
  · exact .inr (Nat.digitChar_eq_star.mpr hk)
  · have hall : ∀ j < 16, (Nat.digitChar j).isAlphanum = true := by decide
    exact .inl (hall k (by omega))

variable {c : Char}

theorem Foreign.not_mem_toDigits (hc : Foreign c) (base n : Nat) : c ∉ Nat.toDigits base n := by
  intro hm
  obtain ⟨k, rfl⟩ := exists_digitChar_of_mem_toDigits hm
  rcases isAlphanum_or_star_digitChar k with h | h
  · exact hc.ne_of_isAlphanum h rfl
  · exact hc.sign (h ▸ by decide)

theorem Foreign.not_mem_zeros (hc : Foreign c) (n : Nat) : c ∉ List.replicate n '0' := by
  intro hm
  obtain rfl := List.eq_of_mem_replicate hm
  exact hc.ne_of_isAlphanum (by decide) rfl

namespace Decimal

theorem not_mem_positional (hc : Foreign c) {digits : List Char} (h : c ∉ digits) (exponent : Int) :
    c ∉ positional digits exponent := by
  have hdot : c ≠ '.' := hc.ne_of_mem_signs (by decide)
  have hzero : c ≠ '0' := hc.ne_of_isAlphanum (by decide)
  have htake : ∀ n, c ∉ digits.take n := fun n hm => h (List.mem_of_mem_take hm)
  have hdrop : ∀ n, c ∉ digits.drop n := fun n hm => h (List.mem_of_mem_drop hm)
  unfold positional
  dsimp only
  split
  · simp [h, hdot, hzero, hc.not_mem_zeros]
  · split
    · simp [htake, hdrop, hdot]
    · simp [h, hdot, hzero, hc.not_mem_zeros]

variable (style : Style)

theorem not_mem_exponentText (hc : Foreign c) (power : Int) : c ∉ style.exponentText power := by
  have hletter : c ≠ 'e' := hc.ne_of_isAlphanum (by decide)
  have hsign : c ∉ if power < 0 then ['-'] else if style.plusSign then ['+'] else [] := by
    split
    · exact hc.not_mem (by decide)
    · split <;> exact hc.not_mem (by decide)
  have hdigits : c ∉ digitText power.natAbs := hc.not_mem_toDigits 10 _
  unfold Style.exponentText
  simp only [List.mem_cons, List.mem_append, List.cons_append, not_or]
  exact ⟨hletter, ⟨hsign, hc.not_mem_zeros _⟩, hdigits⟩

theorem not_mem_scientific (hc : Foreign c) {digits : List Char} (h : c ∉ digits) (power : Int) :
    c ∉ style.scientific digits power := by
  have hdot : c ≠ '.' := hc.ne_of_mem_signs (by decide)
  unfold Style.scientific
  rw [List.mem_append, not_or]
  refine ⟨?_, not_mem_exponentText style hc power⟩
  match digits, h with
  | [], h => exact h
  | [d], h => exact h
  | d :: e :: rest, h =>
    rw [List.mem_cons, not_or] at h
    simp [h, hdot]

theorem not_mem_unsigned (hc : Foreign c) (d : Scaled) : c ∉ style.unsigned d := by
  have hdigits : c ∉ digitText d.digits := hc.not_mem_toDigits 10 _
  unfold Style.unsigned
  dsimp only
  split
  · exact hc.not_mem (by decide)
  · split
    · exact not_mem_positional hc hdigits _
    · exact not_mem_scientific style hc hdigits _

theorem not_mem_write (hc : Foreign c) (negative : Bool) (d : Scaled) :
    c ∉ (style.write negative d).toList := by
  have hsign : c ∉ if negative then ['-'] else [] := by
    split <;> exact hc.not_mem (by decide)
  unfold Style.write
  rw [String.toList_ofList, List.mem_append, not_or]
  exact ⟨hsign, not_mem_unsigned style hc d⟩

theorem not_mem_writeBits (hc : Foreign c) (format : BinaryFormat) (bits : Nat) :
    c ∉ (style.writeBits format bits).toList := by
  unfold Style.writeBits
  split
  · exact not_mem_write style hc _ _
  · split <;> exact hc.not_mem (by decide)
  · exact hc.not_mem (by decide)

end Decimal

namespace Source

theorem not_mem_fractionText (hc : Foreign c) (format : Decimal.BinaryFormat)
    {suffix cast : String} (hsuffix : c ∉ suffix.toList) (hcast : c ∉ cast.toList) (bits : Nat) :
    c ∉ (fractionText format suffix cast bits).toList := by
  unfold fractionText
  split
  · rw [String.toList_append, List.mem_append, not_or]
    exact ⟨Decimal.not_mem_writeBits _ hc format bits, hsuffix⟩
  · rw [String.toList_append, List.mem_append, not_or]
    refine ⟨hcast, ?_⟩
    split <;> exact hc.not_mem (by decide)
  · rw [String.toList_append, List.mem_append, not_or]
    exact ⟨hcast, hc.not_mem (by decide)⟩

theorem not_mem_toString_int (hc : Foreign c) (value : Int) : c ∉ (toString value).toList := by
  have hdigits : ∀ n : Nat, c ∉ (Nat.repr n).toList := fun n => by
    rw [Nat.toList_repr]
    exact hc.not_mem_toDigits 10 n
  show c ∉ (Int.repr value).toList
  cases value with
  | ofNat n => exact hdigits n
  | negSucc n =>
    unfold Int.repr
    rw [String.toList_append, List.mem_append, not_or]
    exact ⟨hc.not_mem (by decide), hdigits _⟩

theorem not_mem_integerText (hc : Foreign c) (value : Int) : c ∉ (integerText value).toList := by
  unfold integerText
  split
  · exact not_mem_toString_int hc value
  · rw [String.toList_append, List.mem_append, not_or]
    exact ⟨not_mem_toString_int hc value, hc.not_mem (by decide)⟩

section

variable {quote : Char}

/-- In a literal, the scanner passes a text without its quote and without backslashes. -/
theorem countBraces?_literal {chars : List Char} (hslash : '\\' ∉ chars) (hquote : quote ∉ chars)
    (count : BraceCount) (rest : List Char) :
    countBraces? (.literal quote) count (chars ++ rest) =
      countBraces? (.literal quote) count rest := by
  induction chars with
  | nil => rfl
  | cons d chars ih =>
    rw [List.mem_cons, not_or] at hslash hquote
    rw [List.cons_append, countBraces?, if_neg (Ne.symm hslash.1), if_neg (Ne.symm hquote.1)]
    exact ih hslash.2 hquote.2

/-- In a literal, the scanner passes a backslash with what it escapes. -/
theorem countBraces?_escape {chars : List Char} (d : Char) (hslash : '\\' ∉ chars)
    (hquote : quote ∉ chars) (count : BraceCount) (rest : List Char) :
    countBraces? (.literal quote) count ('\\' :: d :: chars ++ rest) =
      countBraces? (.literal quote) count rest := by
  rw [List.cons_append, List.cons_append, countBraces?, if_pos rfl, countBraces?]
  exact countBraces?_literal hslash hquote count rest

theorem not_mem_padded (hc : Foreign c) (base width n : Nat) : c ∉ Text.padded base width n := by
  unfold Text.padded
  rw [List.mem_append, not_or]
  exact ⟨hc.not_mem_zeros _, hc.not_mem_toDigits base n⟩

theorem toNat_ofNat_of_lt {n : Nat} (h : n < 0x7f) : (Char.ofNat n).toNat = n := by
  have hn : n.isValidChar := .inl (by omega)
  rw [Char.ofNat, dif_pos hn]
  exact UInt32.toNat_ofNatLT

/-- One unit between quotes keeps the scanner in the literal. -/
theorem countBraces?_unitText (hquote : Foreign quote) (unit : Nat) (count : BraceCount)
    (rest : List Char) :
    countBraces? (.literal quote) count (unitText quote unit ++ rest) =
      countBraces? (.literal quote) count rest := by
  have hslash : Foreign '\\' := ⟨by decide +kernel, by decide⟩
  have hescape (d : Char) : countBraces? (.literal quote) count ('\\' :: d :: [] ++ rest) =
      countBraces? (.literal quote) count rest :=
    countBraces?_escape d List.not_mem_nil List.not_mem_nil count rest
  unfold unitText
  repeat' split
  iterate 7 exact hescape _
  · -- The first digit is what the backslash escapes.
    obtain ⟨d, digits, hdigits⟩ : ∃ d digits, Text.padded 8 3 unit = d :: digits := by
      apply List.exists_cons_of_ne_nil
      simp [Text.padded, Nat.toDigits_ne_nil]
    have hs := not_mem_padded hslash 8 3 unit
    have hq := not_mem_padded hquote 8 3 unit
    rw [hdigits, List.mem_cons, not_or] at hs hq
    rw [hdigits]
    exact countBraces?_escape d hs.2 hq.2 count rest
  · next hunit hne _ hlt =>
    have hof : ∀ d : Char, unit ≠ d.toNat → d ≠ Char.ofNat unit := by
      rintro d hd rfl
      exact hd (toNat_ofNat_of_lt hlt).symm
    have hs : '\\' ∉ [Char.ofNat unit] := by simpa using hof '\\' hunit
    have hq : quote ∉ [Char.ofNat unit] := by simpa using hof quote hne
    exact countBraces?_literal hs hq count rest
  · exact countBraces?_escape 'u' (not_mem_padded hslash 16 4 unit)
      (not_mem_padded hquote 16 4 unit) count rest

theorem countBraces?_unitTexts (hquote : Foreign quote) (units : List Nat) (count : BraceCount)
    (rest : List Char) :
    countBraces? (.literal quote) count (units.flatMap (unitText quote) ++ rest) =
      countBraces? (.literal quote) count rest := by
  induction units with
  | nil => rfl
  | cons unit units ih =>
    rw [List.flatMap_cons, List.append_assoc, countBraces?_unitText hquote, ih]

/-- Units between two quotes are quiet. -/
theorem quiet_quoted (hquote : quote = '"' ∨ quote = '\'') (units : List Nat) :
    Quiet (String.ofList (quote :: units.flatMap (unitText quote) ++ [quote])) := by
  intro count rest
  have hforeign : Foreign quote := by
    rcases hquote with rfl | rfl <;> exact foreign_of_mem_delimiters (by decide)
  have hslash : quote ≠ '\\' := by rcases hquote with rfl | rfl <;> decide
  rw [String.toList_ofList, List.append_assoc, List.cons_append, countBraces?,
    if_pos (by simpa using hquote), countBraces?_unitTexts hforeign, List.cons_append,
    List.nil_append, countBraces?, if_neg hslash, if_pos rfl]

end

/-- The text of a constant is quiet, whatever character or string it is. -/
theorem quiet_literalText (literal : Literal) : Quiet (literalText literal) := by
  have hforeign {c : Char} (hc : c ∈ delimiters) : Foreign c := foreign_of_mem_delimiters hc
  cases literal with
  | null => exact quiet_of_signs (by decide)
  | bool value => cases value <;> exact quiet_of_signs (by decide)
  | int value => exact quiet_of_not_mem fun _ hc => not_mem_integerText (hforeign hc) _
  | float bits =>
    exact quiet_of_not_mem fun _ hc => not_mem_fractionText (hforeign hc) _
      ((hforeign hc).not_mem (by decide)) ((hforeign hc).not_mem (by decide)) _
  | double bits =>
    exact quiet_of_not_mem fun _ hc => not_mem_fractionText (hforeign hc) _
      ((hforeign hc).not_mem (by decide)) ((hforeign hc).not_mem (by decide)) _
  | char value =>
    have h := quiet_quoted (.inr rfl) [characterUnit value]
    rwa [List.flatMap_singleton] at h
  | string value => exact quiet_quoted (.inl rfl) (Text.units value.toList)

end Source

end JavaStubs
