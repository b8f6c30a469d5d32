import Mathlib.Algebra.Ring.Nat
import Mathlib.Algebra.Ring.Int.Defs
import JavaStubs.Json.Number
import JavaStubs.Text.Digit

/-!
# Numbers from their digits

The digits of a number are read back as the number, for any base up to sixteen; and the text of an
integer of 64 bits, with or without a sign, is read back from JSON as this integer.
-/
namespace JavaStubs

namespace Text

theorem digitValue?_digitChar {n : Nat} (h : n < 16) : digitValue? n.digitChar = some n := by
  have hall : ∀ n < 16, digitValue? n.digitChar = some n := by decide
  exact hall n h

theorem appendDigit?_digitChar {base digit : Nat} (hhigh : base ≤ 16) (hdigit : digit < base)
    (value : Nat) : appendDigit? base value digit.digitChar = some (value * base + digit) := by
  rw [appendDigit?, digitValue?_digitChar (by omega)]
  simp [hdigit]

/-- The digits of a number write this number: induction over the number, since the digits before
the last one are those of the quotient. -/
theorem number?_toDigits {base : Nat} (hlow : 1 < base) (hhigh : base ≤ 16) (n : Nat) :
    number? base (Nat.toDigits base n) = some n := by
  induction n using Nat.strongRecOn with
  | ind n ih =>
    rcases Nat.lt_or_ge n base with hsmall | hlarge
    · rw [Nat.toDigits_of_lt_base hsmall]
      simp [number?, appendDigit?_digitChar hhigh hsmall]
    · have hbase : 0 < base := by omega
      have hquotient := ih (n / base) (Nat.div_lt_self (by omega) hlow)
      rw [Nat.toDigits_of_base_le hlow hlarge]
      obtain ⟨first, rest, hdigits⟩ :=
        List.exists_cons_of_ne_nil (Nat.toDigits_ne_nil (n := n / base) (b := base))
      rw [hdigits] at hquotient ⊢
      rw [number?_append, hquotient, Option.bind_some,
        appendDigit?_digitChar hhigh (Nat.mod_lt _ hbase), Nat.div_add_mod']

end Text

section

variable {belongs : Char → Bool} {run rest : List Char}

/-- A run ends where a character does not belong to it. -/
theorem Text.takeWhile_append (hrun : ∀ c ∈ run, belongs c = true)
    (hrest : ∀ c ∈ rest.head?, belongs c = false) : (run ++ rest).takeWhile belongs = run := by
  rw [List.takeWhile_append_of_pos hrun]
  cases rest with
  | nil => simp
  | cons c rest => simp [hrest c rfl]

theorem Cursor.span_append (hrun : ∀ c ∈ run, belongs c = true)
    (hrest : ∀ c ∈ rest.head?, belongs c = false) (pos : Nat) :
    Cursor.span ⟨pos, run ++ rest⟩ belongs = (run, ⟨pos + Text.byteLength run, rest⟩) := by
  simp only [span, Text.takeWhile_append hrun hrest, advance, List.take_left, List.drop_left]

end

namespace Json

/-- What may follow a value inside a list or an object, or after the whole text. -/
def Follows (rest : List Char) : Prop := ∀ c ∈ rest.head?, c = ',' ∨ c = ']' ∨ c = '}'

namespace Numeral

theorem digit_digitChar {n : Nat} (h : n < 10) : digit n.digitChar = n := by
  have hall : ∀ n < 10, digit n.digitChar = n := by decide
  exact hall n h

/-- Digits that write a number below the limit are all used. -/
theorem accumulate_eq {limit : Nat} {digits : List Char} {value : Nat}
    (h : digits.foldl (fun value c => value * 10 + digit c) value < limit) :
    accumulate limit value digits =
      (digits.foldl (fun value c => value * 10 + digit c) value, digits.length) := by
  have hgrows : ∀ (digits : List Char) (value : Nat),
      value ≤ digits.foldl (fun value c => value * 10 + digit c) value := by
    intro digits
    induction digits with
    | nil => exact fun value => Nat.le_refl value
    | cons c rest ih =>
      intro value
      exact Nat.le_trans (by omega) (ih (value * 10 + digit c))
  induction digits generalizing value with
  | nil => rfl
  | cons c rest ih =>
    have hnext : value * 10 + digit c < limit :=
      Nat.lt_of_le_of_lt (hgrows rest (value * 10 + digit c)) h
    rw [accumulate]
    simp only [if_pos hnext]
    rw [ih h]
    rfl

theorem foldl_toDigits (n : Nat) :
    (Nat.toDigits 10 n).foldl (fun value c => value * 10 + digit c) 0 = n := by
  induction n using Nat.strongRecOn with
  | ind n ih =>
    rcases Nat.lt_or_ge n 10 with hsmall | hlarge
    · rw [Nat.toDigits_of_lt_base hsmall]
      simp [digit_digitChar hsmall]
    · rw [Nat.toDigits_of_base_le (by decide) hlarge, List.foldl_append,
        ih (n / 10) (by omega)]
      simp only [List.foldl_cons, List.foldl_nil]
      rw [digit_digitChar (Nat.mod_lt n (by decide)), Nat.div_add_mod']

/-- A number has no leading zero. -/
theorem head?_toDigits {n : Nat} (h : 0 < n) : (Nat.toDigits 10 n).head? ≠ some '0' := by
  induction n using Nat.strongRecOn with
  | ind n ih =>
    rcases Nat.lt_or_ge n 10 with hsmall | hlarge
    · rw [Nat.toDigits_of_lt_base hsmall]
      simp
      omega
    · have hquotient := ih (n / 10) (by omega) (by omega)
      obtain ⟨first, others, hdigits⟩ :=
        List.exists_cons_of_ne_nil (Nat.toDigits_ne_nil (n := n / 10) (b := 10))
      rw [Nat.toDigits_of_base_le (by decide) hlarge]
      rw [hdigits] at hquotient ⊢
      exact hquotient

theorem readWhole_toDigits (n pos : Nat) {rest : List Char} (hrest : Follows rest) :
    readWhole ⟨pos, Nat.toDigits 10 n ++ rest⟩ =
      .ok (Nat.toDigits 10 n, ⟨pos + Text.byteLength (Nat.toDigits 10 n), rest⟩) := by
  have hspan : digits ⟨pos, Nat.toDigits 10 n ++ rest⟩ = _ := Cursor.span_append
    (fun c hc => Nat.isDigit_of_mem_toDigits (by decide) (by decide) hc)
    (fun c hc => by rcases hrest c hc with rfl | rfl | rfl <;> decide) pos
  rw [readWhole, hspan]
  split <;> rename_i heq
  · exact absurd (Prod.mk.inj heq).1 Nat.toDigits_ne_nil
  · obtain ⟨hdigits, -⟩ := Prod.mk.inj heq
    rcases Nat.eq_zero_or_pos n with rfl | hpos
    · simp at hdigits
    · exact absurd (by rw [hdigits]; rfl) (head?_toDigits hpos)
  · obtain ⟨rfl, rfl⟩ := Prod.mk.inj heq
    rfl

theorem readFraction?_of_follows (pos : Nat) {rest : List Char} (hrest : Follows rest) :
    readFraction? ⟨pos, rest⟩ = .ok (none, ⟨pos, rest⟩) := by
  unfold readFraction?
  split <;> rename_i heq
  · obtain rfl : rest = _ := heq
    exact absurd (hrest '.' rfl) (by decide)
  · rfl

theorem readExponent?_of_follows (pos : Nat) {rest : List Char} (hrest : Follows rest) :
    readExponent? ⟨pos, rest⟩ = .ok (none, ⟨pos, rest⟩) := by
  unfold readExponent?
  split <;> rename_i heq
  · obtain rfl : rest = _ := heq
    exact absurd (hrest 'e' rfl) (by decide)
  · obtain rfl : rest = _ := heq
    exact absurd (hrest 'E' rfl) (by decide)
  · rfl

/-- A numeral without point and exponent is cut out of a text. -/
theorem read_toDigits (negative : Bool) (n pos : Nat) {rest : List Char} (hrest : Follows rest) :
    ∃ after, read ⟨pos, (if negative then ['-'] else []) ++ Nat.toDigits 10 n ++ rest⟩ =
      .ok (⟨negative, Nat.toDigits 10 n, none, none⟩, ⟨after, rest⟩) := by
  have hwhole := fun pos => readWhole_toDigits n pos hrest
  have hfraction := fun pos => readFraction?_of_follows pos hrest
  have hexponent := fun pos => readExponent?_of_follows pos hrest
  cases negative with
  | true =>
    refine ⟨pos + 1 + Text.byteLength (Nat.toDigits 10 n), ?_⟩
    simp only [if_true, List.cons_append, List.nil_append, read, Cursor.advance,
      List.drop_succ_cons, List.drop_zero, hwhole]
    simp only [bind, Except.bind, hfraction, hexponent]
    rfl
  | false =>
    refine ⟨pos + Text.byteLength (Nat.toDigits 10 n), ?_⟩
    -- The digits do not begin with a sign, which is looked for first.
    have hfirst : ∀ tail, Nat.toDigits 10 n ++ rest ≠ '-' :: tail := by
      intro tail heq
      obtain ⟨first, others, hdigits⟩ :=
        List.exists_cons_of_ne_nil (Nat.toDigits_ne_nil (n := n) (b := 10))
      have hdigit := Nat.isDigit_of_mem_toDigits (by decide : 0 < 10) (by decide)
        (hdigits ▸ List.mem_cons_self)
      rw [hdigits, List.cons_append] at heq
      rw [(List.cons.inj heq).1] at hdigit
      exact absurd hdigit (by decide)
    simp only [Bool.false_eq_true, if_false, List.nil_append, read, hwhole]
    simp only [bind, Except.bind, hfraction, hexponent]
    rfl

/-- A numeral of 64 bits without point and exponent has an integer as its value. -/
theorem value_toDigits (negative : Bool) {n : Nat} (after : Nat)
    (h : if negative then 0 < n ∧ n ≤ 2 ^ 63 else n < 2 ^ 64) :
    value ⟨negative, Nat.toDigits 10 n, none, none⟩ after =
      .ok (.integer (if negative then -n else n)) := by
  have hlimit : n < Nat.pow 2 64 := by
    cases negative with
    | true => exact Nat.lt_of_le_of_lt h.2 (by decide)
    | false => exact h
  have hwhole : accumulate (Nat.pow 2 64) 0 (Nat.toDigits 10 n) =
      (n, (Nat.toDigits 10 n).length) := by
    rw [accumulate_eq (by rwa [foldl_toDigits]), foldl_toDigits]
  simp only [value, hwhole, Option.getD_none, accumulate, Nat.sub_self]
  cases negative with
  | true =>
    have hpositive : 0 < n := h.1
    have hhigh : n ≤ 9223372036854775808 := h.2
    simp [hpositive, hhigh]
  | false => simp

/-- The text of an integer of 64 bits is read back. -/
theorem value_read_toString {n : Int} (hlow : -2 ^ 63 ≤ n) (hhigh : n < 2 ^ 64) (pos : Nat)
    {rest : List Char} (hrest : Follows rest) : ∃ numeral after,
      read ⟨pos, (toString n).toList ++ rest⟩ = .ok (numeral, ⟨after, rest⟩) ∧
        numeral.value after = .ok (.integer n) := by
  rw [Int.toString_eq_repr, Int.repr_eq_if]
  split <;> rename_i hsign
  · obtain ⟨after, hread⟩ := read_toDigits false n.toNat pos hrest
    have hvalue : value ⟨false, Nat.toDigits 10 n.toNat, none, none⟩ after = .ok (.integer n) := by
      rw [value_toDigits false after (by simp; omega), if_neg (by decide),
        Int.toNat_of_nonneg hsign]
    exact ⟨_, after, by simpa [Nat.toList_repr] using hread, hvalue⟩
  · obtain ⟨after, hread⟩ := read_toDigits true (-n).toNat pos hrest
    have hvalue : value ⟨true, Nat.toDigits 10 (-n).toNat, none, none⟩ after =
        .ok (.integer n) := by
      rw [value_toDigits true after (by simp; omega), if_pos rfl,
        Int.toNat_of_nonneg (by omega), Int.neg_neg]
    exact ⟨_, after, by simpa [Nat.toList_repr] using hread, hvalue⟩

end Numeral

end Json

end JavaStubs
