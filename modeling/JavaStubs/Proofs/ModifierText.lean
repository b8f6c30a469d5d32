import JavaStubs.Model.Modifiers
import JavaStubs.Proofs.LiteralText
import JavaStubs.Proofs.NumberText
import JavaStubs.Proofs.PathText
import Mathlib.Data.List.TakeWhile

/-!
# Reading the text of a set of modifiers

The text of a set is read back as the same set, with all its bits. The parts hold neither blanks nor
bars, so cutting at the bars and trimming gives them back, and each part stands for its own bits.
-/
namespace JavaStubs

namespace Text

/-- Blanks around a text without blanks are trimmed off. -/
theorem trim_padded {front part back : List Char} (hne : part ≠ [])
    (hpart : ∀ c ∈ part, isBlank c = false) (hfront : ∀ c ∈ front, isBlank c = true)
    (hback : ∀ c ∈ back, isBlank c = true) :
    trim (String.ofList (front ++ part ++ back)) = String.ofList part := by
  have hbefore : ∀ {blanks part rest : List Char}, part ≠ [] →
      (∀ c ∈ blanks, isBlank c = true) → (∀ c ∈ part, isBlank c = false) →
      (blanks ++ (part ++ rest)).dropWhile isBlank = part ++ rest := by
    intro blanks part rest hne hblanks hpart
    obtain ⟨c, others, rfl⟩ := List.exists_cons_of_ne_nil hne
    rw [List.dropWhile_append_of_pos hblanks]
    simp [hpart c List.mem_cons_self]
  have hend : trimEnd (part ++ back) = part := by
    have hreversed := @hbefore back.reverse part.reverse [] (by simpa using hne)
      (by simpa using hback) (by simpa using hpart)
    rw [List.append_nil, ← List.reverse_append] at hreversed
    rw [trimEnd, hreversed, List.reverse_reverse]
  rw [trim, String.toList_ofList, List.append_assoc, hbefore hne hfront hpart, hend]

/-- Trimming leaves something of a text that is not blank. -/
theorem trim_ne_empty {s : String} {c : Char} (hc : c ∈ s.toList) (h : isBlank c = false) :
    trim s ≠ "" := by
  intro hempty
  have hend : trimEnd (s.toList.dropWhile isBlank) = [] :=
    String.ofList_eq_empty_iff.mp hempty
  have hrest : ∀ d ∈ s.toList.dropWhile isBlank, isBlank d = true := by
    intro d hd
    rw [trimEnd, List.reverse_eq_nil_iff, List.dropWhile_eq_nil_iff] at hend
    exact hend d (List.mem_reverse.mpr hd)
  rw [← @List.takeWhile_append_dropWhile _ isBlank s.toList, List.mem_append] at hc
  have hblank := hc.elim List.mem_takeWhile_imp (hrest c)
  simp [h] at hblank

end Text

namespace Modifiers

open Text (isBlank)

theorem forall_isBlank {s : List Char} {blank : Bool}
    (h : s.all (fun c => isBlank c == blank) = true) : ∀ c ∈ s, isBlank c = blank := by
  simpa using h

/-- A part of the text of a set: neither empty nor with a blank or a bar. -/
structure Clean (part : String) : Prop where
  nonempty : part ≠ ""
  unblank : ∀ c ∈ part.toList, isBlank c = false
  unbarred : '|' ∉ part.toList

theorem clean_name (m : Modifier) : Clean m.name := by
  refine ⟨?_, forall_isBlank ?_, ?_⟩ <;> cases m <;> decide

theorem clean_number (n : Nat) : Clean ("0x" ++ String.ofList (Nat.toDigits 16 n)) := by
  have hdigit : ∀ k, isBlank (Nat.digitChar k) = false ∧ '|' ≠ Nat.digitChar k := by
    intro k
    by_cases hk : 16 ≤ k
    · rw [Nat.digitChar_eq_star.mpr hk]
      decide
    · have hall : ∀ j < 16, isBlank (Nat.digitChar j) = false ∧ '|' ≠ Nat.digitChar j := by decide
      exact hall k (by omega)
  have hdigits : ∀ c ∈ Nat.toDigits 16 n, isBlank c = false ∧ '|' ≠ c := by
    intro c hc
    obtain ⟨k, rfl⟩ := exists_digitChar_of_mem_toDigits hc
    exact hdigit k
  refine ⟨?_, ?_, ?_⟩
  · simp
  · simp only [String.toList_append, String.toList_ofList, List.mem_append]
    rintro c (hc | hc)
    · exact forall_isBlank (show "0x".toList.all (fun c => isBlank c == false) = true by decide) c hc
    · exact (hdigits c hc).1
  · simp only [String.toList_append, String.toList_ofList, List.mem_append, not_or]
    exact ⟨by decide, fun hc => (hdigits _ hc).2 rfl⟩

theorem parsePart_padded {part : String} (h : Clean part) {front back : List Char}
    (hfront : ∀ c ∈ front, isBlank c = true) (hback : ∀ c ∈ back, isBlank c = true) :
    parsePart (String.ofList (front ++ part.toList ++ back)) = parsePart part := by
  have hne : part.toList ≠ [] := fun hnil => h.nonempty (String.toList_eq_nil_iff.mp hnil)
  have hpadded := Text.trim_padded hne h.unblank hfront hback
  have hplain := @Text.trim_padded [] part.toList [] hne h.unblank (by simp) (by simp)
  rw [List.nil_append, List.append_nil, String.ofList_toList] at hplain
  rw [String.ofList_toList] at hpadded
  unfold parsePart
  rw [hpadded, hplain]

/-- Cutting a text at its bars reads the parts between them, with or without a blank in front. -/
theorem parseParts_join {parts : List String} (hne : parts ≠ [])
    (hclean : ∀ part ∈ parts, Clean part) {front : String} (hfront : front = "" ∨ front = " ") :
    parseParts (Text.splitAt '|' (front ++ Text.join " | " parts)) = parseParts parts := by
  have hblank : (∀ c ∈ front.toList, isBlank c = true) ∧ '|' ∉ front.toList := by
    refine ⟨forall_isBlank ?_, ?_⟩ <;> rcases hfront with rfl | rfl <;> decide
  induction parts generalizing front with
  | nil => exact absurd rfl hne
  | cons part rest ih =>
    rw [List.forall_mem_cons] at hclean
    have hunbarred : '|' ∉ front.toList ++ part.toList := by
      rw [List.mem_append, not_or]
      exact ⟨hblank.2, hclean.1.unbarred⟩
    cases rest with
    | nil =>
      have hwhole := @parsePart_padded part hclean.1 front.toList [] hblank.1 (by simp)
      rw [List.append_nil, ← String.toList_append, String.ofList_toList] at hwhole
      rw [Text.join_singleton, Text.splitAt_of_not_mem (by simpa using hunbarred)]
      simp only [parseParts, hwhole]
    | cons next others =>
      have hcut : Text.splitAt '|' (front ++ Text.join " | " (part :: next :: others)) =
          String.ofList (front.toList ++ part.toList ++ [' ']) ::
            Text.splitAt '|' (" " ++ Text.join " | " (next :: others)) := by
        have hpieces := @Text.pieces_append_cons '|' (front.toList ++ part.toList ++ [' '])
          (by simpa using hunbarred) (" " ++ Text.join " | " (next :: others)).toList
        rw [Text.splitAt, Text.splitAt, ← List.map_cons, ← hpieces]
        simp [String.toList_append]
      have hspace : ∀ c ∈ [' '], isBlank c = true := forall_isBlank (by decide)
      rw [hcut, parseParts, parsePart_padded hclean.1 hblank.1 hspace,
        ih (by simp) hclean.2 (.inr rfl) ⟨hspace, by decide⟩]
      rfl

theorem parsePart_name (m : Modifier) : parsePart m.name = .ok (empty.insert m) := by
  cases m <;> decide

theorem parsePart_number {bits : BitVec 32} :
    parsePart ("0x" ++ String.ofList (Nat.toDigits 16 bits.toNat)) = .ok ⟨bits⟩ := by
  have hclean := clean_number bits.toNat
  have hne : ("0x" ++ String.ofList (Nat.toDigits 16 bits.toNat)).toList ≠ [] :=
    fun hnil => hclean.nonempty (String.toList_eq_nil_iff.mp hnil)
  have htrim := @Text.trim_padded [] _ [] hne hclean.unblank (by simp) (by simp)
  rw [List.nil_append, List.append_nil, String.ofList_toList] at htrim
  have hplain : ∀ rest, Nat.toDigits 16 bits.toNat ≠ '+' :: rest := by
    intro rest heq
    obtain ⟨k, hk⟩ := exists_digitChar_of_mem_toDigits
      (show '+' ∈ Nat.toDigits 16 bits.toNat from heq ▸ List.mem_cons_self)
    rcases isAlphanum_or_star_digitChar k with hdigit | hstar
    · exact absurd (hk ▸ hdigit) (by decide)
    · exact absurd (hk.trans hstar) (by decide)
  have hbits : hexBits? (String.ofList (Nat.toDigits 16 bits.toNat)) = some bits := by
    simp only [hexBits?, String.toList_ofList, Text.number?_toDigits (by decide : 1 < 16)
      (by decide : 16 ≤ 16)]
    simp [bits.isLt]
  unfold parsePart
  rw [htrim]
  simp [hbits]

/-- The set of modifiers together with other bits. -/
def withAll (modifiers : List Modifier) (others : Modifiers) : Modifiers :=
  modifiers.foldr (fun m s => (empty.insert m).union s) others

theorem parseParts_names (modifiers : List Modifier) {others : List String} {s : Modifiers}
    (h : parseParts others = .ok s) :
    parseParts (modifiers.map Modifier.name ++ others) = .ok (withAll modifiers s) := by
  induction modifiers with
  | nil => exact h
  | cons m rest ih =>
    rw [List.map_cons, List.cons_append, parseParts, parsePart_name, ih]
    rfl

theorem getLsbD_withAll (modifiers : List Modifier) (others : Modifiers) (i : Nat) :
    (withAll modifiers others).bits.getLsbD i =
      (modifiers.any (·.bit == i) || others.bits.getLsbD i) := by
  induction modifiers with
  | nil => rfl
  | cons m rest ih =>
    have hm : m.bit < 32 := by have := m.bit_lt; omega
    have hfirst : (empty.insert m).bits.getLsbD i = (m.bit == i) := by
      simp [insert, empty, BitVec.getLsbD_twoPow, hm, Bool.beq_eq_decide_eq]
    rw [withAll, List.foldr_cons, ← withAll, union, BitVec.getLsbD_or, hfirst, ih, List.any_cons,
      Bool.or_assoc]

/-- The named and the unnamed bits are the whole set. -/
theorem withAll_unnamed (s : Modifiers) :
    withAll (Modifier.all.filter s.contains) ⟨s.unnamed⟩ = s := by
  have hnamed : ∀ i < 11, ∃ m ∈ Modifier.all, m.bit = i := by decide
  suffices hbits : ∀ i < 32,
      (withAll (Modifier.all.filter s.contains) ⟨s.unnamed⟩).bits.getLsbD i = s.bits.getLsbD i from
    congrArg Modifiers.mk (BitVec.eq_of_getLsbD_eq hbits)
  intro i hi
  rw [getLsbD_withAll, Bool.eq_iff_iff, Bool.or_eq_true, List.any_eq_true]
  simp only [List.mem_filter, beq_iff_eq, contains]
  -- The lower eleven bits have names, the others are kept as a number.
  rcases Nat.lt_or_ge i 11 with hlow | hhigh
  · have hunnamed : s.unnamed.getLsbD i = false := by simp [unnamed, hlow]
    rw [hunnamed]
    constructor
    · rintro (⟨m, ⟨-, hm⟩, rfl⟩ | hfalse)
      · exact hm
      · cases hfalse
    · intro hbit
      obtain ⟨m, hm, rfl⟩ := hnamed i hlow
      exact Or.inl ⟨m, ⟨hm, hbit⟩, rfl⟩
  · have hunnamed : s.unnamed.getLsbD i = s.bits.getLsbD i := by
      simp [unnamed, hi, Nat.not_lt.mpr hhigh, Nat.add_sub_cancel' hhigh]
    rw [hunnamed]
    constructor
    · rintro (⟨m, -, rfl⟩ | hbit)
      · exact absurd m.bit_lt (Nat.not_lt.mpr hhigh)
      · exact hbit
    · exact Or.inr

theorem clean_parts (s : Modifiers) : ∀ part ∈ s.parts, Clean part := by
  intro part hpart
  rcases List.mem_append.mp hpart with hname | hnumber
  · obtain ⟨m, -, rfl⟩ := List.mem_map.mp hname
    exact clean_name m
  · split at hnumber
    · cases hnumber
    · rw [List.mem_singleton.mp hnumber]
      exact clean_number _

theorem parseParts_parts (s : Modifiers) : parseParts s.parts = .ok s := by
  have hunnamed : parseParts (if s.unnamed = 0 then []
      else ["0x" ++ String.ofList (Nat.toDigits 16 s.unnamed.toNat)]) = .ok ⟨s.unnamed⟩ := by
    split <;> rename_i hbits
    · rw [hbits]
      rfl
    · rw [parseParts, parsePart_number, parseParts]
      change Except.ok (union ⟨s.unnamed⟩ empty) = _
      simp [union, empty]
  rw [parts, parseParts_names _ hunnamed, withAll_unnamed]

/-- The text of a set is read back as the set. -/
theorem parse_text (s : Modifiers) : parse s.text = .ok s := by
  by_cases hparts : s.parts = []
  · have hnone := s.parseParts_parts
    rw [hparts, parseParts] at hnone
    rw [← Except.ok.inj hnone]
    decide
  · have hread := parseParts_join hparts s.clean_parts (.inl rfl)
    rw [s.parseParts_parts, String.empty_append, ← text] at hread
    rw [parse, if_neg ?_]
    · exact hread
    · obtain ⟨part, rest, hfirst⟩ := List.exists_cons_of_ne_nil hparts
      have hclean := s.clean_parts part (hfirst ▸ List.mem_cons_self)
      obtain ⟨c, others, hc⟩ := List.exists_cons_of_ne_nil
        fun hnil => hclean.nonempty (String.toList_eq_nil_iff.mp hnil)
      have hmem : c ∈ s.text.toList := by
        rw [text, hfirst]
        cases rest <;> simp [hc]
      have hne := Text.trim_ne_empty hmem (hclean.unblank c (hc ▸ List.mem_cons_self))
      simpa using hne

end Modifiers

end JavaStubs
