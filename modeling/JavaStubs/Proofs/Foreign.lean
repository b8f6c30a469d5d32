import JavaStubs.Proofs.Mention
import JavaStubs.Source.Imports
import JavaStubs.Source.Member
import JavaStubs.Source.TypeText

/-!
# Characters that only names can bring

The texts of types, values and signatures are put together from names, words and a few signs. A
character that is neither part of an identifier nor one of the signs is foreign to them: it occurs
in such a text only if it occurs in one of the names.
-/
namespace JavaStubs

/-- Whether no name of a list has the character. -/
def Absent (c : Char) (names : List String) : Prop :=
  ∀ name ∈ names, c ∉ name.toList

section

variable {c : Char}

@[simp] theorem absent_nil : Absent c [] := by simp [Absent]

@[simp] theorem absent_cons {name : String} {names : List String} :
    Absent c (name :: names) ↔ c ∉ name.toList ∧ Absent c names := by
  simp [Absent]

@[simp] theorem absent_append {first second : List String} :
    Absent c (first ++ second) ↔ Absent c first ∧ Absent c second := by
  simp [Absent, or_imp, forall_and]

@[simp] theorem absent_flatMap {α : Type} {items : List α} {names : α → List String} :
    Absent c (items.flatMap names) ↔ ∀ item ∈ items, Absent c (names item) := by
  simp only [Absent, List.mem_flatMap]
  constructor
  · intro h item hi name hn
    exact h name ⟨item, hi, hn⟩
  · rintro h name ⟨item, hi, hn⟩
    exact h item hi name hn

end

/-- The signs between names and words. -/
def signs : List Char := " <>,[]?&().;=-+*/:".toList

/-- Whether the character is neither part of an identifier nor one of the signs. -/
structure Foreign (c : Char) : Prop where
  identifier : Names.isIdentifierPart c = false
  sign : c ∉ signs

namespace Foreign

variable {c : Char}

theorem ne_of_isAlphanum (hc : Foreign c) {d : Char} (hd : d.isAlphanum = true) : c ≠ d := by
  rintro rfl
  have h := hc.identifier
  simp only [Names.isIdentifierPart, Bool.or_eq_false_iff] at h
  rcases Bool.or_eq_true_iff.mp hd with ha | hn
  · simp [Text.isLetter_of_isAlpha ha] at h
  · simp [Text.isNumeral_of_isDigit hn] at h

theorem ne_of_mem_signs (hc : Foreign c) {d : Char} (hd : d ∈ signs) : c ≠ d :=
  fun he => hc.sign (he ▸ hd)

/-- A fixed text of words and signs does not have the character. -/
theorem not_mem (hc : Foreign c) {chars : List Char}
    (h : chars.all (fun d => d.isAlphanum || signs.contains d) = true) : c ∉ chars := by
  intro hm
  rcases Bool.or_eq_true_iff.mp (List.all_eq_true.mp h c hm) with h | h
  · exact hc.ne_of_isAlphanum h rfl
  · exact hc.sign (by simpa using h)

/-- An identifier does not have the character. -/
theorem not_mem_of_isIdentifier (hc : Foreign c) {s : String} (hs : Names.isIdentifier s = true) :
    c ∉ s.toList := by
  intro hm
  have hpart := Names.isIdentifierPart_of_mem hs hm
  simp [hc.identifier] at hpart

end Foreign

namespace Text

variable {c : Char}

theorem not_mem_join {sep : String} {parts : List String} (hsep : c ∉ sep.toList)
    (h : Absent c parts) : c ∉ (join sep parts).toList := by
  induction parts with
  | nil => simp
  | cons s rest ih =>
    rw [absent_cons] at h
    cases rest with
    | nil => exact h.1
    | cons next rest =>
      simp only [join_cons_cons, String.toList_append, List.mem_append, not_or]
      exact ⟨⟨h.1, hsep⟩, ih h.2⟩

theorem mem_of_mem_pieces {sep : Char} {s piece : List Char} (h : piece ∈ pieces sep s)
    (hc : c ∈ piece) : c ∈ s := by
  induction s generalizing piece with
  | nil => simp_all [pieces]
  | cons d rest ih =>
    by_cases hd : d = sep
    · simp only [pieces, if_pos hd, List.mem_cons] at h
      rcases h with rfl | h
      · simp at hc
      · exact List.mem_cons_of_mem _ (ih h hc)
    · obtain ⟨first, others, hrest, hcons⟩ := pieces_cons_of_ne hd rest
      rw [hcons, List.mem_cons] at h
      rcases h with rfl | h
      · rcases List.mem_cons.mp hc with rfl | hc
        · exact List.mem_cons_self
        · exact List.mem_cons_of_mem _ (ih (hrest ▸ List.mem_cons_self) hc)
      · exact List.mem_cons_of_mem _ (ih (hrest ▸ List.mem_cons_of_mem _ h) hc)

theorem absent_splitAt {sep : Char} {s : String} (h : c ∉ s.toList) :
    Absent c (splitAt sep s) := by
  intro part hp hc
  obtain ⟨piece, hpiece, rfl⟩ := List.mem_map.mp hp
  exact h (mem_of_mem_pieces hpiece (by simpa using hc))

theorem not_mem_afterLast {sep : Char} {s : String} (h : c ∉ s.toList) :
    c ∉ (afterLast sep s).toList := by
  unfold afterLast
  cases hl : (splitAt sep s).getLast? with
  | none => exact h
  | some part => exact absent_splitAt h part (List.mem_of_getLast? hl)

theorem not_mem_of_beforeLast? {sep : Char} {s before : String} (hsep : c ≠ sep)
    (h : c ∉ s.toList) (hb : beforeLast? sep s = some before) : c ∉ before.toList := by
  unfold beforeLast? at hb
  split at hb
  · simp at hb
  · obtain rfl := Option.some.inj hb
    apply not_mem_join
    · simpa using hsep
    · intro part hp
      exact absent_splitAt h part ((List.dropLast_sublist _).subset hp)

theorem not_mem_exchange {old new : Char} {s : String} (hnew : c ≠ new) (h : c ∉ s.toList) :
    c ∉ (exchange old new s).toList := by
  simp only [toList_exchange, List.mem_map, not_exists, not_and]
  intro d hd
  split
  · exact hnew.symm
  · rintro rfl
    exact h hd

end Text

/-- The source spelling of a name has the character only if the name has it. -/
theorem Foreign.not_mem_sourceName {c : Char} (hc : Foreign c) {name : String}
    (h : c ∉ name.toList) : c ∉ (Names.sourceName name).toList :=
  Text.not_mem_exchange (hc.ne_of_mem_signs (by decide)) h

namespace Source

variable {c : Char}

namespace Dialect

mutual

/-- A type has the character only where a name of it has: induction over the type, along the five
functions that write one. -/
theorem not_mem_typeText (hc : Foreign c) (dialect : Dialect) :
    (type : TypeRef) → Absent c type.names → c ∉ (dialect.typeText type).toList
  | .primitive type, _ => by
    rw [typeText]
    cases type <;> exact hc.not_mem (by decide)
  | .named type, h => by
    rw [typeText]
    exact not_mem_classText hc dialect type h
  | .array component, h => by
    have hcomponent := not_mem_typeText hc dialect component h
    rw [typeText, String.toList_append, List.mem_append, not_or]
    exact ⟨hcomponent, hc.not_mem (by decide)⟩
  | .placeholder name erasure, h => by
    rw [TypeRef.names, absent_cons] at h
    rw [typeText]
    split
    · exact h.1
    · exact not_mem_classText hc dialect erasure h.2

theorem not_mem_classText (hc : Foreign c) (dialect : Dialect) :
    (type : ClassType) → Absent c type.names → c ∉ (dialect.classText type).toList
  | { name, generics, .. }, h => by
    rw [ClassType.names, absent_cons] at h
    have hname : c ∉ (Names.sourceName name).toList := hc.not_mem_sourceName h.1
    have hgenerics := not_mem_genericsText hc dialect generics h.2
    rw [classText]
    split
    · exact hname
    · rw [String.toList_append, List.mem_append, not_or]
      exact ⟨hname, hgenerics⟩

theorem not_mem_genericsText (hc : Foreign c) (dialect : Dialect) :
    (generics : List Generic) → Absent c (Generic.listNames generics) →
      c ∉ (dialect.genericsText generics).toList
  | generics, h => by
    have htexts := absent_genericTexts hc dialect generics h
    rw [genericsText]
    split
    · simp
    · simp only [String.toList_append, List.mem_append, not_or]
      exact ⟨⟨hc.not_mem (by decide), Text.not_mem_join (hc.not_mem (by decide)) htexts⟩,
        hc.not_mem (by decide)⟩

theorem absent_genericTexts (hc : Foreign c) (dialect : Dialect) :
    (generics : List Generic) → Absent c (Generic.listNames generics) →
      Absent c (dialect.genericTexts generics)
  | [], _ => by simp [genericTexts]
  | generic :: rest, h => by
    rw [Generic.listNames, absent_append] at h
    rw [genericTexts, absent_cons]
    exact ⟨not_mem_genericText hc dialect generic h.1, absent_genericTexts hc dialect rest h.2⟩

theorem not_mem_genericText (hc : Foreign c) (dialect : Dialect) :
    (generic : Generic) → Absent c generic.names → c ∉ (dialect.genericText generic).toList
  | { name, type, upperBounds, lowerBound }, h => by
    unfold Generic.names at h
    rw [absent_cons, absent_append, absent_append] at h
    obtain ⟨hname, ⟨htype, hupper⟩, hlower⟩ := h
    have hbounds := absent_typeTexts hc dialect upperBounds hupper
    unfold genericText
    rw [String.toList_append, List.mem_append, not_or]
    constructor
    · cases type with
      | none => exact hname
      | some type => exact not_mem_typeText hc dialect type htype
    · split
      · simp
      · next bound =>
        rw [String.toList_append, List.mem_append, not_or]
        exact ⟨hc.not_mem (by decide), not_mem_typeText hc dialect bound hlower⟩
      · rw [String.toList_append, List.mem_append, not_or]
        exact ⟨hc.not_mem (by decide), Text.not_mem_join (hc.not_mem (by decide)) hbounds⟩

theorem absent_typeTexts (hc : Foreign c) (dialect : Dialect) :
    (types : List TypeRef) → Absent c (TypeRef.listNames types) →
      Absent c (dialect.typeTexts types)
  | [], _ => by simp [typeTexts]
  | type :: rest, h => by
    rw [TypeRef.listNames, absent_append] at h
    rw [typeTexts, absent_cons]
    exact ⟨not_mem_typeText hc dialect type h.1, absent_typeTexts hc dialect rest h.2⟩

end

theorem not_mem_defaultValue (hc : Foreign c) (dialect : Dialect) {type : TypeRef}
    (h : Absent c type.names) : c ∉ (dialect.defaultValue type).toList := by
  have hvalue : c ∉ (if type.isBoolean then "false"
      else if type.isPrimitive then "0" else "null").toList := by
    split
    · exact hc.not_mem (by decide)
    · split <;> exact hc.not_mem (by decide)
  unfold defaultValue
  dsimp only
  split
  · exact hvalue
  · simp only [String.toList_append, List.mem_append, not_or]
    exact ⟨⟨⟨hc.not_mem (by decide), not_mem_typeText hc dialect type h⟩,
      hc.not_mem (by decide)⟩, hvalue⟩

end Dialect

end Source

end JavaStubs
