/-!
# Cutting and joining text

`splitAt` cuts a text at every occurrence of a character and `join` puts pieces together again;
`join_splitAt` says that nothing is lost. The pieces never hold the separator, and there is always
at least one piece.
-/
namespace JavaStubs.Text

/-- The pieces between the occurrences of `sep`; adjacent occurrences have an empty piece between
them. -/
def pieces (sep : Char) : List Char → List (List Char)
  | [] => [[]]
  | c :: rest =>
    if c = sep then [] :: pieces sep rest
    else match pieces sep rest with
      | [] => [[c]]
      | piece :: others => (c :: piece) :: others

theorem pieces_ne_nil (sep : Char) (s : List Char) : pieces sep s ≠ [] := by
  cases s with
  | nil => simp [pieces]
  | cons c rest =>
    simp only [pieces]
    split
    · simp
    · split <;> simp

theorem pieces_cons_of_ne {sep c : Char} (h : c ≠ sep) (rest : List Char) :
    ∃ piece others, pieces sep rest = piece :: others ∧
      pieces sep (c :: rest) = (c :: piece) :: others := by
  cases hp : pieces sep rest with
  | nil => exact absurd hp (pieces_ne_nil sep rest)
  | cons piece others => exact ⟨piece, others, rfl, by simp [pieces, h, hp]⟩

/-- No piece holds the separator. -/
theorem not_mem_of_mem_pieces {sep : Char} {s piece : List Char} (h : piece ∈ pieces sep s) :
    sep ∉ piece := by
  induction s generalizing piece with
  | nil => simp_all [pieces]
  | cons c rest ih =>
    by_cases hc : c = sep
    · simp only [pieces, if_pos hc, List.mem_cons] at h
      rcases h with rfl | h
      · simp
      · exact ih h
    · obtain ⟨first, others, hrest, hcons⟩ := pieces_cons_of_ne hc rest
      rw [hcons, List.mem_cons] at h
      rcases h with rfl | h
      · have := ih (hrest ▸ List.mem_cons_self)
        simp [this, Ne.symm hc]
      · exact ih (hrest ▸ List.mem_cons_of_mem _ h)

/-- Joining the pieces gives the text back. -/
theorem intercalate_pieces (sep : Char) (s : List Char) :
    List.intercalate [sep] (pieces sep s) = s := by
  induction s with
  | nil => rfl
  | cons c rest ih =>
    by_cases hc : c = sep
    · cases hp : pieces sep rest with
      | nil => exact absurd hp (pieces_ne_nil sep rest)
      | cons piece others =>
        rw [hp] at ih
        simp only [pieces, if_pos hc, hp, List.intercalate, List.intersperse] at ih ⊢
        simp_all
    · obtain ⟨piece, others, hrest, hcons⟩ := pieces_cons_of_ne hc rest
      rw [hrest] at ih
      rw [hcons]
      cases others <;> simp_all [List.intercalate, List.intersperse]

/-- The pieces of a text between the occurrences of `sep`. -/
def splitAt (sep : Char) (s : String) : List String :=
  (pieces sep s.toList).map String.ofList

/-- The texts one after the other, with `sep` between neighbours. -/
def join (sep : String) : List String → String
  | [] => ""
  | [s] => s
  | s :: next :: rest => s ++ sep ++ join sep (next :: rest)

@[simp] theorem join_nil (sep : String) : join sep [] = "" := rfl

@[simp] theorem join_singleton (sep s : String) : join sep [s] = s := rfl

@[simp] theorem join_cons_cons (sep s next : String) (rest : List String) :
    join sep (s :: next :: rest) = s ++ sep ++ join sep (next :: rest) := rfl

theorem toList_join (sep : String) (parts : List String) :
    (join sep parts).toList = List.intercalate sep.toList (parts.map String.toList) := by
  induction parts with
  | nil => rfl
  | cons s rest ih =>
    cases rest with
    | nil => simp [List.intercalate]
    | cons next rest =>
      rw [join_cons_cons, String.toList_append, String.toList_append, ih]
      simp [List.intercalate]

theorem splitAt_ne_nil (sep : Char) (s : String) : splitAt sep s ≠ [] := by
  simp [splitAt, pieces_ne_nil]

/-- Cutting at a character and joining with it gives the text back. -/
theorem join_splitAt (sep : Char) (s : String) :
    join (String.singleton sep) (splitAt sep s) = s := by
  apply String.toList_inj.mp
  simp [toList_join, splitAt, intercalate_pieces, Function.comp_def]

/-- The last piece: what follows the last occurrence of `sep`, or the whole text. -/
def afterLast (sep : Char) (s : String) : String :=
  ((splitAt sep s).getLast?).getD s

/-- What stands before the last occurrence of `sep`, if there is one. -/
def beforeLast? (sep : Char) (s : String) : Option String :=
  match (splitAt sep s).dropLast with
  | [] => none
  | parts => some (join (String.singleton sep) parts)

/-- The text with every occurrence of one character exchanged for another. -/
def exchange (old new : Char) (s : String) : String :=
  String.ofList (s.toList.map fun c => if c = old then new else c)

@[simp] theorem toList_exchange (old new : Char) (s : String) :
    (exchange old new s).toList = s.toList.map fun c => if c = old then new else c := by
  simp [exchange]

end JavaStubs.Text
