/-!
# Lines, columns and offsets

A place in a text is given by the number of bytes before it, or by a line, counted from one, and a
number of bytes within that line. `lineAndColumn` and `offsetOf` lead from one to the other. Offsets
are machine words: a sum that is too large for a word wraps around, or stops a program that checks
its sums.
-/
namespace JavaStubs.Text

/-- The number of bytes of characters. -/
def byteLength (s : List Char) : Nat :=
  s.foldr (fun c length => c.utf8Size + length) 0

@[simp] theorem byteLength_nil : byteLength [] = 0 := rfl

@[simp] theorem byteLength_cons (c : Char) (s : List Char) :
    byteLength (c :: s) = c.utf8Size + byteLength s := rfl

@[simp] theorem byteLength_append (s t : List Char) :
    byteLength (s ++ t) = byteLength s + byteLength t := by
  induction s with
  | nil => simp
  | cons c rest ih => simp [ih, Nat.add_assoc]

/-- The lines of a text, each with the line feed that ends it. An empty text has no line. -/
def lines : List Char → List (List Char)
  | [] => []
  | c :: rest =>
    if c = '\n' then [c] :: lines rest
    else match lines rest with
      | [] => [[c]]
      | line :: others => (c :: line) :: others

/-- The lines together are the text. -/
theorem flatten_lines (s : List Char) : (lines s).flatten = s := by
  induction s with
  | nil => rfl
  | cons c rest ih =>
    simp only [lines]
    split
    · simp [ih]
    · split <;> simp_all

/-- The number of machine words. -/
def wordSize : Nat := Nat.pow 2 64

/-- Where a line, counted from one, begins; a line that a text does not have begins at its end. -/
def lineStart (s : String) (line : Nat) : Nat :=
  byteLength ((lines s.toList).take (line - 1)).flatten

theorem lineStart_le (s : String) (line : Nat) : lineStart s line ≤ byteLength s.toList := by
  have hsplit : ((lines s.toList).take (line - 1)).flatten ++
      ((lines s.toList).drop (line - 1)).flatten = s.toList := by
    rw [← List.flatten_append, List.take_append_drop, flatten_lines]
  have hlength := congrArg byteLength hsplit
  rw [byteLength_append] at hlength
  exact hlength ▸ Nat.le_add_right _ _

/-- The offset of a line and column, both counted from one; at most the length of the text. A sum
that is no word wraps around. -/
def offsetOf (s : String) (line column : Nat) : Nat :=
  min ((lineStart s line + (column - 1)) % wordSize) (byteLength s.toList)

/-- The offset of a line and column where sums are checked: there is none if the sum is no word. -/
def checkedOffset? (s : String) (line column : Nat) : Option Nat :=
  if lineStart s line + (column - 1) < wordSize then some (offsetOf s line column) else none

theorem offsetOf_le (s : String) (line column : Nat) :
    offsetOf s line column ≤ byteLength s.toList :=
  Nat.min_le_right _ _

theorem offsetOf_of_lt {s : String} {line column : Nat}
    (h : lineStart s line + (column - 1) < wordSize) :
    offsetOf s line column = min (lineStart s line + (column - 1)) (byteLength s.toList) := by
  rw [offsetOf, Nat.mod_eq_of_lt h]

/-- The line that holds the byte before `target`, and how many bytes of it stand before `target`;
`line` and `start` are those of the place `here`. -/
def locateFrom (target line start here : Nat) : List Char → Nat × Nat
  | [] => (line, target - start)
  | c :: rest =>
    if target ≤ here then (line, target - start)
    else if c = '\n' then locateFrom target (line + 1) (here + 1) (here + 1) rest
    else locateFrom target line start (here + c.utf8Size) rest

/-- The line, counted from one, and the number of bytes of that line before a place. -/
def lineAndColumn (s : String) (target : Nat) : Nat × Nat :=
  locateFrom target 1 0 0 s.toList

end JavaStubs.Text
