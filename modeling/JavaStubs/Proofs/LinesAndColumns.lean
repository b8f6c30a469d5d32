import JavaStubs.Input.ModelText
import Mathlib.Data.List.DropRight

/-!
# Offsets, lines and columns

A place in a text is a number of bytes, and may stand within a character. Its line is told by the
line feeds before it and its column by the bytes since the last of them. Going through the lines of
a text finds the same: from a line and column back to the place, and from a place to its line and
column. The line and column of a place never add up to more than a word can hold; other lines and
columns can, and then lead to a place before the line.
-/
namespace JavaStubs.Text

/-- The bytes of a text. -/
def bytes (s : String) : List UInt8 := s.toUTF8.data.toList

/-- The byte that ends a line. -/
def lineFeed : UInt8 := 10

/-- How many bytes stand at the end of those read that belong to a line which has not ended. -/
def sinceLineFeed (read : List UInt8) : Nat := (read.rtakeWhile (· != lineFeed)).length

/-- The line of a place, counted from one: each line feed before the place begins another line. -/
def lineAt (s : String) (place : Nat) : Nat := 1 + ((bytes s).take place).count lineFeed

/-- The column of a place, counted from one: each byte between the beginning of its line and the
place is a column. -/
def columnAt (s : String) (place : Nat) : Nat := 1 + sinceLineFeed ((bytes s).take place)

/-- The bytes of characters. -/
def encoded (s : List Char) : List UInt8 := s.flatMap String.utf8EncodeChar

@[simp] theorem encoded_nil : encoded [] = [] := rfl

@[simp] theorem encoded_cons (c : Char) (s : List Char) :
    encoded (c :: s) = String.utf8EncodeChar c ++ encoded s := rfl

theorem bytes_eq_encoded (s : String) : bytes s = encoded s.toList := by
  have h : s.toList.utf8Encode = s.toUTF8 := String.utf8Encode_toList
  rw [bytes, ← h, List.utf8Encode]
  simp [encoded]

@[simp] theorem length_encoded (s : List Char) : (encoded s).length = byteLength s := by
  induction s with
  | nil => rfl
  | cons c rest ih => simp [ih]

theorem length_bytes (s : String) : (bytes s).length = s.utf8ByteSize := rfl

theorem byteLength_toList (s : String) : byteLength s.toList = s.utf8ByteSize := by
  rw [← length_encoded, ← bytes_eq_encoded, length_bytes]

theorem ofNat_ne_lineFeed {n : Nat} (h : n % 256 ≠ 10) : lineFeed ≠ UInt8.ofNat n := by
  intro heq
  have hsame : 10 = n % 256 := by simpa [lineFeed] using congrArg UInt8.toNat heq
  exact h hsame.symm

/-- Only the line feed has its byte in it: all bytes of longer characters are large. -/
theorem lineFeed_not_mem {c : Char} (h : c ≠ '\n') : lineFeed ∉ String.utf8EncodeChar c := by
  have hvalue : c.val.toNat ≠ 10 := fun heq => h (Char.ext (UInt32.toNat_inj.mp heq))
  fun_cases String.utf8EncodeChar c with
  | case1 value hsmall =>
    rw [List.mem_singleton]
    exact ofNat_ne_lineFeed (by omega)
  | case2 =>
    simp only [List.mem_cons, List.not_mem_nil, or_false, not_or]
    exact ⟨ofNat_ne_lineFeed (by omega), ofNat_ne_lineFeed (by omega)⟩
  | case3 =>
    simp only [List.mem_cons, List.not_mem_nil, or_false, not_or]
    exact ⟨ofNat_ne_lineFeed (by omega), ofNat_ne_lineFeed (by omega),
      ofNat_ne_lineFeed (by omega)⟩
  | case4 =>
    simp only [List.mem_cons, List.not_mem_nil, or_false, not_or]
    exact ⟨ofNat_ne_lineFeed (by omega), ofNat_ne_lineFeed (by omega),
      ofNat_ne_lineFeed (by omega), ofNat_ne_lineFeed (by omega)⟩

section SinceLineFeed

variable {read next : List UInt8}

@[simp] theorem sinceLineFeed_nil : sinceLineFeed [] = 0 := rfl

theorem sinceLineFeed_concat (read : List UInt8) (b : UInt8) :
    sinceLineFeed (read ++ [b]) = if b = lineFeed then 0 else sinceLineFeed read + 1 := by
  by_cases hb : b = lineFeed <;> simp [sinceLineFeed, hb]

/-- A line goes on with bytes that do not end it. -/
theorem sinceLineFeed_append (h : lineFeed ∉ next) :
    sinceLineFeed (read ++ next) = sinceLineFeed read + next.length := by
  induction next using List.reverseRecOn with
  | nil => simp
  | append_singleton next b ih =>
    rw [List.mem_append, List.mem_singleton, not_or] at h
    rw [← List.append_assoc, sinceLineFeed_concat, if_neg (Ne.symm h.2), ih h.1,
      List.length_append, List.length_singleton, Nat.add_assoc]

theorem sinceLineFeed_of_not_mem (h : lineFeed ∉ next) : sinceLineFeed next = next.length := by
  simpa using @sinceLineFeed_append [] next h

/-- What stands before a line feed has no part in the line that follows it. -/
theorem sinceLineFeed_append_lineFeed (read next : List UInt8) :
    sinceLineFeed (read ++ lineFeed :: next) = sinceLineFeed next := by
  induction next using List.reverseRecOn with
  | nil => simp [sinceLineFeed_concat]
  | append_singleton next b ih =>
    rw [← List.cons_append, ← List.append_assoc, sinceLineFeed_concat, sinceLineFeed_concat, ih]

theorem sinceLineFeed_append_of_mem (h : lineFeed ∈ next) :
    sinceLineFeed (read ++ next) = sinceLineFeed next := by
  obtain ⟨before, after, rfl⟩ := List.append_of_mem h
  rw [← List.append_assoc, sinceLineFeed_append_lineFeed, sinceLineFeed_append_lineFeed]

end SinceLineFeed

section Taken

variable {c : Char} {rest : List Char} {place : Nat}

theorem take_encoded_of_le (h : place ≤ c.utf8Size) :
    (encoded (c :: rest)).take place = (String.utf8EncodeChar c).take place := by
  rw [encoded_cons, List.take_append_of_le_length (by simpa using h)]

theorem take_encoded_of_ge (h : c.utf8Size ≤ place) : (encoded (c :: rest)).take place =
    String.utf8EncodeChar c ++ (encoded rest).take (place - c.utf8Size) := by
  rw [encoded_cons, List.take_append, List.take_of_length_le (by simpa using h),
    String.length_utf8EncodeChar]

theorem take_encoded_lineFeed (rest : List Char) (place : Nat) :
    (encoded ('\n' :: rest)).take (place + 1) = lineFeed :: (encoded rest).take place := rfl

/-- A character that ends no line makes the first line longer. -/
theorem byteLength_take_lines (h : c ≠ '\n') {count : Nat} (hcount : count ≠ 0) :
    byteLength ((lines (c :: rest)).take count).flatten =
      c.utf8Size + byteLength ((lines rest).take count).flatten := by
  obtain ⟨count, rfl⟩ := Nat.exists_eq_succ_of_ne_zero hcount
  rw [lines, if_neg h]
  cases lines rest <;> simp

end Taken

/-- The lines that end before a place, and the bytes of its own line before it, are all bytes
before it. -/
theorem byteLength_lines_add (s : List Char) {place : Nat} (h : place ≤ byteLength s) :
    byteLength ((lines s).take (((encoded s).take place).count lineFeed)).flatten +
      sinceLineFeed ((encoded s).take place) = place := by
  induction s generalizing place with
  | nil => simp_all
  | cons c rest ih =>
    rw [byteLength_cons] at h
    by_cases hc : c = '\n'
    · subst hc
      have hsize : '\n'.utf8Size = 1 := rfl
      cases place with
      | zero => simp
      | succ place =>
        have hrest := @ih place (by omega)
        rw [take_encoded_lineFeed, List.count_cons_self, lines, if_pos rfl, List.take_succ_cons,
          List.flatten_cons, byteLength_append, ← List.nil_append (lineFeed :: _),
          sinceLineFeed_append_lineFeed, byteLength_cons, byteLength_nil]
        omega
    · have hfree : lineFeed ∉ String.utf8EncodeChar c := lineFeed_not_mem hc
      rcases Nat.le_total place c.utf8Size with hshort | hlong
      · -- The place is in the first character or right after it.
        have hnone : lineFeed ∉ (String.utf8EncodeChar c).take place :=
          fun hmem => hfree (List.mem_of_mem_take hmem)
        rw [take_encoded_of_le hshort, List.count_eq_zero_of_not_mem hnone,
          sinceLineFeed_of_not_mem hnone, List.length_take, String.length_utf8EncodeChar,
          Nat.min_eq_left hshort]
        simp
      · have hrest := @ih (place - c.utf8Size) (by omega)
        rw [take_encoded_of_ge hlong, List.count_append, List.count_eq_zero_of_not_mem hfree,
          Nat.zero_add]
        generalize (encoded rest).take (place - c.utf8Size) = next at hrest
        by_cases hmem : lineFeed ∈ next
        · have hcount : next.count lineFeed ≠ 0 := by rwa [Ne, List.count_eq_zero, not_not]
          rw [sinceLineFeed_append_of_mem hmem, byteLength_take_lines hc hcount]
          omega
        · rw [List.count_eq_zero_of_not_mem hmem, sinceLineFeed_of_not_mem hmem] at hrest
          rw [List.count_eq_zero_of_not_mem hmem, sinceLineFeed_append hmem,
            sinceLineFeed_of_not_mem hfree, String.length_utf8EncodeChar]
          simp only [List.take_zero, List.flatten_nil, byteLength_nil, Nat.zero_add] at hrest ⊢
          omega

/-- The beginning of a place's line and the bytes of the line before the place add up to the
place. -/
theorem lineStart_lineAt {s : String} {place : Nat} (h : place ≤ s.utf8ByteSize) :
    lineStart s (lineAt s place) + (columnAt s place - 1) = place := by
  rw [← byteLength_toList] at h
  have hplace := byteLength_lines_add s.toList h
  rwa [lineStart, lineAt, columnAt, bytes_eq_encoded, Nat.add_sub_cancel_left,
    Nat.add_sub_cancel_left]

section Offsets

variable {s : String} {line column place : Nat}

/-- The offset of the line and column of a place is that place. -/
theorem offsetOf_lineAt (hsize : s.utf8ByteSize < wordSize) (h : place ≤ s.utf8ByteSize) :
    offsetOf s (lineAt s place) (columnAt s place) = place := by
  have hplace := lineStart_lineAt h
  rw [offsetOf_of_lt (by omega), hplace, byteLength_toList]
  exact Nat.min_eq_left h

theorem checkedOffset?_lineAt (hsize : s.utf8ByteSize < wordSize) (h : place ≤ s.utf8ByteSize) :
    checkedOffset? s (lineAt s place) (columnAt s place) = some place := by
  have hplace := lineStart_lineAt h
  rw [checkedOffset?, if_pos (by omega), offsetOf_lineAt hsize h]

/-- Sums are checked without effect exactly where the offset is the sum, or the length of the text
if that is less. -/
theorem checkedOffset?_eq (s : String) (line column : Nat) :
    checkedOffset? s line column =
      if lineStart s line + (column - 1) < wordSize then
        some (min (lineStart s line + (column - 1)) s.utf8ByteSize)
      else none := by
  rw [checkedOffset?]
  split
  case isTrue h => rw [offsetOf_of_lt h, byteLength_toList]
  case isFalse => rfl

theorem offsetOf_of_checkedOffset? {offset : Nat}
    (h : checkedOffset? s line column = some offset) : offsetOf s line column = offset := by
  rw [checkedOffset?] at h
  split at h
  · exact Option.some.inj h
  · cases h

/-- A sum that wraps around leads to a place before the line, and no other sum does. -/
theorem offsetOf_lt_lineStart_iff (hsize : s.utf8ByteSize < wordSize)
    (hcolumn : column < wordSize) :
    offsetOf s line column < lineStart s line ↔ wordSize ≤ lineStart s line + (column - 1) := by
  have hstart : lineStart s line ≤ s.utf8ByteSize :=
    (lineStart_le s line).trans_eq (byteLength_toList s)
  rcases Nat.lt_or_ge (lineStart s line + (column - 1)) wordSize with hfits | hwraps
  · rw [offsetOf_of_lt hfits, byteLength_toList]
    omega
  · have hrest : (lineStart s line + (column - 1)) % wordSize =
        lineStart s line + (column - 1) - wordSize := by
      rw [Nat.mod_eq_sub_mod hwraps, Nat.mod_eq_of_lt (by omega)]
    rw [offsetOf, hrest]
    omega

end Offsets

/-- Nothing is looked at from the place on. -/
theorem locateFrom_of_le {target here : Nat} (h : target ≤ here) (line start : Nat)
    (rest : List Char) : locateFrom target line start here rest = (line, target - start) := by
  cases rest with
  | nil => rfl
  | cons c rest => rw [locateFrom, if_pos h]

/-- The search for a place with the bytes `read` of its line before it: the line feeds that come
before the place are counted, and so are the bytes since the last of them. -/
theorem locateFrom_eq (line start : Nat) {read : List UInt8} (hread : lineFeed ∉ read)
    (rest : List Char) {place : Nat} (h : place ≤ byteLength rest) :
    locateFrom (start + read.length + place) line start (start + read.length) rest =
      (line + ((encoded rest).take place).count lineFeed,
        sinceLineFeed (read ++ (encoded rest).take place)) := by
  induction rest generalizing line start read place with
  | nil =>
    obtain rfl : place = 0 := by simpa using h
    simp [locateFrom, sinceLineFeed_of_not_mem hread]
  | cons c rest ih =>
    rw [byteLength_cons] at h
    rcases Nat.eq_zero_or_pos place with rfl | hpos
    · rw [locateFrom_of_le (by omega)]
      simp [sinceLineFeed_of_not_mem hread]
    rw [locateFrom, if_neg (by omega)]
    split
    case isTrue hc =>
      subst hc
      have hsize : '\n'.utf8Size = 1 := rfl
      obtain ⟨place, rfl⟩ := Nat.exists_eq_succ_of_ne_zero hpos.ne'
      have hrest := @ih (line + 1) (start + read.length + 1) [] (by simp) place (by omega)
      have hplace : start + read.length + (place + 1) =
          start + read.length + 1 + place := by omega
      rw [List.length_nil, Nat.add_zero, List.nil_append] at hrest
      rw [Nat.succ_eq_add_one, hplace, hrest, take_encoded_lineFeed, List.count_cons_self,
        sinceLineFeed_append_lineFeed]
      congr 1
      omega
    case isFalse hc =>
      have hfree : lineFeed ∉ String.utf8EncodeChar c := lineFeed_not_mem hc
      rcases Nat.le_total place c.utf8Size with hshort | hlong
      · have hnone : lineFeed ∉ (String.utf8EncodeChar c).take place :=
          fun hmem => hfree (List.mem_of_mem_take hmem)
        rw [locateFrom_of_le (by omega), take_encoded_of_le hshort,
          List.count_eq_zero_of_not_mem hnone, sinceLineFeed_append hnone,
          sinceLineFeed_of_not_mem hread, List.length_take, String.length_utf8EncodeChar,
          Nat.min_eq_left hshort]
        congr 1
        omega
      · obtain ⟨more, rfl⟩ := Nat.exists_eq_add_of_le hlong
        have hboth : lineFeed ∉ read ++ String.utf8EncodeChar c := by simp [hread, hfree]
        have hrest := @ih line start _ hboth more (by omega)
        rw [List.length_append, String.length_utf8EncodeChar] at hrest
        rw [take_encoded_of_ge hlong, Nat.add_sub_cancel_left, List.count_append,
          List.count_eq_zero_of_not_mem hfree, Nat.zero_add, ← List.append_assoc, ← hrest]
        simp only [Nat.add_assoc]

/-- The line and column found for a place are its own; only the column is counted from zero. -/
theorem lineAndColumn_eq {s : String} {place : Nat} (h : place ≤ s.utf8ByteSize) :
    lineAndColumn s place = (lineAt s place, columnAt s place - 1) := by
  rw [← byteLength_toList] at h
  have hplace := @locateFrom_eq 1 0 [] (by simp) s.toList place h
  simpa [lineAndColumn, lineAt, columnAt, bytes_eq_encoded] using hplace

theorem columnAt_zero (s : String) : columnAt s 0 = 1 := rfl

/-- Within a line each byte is one column. -/
theorem columnAt_succ {s : String} {place : Nat} (h : place < s.utf8ByteSize)
    (hcolumn : columnAt s (place + 1) ≠ 1) :
    lineAt s (place + 1) = lineAt s place ∧ columnAt s (place + 1) = columnAt s place + 1 := by
  have hlength : place < (bytes s).length := h
  have hread : (bytes s).take (place + 1) = (bytes s).take place ++ [(bytes s)[place]] :=
    List.take_succ_eq_append_getElem hlength
  rw [columnAt, hread, sinceLineFeed_concat] at hcolumn
  split at hcolumn
  case isTrue => simp at hcolumn
  case isFalse hb =>
    rw [lineAt, columnAt, hread, sinceLineFeed_concat, if_neg hb, List.count_append]
    exact ⟨by simp [lineAt, hb], by rw [columnAt]; omega⟩

/-- The line and column found for a place add up to a word. -/
theorem checkedOffset?_lineAndColumn {s : String} {place : Nat} (hsize : s.utf8ByteSize < wordSize)
    (h : place ≤ s.utf8ByteSize) :
    let found := lineAndColumn s place
    checkedOffset? s found.1 found.2 = some (offsetOf s found.1 found.2) := by
  rw [lineAndColumn_eq h]
  have hplace := lineStart_lineAt h
  have hsum : lineStart s (lineAt s place) + (columnAt s place - 1 - 1) < wordSize := by omega
  exact if_pos hsum

/-- The offset of the line and column found for a place stands in that line and column. There is
no column before the first one. -/
theorem lineAt_offsetOf {s : String} {place : Nat} (hsize : s.utf8ByteSize < wordSize)
    (h : place ≤ s.utf8ByteSize) :
    let found := lineAndColumn s place
    lineAt s (offsetOf s found.1 found.2) = found.1 ∧
      columnAt s (offsetOf s found.1 found.2) = max 1 found.2 := by
  rw [lineAndColumn_eq h]
  have hplace := offsetOf_lineAt hsize h
  by_cases hfirst : columnAt s place = 1
  · -- Column zero leads to the beginning of the line, as the first column does.
    rw [hfirst] at hplace ⊢
    have hzero : offsetOf s (lineAt s place) (1 - 1) = place := hplace
    exact ⟨by rw [hzero], by rw [hzero, hfirst]; rfl⟩
  · cases place with
    | zero => exact absurd (columnAt_zero s) hfirst
    | succ place =>
      obtain ⟨hline, hcolumn⟩ := columnAt_succ h hfirst
      have hbefore := offsetOf_lineAt hsize (Nat.le_of_succ_le h)
      have hpositive : 1 ≤ columnAt s place := Nat.le_add_right 1 _
      simp only [hline, hcolumn, Nat.add_sub_cancel, hbefore, true_and]
      omega

end JavaStubs.Text
