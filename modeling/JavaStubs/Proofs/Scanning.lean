import JavaStubs.Proofs.Foreign
import JavaStubs.Source.Balance
import JavaStubs.Source.LiteralText

/-!
# Scanning the parts of a text

Generated text is put together from parts that the scanner for balanced braces passes in a known
way. A quiet part leaves the count as it is wherever it stands in code; a closed part does so inside
a group; an opening part begins one group. Texts without braces and quotes are quiet, and so are the
texts of constants, whatever characters they hold.
-/
namespace JavaStubs.Source

/-- Braces and quotes, the characters that mean something to the scanner in code. -/
def delimiters : List Char := ['{', '}', '"', '\'']

theorem foreign_of_mem_delimiters {c : Char} (h : c ∈ delimiters) : Foreign c := by
  simp only [delimiters, List.mem_cons, List.not_mem_nil, or_false] at h
  rcases h with rfl | rfl | rfl | rfl <;> exact ⟨by decide +kernel, by decide⟩

/-- The scanner comes out of the text as it went in. -/
def Quiet (s : String) : Prop :=
  ∀ count rest, countBraces? .code count (s.toList ++ rest) = countBraces? .code count rest

/-- Inside a group, the scanner comes out of the text as it went in. -/
def Closed (s : String) : Prop :=
  ∀ depth closed rest, countBraces? .code ⟨depth + 1, closed⟩ (s.toList ++ rest) =
    countBraces? .code ⟨depth + 1, closed⟩ rest

/-- The scanner comes out of the text in one more group. -/
def Opens (s : String) : Prop :=
  ∀ count rest, countBraces? .code count (s.toList ++ rest) =
    countBraces? .code ⟨count.depth + 1, count.closed⟩ rest

theorem Quiet.closed {s : String} (h : Quiet s) : Closed s :=
  fun depth closed rest => h ⟨depth + 1, closed⟩ rest

theorem quiet_empty : Quiet "" := fun _ _ => rfl

theorem Quiet.append {s t : String} (hs : Quiet s) (ht : Quiet t) : Quiet (s ++ t) := by
  intro count rest
  rw [String.toList_append, List.append_assoc, hs, ht]

theorem Closed.append {s t : String} (hs : Closed s) (ht : Closed t) : Closed (s ++ t) := by
  intro depth closed rest
  rw [String.toList_append, List.append_assoc, hs, ht]

theorem Opens.append {s t : String} (hs : Opens s) (ht : Closed t) : Opens (s ++ t) := by
  intro count rest
  rw [String.toList_append, List.append_assoc, hs, ht]

theorem Quiet.append_opens {s t : String} (hs : Quiet s) (ht : Opens t) : Opens (s ++ t) := by
  intro count rest
  rw [String.toList_append, List.append_assoc, hs, ht]

theorem Quiet.join {sep : String} {parts : List String} (hsep : Quiet sep)
    (h : ∀ part ∈ parts, Quiet part) : Quiet (Text.join sep parts) := by
  induction parts with
  | nil => exact quiet_empty
  | cons s rest ih =>
    rw [List.forall_mem_cons] at h
    cases rest with
    | nil => exact h.1
    | cons next rest =>
      rw [Text.join_cons_cons]
      exact (h.1.append hsep).append (ih h.2)

/-- A text without braces and quotes is quiet. -/
theorem quiet_of_not_mem {s : String} (h : ∀ c ∈ delimiters, c ∉ s.toList) : Quiet s := by
  intro count rest
  generalize s.toList = chars at h
  induction chars with
  | nil => rfl
  | cons d chars ih =>
    have hd : d ∉ delimiters := fun hm => h d hm List.mem_cons_self
    simp only [delimiters, List.mem_cons, List.not_mem_nil, or_false, not_or] at hd
    rw [List.cons_append, countBraces?, if_neg (by simp [hd]), if_neg hd.1, if_neg hd.2.1]
    exact ih fun c hm hc => h c hm (List.mem_cons_of_mem d hc)

/-- A fixed text of words and signs is quiet. -/
theorem quiet_of_signs {s : String}
    (hs : s.toList.all (fun d => d.isAlphanum || signs.contains d) = true) : Quiet s :=
  quiet_of_not_mem fun _ hc => (foreign_of_mem_delimiters hc).not_mem hs

theorem opens_brace : Opens " \x7b" := fun _ _ => rfl

/-- A group is closed by the brace that ends it. -/
theorem Opens.closed_group {s t : String} (hs : Opens s) (ht : Quiet t) :
    Closed (s ++ ("\x7d" ++ t)) := by
  intro depth closed rest
  rw [String.toList_append, String.toList_append, List.append_assoc, List.append_assoc, hs]
  exact ht ⟨depth + 1, closed⟩ rest

theorem closed_braces : Closed " \x7b \x7d" := fun _ _ _ => rfl

/-- The last brace of the text closes its only outermost group. -/
def IsGroup (s : String) : Prop :=
  ∃ front, s = front ++ "\x7d\n" ∧
    ∀ rest, countBraces? .code {} (front.toList ++ rest) = countBraces? .code ⟨1, 0⟩ rest

theorem IsGroup.isBalanced {s : String} (h : IsGroup s) : isBalanced s = true := by
  obtain ⟨front, rfl, hfront⟩ := h
  have hcount : countBraces? .code {} (front ++ "\x7d\n").toList = some ⟨0, 1⟩ := by
    rw [String.toList_append, hfront]
    rfl
  have hend : Text.trimEnd (front ++ "\x7d\n").toList = front.toList ++ ['}'] := by
    have hline : Text.isBlank '\n' = true := by decide
    have hbrace : Text.isBlank '}' = false := by decide
    have hlast : "\x7d\n".toList = ['}', '\n'] := rfl
    simp [Text.trimEnd, hlast, hline, hbrace]
  rw [Source.isBalanced, hcount, hend, List.getLast?_append]
  rfl

end JavaStubs.Source
