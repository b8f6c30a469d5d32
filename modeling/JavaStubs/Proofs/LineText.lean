import JavaStubs.Proofs.LiteralText
import JavaStubs.Text.Location

/-!
# Texts made of lines

A text of lines is indented by putting spaces before each of them. What a layout appends for a
fragment is the text of the fragment's lines, indented as far as the depth says: a block's body
stands four spaces further to the right than its header. Constants never bring a line feed into a
line, whatever characters they hold.
-/
namespace JavaStubs

namespace Text

/-- So many spaces. -/
def spaces (width : Nat) : String := String.ofList (List.replicate width ' ')

/-- The text with so many spaces before every line. -/
def indented (width : Nat) (text : String) : String :=
  String.ofList ((lines text.toList).flatMap fun line => (spaces width).toList ++ line)

/-- The text of lines, each followed by a line feed. -/
def unlines (lines : List String) : String := String.join (lines.map (· ++ "\n"))

@[simp] theorem unlines_nil : unlines [] = "" := rfl

@[simp] theorem unlines_cons (line : String) (rest : List String) :
    unlines (line :: rest) = line ++ "\n" ++ unlines rest := by
  simp [unlines, String.join_cons]

theorem unlines_append (first second : List String) :
    unlines (first ++ second) = unlines first ++ unlines second := by
  induction first with
  | nil => simp
  | cons line rest ih => simp [ih, String.append_assoc]

theorem lines_line {line : List Char} (h : '\n' ∉ line) (rest : List Char) :
    lines (line ++ '\n' :: rest) = (line ++ ['\n']) :: lines rest := by
  induction line with
  | nil => simp [lines]
  | cons c line ih =>
    rw [List.mem_cons, not_or] at h
    rw [List.cons_append, lines, if_neg (Ne.symm h.1), ih h.2]
    rfl

/-- Indenting a text of lines indents each of them. -/
theorem indented_unlines (width : Nat) {lines : List String} (h : Absent '\n' lines) :
    indented width (unlines lines) = unlines (lines.map (spaces width ++ ·)) := by
  induction lines with
  | nil => rfl
  | cons line rest ih =>
    rw [absent_cons] at h
    have hlines : Text.lines (unlines (line :: rest)).toList =
        (line.toList ++ ['\n']) :: Text.lines (unlines rest).toList := by
      rw [unlines_cons, String.toList_append, String.toList_append, List.append_assoc]
      exact lines_line h.1 (unlines rest).toList
    have hfirst : indented width (unlines (line :: rest)) =
        spaces width ++ line ++ "\n" ++ indented width (unlines rest) := by
      apply String.toList_inj.mp
      rw [indented, String.toList_ofList, hlines]
      simp [indented]
    rw [hfirst, ih h.2, List.map_cons, unlines_cons]

theorem spaces_add (m n : Nat) : spaces (m + n) = spaces m ++ spaces n := by
  apply String.toList_inj.mp
  simp [spaces, List.replicate_append_replicate]

end Text

theorem Indent.text_standard (depth : Nat) :
    Indent.standard.text depth = Text.spaces (4 * depth) := by
  rw [standard, text, Text.spaces, Nat.mul_comm]

mutual

/-- The lines of a fragment at the outermost level. -/
def Fragment.lines : Fragment → List String
  | .line text => [text]
  | .blank => [""]
  | .block header body =>
    header :: (Fragment.listLines body).map (Text.spaces 4 ++ ·) ++ ["\x7d"]

/-- The lines of fragments one after the other. -/
def Fragment.listLines : List Fragment → List String
  | [] => []
  | fragment :: rest => fragment.lines ++ Fragment.listLines rest

end

theorem Fragment.listLines_eq_flatMap (fragments : List Fragment) :
    listLines fragments = fragments.flatMap lines := by
  induction fragments with
  | nil => rw [listLines, List.flatMap_nil]
  | cons fragment rest ih => rw [listLines, ih, List.flatMap_cons]

theorem Fragment.listLines_append (first second : List Fragment) :
    listLines (first ++ second) = listLines first ++ listLines second := by
  simp only [listLines_eq_flatMap, List.flatMap_append]

/-- The fragment has no empty lines, and no line feed stands inside a line of it. -/
inductive Unbroken : Fragment → Prop where
  | line {text : String} (h : '\n' ∉ text.toList) : Unbroken (.line text)
  | block {header : String} {body : List Fragment} (hheader : '\n' ∉ header.toList)
      (hbody : ∀ fragment ∈ body, Unbroken fragment) : Unbroken (.block header body)

theorem Text.not_mem_spaces (width : Nat) : '\n' ∉ (spaces width).toList := by
  rw [spaces, String.toList_ofList]
  intro hm
  exact absurd (List.eq_of_mem_replicate hm) (by decide)

theorem Unbroken.absent_lines {fragment : Fragment} (h : Unbroken fragment) :
    Absent '\n' fragment.lines := by
  induction h with
  | line h => simpa [Fragment.lines] using h
  | @block header body hheader hbody ih =>
    have hbrace : '\n' ∉ "\x7d".toList := by decide
    rw [Fragment.lines, Fragment.listLines_eq_flatMap]
    simp only [absent_cons, absent_append, List.cons_append]
    refine ⟨hheader, ?_, hbrace, absent_nil⟩
    intro indented hm
    obtain ⟨line, hl, rfl⟩ := List.mem_map.mp hm
    obtain ⟨fragment, hf, hl⟩ := List.mem_flatMap.mp hl
    rw [String.toList_append, List.mem_append, not_or]
    exact ⟨Text.not_mem_spaces 4, ih fragment hf line hl⟩

theorem absent_listLines {fragments : List Fragment} (h : ∀ f ∈ fragments, Unbroken f) :
    Absent '\n' (Fragment.listLines fragments) := by
  rw [Fragment.listLines_eq_flatMap, absent_flatMap]
  exact fun fragment hf => (h fragment hf).absent_lines

namespace Layout

theorem addLine_eq_addText (depth : Nat) (text line : String) :
    addLine ⟨depth, .standard, text⟩ line =
      addText ⟨depth, .standard, text⟩ (Text.unlines [Text.spaces (4 * depth) ++ line]) := by
  simp only [addLine, addText, Indent.text_standard, Text.unlines_cons, Text.unlines_nil,
    String.append_empty, String.append_assoc]

/-- If every fragment of a list appends its lines, so does the list. -/
theorem addAll_eq_addText {fragments : List Fragment} (depth : Nat)
    (h : ∀ f ∈ fragments, ∀ text, add ⟨depth, .standard, text⟩ f =
      addText ⟨depth, .standard, text⟩
        (Text.unlines (f.lines.map (Text.spaces (4 * depth) ++ ·)))) (text : String) :
    addAll ⟨depth, .standard, text⟩ fragments =
      addText ⟨depth, .standard, text⟩
        (Text.unlines ((Fragment.listLines fragments).map (Text.spaces (4 * depth) ++ ·))) := by
  induction fragments generalizing text with
  | nil => simp [Fragment.listLines, addText]
  | cons fragment rest ih =>
    rw [List.forall_mem_cons] at h
    rw [addAll_cons, h.1, addText, ih h.2, Fragment.listLines, List.map_append,
      Text.unlines_append]
    simp only [addText, String.append_assoc]

/-- A fragment without empty lines appends its lines, each behind the spaces of the depth, and
leaves the depth as it is. Induction over the fragment for every depth, since the body of a block is
laid out one level deeper. -/
theorem add_eq_addText {fragment : Fragment} (h : Unbroken fragment) (depth : Nat)
    (text : String) :
    add ⟨depth, .standard, text⟩ fragment =
      addText ⟨depth, .standard, text⟩
        (Text.unlines (fragment.lines.map (Text.spaces (4 * depth) ++ ·))) := by
  induction h generalizing depth text with
  | line h => rw [add, addLine_eq_addText, Fragment.lines, List.map_singleton]
  | @block header body hheader hbody ih =>
    have hdeeper : ∀ line : String, Text.spaces (4 * (depth + 1)) ++ line =
        Text.spaces (4 * depth) ++ (Text.spaces 4 ++ line) := by
      intro line
      rw [Nat.mul_succ, Text.spaces_add, String.append_assoc]
    have hinside := addAll_eq_addText (depth + 1) fun f hf => ih f hf (depth + 1)
    rw [add, addLine_eq_addText, addText, deeper, hinside, addText, shallower,
      Nat.add_sub_cancel, addLine_eq_addText, Fragment.lines]
    simp only [hdeeper, List.map_append, List.map_cons, List.map_map, Function.comp_def,
      List.map_nil, List.cons_append, Text.unlines_cons, Text.unlines_append, addText,
      String.append_assoc]
    rfl

end Layout

namespace Source

/-- A line feed is neither part of an identifier nor a sign. -/
theorem foreign_lineFeed : Foreign '\n' := ⟨by decide +kernel, by decide⟩

theorem lineFeed_not_mem_unitText {quote : Char} (hquote : quote ≠ '\n') (unit : Nat) :
    '\n' ∉ unitText quote unit := by
  have hescape : ∀ d : Char, d ≠ '\n' → '\n' ∉ ['\\', d] := by
    intro d hd
    simp [Ne.symm hd]
  unfold unitText
  repeat' split
  iterate 6 exact hescape _ (by decide)
  · exact hescape quote hquote
  · rw [List.mem_cons, not_or]
    exact ⟨by decide, not_mem_padded foreign_lineFeed 8 3 unit⟩
  · next hfeed _ _ _ _ _ hlt =>
    intro hm
    have heq : '\n' = Char.ofNat unit := List.mem_singleton.mp hm
    have hunit : '\n'.toNat = unit := heq ▸ toNat_ofNat_of_lt hlt
    exact hfeed hunit.symm
  · simp only [List.mem_cons, not_or]
    exact ⟨by decide, by decide, not_mem_padded foreign_lineFeed 16 4 unit⟩

/-- The text of a constant is a single line, whatever character or string it is. -/
theorem lineFeed_not_mem_literalText (literal : Literal) :
    '\n' ∉ (literalText literal).toList := by
  have hfraction : ∀ format suffix cast bits, '\n' ∉ suffix.toList → '\n' ∉ cast.toList →
      '\n' ∉ (fractionText format suffix cast bits).toList :=
    fun format suffix cast bits hs hc =>
      not_mem_fractionText foreign_lineFeed format hs hc bits
  cases literal with
  | null => decide
  | bool value => cases value <;> decide
  | int value => exact not_mem_integerText foreign_lineFeed _
  | float bits => exact hfraction _ _ _ _ (by decide) (by decide)
  | double bits => exact hfraction _ _ _ _ (by decide) (by decide)
  | char value =>
    rw [literalText, characterText, String.toList_ofList]
    simp only [List.cons_append, List.mem_cons, List.mem_append, not_or]
    exact ⟨by decide, lineFeed_not_mem_unitText (by decide) _, by decide⟩
  | string value =>
    rw [literalText, stringText, String.toList_ofList]
    simp only [List.cons_append, List.mem_cons, List.mem_append, List.mem_flatMap, not_or,
      not_exists, not_and]
    exact ⟨by decide, fun unit _ => lineFeed_not_mem_unitText (by decide) unit, by decide⟩

end Source

end JavaStubs
