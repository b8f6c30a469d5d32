import JavaStubs.Proofs.LiteralText

/-!
# Balanced fragments

A fragment is balanced if its lines are closed and the header of every block opens one group, which
the brace after the body closes. Whatever its depth, the text of a balanced fragment is closed; the
text of a balanced block begins with its group and ends with the brace of that group.
-/
namespace JavaStubs

open Source (Closed Opens Quiet)

/-- Every line of the fragment keeps to its group, and every block is a group. -/
inductive Balanced : Fragment → Prop where
  | line {text : String} (h : Closed text) : Balanced (.line text)
  | blank : Balanced .blank
  | block {header : String} {body : List Fragment} (hheader : Opens header)
      (hbody : ∀ fragment ∈ body, Balanced fragment) : Balanced (.block header body)

/-- Indentation is quiet. -/
theorem Indent.quiet_text (indent : Indent) (depth : Nat) : Quiet (indent.text depth) := by
  apply Source.quiet_of_not_mem
  intro c hc hm
  cases indent with
  | spaces width =>
    rw [text, String.toList_ofList] at hm
    obtain rfl := List.eq_of_mem_replicate hm
    exact absurd hc (by decide)
  | tab =>
    rw [text, String.toList_ofList] at hm
    obtain rfl := List.eq_of_mem_replicate hm
    exact absurd hc (by decide)

theorem quiet_lineEnd : Quiet "\n" :=
  Source.quiet_of_not_mem (by simp [Source.delimiters])

namespace Layout

mutual

/-- A fragment leaves the indentation as it is. -/
theorem indent_add (out : Layout) : (fragment : Fragment) → (out.add fragment).indent = out.indent
  | .line text => by rw [add, addLine]
  | .blank => by rw [add, addBlank]
  | .block header body => by
    rw [add, addLine, shallower, indent_addAll, deeper, addLine]

theorem indent_addAll (out : Layout) :
    (fragments : List Fragment) → (out.addAll fragments).indent = out.indent
  | [] => by rw [addAll_nil]
  | fragment :: rest => by rw [addAll_cons, indent_addAll, indent_add]

end

theorem text_addLine (out : Layout) (line : String) :
    (out.addLine line).text = out.text ++ (out.indent.text out.depth ++ line ++ "\n") := by
  simp only [addLine, String.append_assoc]

/-- Wherever the fragment stands, the text that it appends has the property. -/
def Appends (property : String → Prop) (fragment : Fragment) : Prop :=
  ∀ out : Layout, ∃ text, (out.add fragment).text = out.text ++ text ∧ property text

theorem appends_quiet_line {line : String} (h : Quiet line) : Appends Quiet (.line line) := by
  intro out
  refine ⟨out.indent.text out.depth ++ line ++ "\n", ?_,
    ((out.indent.quiet_text out.depth).append h).append quiet_lineEnd⟩
  rw [add, text_addLine]

theorem appends_quiet_blank : Appends Quiet .blank :=
  fun out => ⟨"\n", by rw [add, addBlank], quiet_lineEnd⟩

/-- A property of texts that passes to their concatenation passes from fragments to lists of
them. -/
theorem text_addAll {property : String → Prop} (hempty : property "")
    (happend : ∀ {s t}, property s → property t → property (s ++ t)) {fragments : List Fragment}
    (h : ∀ fragment ∈ fragments, Appends property fragment) (out : Layout) :
    ∃ text, (out.addAll fragments).text = out.text ++ text ∧ property text := by
  induction fragments generalizing out with
  | nil => exact ⟨"", by simp, hempty⟩
  | cons fragment rest ih =>
    rw [List.forall_mem_cons] at h
    obtain ⟨first, hfirst, hproperty⟩ := h.1 out
    obtain ⟨others, hothers, hrest⟩ := ih h.2 (out.add fragment)
    refine ⟨first ++ others, ?_, happend hproperty hrest⟩
    rw [addAll_cons, hothers, hfirst, String.append_assoc]

/-- What stands before the closing brace of a block opens one group. -/
theorem text_add_block {header : String} {body : List Fragment} (hheader : Opens header)
    (hbody : ∀ fragment ∈ body, Appends Closed fragment) (out : Layout) :
    ∃ front, (out.add (.block header body)).text = out.text ++ (front ++ "\x7d\n") ∧
      Opens front := by
  obtain ⟨text, htext, hclosed⟩ :=
    text_addAll Source.quiet_empty.closed Closed.append hbody (out.addLine header).deeper
  have hdepth : ((out.addLine header).deeper.addAll body).depth = out.depth + 1 := depth_addAll _ _
  have hkept : ((out.addLine header).deeper.addAll body).indent = out.indent := indent_addAll _ _
  have hindent : Quiet (out.indent.text out.depth) := out.indent.quiet_text out.depth
  refine ⟨out.indent.text out.depth ++ header ++ "\n" ++ text ++ out.indent.text out.depth, ?_, ?_⟩
  · have hback : ((out.addLine header).deeper.addAll body).shallower.text =
        out.text ++ (out.indent.text out.depth ++ header ++ "\n") ++ text := by
      rw [shallower, htext, deeper, text_addLine]
    rw [add, text_addLine, hback]
    simp only [shallower, hdepth, hkept, Nat.add_sub_cancel, String.append_assoc]
    rfl
  · exact (((hindent.append_opens hheader).append quiet_lineEnd.closed).append hclosed).append
      hindent.closed

/-- The text of a balanced fragment is closed. -/
theorem appends_closed {fragment : Fragment} (h : Balanced fragment) : Appends Closed fragment := by
  induction h with
  | @line text h =>
    intro out
    refine ⟨_, ?_, ((out.indent.quiet_text out.depth).closed.append h).append quiet_lineEnd.closed⟩
    rw [add, text_addLine]
  | blank =>
    intro out
    exact ⟨"\n", by rw [add, addBlank], quiet_lineEnd.closed⟩
  | block hheader hbody ih =>
    intro out
    obtain ⟨front, hfront, hopens⟩ := text_add_block hheader ih out
    have hbrace : "\x7d\n" = "\x7d" ++ "\n" := by decide
    refine ⟨front ++ "\x7d\n", hfront, ?_⟩
    rw [hbrace]
    exact hopens.closed_group quiet_lineEnd

end Layout

end JavaStubs
