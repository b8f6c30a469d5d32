import JavaStubs.Proofs.StubPaths

/-!
# Paths under the output directory

Where the file of a class lies when nothing is known of the class's name. Dots cut a name into
segments, so no piece of the stub's path is a step up. But a segment may hold slashes, and one that
begins with a slash makes the path absolute; and a name of dots only has no piece at all, so that the
registered path takes the name of the output directory for the file's.
-/
namespace JavaStubs

/-- The path begins with the components of a base, and no step up follows. -/
def Path.Under (base path : Path) : Prop :=
  ∃ rest, path.components = base.components ++ rest ∧ .up ∉ rest

/-- A segment of a dotted name begins with a slash. -/
def Names.IsRooted (name : String) : Prop :=
  ∃ segment ∈ Text.splitAt '.' name, segment.toList.head? = some '/'

/-- All segments of a dotted name are empty. -/
def Names.IsHollow (name : String) : Prop := ∀ segment ∈ Text.splitAt '.' name, segment = ""

instance (name : String) : Decidable (Names.IsRooted name) :=
  inferInstanceAs (Decidable (∃ _ ∈ _, _))

instance (name : String) : Decidable (Names.IsHollow name) :=
  inferInstanceAs (Decidable (∀ _ ∈ _, _))

namespace Path

variable {base path : Path}

theorem isAbsolute_iff : path.isAbsolute = true ↔
    ∃ second rest, path.pieces = "" :: second :: rest := by
  unfold isAbsolute lead
  split
  · rename_i heq
    exact ⟨fun _ => ⟨_, _, heq⟩, fun _ => rfl⟩
  · rename_i heq
    rw [heq]
    simp
  · rename_i hroot _
    simp only [beq_iff_eq, reduceCtorEq, false_iff, not_exists]
    exact hroot

theorem head?_of_isAbsolute_ofString {s : String} (h : (ofString s).isAbsolute = true) :
    s.toList.head? = some '/' := by
  obtain ⟨second, rest, hpieces⟩ := isAbsolute_iff.mp h
  have htext := text_ofString s
  rw [Path.text, hpieces, Text.join_cons_cons] at htext
  rw [← htext]
  simp

/-- A path whose pieces hold neither slashes nor dots. -/
structure Dotless (path : Path) : Prop where
  pieces_ne_nil : path.pieces ≠ []
  no_slash : Absent '/' path.pieces
  no_dot : Absent '.' path.pieces

theorem isName_of_no_dot {piece : String} (hdot : '.' ∉ piece.toList) (hne : piece ≠ "") :
    IsName piece := by
  refine ⟨hne, ?_, ?_⟩
  all_goals
    rintro rfl
    exact absurd hdot (by decide)

theorem up_not_mem_of_no_dot {pieces : List String} (h : Absent '.' pieces) :
    .up ∉ pieces.filterMap component? := by
  intro hup
  obtain ⟨piece, hp, hcomponent⟩ := List.mem_filterMap.mp hup
  by_cases hempty : piece = ""
  · simp [hempty, component?] at hcomponent
  · simp [(isName_of_no_dot (h piece hp) hempty).component?] at hcomponent

theorem dotless_ofString {s : String} (h : '.' ∉ s.toList) : (ofString s).Dotless :=
  ⟨Text.splitAt_ne_nil '/' s, fun _ => Text.not_mem_of_mem_splitAt, Text.absent_splitAt h⟩

theorem pieces_join_of_relative (base : Path) (h : path.isAbsolute = false) :
    (base.join path).pieces = base.stem ++ path.pieces := by
  rw [join, h, stem, if_neg Bool.false_ne_true]
  split <;> rfl

/-- A stem is the base without an empty piece at the end, if it has one. -/
theorem stem_cases (base : Path) : base.pieces = base.stem ++ [""] ∨
    base.pieces = base.stem ∧ base.stem.getLast? ≠ some "" := by
  unfold stem
  split <;> rename_i hlast
  · obtain ⟨front, hfront⟩ := List.getLast?_eq_some_iff.mp hlast
    exact Or.inl (by rw [hfront, List.dropLast_concat])
  · exact Or.inr ⟨rfl, hlast⟩

theorem absent_stem {c : Char} (h : Absent c base.pieces) : Absent c base.stem := by
  rcases stem_cases base with hstem | ⟨hstem, -⟩
  · rw [hstem, absent_append] at h
    exact h.1
  · rwa [← hstem]

/-- A base whose stem begins with an empty piece is absolute. -/
theorem isAbsolute_of_stem {rest : List String} (h : base.stem = "" :: rest) :
    base.isAbsolute = true := by
  rw [isAbsolute_iff]
  rcases stem_cases base with hbase | ⟨hbase, hlast⟩
  · rw [hbase, h]
    cases rest with
    | nil => exact ⟨"", [], rfl⟩
    | cons next others => exact ⟨next, others ++ [""], rfl⟩
  · rw [h] at hbase hlast
    cases rest with
    | nil => exact absurd rfl hlast
    | cons next others => exact ⟨next, others, hbase⟩

/-- Joining dotless paths gives a dotless path. It is relative if both are, and it is empty only if
both are. -/
theorem Dotless.join (hbase : base.Dotless) (hpath : path.Dotless)
    (hrelative : path.isAbsolute = false) :
    (base.join path).Dotless ∧ (base.isAbsolute = false → (base.join path).isAbsolute = false) ∧
      ((base.join path).pieces = [""] → base.pieces = [""] ∧ path.pieces = [""]) := by
  have hpieces := pieces_join_of_relative base hrelative
  refine ⟨⟨?_, ?_, ?_⟩, fun hbaserelative => ?_, fun hempty => ?_⟩
  · simp [hpieces, hpath.pieces_ne_nil]
  · rw [hpieces, absent_append]
    exact ⟨absent_stem hbase.no_slash, hpath.no_slash⟩
  · rw [hpieces, absent_append]
    exact ⟨absent_stem hbase.no_dot, hpath.no_dot⟩
  · by_contra habsolute
    rw [Bool.not_eq_false, isAbsolute_iff, hpieces] at habsolute
    obtain ⟨second, rest, heq⟩ := habsolute
    cases hstem : base.stem with
    | nil =>
      rw [hstem, List.nil_append] at heq
      exact Bool.false_ne_true (hrelative.symm.trans (isAbsolute_iff.mpr ⟨second, rest, heq⟩))
    | cons first others =>
      rw [hstem, List.cons_append] at heq
      obtain rfl : first = "" := (List.cons.inj heq).1
      exact Bool.false_ne_true (hbaserelative.symm.trans (isAbsolute_of_stem hstem))
  · rw [hpieces] at hempty
    rcases List.append_eq_singleton_iff.mp hempty with ⟨hstem, hpath'⟩ | ⟨-, hnil⟩
    · rcases stem_cases base with hbase' | ⟨hbase', -⟩
      · exact ⟨by rw [hbase', hstem]; rfl, hpath'⟩
      · exact absurd (hbase'.trans hstem) hbase.pieces_ne_nil
    · exact absurd hnil hpath.pieces_ne_nil

theorem eq_empty_of_pieces_ofString {s : String} (h : (ofString s).pieces = [""]) : s = "" := by
  rw [← text_ofString s, Path.text, h, Text.join_singleton]

/-- Joining segments without dots, none of which begins with a slash, one after the other:
induction over the segments, since each of them is joined with what came before. -/
theorem dotless_foldl_join {segments : List String} (hdot : Absent '.' segments)
    (hrooted : ∀ segment ∈ segments, segment.toList.head? ≠ some '/') (hbase : base.Dotless)
    (hrelative : base.isAbsolute = false) :
    let joined := segments.foldl (fun path piece => path.join (ofString piece)) base
    joined.Dotless ∧ joined.isAbsolute = false ∧
      (joined.pieces = [""] → base.pieces = [""] ∧ ∀ segment ∈ segments, segment = "") := by
  induction segments generalizing base with
  | nil => exact ⟨hbase, hrelative, fun hempty => ⟨hempty, by simp⟩⟩
  | cons segment rest ih =>
    rw [absent_cons] at hdot
    rw [List.forall_mem_cons] at hrooted
    have hsegment : (ofString segment).isAbsolute = false := by
      rw [Bool.eq_false_iff]
      exact fun habsolute => hrooted.1 (head?_of_isAbsolute_ofString habsolute)
    obtain ⟨hjoin, hjoinrelative, hjoinempty⟩ := hbase.join (dotless_ofString hdot.1) hsegment
    obtain ⟨hdotless, habsolute, hempty⟩ := ih hdot.2 hrooted.2 hjoin (hjoinrelative hrelative)
    refine ⟨hdotless, habsolute, fun hpieces => ?_⟩
    obtain ⟨hfirst, hothers⟩ := hempty hpieces
    obtain ⟨hbaseempty, hsegmentempty⟩ := hjoinempty hfirst
    rw [List.forall_mem_cons]
    exact ⟨hbaseempty, eq_empty_of_pieces_ofString hsegmentempty, hothers⟩

/-- The path of a dotted name is relative unless a segment begins with a slash, and it is empty only
if all segments are. -/
theorem dotless_ofDotted {name : String} (h : ¬ Names.IsRooted name) :
    (ofDotted name).Dotless ∧ (ofDotted name).isAbsolute = false ∧
      ((ofDotted name).pieces = [""] → Names.IsHollow name) := by
  have hdot : Absent '.' (Text.splitAt '.' name) := fun _ => Text.not_mem_of_mem_splitAt
  have hrooted : ∀ segment ∈ Text.splitAt '.' name, segment.toList.head? ≠ some '/' :=
    fun segment hs hhead => h ⟨segment, hs, hhead⟩
  obtain ⟨hdotless, hrelative, hempty⟩ :=
    dotless_foldl_join hdot hrooted (dotless_ofString (by decide) : (ofString "").Dotless) rfl
  exact ⟨hdotless, hrelative, fun hpieces => (hempty hpieces).2⟩

/-- A dotless relative path is empty or begins with a name. -/
theorem Dotless.head (h : path.Dotless) (hrelative : path.isAbsolute = false) :
    path.pieces = [""] ∨ ∃ first rest, path.pieces = first :: rest ∧ IsName first := by
  obtain ⟨first, rest, hpieces⟩ := List.exists_cons_of_ne_nil h.pieces_ne_nil
  have hdot := h.no_dot
  rw [hpieces, absent_cons] at hdot
  by_cases hempty : first = ""
  · cases rest with
    | nil => exact Or.inl (by rw [hpieces, hempty])
    | cons second others =>
      exact absurd (isAbsolute_iff.mpr ⟨second, others, by rw [hpieces, hempty]⟩)
        (Bool.eq_false_iff.mp hrelative)
  · exact Or.inr ⟨first, rest, hpieces, isName_of_no_dot hdot.1 hempty⟩

/-- A dotless path with a name in it ends with a name. -/
theorem Dotless.exists_last (h : path.Dotless) {first : String} {rest : List String}
    (hpieces : path.pieces = first :: rest) (hfirst : IsName first) :
    ∃ front last, (first :: rest).filterMap component? = front ++ [.name last] ∧ .up ∉ front ∧
      '/' ∉ last.toList := by
  have hslash := h.no_slash
  have hdot := h.no_dot
  rw [hpieces] at hslash hdot
  have hup := up_not_mem_of_no_dot hdot
  have hnames : (first :: rest).filterMap component? ≠ [] := by simp [hfirst.component?]
  obtain ⟨front, last, hlast⟩ := (List.eq_nil_or_concat' _).resolve_left hnames
  have hmem : last ∈ (first :: rest).filterMap component? := by simp [hlast]
  obtain ⟨piece, hpiece, hmeaning⟩ := List.mem_filterMap.mp hmem
  have hempty : piece ≠ "" := by
    rintro rfl
    cases hmeaning
  have hname := isName_of_no_dot (hdot piece hpiece) hempty
  obtain rfl : .name piece = last := Option.some.inj (hname.component?.symm.trans hmeaning)
  rw [hlast, List.mem_append, not_or] at hup
  exact ⟨front, piece, hlast, hup.1, hslash piece hpiece⟩

/-- A path that begins with a name and has no step up lies under every base that it is joined
with. -/
theorem under_join (base : Path) {first : String} {rest : List String} (hfirst : IsName first)
    (hup : .up ∉ (first :: rest).filterMap component?) :
    base.Under (base.join ⟨first :: rest⟩) :=
  ⟨_, components_join base hfirst rest, hup⟩

/-- A slash at the end of a path means nothing. -/
theorem components_concat_blank (h : path.pieces.getLast? ≠ some "") :
    (⟨path.pieces ++ [""]⟩ : Path).components = path.components := by
  obtain ⟨pieces⟩ := path
  have hblank : ∀ body : List String,
      (body ++ [""]).filterMap component? = body.filterMap component? := by
    intro body
    rw [List.filterMap_append]
    exact List.append_nil _
  cases pieces with
  | nil => rfl
  | cons first rest =>
    by_cases hdot : first = "."
    · subst hdot
      exact congrArg (.here :: ·) (hblank rest)
    · by_cases hempty : first = ""
      · subst hempty
        cases rest with
        | nil => exact absurd rfl h
        | cons second others => exact congrArg (.root :: ·) (hblank (second :: others))
      · rw [List.cons_append, components_of_head_name hempty hdot,
          components_of_head_name hempty hdot, ← List.cons_append, hblank]

theorem components_join_empty (base : Path) : (base.join ⟨[""]⟩).components = base.components := by
  have hpieces := pieces_join_of_relative base
    (rfl : (⟨[""]⟩ : Path).isAbsolute = false)
  rcases stem_cases base with hstem | ⟨hstem, hlast⟩
  · exact congrArg components (congrArg Path.mk (hpieces.trans hstem.symm) : _ = base)
  · rw [← hstem] at hpieces hlast
    rw [← components_concat_blank hlast, ← hpieces]

/-- A path that ends with a name has a parent. -/
theorem exists_parent?_of_name {front : List Component} {last : String}
    (h : path.components = front ++ [.name last]) :
    ∃ parent, path.parent? = some parent ∧ parent.components = front := by
  have hsome : path.parent? ≠ none := by
    intro hnone
    unfold parent? at hnone
    unfold components at h
    generalize path.lead = found at h hnone
    obtain ⟨start, body⟩ := found
    simp only at h hnone
    rw [← filterMap_trimEnd] at h
    cases htrim : trimEnd body with
    | nil =>
      have hlast := congrArg List.getLast? h
      cases start <;> simp [htrim, Lead.components] at hlast
    | cons piece rest => simp [htrim] at hnone
  obtain ⟨parent, hparent⟩ := Option.ne_none_iff_exists'.mp hsome
  obtain ⟨other, hother⟩ := components_of_parent? hparent
  exact ⟨parent, hparent, (List.append_inj' (hother.symm.trans h) rfl).1⟩

/-- Another file name replaces the name at the end of a path, or is added if there is none. -/
theorem components_withFileName {new : String} (hnew : IsName new) (hslash : '/' ∉ new.toList)
    (path : Path) :
    (∀ front last, path.components = front ++ [.name last] →
      (path.withFileName new).components = front ++ [.name new]) ∧
    (path.fileName? = none → (path.withFileName new).components =
      path.components ++ [.name new]) := by
  have hjoin : ∀ other : Path, (other.join (ofString new)).components =
      other.components ++ [.name new] := by
    intro other
    rw [ofString_of_not_mem hslash, components_join other hnew, List.filterMap_cons,
      hnew.component?]
    rfl
  refine ⟨fun front last h => ?_, fun hnone => ?_⟩
  · obtain ⟨parent, hparent, hcomponents⟩ := exists_parent?_of_name h
    have hname : path.fileName? = some last := by simp [fileName?, h]
    rw [withFileName, hname, hparent, ← hcomponents]
    exact hjoin parent
  · rw [withFileName, hnone]
    exact hjoin path

end Path

namespace Stubs

open JavaStubs.Path

/-- The path under which the file of a class is written. -/
def writtenPath (base : Path) (name : String) : Path :=
  base.join ((ofDotted name).append ("." ++ stubExtension))

/-- The path under which the file of a class is deleted. -/
def registeredPath (base : Path) (name : String) : Path :=
  (Registry.empty base stubExtension).pathOf (ofDotted name)

variable {name : String}

/-- The file of a class is written under the output directory unless a segment of the class's name
begins with a slash. -/
theorem under_writtenPath (base : Path) (h : ¬ Names.IsRooted name) :
    base.Under (writtenPath base name) := by
  obtain ⟨hdotless, hrelative, -⟩ := dotless_ofDotted h
  obtain ⟨front, last, hpieces⟩ :=
    (List.eq_nil_or_concat' (ofDotted name).pieces).resolve_left hdotless.pieces_ne_nil
  have hfile := isName_append_extension last
  have hpath : ofDotted name = ⟨front ++ [last]⟩ := by rw [← hpieces]
  have happend : (ofDotted name).append ("." ++ stubExtension) =
      ⟨front ++ [last ++ ("." ++ stubExtension)]⟩ := by
    rw [hpath] at hdotless ⊢
    exact append_eq ⟨hdotless.pieces_ne_nil, hdotless.no_slash⟩ (by decide)
  have hdot := hdotless.no_dot
  rw [hpieces, absent_append] at hdot
  have hup : .up ∉ (front ++ [last ++ ("." ++ stubExtension)]).filterMap component? := by
    rw [List.filterMap_append, List.mem_append, not_or]
    exact ⟨up_not_mem_of_no_dot hdot.1, by simp [hfile.component?]⟩
  rw [writtenPath, happend]
  cases hfront : front with
  | nil => exact under_join base hfile (by simpa [hfront] using hup)
  | cons first rest =>
    rcases hdotless.head hrelative with hempty | ⟨first', rest', hcons, hfirst⟩
    · rw [hpieces, hfront] at hempty
      simp at hempty
    · rw [hpieces, hfront] at hcons
      obtain rfl : first = first' := (List.cons.inj hcons).1
      rw [hfront] at hup
      exact under_join base hfirst hup

example : (writtenPath (ofString "out") "/a").components = [.root, .name "a.java"] := by
  decide +kernel

/-- The file of a class is deleted under the output directory unless a segment of the class's name
begins with a slash, or no segment holds anything and the output directory has a name. -/
theorem under_registeredPath (base : Path) (h : ¬ Names.IsRooted name)
    (hhollow : Names.IsHollow name → base.fileName? = none) :
    base.Under (registeredPath base name) := by
  obtain ⟨hdotless, hrelative, hempty⟩ := dotless_ofDotted h
  have hpath : registeredPath base name = (base.join (ofDotted name)).withFileName
      ((base.join (ofDotted name)).fileName?.getD "" ++ "." ++ stubExtension) := rfl
  rw [hpath, String.append_assoc]
  rcases hdotless.head hrelative with hpieces | ⟨first, rest, hpieces, hfirst⟩
  · have hcomponents : (base.join (ofDotted name)).components = base.components := by
      rw [show ofDotted name = ⟨[""]⟩ from congrArg Path.mk hpieces, components_join_empty]
    have hnone : (base.join (ofDotted name)).fileName? = none := by
      rw [← hhollow (hempty hpieces), fileName?, hcomponents, ← fileName?]
    rw [hnone]
    refine ⟨_, (components_withFileName (isName_append_extension "") (by decide) _).2 hnone
      |>.trans (by rw [hcomponents]), by simp⟩
  · have hcomponents := components_join base hfirst rest
    rw [show ofDotted name = ⟨first :: rest⟩ from congrArg Path.mk hpieces]
    obtain ⟨front, last, hlast, hup, hslash⟩ := hdotless.exists_last hpieces hfirst
    rw [hlast, ← List.append_assoc] at hcomponents
    have hfile : (base.join ⟨first :: rest⟩).fileName? = some last := by
      simp [fileName?, hcomponents]
    have hnew : '/' ∉ (last ++ ("." ++ stubExtension)).toList := by
      rw [String.toList_append, List.mem_append, not_or]
      exact ⟨hslash, by decide⟩
    rw [hfile, Option.getD_some]
    refine ⟨front ++ [.name (last ++ ("." ++ stubExtension))], ?_, by simpa using hup⟩
    rw [(components_withFileName (isName_append_extension last) hnew _).1 _ _ hcomponents,
      List.append_assoc]

end Stubs

end JavaStubs
