import JavaStubs.Proofs.FileChanges
import JavaStubs.Proofs.OutputPaths

/-!
# The two paths of a stub

Writing a stub puts the extension right after the text of its path and joins that with the output
directory; deleting it joins first and replaces the file name then. Here nothing is asked of the
class's name or of the output directory. The two paths are the same if the stub's path ends with a
name, and then they lead to the same place, whatever the file tree looks like. If it ends with an
empty piece the written file is named by the extension only, but the registered path takes the name
of the directory that the file lies in, unless there is none.
-/
namespace JavaStubs

/-- Nothing stands in the dotted name after the last dot and the last slash. -/
def Names.EndsOpen (name : String) : Prop :=
  name = "" ∨ name.toList.getLast? = some '.' ∨ name.toList.getLast? = some '/'

instance (name : String) : Decidable (Names.EndsOpen name) :=
  inferInstanceAs (Decidable (_ ∨ _))

namespace Text

variable {sep : Char}

/-- The last piece is empty if nothing follows the last separator. -/
theorem getLast?_pieces_eq_nil {s : List Char} :
    (pieces sep s).getLast? = some [] ↔ s = [] ∨ s.getLast? = some sep := by
  induction s with
  | nil => simp [pieces]
  | cons c rest ih =>
    by_cases hc : c = sep
    · rw [pieces, if_pos hc, List.getLast?_cons_of_ne_nil (pieces_ne_nil sep rest), ih, hc]
      cases rest <;> simp
    · obtain ⟨piece, others, hrest, hpieces⟩ := pieces_cons_of_ne hc rest
      rw [hpieces]
      rw [hrest] at ih
      cases rest with
      | nil =>
        cases hrest
        simp [hc]
      | cons next more =>
        rw [List.getLast?_cons_cons]
        cases others with
        | nil =>
          -- the only piece is the whole rest, which is not empty
          have hwhole := intercalate_pieces sep (next :: more)
          rw [hrest] at hwhole
          have hpiece : piece = next :: more := by simpa [List.intercalate] using hwhole
          simpa [hpiece] using ih
        | cons second others =>
          rw [List.getLast?_cons_cons] at ih ⊢
          simpa using ih

theorem getLast?_splitAt_eq_empty {s : String} :
    (splitAt sep s).getLast? = some "" ↔ s = "" ∨ s.toList.getLast? = some sep := by
  rw [← String.toList_eq_nil_iff, ← getLast?_pieces_eq_nil, splitAt, List.getLast?_map]
  cases (pieces sep s.toList).getLast? with
  | none => simp
  | some last => simp

end Text

namespace Path

/-- The last piece of a joined path is that of the path that was joined. -/
theorem getLast?_pieces_join (base path : Path) (h : path.pieces ≠ []) :
    (base.join path).pieces.getLast? = path.pieces.getLast? := by
  cases habsolute : path.isAbsolute with
  | true => rw [join, habsolute, if_pos rfl]
  | false => rw [pieces_join_of_relative base habsolute, List.getLast?_append_of_ne_nil _ h]

/-- The path of a dotted name ends with an empty piece if the name ends open. -/
theorem getLast?_ofDotted_eq_empty {name : String} :
    (ofDotted name).pieces.getLast? = some "" ↔ Names.EndsOpen name := by
  obtain ⟨front, last, hsegments⟩ :=
    (List.eq_nil_or_concat' (Text.splitAt '.' name)).resolve_left (Text.splitAt_ne_nil '.' name)
  have hname : name = Text.join "." (front ++ [""]) ++ last := by
    rw [← Text.join_concat_append, String.empty_append, ← hsegments]
    exact (Text.join_splitAt '.' name).symm
  have hempty : last = "" ↔ name = "" ∨ name.toList.getLast? = some '.' := by
    rw [← Text.getLast?_splitAt_eq_empty, hsegments, List.getLast?_concat, Option.some_inj]
  have hpath : (ofDotted name).pieces.getLast? = (Text.splitAt '/' last).getLast? := by
    rw [ofDotted, hsegments, List.foldl_append, List.foldl_cons, List.foldl_nil,
      getLast?_pieces_join _ (ofString last) (Text.splitAt_ne_nil '/' last)]
    rfl
  rw [hpath, Text.getLast?_splitAt_eq_empty, Names.EndsOpen, ← or_assoc, ← hempty]
  by_cases hlast : last = ""
  · simp [hlast]
  · have hends : name.toList.getLast? = last.toList.getLast? := by
      rw [hname, String.toList_append,
        List.getLast?_append_of_ne_nil _ (mt String.toList_eq_nil_iff.mp hlast)]
    rw [hends]

/-- The path of a dotted name has neither slashes nor dots in its pieces, even if it is absolute. -/
theorem dotless_of_name (name : String) : (ofDotted name).Dotless := by
  have hdot : Absent '.' (Text.splitAt '.' name) := fun _ => Text.not_mem_of_mem_splitAt
  rw [ofDotted]
  have hempty : empty.Dotless := dotless_ofString (s := "") (by decide)
  generalize empty = base at hempty
  generalize Text.splitAt '.' name = segments at hdot
  induction segments generalizing base with
  | nil => exact hempty
  | cons segment rest ih =>
    rw [absent_cons] at hdot
    refine ih _ ?_ hdot.2
    change (base.join (ofString segment)).Dotless
    have hsegment := dotless_ofString hdot.1
    cases habsolute : (ofString segment).isAbsolute with
    | true => rwa [join, habsolute, if_pos rfl]
    | false => exact (hempty.join hsegment habsolute).1

/-- Whether a path is absolute does not depend on its last piece. -/
theorem isAbsolute_concat {front : List String} {last : String} :
    (⟨front ++ [last]⟩ : Path).isAbsolute = true ↔ front.head? = some "" := by
  rw [isAbsolute_iff]
  match front with
  | [] => simp
  | [first] => simp
  | first :: second :: rest => simp

/-- Joining takes a path's last piece as it is. -/
theorem join_concat (base : Path) (front : List String) :
    ∃ before, ∀ last, base.join ⟨front ++ [last]⟩ = ⟨before ++ [last]⟩ := by
  by_cases habsolute : front.head? = some ""
  · exact ⟨front, fun last => by rw [join, if_pos (isAbsolute_concat.mpr habsolute)]⟩
  · refine ⟨base.stem ++ front, fun last => ?_⟩
    have hrelative : (⟨front ++ [last]⟩ : Path).isAbsolute = false :=
      Bool.eq_false_iff.mpr (mt isAbsolute_concat.mp habsolute)
    rw [List.append_assoc, ← pieces_join_of_relative base hrelative]

/-- A name at the end is the last component, whatever stands before. -/
theorem components_concat (front : List String) {last : String} (h : IsName last) :
    (⟨front ++ [last]⟩ : Path).components =
      (⟨front ++ [""]⟩ : Path).components ++ [.name last] := by
  have hjoin := components_join ⟨front ++ [""]⟩ h []
  have hstem : (⟨front ++ [""]⟩ : Path).stem = front := by simp [stem]
  rw [join_of_isName _ h, hstem, List.filterMap_cons_some h.component?] at hjoin
  exact hjoin

end Path

namespace Files.FileTree

open JavaStubs.Path

variable {tree : FileTree} {follow : Bool} {links : Nat} {here : Place} {name : String}

theorem all_blank_concat (hname : name ≠ "") (pieces : List String) :
    (pieces ++ [name]).all (· == "") = false := by
  simp [hname]

theorem walk_blanks (hname : name ≠ "") {blanks : List String}
    (hblanks : ∀ piece ∈ blanks, component? piece = none) :
    tree.walk follow links here (blanks ++ [name]) = tree.walk follow links here [name] := by
  induction blanks with
  | nil => rfl
  | cons blank rest ih =>
    rw [List.forall_mem_cons] at hblanks
    rw [List.cons_append, walk_trivial hblanks.1 (all_blank_concat hname rest), ih hblanks.2]

/-- Pieces that mean nothing can be left out before a name, whatever links stand on the way:
induction over the number of links that may be followed and over the pieces in between. -/
theorem walk_skip (hname : name ≠ "") {blanks : List String}
    (hblanks : ∀ piece ∈ blanks, component? piece = none) (pieces : List String) :
    tree.walk follow links here (pieces ++ (blanks ++ [name])) =
      tree.walk follow links here (pieces ++ [name]) := by
  induction links using Nat.strongRecOn generalizing here pieces with
  | _ links ihlinks =>
  induction pieces generalizing here with
  | nil => exact walk_blanks hname hblanks
  | cons piece rest ih =>
    by_cases hpiece : piece = ""
    · rw [hpiece, List.cons_append, List.cons_append, walk, walk, ih]
    · have hmore : (rest ++ (blanks ++ [name])).all (· == "") = false := by
        rw [← List.append_assoc]
        exact all_blank_concat hname _
      have hlast := all_blank_concat hname rest
      rw [List.cons_append, List.cons_append, walk, walk]
      · simp only [hmore, hlast, ih, Bool.false_and, Bool.false_eq_true, if_false]
        congr 3
        split
        · rename_i target hlink
          cases links with
          | zero => rfl
          | succ links =>
            have htarget := @ihlinks links (Nat.lt_succ_self links)
              (setOut here (ofString target)).1 ((setOut here (ofString target)).2 ++ rest)
            rw [List.append_assoc, List.append_assoc] at htarget
            exact htarget
        · rfl
      · exact hpiece
      · exact hpiece

/-- A path that leads to a spot still does so without pieces that mean nothing. At the beginning
such a piece could stand for the root. -/
theorem spot_skip (hname : IsName name) {front blanks : List String} (hfront : front ≠ [])
    (hblanks : ∀ piece ∈ blanks, component? piece = none) {spot : Spot}
    (h : tree.spot follow ⟨front ++ (blanks ++ [name])⟩ = .ok spot) :
    tree.spot follow ⟨front ++ [name]⟩ = .ok spot := by
  obtain ⟨first, rest, rfl⟩ := List.exists_cons_of_ne_nil hfront
  obtain ⟨husable, hwalk⟩ := spot_eq_ok_iff.mp h
  have hfewer : Usable ⟨first :: rest ++ [name]⟩ := by
    refine husable.of_sublist ((List.sublist_append_right blanks [name]).append_left _) ?_
    intro htext
    rcases Text.join_eq_empty (by decide) htext with hpieces | hpieces
    · exact List.cons_ne_nil _ _ hpieces
    · have hlength := congrArg List.length hpieces
      simp at hlength
  have habsolute : (⟨first :: rest ++ (blanks ++ [name])⟩ : Path).isAbsolute =
      (⟨first :: rest ++ [name]⟩ : Path).isAbsolute := by
    rw [Bool.eq_iff_iff, ← List.append_assoc, isAbsolute_concat, isAbsolute_concat]
    rfl
  refine spot_eq_ok_iff.mpr ⟨hfewer, ?_⟩
  rw [← hwalk, setOut, setOut, habsolute]
  split
  · exact (walk_skip hname.ne_empty hblanks rest).symm
  · exact (walk_skip hname.ne_empty hblanks (first :: rest)).symm

end Files.FileTree

namespace Path

variable {path : Path} {front : List String}

/-- What trimming leaves out means nothing. -/
theorem exists_trimEnd_append (pieces : List String) :
    ∃ blanks, pieces = trimEnd pieces ++ blanks ∧ ∀ piece ∈ blanks, component? piece = none := by
  obtain ⟨blanks, hblanks⟩ := trimEnd_isPrefix pieces
  refine ⟨blanks, hblanks.symm, List.filterMap_eq_nil_iff.mp ?_⟩
  have hmeaning := filterMap_trimEnd pieces
  conv at hmeaning =>
    rhs
    rw [← hblanks, List.filterMap_append]
  exact List.self_eq_append_right.mp hmeaning

theorem fileName?_concat {last : String} (h : IsName last) :
    (⟨front ++ [last]⟩ : Path).fileName? = some last := by
  simp [fileName?, components_concat front h]

/-- Another name at the end of a path keeps what means something before it. -/
theorem withFileName_concat (front : List String) {last new : String} (hlast : IsName last)
    (hnew : IsName new) (hslash : '/' ∉ new.toList) : ∃ kept blanks, front = kept ++ blanks ∧
      (kept = [] → front = []) ∧ (∀ piece ∈ blanks, component? piece = none) ∧
      (⟨front ++ [last]⟩ : Path).withFileName new = ⟨kept ++ [new]⟩ := by
  have hpieces : (⟨front ++ [last]⟩ : Path).pieces = front ++ [last] := rfl
  have hstem : (⟨front ++ [last]⟩ : Path).stem = front ++ [last] := by
    simp [stem, hlast.ne_empty]
  obtain ⟨body, hbody, hfront⟩ := lead_concat hlast.component? hpieces
  have hbefore := before_lead (hstem.trans hpieces.symm)
  obtain ⟨start, hlead⟩ : ∃ start, (⟨front ++ [last]⟩ : Path).lead = (start, body ++ [last]) :=
    ⟨_, Prod.ext rfl hbody⟩
  have hparent := parent?_of_lead hlead hlast
  rw [hlead] at hfront hbefore
  obtain ⟨blanks, htrim, hblanks⟩ := exists_trimEnd_append body
  refine ⟨start.pieces ++ trimEnd body, blanks, ?_, fun hnone => ?_, hblanks, ?_⟩
  · rw [List.append_assoc, ← htrim, hfront]
  · obtain ⟨hstart, hkept⟩ := List.append_eq_nil_iff.mp hnone
    obtain rfl : start = .nothing := by
      cases start with
      | nothing => rfl
      | root | here => exact absurd hstart (List.cons_ne_nil _ _)
    have hbody : body = [] := by
      refine Lead.Before.eq_nil (fun _ first hfirst => hbefore rfl first ?_) ?_
      · cases body with
        | nil => cases hfirst
        | cons => exact hfirst
      · rw [← filterMap_trimEnd, hkept, List.filterMap_nil]
    rw [hfront, hbody, List.append_nil, hstart]
  · rw [withFileName, fileName?_concat hlast, hparent, Option.isSome_some, if_pos rfl,
      Option.getD_some, ofString_of_not_mem hslash, join_of_isName _ hnew, stem_ofLead_trimEnd]

/-- Where there is no name to replace, the new name is added. -/
theorem withFileName_of_none {new : String} (hnone : path.fileName? = none) (hnew : IsName new)
    (hslash : '/' ∉ new.toList) : path.withFileName new = ⟨path.stem ++ [new]⟩ := by
  rw [withFileName, hnone, Option.isSome_none, if_neg Bool.false_ne_true,
    ofString_of_not_mem hslash, join_of_isName _ hnew]

theorem components_of_fileName? {last : String} (h : path.fileName? = some last) :
    ∃ front, path.components = front ++ [.name last] := by
  unfold fileName? at h
  split at h
  · rename_i name hname
    obtain rfl : name = last := Option.some.inj h
    exact List.getLast?_eq_some_iff.mp hname
  · cases h

theorem mem_pieces_of_fileName? {last : String} (h : path.fileName? = some last) :
    last ∈ path.pieces := by
  have hmem : .name last ∈ path.components := by
    obtain ⟨front, hfront⟩ := components_of_fileName? h
    simp [hfront]
  have hcomponents : path.components =
      path.lead.1.components ++ path.lead.2.filterMap component? := rfl
  rw [hcomponents, List.mem_append] at hmem
  rcases hmem with hstart | hbody
  · cases hlead : path.lead.1 <;> simp [hlead, Lead.components] at hstart
  · obtain ⟨piece, hpiece, hmeaning⟩ := List.mem_filterMap.mp hbody
    have hsame : piece = last := by
      rcases Files.FileTree.component?_cases piece with ⟨-, hc⟩ | ⟨-, hc⟩ | ⟨-, hc⟩ <;> simp_all
    rw [← hsame, pieces_eq_lead]
    exact List.mem_append_right _ hpiece

/-- Joining adds no character to the pieces. -/
theorem absent_join {c : Char} {base : Path} (hbase : Absent c base.pieces)
    (hpath : Absent c path.pieces) : Absent c (base.join path).pieces := by
  cases habsolute : path.isAbsolute with
  | true => rwa [join, habsolute, if_pos rfl]
  | false =>
    rw [pieces_join_of_relative base habsolute, absent_append]
    exact ⟨absent_stem hbase, hpath⟩

end Path

namespace Stubs

open JavaStubs.Path Files

section

variable {before : List String} {last : String}

theorem not_mem_append_extension {s : String} (h : '/' ∉ s.toList) :
    '/' ∉ (s ++ ("." ++ stubExtension)).toList := by
  rw [String.toList_append, List.mem_append, not_or]
  exact ⟨h, by decide⟩

/-- Where a path ends with a name, putting the extension behind it and replacing the name come to
the same. -/
theorem same_of_name (before : List String) (hname : IsName last) (hslash : '/' ∉ last.toList) :
    let extended : Path := ⟨before ++ [last ++ ("." ++ stubExtension)]⟩
    let replaced := (⟨before ++ [last]⟩ : Path).withFileName (last ++ ("." ++ stubExtension))
    extended.same replaced = true ∧ ∀ (tree : FileTree) (follow : Bool) (spot : Spot),
      tree.spot follow extended = .ok spot → tree.spot follow replaced = .ok spot := by
  intro extended replaced
  have hextended := isName_append_extension last
  have hnew := not_mem_append_extension hslash
  refine ⟨?_, fun tree follow spot h => ?_⟩
  · have hreplaced : replaced.components = _ :=
      (components_withFileName hextended hnew _).1 _ _ (components_concat before hname)
    rw [same, beq_iff_eq, hreplaced]
    exact components_concat before hextended
  · obtain ⟨kept, blanks, hbefore, hkept, hblanks, hreplaced⟩ :=
      withFileName_concat before hname hextended hnew
    rw [show replaced = _ from hreplaced]
    rw [show extended = ⟨kept ++ (blanks ++ [_])⟩ by rw [← List.append_assoc, ← hbefore]] at h
    by_cases hnone : kept = []
    · have hblank : blanks = [] := by
        rw [hkept hnone] at hbefore
        exact (List.append_eq_nil_iff.mp hbefore.symm).2
      rwa [hblank, List.nil_append] at h
    · exact FileTree.spot_skip hextended hnone hblanks h

/-- Where there is no name, both ways add one. -/
theorem eq_of_no_name (hnone : (⟨before ++ [""]⟩ : Path).fileName? = none) :
    (⟨before ++ ["" ++ ("." ++ stubExtension)]⟩ : Path) =
      (⟨before ++ [""]⟩ : Path).withFileName ("" ++ ("." ++ stubExtension)) := by
  rw [withFileName_of_none hnone (isName_append_extension "") (by decide)]
  simp [stem]

/-- Where a path ends with an empty piece after a name, the name is replaced instead of adding
another one. -/
theorem not_same_of_blank {directory : String} (hslash : '/' ∉ directory.toList)
    (hname : (⟨before ++ [""]⟩ : Path).fileName? = some directory) :
    (⟨before ++ ["" ++ ("." ++ stubExtension)]⟩ : Path).same
      ((⟨before ++ [""]⟩ : Path).withFileName (directory ++ ("." ++ stubExtension))) = false := by
  obtain ⟨front, hfront⟩ := components_of_fileName? hname
  have hreplaced := (components_withFileName (isName_append_extension directory)
    (not_mem_append_extension hslash) _).1 _ _ hfront
  rw [same, beq_eq_false_iff_ne, hreplaced, components_concat before (isName_append_extension ""),
    hfront]
  intro hsame
  have hlength := congrArg List.length hsame
  simp at hlength

end

/-- The path that a stub is written to is the one that is registered for it, unless the class's name
ends open and something stands before the end whose name can be replaced. Where they are the same,
what the written path leads to in a file tree is what the registered path leads to. -/
theorem same_path_iff (output name : String) (file : StubFile) (registry : Registry) :
    let base := ofString output
    let written := ({ file with stub := ofDotted name }).path base
    let registered := ({ registry with base, extension := stubExtension }).pathOf (ofDotted name)
    (written.same registered = true ↔
        ¬ Names.EndsOpen name ∨ (base.join (ofDotted name)).fileName? = none) ∧
      (written.same registered = true → ∀ (tree : FileTree) (follow : Bool) (spot : Spot),
        tree.spot follow written = .ok spot → tree.spot follow registered = .ok spot) := by
  intro base written registered
  have hdotless := dotless_of_name name
  have hopen := @getLast?_ofDotted_eq_empty name
  obtain ⟨front, last, hpieces⟩ :=
    (List.eq_nil_or_concat' (ofDotted name).pieces).resolve_left hdotless.pieces_ne_nil
  have hpath : ofDotted name = ⟨front ++ [last]⟩ := congrArg Path.mk hpieces
  have hslash : '/' ∉ last.toList := hdotless.no_slash last (by simp [hpieces])
  have hdot : '.' ∉ last.toList := hdotless.no_dot last (by simp [hpieces])
  obtain ⟨before, hjoin⟩ := join_concat base front
  have hjoined : base.join (ofDotted name) = ⟨before ++ [last]⟩ := by rw [hpath, hjoin]
  have hwritten : written = ⟨before ++ [last ++ ("." ++ stubExtension)]⟩ := by
    rw [← hjoin, ← append_eq ⟨by simp, hpieces ▸ hdotless.no_slash⟩ (by decide), ← hpath]
    rfl
  have hregistered : registered = (⟨before ++ [last]⟩ : Path).withFileName
      ((⟨before ++ [last]⟩ : Path).fileName?.getD "" ++ ("." ++ stubExtension)) := by
    rw [← hjoined, ← String.append_assoc]
    rfl
  rw [hpieces, List.getLast?_concat, Option.some_inj] at hopen
  rw [← hopen, hjoined]
  by_cases hblank : last = ""
  · subst hblank
    cases hname : (⟨before ++ [""]⟩ : Path).fileName? with
    | none =>
      rw [hname, Option.getD_none, ← eq_of_no_name hname, ← hwritten] at hregistered
      rw [hregistered]
      exact ⟨⟨fun _ => Or.inr rfl, fun _ => beq_self_eq_true _⟩, fun _ _ _ _ h => h⟩
    | some directory =>
      have hdirectory : '/' ∉ directory.toList := by
        have hbase : Absent '/' base.pieces := fun _ => Text.not_mem_of_mem_splitAt
        refine absent_join hbase hdotless.no_slash directory ?_
        rw [hjoined]
        exact mem_pieces_of_fileName? hname
      rw [hname, Option.getD_some] at hregistered
      rw [hwritten, hregistered, not_same_of_blank hdirectory hname]
      simp
  · have hname := isName_of_no_dot hdot hblank
    rw [fileName?_concat hname, Option.getD_some] at hregistered
    obtain ⟨hsame, hspot⟩ := same_of_name before hname hslash
    rw [hwritten, hregistered]
    exact ⟨⟨fun _ => Or.inl hblank, fun _ => hsame⟩, fun _ => hspot⟩

/-- A class whose name ends with a dot is written into a directory but deleted beside it. -/
theorem paths_of_open_name :
    let written := ({ stub := ofDotted "a.", body := "" } : StubFile).path (ofString "out")
    let registered := (Registry.empty (ofString "out") stubExtension).pathOf (ofDotted "a.")
    written.text = "out/a/.java" ∧ registered.text = "out/a.java" ∧
      written.same registered = false := by
  decide +kernel

end Stubs

end JavaStubs
