import JavaStubs.Files.Path
import JavaStubs.Proofs.Foreign
import Mathlib.Data.List.Basic

/-!
# Paths and their texts

Cutting a text at slashes is undone by joining, and joining pieces without slashes is undone by
cutting, so a path of such pieces is the path that its text writes. Joining a base with a path whose
first piece is a name puts the components of the two one after the other, and takes the base away
again by `stripBase?`.
-/
namespace JavaStubs

namespace Text

variable {sep : Char}

theorem pieces_of_not_mem {s : List Char} (h : sep ∉ s) : pieces sep s = [s] := by
  induction s with
  | nil => rfl
  | cons c rest ih =>
    rw [List.mem_cons, not_or] at h
    rw [pieces, if_neg (Ne.symm h.1), ih h.2]

theorem pieces_append_cons {s : List Char} (h : sep ∉ s) (rest : List Char) :
    pieces sep (s ++ sep :: rest) = s :: pieces sep rest := by
  induction s with
  | nil => simp [pieces]
  | cons c s ih =>
    rw [List.mem_cons, not_or] at h
    rw [List.cons_append, pieces, if_neg (Ne.symm h.1), ih h.2]

theorem splitAt_of_not_mem {s : String} (h : sep ∉ s.toList) : splitAt sep s = [s] := by
  simp [splitAt, pieces_of_not_mem h]

theorem not_mem_of_mem_splitAt {s piece : String} (h : piece ∈ splitAt sep s) :
    sep ∉ piece.toList := by
  obtain ⟨chars, hchars, rfl⟩ := List.mem_map.mp h
  simpa using not_mem_of_mem_pieces hchars

/-- Joining pieces without the separator is undone by cutting. -/
theorem splitAt_join {parts : List String} (hne : parts ≠ []) (h : Absent sep parts) :
    splitAt sep (join (String.singleton sep) parts) = parts := by
  induction parts with
  | nil => exact absurd rfl hne
  | cons part rest ih =>
    rw [absent_cons] at h
    cases rest with
    | nil => rw [join_singleton, splitAt_of_not_mem h.1]
    | cons next rest =>
      have hrest := ih (by simp) h.2
      rw [splitAt] at hrest ⊢
      have hchars : (join (String.singleton sep) (part :: next :: rest)).toList =
          part.toList ++ sep :: (join (String.singleton sep) (next :: rest)).toList := by
        simp
      rw [hchars, pieces_append_cons h.1, List.map_cons, String.ofList_toList, hrest]

theorem utf8ByteSize_join_cons (sep part : String) {rest : List String} (h : rest ≠ []) :
    (join sep (part :: rest)).utf8ByteSize =
      part.utf8ByteSize + sep.utf8ByteSize + (join sep rest).utf8ByteSize := by
  obtain ⟨next, others, rfl⟩ := List.exists_cons_of_ne_nil h
  rw [join_cons_cons, String.utf8ByteSize_append, String.utf8ByteSize_append]

/-- Leaving out pieces does not make a joined text longer: induction over the pieces left out, where
the last one of all takes no separator with it. -/
theorem utf8ByteSize_join_le_of_sublist (sep : String) {fewer parts : List String}
    (h : fewer.Sublist parts) : (join sep fewer).utf8ByteSize ≤ (join sep parts).utf8ByteSize := by
  induction h with
  | slnil => exact Nat.le_refl _
  | @cons fewer parts part h ih =>
    by_cases hparts : parts = []
    · obtain rfl : fewer = [] := List.sublist_nil.mp (hparts ▸ h)
      simp
    · rw [utf8ByteSize_join_cons sep part hparts]
      omega
  | @cons_cons fewer parts part h ih =>
    by_cases hparts : parts = []
    · obtain rfl : fewer = [] := List.sublist_nil.mp (hparts ▸ h)
      exact Nat.le_of_eq (by rw [hparts])
    · rw [utf8ByteSize_join_cons sep part hparts]
      by_cases hfewer : fewer = []
      · rw [hfewer, join_singleton]
        omega
      · rw [utf8ByteSize_join_cons sep part hfewer]
        omega

/-- What a joined text does not have, none of its parts has. -/
theorem absent_of_not_mem_join {c : Char} {sep : String} {parts : List String}
    (h : c ∉ (join sep parts).toList) : Absent c parts := by
  induction parts with
  | nil => exact absent_nil
  | cons part rest ih =>
    cases rest with
    | nil => simpa using h
    | cons next rest =>
      rw [join_cons_cons, String.toList_append, String.toList_append, List.mem_append,
        List.mem_append, not_or, not_or] at h
      rw [absent_cons]
      exact ⟨h.1.1, ih h.2⟩

theorem join_eq_empty {sep : String} (hsep : sep ≠ "") {parts : List String}
    (h : join sep parts = "") : parts = [] ∨ parts = [""] := by
  match parts with
  | [] => exact Or.inl rfl
  | [part] => exact Or.inr (by rw [← h, join_singleton])
  | part :: next :: rest =>
    rw [join_cons_cons, String.append_eq_empty_iff, String.append_eq_empty_iff] at h
    exact absurd h.1.2 hsep

/-- A text right after a joined text lengthens the last part. -/
theorem join_concat_append (sep : String) (front : List String) (last ending : String) :
    join sep (front ++ [last ++ ending]) = join sep (front ++ [last]) ++ ending := by
  induction front with
  | nil => rfl
  | cons first rest ih =>
    cases rest with
    | nil => simp [String.append_assoc]
    | cons second others => simpa [String.append_assoc] using ih

end Text

namespace Path

/-- A path that stands in a text: it has pieces, and none of them holds a slash. -/
def Written (path : Path) : Prop := path.pieces ≠ [] ∧ Absent '/' path.pieces

theorem Written.ofString_text {path : Path} (h : path.Written) : ofString path.text = path := by
  obtain ⟨pieces⟩ := path
  exact congrArg Path.mk (Text.splitAt_join h.1 h.2)

/-- A text right after a path lengthens its last piece. -/
theorem append_eq {front : List String} {last ending : String}
    (h : (⟨front ++ [last]⟩ : Path).Written) (hending : '/' ∉ ending.toList) :
    (⟨front ++ [last]⟩ : Path).append ending = ⟨front ++ [last ++ ending]⟩ := by
  have habsent := h.2
  simp only [absent_append, absent_cons] at habsent
  have hwritten : (⟨front ++ [last ++ ending]⟩ : Path).Written := by
    refine ⟨by simp, ?_⟩
    simp only [absent_append, absent_cons, String.toList_append, List.mem_append, not_or]
    exact ⟨habsent.1, ⟨habsent.2.1, hending⟩, habsent.2.2⟩
  have htext : (⟨front ++ [last]⟩ : Path).text ++ ending =
      (⟨front ++ [last ++ ending]⟩ : Path).text :=
    (Text.join_concat_append "/" front last ending).symm
  rw [append, htext, hwritten.ofString_text]

theorem ofString_of_not_mem {s : String} (h : '/' ∉ s.toList) : ofString s = ⟨[s]⟩ :=
  congrArg Path.mk (Text.splitAt_of_not_mem h)

/-- The piece is a name and no sign for a directory. -/
structure IsName (piece : String) : Prop where
  ne_empty : piece ≠ ""
  ne_here : piece ≠ "."
  ne_up : piece ≠ ".."

instance (piece : String) : Decidable (IsName piece) :=
  decidable_of_iff (piece ≠ "" ∧ piece ≠ "." ∧ piece ≠ "..")
    ⟨fun h => ⟨h.1, h.2.1, h.2.2⟩, fun h => ⟨h.ne_empty, h.ne_here, h.ne_up⟩⟩

theorem IsName.component? {piece : String} (h : IsName piece) :
    component? piece = some (.name piece) := by
  simp [Path.component?, h.ne_empty, h.ne_here, h.ne_up]

theorem IsName.isTrivial {piece : String} (h : IsName piece) : isTrivial piece = false := by
  simp [Path.isTrivial, h.component?]

theorem filterMap_component?_of_isName {names : List String} (h : ∀ n ∈ names, IsName n) :
    names.filterMap component? = names.map .name := by
  induction names with
  | nil => rfl
  | cons n rest ih =>
    rw [List.forall_mem_cons] at h
    rw [List.filterMap_cons_some h.1.component?, ih h.2, List.map_cons]

/-- The pieces of a base without an empty one at the end: what stands before the pieces of a path
that is joined with the base. -/
def stem (base : Path) : List String :=
  if base.pieces.getLast? = some "" then base.pieces.dropLast else base.pieces

theorem isAbsolute_of_isName {name : String} (h : IsName name) (rest : List String) :
    (⟨name :: rest⟩ : Path).isAbsolute = false := by
  unfold isAbsolute lead
  split <;> rename_i heq
  · exact absurd (List.cons.inj heq).1 h.ne_empty
  · rfl
  · rfl

theorem lead_of_isName {name : String} (h : IsName name) (rest : List String) :
    (⟨name :: rest⟩ : Path).lead = (.nothing, name :: rest) := by
  unfold lead
  split <;> rename_i heq
  · exact absurd (List.cons.inj heq).1 h.ne_empty
  · exact absurd (List.cons.inj heq).1 h.ne_here
  · rfl

theorem join_of_isName (base : Path) {name : String} (h : IsName name) (rest : List String) :
    base.join ⟨name :: rest⟩ = ⟨base.stem ++ name :: rest⟩ := by
  rw [join, isAbsolute_of_isName h, stem, if_neg Bool.false_ne_true]
  split <;> rfl

/-- The pieces that a beginning is made of. -/
def Lead.pieces : Lead → List String
  | .root => [""]
  | .here => ["."]
  | .nothing => []

theorem pieces_eq_lead (path : Path) : path.pieces = path.lead.1.pieces ++ path.lead.2 := by
  unfold lead
  split <;> rename_i heq <;> simp [heq, Lead.pieces]

/-- A piece at the end of a path that means something is no part of its beginning. -/
theorem lead_concat {path : Path} {front : List String} {last : String} {c : Component}
    (hlast : component? last = some c) (h : path.pieces = front ++ [last]) :
    ∃ body, path.lead.2 = body ++ [last] ∧ front = path.lead.1.pieces ++ body := by
  have hpieces := pieces_eq_lead path
  generalize path.lead = parts at hpieces ⊢
  obtain ⟨start, body⟩ := parts
  simp only at hpieces ⊢
  rw [h] at hpieces
  rcases List.eq_nil_or_concat' body with rfl | ⟨body, end', rfl⟩
  · rw [List.append_nil] at hpieces
    cases start <;> simp [Lead.pieces, List.append_eq_singleton_iff] at hpieces
    · simp [hpieces.2, component?] at hlast
    · simp [hpieces.2, component?] at hlast
  · rw [← List.append_assoc] at hpieces
    obtain ⟨hfront, hend⟩ := List.append_inj' hpieces rfl
    obtain rfl : last = end' := (List.cons.inj hend).1
    exact ⟨body, rfl, hfront⟩

/-- Pieces after a beginning that has none of its own do not begin like another one. -/
def Lead.Before (start : Lead) (body : List String) : Prop :=
  start = .nothing → ∀ first ∈ body.head?, first ≠ "" ∧ first ≠ "."

theorem lead_append {start : Lead} {body : List String} (hbody : start.Before body) {name : String}
    (h : IsName name) (rest : List String) :
    (⟨start.pieces ++ body ++ name :: rest⟩ : Path).lead = (start, body ++ name :: rest) := by
  cases start with
  | root => cases body <;> rfl
  | here => rfl
  | nothing =>
    cases body with
    | nil => exact lead_of_isName h rest
    | cons first others =>
      have hfirst := hbody rfl first rfl
      simp [lead, Lead.pieces, hfirst.1, hfirst.2]

theorem before_lead {base : Path} (h : base.stem = base.pieces) :
    base.lead.1.Before base.lead.2 := by
  intro hstart first hfirst
  obtain ⟨hpieces, hbody⟩ := lead_eq_nothing (Prod.ext hstart rfl : base.lead = (_, base.lead.2))
  rcases hbody with hbody | hbody | ⟨piece, rest, hbody, hne⟩
  · simp [hbody] at hfirst
  · rw [stem, hpieces, hbody] at h
    simp at h
  · obtain rfl : piece = first := by simpa [hbody] using hfirst
    exact hne

/-- The stem has the beginning of the base, and after it what means something there. -/
theorem stem_eq (base : Path) : ∃ body, base.stem = base.lead.1.pieces ++ body ∧
    base.lead.1.Before body ∧ body.filterMap component? = base.lead.2.filterMap component? := by
  by_cases hlast : base.pieces.getLast? = some ""
  · obtain ⟨front, hfront⟩ := List.getLast?_eq_some_iff.mp hlast
    have hstem : base.stem = front := by rw [stem, if_pos hlast, hfront, List.dropLast_concat]
    obtain ⟨pieces⟩ := base
    obtain rfl : pieces = front ++ [""] := hfront
    rw [hstem]
    have hblank : ∀ body, (body ++ [""]).filterMap component? = body.filterMap component? := by
      intro body
      rw [List.filterMap_append]
      exact List.append_nil _
    cases front with
    | nil => exact ⟨[], rfl, by simp [Lead.Before], rfl⟩
    | cons first rest =>
      by_cases hdot : first = "."
      · subst hdot
        exact ⟨rest, rfl, by simp [lead, Lead.Before], (hblank rest).symm⟩
      · by_cases hempty : first = ""
        · subst hempty
          have hlead : (⟨"" :: rest ++ [""]⟩ : Path).lead = (.root, rest ++ [""]) := by
            cases rest <;> rfl
          rw [hlead]
          exact ⟨rest, rfl, by simp [Lead.Before], (hblank rest).symm⟩
        · have hlead : (⟨first :: rest ++ [""]⟩ : Path).lead =
              (.nothing, first :: rest ++ [""]) := by
            simp [lead, hdot, hempty]
          rw [hlead]
          refine ⟨first :: rest, rfl, ?_, (hblank _).symm⟩
          simp [Lead.Before, hdot, hempty]
  · have hstem : base.stem = base.pieces := if_neg hlast
    exact ⟨base.lead.2, by rw [hstem, ← pieces_eq_lead], before_lead hstem, rfl⟩

/-- A path joined with a base begins as the base does, and what meant something in the base still
does. -/
theorem lead_join (base : Path) {name : String} (h : IsName name) (rest : List String) :
    ∃ body, (base.join ⟨name :: rest⟩).lead = (base.lead.1, body ++ name :: rest) ∧
      base.lead.1.Before body ∧
      body.filterMap component? = base.lead.2.filterMap component? := by
  obtain ⟨body, hstem, hbefore, hbody⟩ := stem_eq base
  exact ⟨body, by rw [join_of_isName base h, hstem, lead_append hbefore h], hbefore, hbody⟩

/-- The components of a base and of a path joined with it stand one after the other. -/
theorem components_join (base : Path) {name : String} (h : IsName name) (rest : List String) :
    (base.join ⟨name :: rest⟩).components =
      base.components ++ (name :: rest).filterMap component? := by
  obtain ⟨body, hlead, -, hbody⟩ := lead_join base h rest
  simp only [components, hlead, List.filterMap_append, hbody, List.append_assoc]

/-- A base joined with a path that consists of names only. -/
theorem join_names (base : Path) {names : List String} (hne : names ≠ [])
    (h : ∀ n ∈ names, IsName n) :
    base.join ⟨names⟩ = ⟨base.stem ++ names⟩ ∧
      (base.join ⟨names⟩).components = base.components ++ names.map .name := by
  cases names with
  | nil => exact absurd rfl hne
  | cons name rest =>
    have hname := h name List.mem_cons_self
    rw [← filterMap_component?_of_isName h]
    exact ⟨join_of_isName base hname rest, components_join base hname rest⟩

theorem isTrivial_of_filterMap_eq_nil {pieces : List String}
    (h : pieces.filterMap component? = []) : ∀ piece ∈ pieces, isTrivial piece = true := by
  intro piece hp
  simpa [isTrivial] using List.filterMap_eq_nil_iff.mp h piece hp

theorem dropMeaningful_zero (pieces : List String) : dropMeaningful 0 pieces = pieces := by
  cases pieces <;> rfl

/-- Passing as many pieces that mean something as a list has leaves pieces of it that mean nothing
before what follows the list. -/
theorem dropMeaningful_append (pieces rest : List String) :
    ∃ blanks, (∀ piece ∈ blanks, isTrivial piece = true) ∧
      dropMeaningful (pieces.filterMap component?).length (pieces ++ rest) = blanks ++ rest := by
  induction pieces with
  | nil => exact ⟨[], by simp, dropMeaningful_zero rest⟩
  | cons piece others ih =>
    obtain ⟨blanks, hblanks, hothers⟩ := ih
    cases hp : component? piece with
    | some c =>
      refine ⟨blanks, hblanks, ?_⟩
      rw [List.filterMap_cons_some hp, List.length_cons, List.cons_append, dropMeaningful]
      simp [isTrivial, hp, hothers]
    | none =>
      rw [List.filterMap_cons_none hp, List.cons_append]
      cases hcount : others.filterMap component? with
      | nil =>
        refine ⟨piece :: others, ?_, dropMeaningful_zero _⟩
        rw [List.forall_mem_cons]
        exact ⟨by simp [isTrivial, hp], isTrivial_of_filterMap_eq_nil hcount⟩
      | cons c cs =>
        refine ⟨blanks, hblanks, ?_⟩
        rw [hcount] at hothers
        rw [List.length_cons, dropMeaningful, if_pos (by simp [isTrivial, hp])]
        exact hothers

theorem trimEnd_of_isName {names : List String} (h : ∀ n ∈ names, IsName n) :
    trimEnd names = names := by
  induction names with
  | nil => rfl
  | cons n rest ih =>
    rw [List.forall_mem_cons] at h
    simp [trimEnd_cons, h.1.isTrivial, ih h.2]

theorem trimEnd_concat (front : List String) {name : String} (h : IsName name) :
    trimEnd (front ++ [name]) = front ++ [name] := by
  induction front with
  | nil => simp [trimEnd_cons, trimEnd, h.isTrivial]
  | cons piece rest ih => simp [trimEnd_cons, ih]

/-- The last piece that trimming leaves is not empty. -/
theorem ne_empty_of_getLast?_trimEnd {pieces : List String} {last : String}
    (h : (trimEnd pieces).getLast? = some last) : last ≠ "" := by
  rintro rfl
  obtain ⟨front, hfront⟩ := List.getLast?_eq_some_iff.mp h
  have hne : trimEnd pieces ≠ [] := by simp [hfront]
  obtain ⟨c, hc⟩ := filterMap_dropLast_trimEnd hne
  rw [← filterMap_trimEnd, hfront] at hc
  have hlength := congrArg List.length hc
  simp [component?] at hlength

theorem Lead.Before.eq_nil {body : List String} (h : Lead.nothing.Before body)
    (hblank : body.filterMap component? = []) : body = [] := by
  cases body with
  | nil => rfl
  | cons first rest =>
    obtain ⟨hempty, hdot⟩ := h rfl first rfl
    have hfirst := List.filterMap_eq_nil_iff.mp hblank first List.mem_cons_self
    by_cases hup : first = ".." <;> simp [component?, hempty, hdot, hup] at hfirst

/-- Taking the base away from a path that was joined with it leaves the path. -/
theorem stripBase?_join (base : Path) {name : String} {rest : List String}
    (hnames : ∀ n ∈ name :: rest, IsName n) :
    (base.join ⟨name :: rest⟩).stripBase? base = some ⟨name :: rest⟩ := by
  have h := hnames name List.mem_cons_self
  obtain ⟨body, hlead, hbefore, hbody⟩ := lead_join base h rest
  obtain ⟨blanks, hblanks, hdrop⟩ := dropMeaningful_append body (name :: rest)
  have hstarts : (base.join ⟨name :: rest⟩).startsWith base = true := by
    rw [startsWith, components_join base h, List.isPrefixOf_iff_prefix]
    exact List.prefix_append _ _
  have hblankless : (blanks ++ name :: rest).dropWhile isTrivial = name :: rest := by
    rw [List.dropWhile_append_of_pos hblanks, List.dropWhile_cons_of_neg (by simp [h.isTrivial])]
  have htrim : trimEnd (name :: rest) = name :: rest := trimEnd_of_isName hnames
  have hcount : base.components.length =
      base.lead.1.components.length + (body.filterMap component?).length := by
    rw [hbody]
    exact List.length_append
  rw [stripBase?, if_pos hstarts, hlead]
  cases hlength : base.components.length with
  | zero =>
    rw [hlength] at hcount
    have hnothing : base.lead.1 = .nothing := by
      cases hs : base.lead.1 <;> simp [hs, Lead.components] at hcount ⊢ <;> omega
    have hblank : body.filterMap component? = [] := List.length_eq_zero_iff.mp (by omega)
    rw [Lead.Before.eq_nil (hnothing ▸ hbefore) hblank, hnothing, List.nil_append]
    simp only [htrim]
    rfl
  | succ count =>
    rw [hlength] at hcount
    have hpassed : (if base.lead.1 = .nothing then count + 1 else count) =
        (body.filterMap component?).length := by
      cases hs : base.lead.1 <;> simp [hs, Lead.components] at hcount ⊢ <;> omega
    simp only [hpassed, hdrop, hblankless, htrim]
    rfl

/-- A path whose last piece is a name has a parent, which ends with the last piece that means
something before it. -/
theorem parent?_of_lead {path : Path} {start : Lead} {front : List String} {name : String}
    (hlead : path.lead = (start, front ++ [name])) (h : IsName name) :
    path.parent? = some (ofLead start (trimEnd front)) := by
  rw [parent?, hlead]
  have hfront : (front ++ [name]).dropLast = front := List.dropLast_concat
  simp only [trimEnd_concat front h]
  cases hpieces : front ++ [name] with
  | nil => simp at hpieces
  | cons first rest =>
    rw [hpieces] at hfront
    cases start <;> simp [hfront]

/-- A parent is written with the beginning of the path and some of the pieces after it. -/
theorem parent?_eq_some {path parent : Path} (h : path.parent? = some parent) : ∃ start body,
    parent = ofLead start (trimEnd body) ∧ (start.pieces ++ body).Sublist path.pieces := by
  have hpieces := pieces_eq_lead path
  unfold parent? at h
  generalize path.lead = found at h hpieces
  obtain ⟨start, body⟩ := found
  simp only at h hpieces
  rw [hpieces]
  cases htrim : trimEnd body with
  | nil =>
    cases start <;> simp [htrim] at h
    exact ⟨.nothing, [], h.symm, List.nil_sublist _⟩
  | cons piece rest =>
    refine ⟨start, (trimEnd body).dropLast, ?_, ?_⟩
    · rw [htrim] at h ⊢
      cases start <;> simpa using h.symm
    · exact ((List.dropLast_sublist _).trans (trimEnd_isPrefix body).sublist).append_left _

/-- Only the root and the path without text are not written as a beginning and what follows. -/
theorem ofLead_cases (start : Lead) (body : List String) :
    ofLead start body = ⟨start.pieces ++ body⟩ ∧ start.pieces ++ body ≠ [] ∨
      ofLead start body = ⟨["", ""]⟩ ∨ ofLead start body = empty := by
  cases start <;> cases body <;> simp [ofLead, Lead.pieces]

theorem stem_ofLead_trimEnd (start : Lead) (body : List String) :
    (ofLead start (trimEnd body)).stem = start.pieces ++ trimEnd body := by
  have hlast := @ne_empty_of_getLast?_trimEnd body
  generalize trimEnd body = kept at hlast ⊢
  cases start <;> cases kept <;> simp_all [stem, ofLead, Lead.pieces, empty, List.getLast?_cons]

end Path

end JavaStubs
