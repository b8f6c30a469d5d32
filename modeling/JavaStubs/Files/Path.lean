import JavaStubs.Text.Split

/-!
# Paths

A path is kept as it is written: the pieces of its text between slashes. A path that begins with a
slash is absolute. What a path means is its list of components, which leaves out empty pieces and
single dots; only a dot at the very beginning counts. Two paths are taken for the same if they have
the same components, although their texts may differ.
-/
namespace JavaStubs

/-- A step on the way that a path describes. -/
inductive Component where
  | root
  /-- A dot at the beginning. -/
  | here
  /-- Two dots. -/
  | up
  | name (name : String)
  deriving DecidableEq, Repr

/-- A path: the pieces of its text between slashes. -/
structure Path where
  pieces : List String
  deriving DecidableEq, Repr

namespace Path

/-- The path that a text writes. -/
def ofString (text : String) : Path := ⟨Text.splitAt '/' text⟩

/-- The text of a path. -/
def text (path : Path) : String := Text.join "/" path.pieces

@[simp] theorem text_ofString (s : String) : (ofString s).text = s :=
  Text.join_splitAt '/' s

/-- The path without pieces but one that is empty. -/
def empty : Path := ⟨[""]⟩

instance : Inhabited Path := ⟨empty⟩

/-- What a piece means inside a path; nothing if it is empty or a dot. -/
def component? (piece : String) : Option Component :=
  if piece = "" ∨ piece = "." then none
  else if piece = ".." then some .up
  else some (.name piece)

/-- Whether a piece means nothing inside a path. -/
def isTrivial (piece : String) : Bool := (component? piece).isNone

/-- What stands before the pieces that mean something. -/
inductive Lead where
  | root
  | here
  | nothing
  deriving DecidableEq, Repr

/-- The beginning of a path and the pieces after it. -/
def lead (path : Path) : Lead × List String :=
  match path.pieces with
  | "" :: second :: rest => (.root, second :: rest)
  | "." :: rest => (.here, rest)
  | pieces => (.nothing, pieces)

/-- The path with that beginning and those pieces after it. -/
def ofLead : Lead → List String → Path
  | .root, [] => ⟨["", ""]⟩
  | .root, pieces => ⟨"" :: pieces⟩
  | .here, pieces => ⟨"." :: pieces⟩
  | .nothing, [] => empty
  | .nothing, pieces => ⟨pieces⟩

/-- The component that a beginning is. -/
def Lead.components : Lead → List Component
  | .root => [.root]
  | .here => [.here]
  | .nothing => []

/-- The components of a path. -/
def components (path : Path) : List Component :=
  let (start, body) := path.lead
  start.components ++ body.filterMap component?

/-- Whether two paths are taken for the same. -/
def same (p q : Path) : Bool := p.components == q.components

/-- Whether the path begins at the root. -/
def isAbsolute (path : Path) : Bool := path.lead.1 == .root

/-- Whether the path has no text at all. -/
def isEmpty (path : Path) : Bool := path.pieces == [""]

/-- A path as seen from a base; an absolute path stays as it is. -/
def join (base path : Path) : Path :=
  if path.isAbsolute then path
  else if base.pieces.getLast? = some "" then ⟨base.pieces.dropLast ++ path.pieces⟩
  else ⟨base.pieces ++ path.pieces⟩

/-- The pieces without those at the end that mean nothing. -/
def trimEnd : List String → List String
  | [] => []
  | piece :: rest =>
    match trimEnd rest with
    | [] => if isTrivial piece then [] else [piece]
    | kept => piece :: kept

theorem trimEnd_cons (piece : String) (rest : List String) :
    trimEnd (piece :: rest) =
      if trimEnd rest = [] ∧ isTrivial piece = true then [] else piece :: trimEnd rest := by
  rw [trimEnd]
  cases trimEnd rest with
  | nil => by_cases hp : isTrivial piece = true <;> simp [hp]
  | cons kept others => simp

theorem trimEnd_isPrefix (pieces : List String) : trimEnd pieces <+: pieces := by
  induction pieces with
  | nil => simp [trimEnd]
  | cons piece rest ih =>
    rw [trimEnd_cons]
    split
    · exact List.nil_prefix
    · exact List.cons_prefix_cons.mpr ⟨rfl, ih⟩

theorem filterMap_trimEnd (pieces : List String) :
    (trimEnd pieces).filterMap component? = pieces.filterMap component? := by
  induction pieces with
  | nil => simp [trimEnd]
  | cons piece rest ih =>
    rw [trimEnd_cons]
    split <;> rename_i h
    · have hp : component? piece = none := by simpa [isTrivial] using h.2
      rw [h.1] at ih
      simp [hp, ← ih]
    · cases hp : component? piece <;> simp [hp, ih]

/-- The last piece of a trimmed list means something. -/
theorem filterMap_dropLast_trimEnd {pieces : List String} (h : trimEnd pieces ≠ []) :
    ∃ last, pieces.filterMap component? =
      (trimEnd pieces).dropLast.filterMap component? ++ [last] := by
  induction pieces with
  | nil => simp [trimEnd] at h
  | cons piece rest ih =>
    rw [trimEnd_cons] at h ⊢
    split at h <;> rename_i hcond
    · exact absurd rfl h
    · rw [if_neg hcond]
      by_cases hr : trimEnd rest = []
      · have hp : component? piece ≠ none := by
          intro hn
          exact hcond ⟨hr, by simp [isTrivial, hn]⟩
        obtain ⟨c, hc⟩ := Option.ne_none_iff_exists'.mp hp
        have hrest : rest.filterMap component? = [] := by
          rw [← filterMap_trimEnd, hr]; rfl
        exact ⟨c, by simp [hr, hc, hrest]⟩
      · obtain ⟨last, hlast⟩ := ih hr
        refine ⟨last, ?_⟩
        rw [List.dropLast_cons_of_ne_nil hr]
        cases hp : component? piece <;> simp [hp, hlast]

/-- The path without its last component; none for the root and the empty path. -/
def parent? (path : Path) : Option Path :=
  let (start, body) := path.lead
  match trimEnd body, start with
  | [], .here => some empty
  | [], _ => none
  | pieces, start => some (ofLead start (trimEnd pieces.dropLast))

theorem components_ofLead_root (pieces : List String) :
    (ofLead .root pieces).components = .root :: pieces.filterMap component? := by
  cases pieces <;> simp [ofLead, components, lead, Lead.components, component?]

theorem components_ofLead_here (pieces : List String) :
    (ofLead .here pieces).components = .here :: pieces.filterMap component? := by
  simp [ofLead, components, lead, Lead.components]

theorem components_of_head_name {piece : String} {rest : List String} (h : piece ≠ "")
    (h' : piece ≠ ".") :
    (⟨piece :: rest⟩ : Path).components = (piece :: rest).filterMap component? := by
  simp only [components, lead]
  split <;> rename_i heq <;> simp_all [Lead.components]

/-- A path whose beginning is no component starts with a piece that means something, or is
empty. -/
theorem lead_eq_nothing {path : Path} {body : List String} (h : path.lead = (.nothing, body)) :
    path.pieces = body ∧ (body = [] ∨ body = [""] ∨
      ∃ piece rest, body = piece :: rest ∧ piece ≠ "" ∧ piece ≠ ".") := by
  obtain ⟨pieces⟩ := path
  simp only [lead] at h
  split at h
  · simp at h
  · simp at h
  · rename_i hroot hhere
    obtain rfl : pieces = body := by simpa using h
    refine ⟨rfl, ?_⟩
    match pieces with
    | [] => exact Or.inl rfl
    | [piece] =>
      by_cases hp : piece = ""
      · exact Or.inr (Or.inl (by rw [hp]))
      · refine Or.inr (Or.inr ⟨piece, [], rfl, hp, ?_⟩)
        rintro rfl
        exact hhere [] rfl
    | piece :: second :: rest =>
      refine Or.inr (Or.inr ⟨piece, second :: rest, rfl, ?_, ?_⟩)
      · rintro rfl
        exact hroot second rest rfl
      · rintro rfl
        exact hhere (second :: rest) rfl

/-- The parent of a path has all its components but the last. -/
theorem components_of_parent? {path parent : Path} (h : path.parent? = some parent) :
    ∃ last, path.components = parent.components ++ [last] := by
  simp only [parent?] at h
  have hc : path.components =
      path.lead.1.components ++ path.lead.2.filterMap component? := rfl
  generalize hlead : path.lead = found at h hc
  obtain ⟨start, body⟩ := found
  simp only at h hc
  by_cases hb : trimEnd body = []
  · have hnone : body.filterMap component? = [] := by
      rw [← filterMap_trimEnd, hb]; rfl
    cases start <;> simp [hb] at h
    subst h
    rw [hc, hnone]
    exact ⟨.here, rfl⟩
  · obtain ⟨last, hlast⟩ := filterMap_dropLast_trimEnd hb
    have hsome : parent = ofLead start (trimEnd (trimEnd body).dropLast) := by
      cases ht : trimEnd body with
      | nil => exact absurd ht hb
      | cons piece rest =>
        rw [ht] at h
        cases start <;> simpa using h.symm
    refine ⟨last, ?_⟩
    rw [hc, hlast, ← filterMap_trimEnd (trimEnd body).dropLast, hsome]
    cases start with
    | root => rw [components_ofLead_root]; rfl
    | here => rw [components_ofLead_here]; rfl
    | nothing =>
      have hparts : (ofLead .nothing (trimEnd (trimEnd body).dropLast)).components =
          (trimEnd (trimEnd body).dropLast).filterMap component? := by
        have hprefix : trimEnd (trimEnd body).dropLast <+: body :=
          (trimEnd_isPrefix _).trans
            ((List.dropLast_prefix _).trans (trimEnd_isPrefix body))
        cases hk : trimEnd (trimEnd body).dropLast with
        | nil => simp [ofLead, empty, components, lead, Lead.components, component?]
        | cons piece rest =>
          rw [hk] at hprefix
          rcases (lead_eq_nothing hlead).2 with rfl | rfl | ⟨first, others, rfl, hne, hdot⟩
          · simp at hprefix
          · simp [trimEnd, isTrivial, component?] at hb
          · obtain ⟨rfl, -⟩ := List.cons_prefix_cons.mp hprefix
            exact components_of_head_name hne hdot
      rw [hparts]
      rfl

theorem length_components_of_parent? {path parent : Path} (h : path.parent? = some parent) :
    parent.components.length < path.components.length := by
  obtain ⟨last, hlast⟩ := components_of_parent? h
  simp [hlast]

/-- The name at the end of a path; none if it ends with two dots or has no name. -/
def fileName? (path : Path) : Option String :=
  match path.components.getLast? with
  | some (.name name) => some name
  | _ => none

/-- The path with another name at its end, or with that name in addition if it ends with none. -/
def withFileName (path : Path) (name : String) : Path :=
  let base := if path.fileName?.isSome then path.parent?.getD empty else path
  base.join (ofString name)

/-- Whether the first components of a path are those of a base. -/
def startsWith (path base : Path) : Bool :=
  base.components.isPrefixOf path.components

/-- The pieces after the first `count` that mean something. -/
def dropMeaningful : Nat → List String → List String
  | 0, pieces => pieces
  | _, [] => []
  | count + 1, piece :: rest =>
    if isTrivial piece then dropMeaningful (count + 1) rest else dropMeaningful count rest

/-- The rest of a path after the components of a base. -/
def stripBase? (path base : Path) : Option Path :=
  if path.startsWith base then
    let (start, body) := path.lead
    match base.components.length with
    | 0 => some (ofLead start (trimEnd body))
    | count + 1 =>
      let passed := if start = .nothing then count + 1 else count
      some (ofLead .nothing (trimEnd ((dropMeaningful passed body).dropWhile isTrivial)))
  else none

/-- The path with a text right after it. -/
def append (path : Path) (ending : String) : Path :=
  ofString (path.text ++ ending)

/-- The path that leads through the pieces of a dotted name, one after the other. -/
def ofDotted (name : String) : Path :=
  (Text.splitAt '.' name).foldl (fun path piece => path.join (ofString piece)) empty

end Path

end JavaStubs
