import JavaStubs.Proofs.NormalTypes
import JavaStubs.Proofs.NumberText
import JavaStubs.Proofs.PathText

/-!
# Reading types back

The text of a type says its normal form. No name in it holds one of the signs between names, so a
name ends where a sign stands; what follows a type, an argument or a bound differs from what can go
on with it; and no name is the keyword of a primitive type. So a spelling can be read in one way
only, whatever follows it.
-/
namespace JavaStubs

namespace Names

/-- Whether the segments between the dots of a name are identifiers, in which a `$` may stand. -/
def isQualified (name : String) : Bool := (Text.splitAt '.' name).all isIdentifier

/-- Whether a name in the text of a type, or the wildcard, may have the character. -/
def isNamePart (c : Char) : Bool := isIdentifierPart c || c == '.' || c == '?'

/-- The name cannot be taken for anything else in the text of a type. -/
structure IsLegible (name : String) : Prop where
  parts : ∀ c ∈ name.toList, isNamePart c = true
  ne_keyword : ∀ type : Primitive, name ≠ type.keyword

/-- A qualified name is made of identifiers and dots. -/
theorem isNamePart_of_mem {name : String} (h : isQualified name = true) {c : Char}
    (hc : c ∈ name.toList) : isNamePart c = true := by
  rw [isQualified, List.all_eq_true] at h
  by_contra hpart
  simp only [isNamePart, Bool.or_eq_true, beq_iff_eq, not_or] at hpart
  obtain ⟨⟨hidentifier, hdot⟩, -⟩ := hpart
  have habsent : Absent c (Text.splitAt '.' name) := fun segment hs hmem =>
    hidentifier (isIdentifierPart_of_mem (h segment hs) hmem)
  rw [← Text.join_splitAt '.' name] at hc
  exact Text.not_mem_join (by simpa using hdot) habsent hc

theorem isReserved_keyword (type : Primitive) : isReserved type.keyword = true := by
  cases type <;> decide

/-- A keyword has neither dots nor dollar signs. -/
theorem not_mem_keyword (type : Primitive) :
    '.' ∉ type.keyword.toList ∧ '$' ∉ type.keyword.toList := by
  cases type <;> decide

theorem ne_keyword_of_isQualified {name : String} (h : isQualified name = true)
    (type : Primitive) : name ≠ type.keyword := by
  rintro rfl
  rw [isQualified, Text.splitAt_of_not_mem (not_mem_keyword type).1, List.all_cons, List.all_nil,
    Bool.and_true] at h
  exact Bool.false_ne_true ((not_isReserved_of_isIdentifier h).symm.trans (isReserved_keyword type))

theorem isLegible_of_isQualified {name : String} (h : isQualified name = true) : IsLegible name :=
  ⟨fun _ => isNamePart_of_mem h, ne_keyword_of_isQualified h⟩

theorem isLegible_wildcard : IsLegible "?" := by
  refine ⟨fun c hc => ?_, fun type => ?_⟩
  · obtain rfl : c = '?' := by simpa using hc
    simp [isNamePart]
  · cases type <;> decide

/-- Only a name without dollar signs is spelled without dots. -/
theorem sourceName_eq_self {name : String} (h : '.' ∉ (sourceName name).toList) :
    sourceName name = name := by
  rw [sourceName, Text.toList_exchange] at h
  apply String.toList_inj.mp
  rw [sourceName, Text.toList_exchange]
  refine (List.map_congr_left fun c hc => ?_).trans (List.map_id _)
  refine if_neg fun hdollar => h (List.mem_map.mpr ⟨c, hc, if_pos hdollar⟩)

theorem isLegible_sourceName {name : String} (h : isQualified name = true) :
    IsLegible (sourceName name) := by
  refine ⟨fun c hc => ?_, fun type hkeyword => ?_⟩
  · rw [sourceName, Text.toList_exchange] at hc
    obtain ⟨d, hd, rfl⟩ := List.mem_map.mp hc
    split
    · simp [isNamePart]
    · exact isNamePart_of_mem h hd
  · have hdot : '.' ∉ (sourceName name).toList := hkeyword ▸ (not_mem_keyword type).1
    exact ne_keyword_of_isQualified h type ((sourceName_eq_self hdot).symm.trans hkeyword)

end Names

mutual

/-- Whether the names that the text of a type shows are qualified names. -/
def TypeRef.isReadable : TypeRef → Bool
  | .primitive _ => true
  | .named type => type.isReadable
  | .array component => component.isReadable
  | .placeholder name _ => Names.isQualified name

/-- Whether the names that the text of a class shows are qualified names. -/
def ClassType.isReadable : ClassType → Bool
  | { name, generics, .. } =>
    Names.isQualified name && (Names.nonGeneric.contains name || Generic.listReadable generics)

/-- Whether this holds of each generic parameter or argument. -/
def Generic.listReadable : List Generic → Bool
  | [] => true
  | generic :: rest => generic.isReadable && Generic.listReadable rest

/-- Whether the names that the text of a generic parameter or argument shows are qualified names, or
the wildcard. -/
def Generic.isReadable : Generic → Bool
  | { name, type, upperBounds, lowerBound } =>
    (match type with
      | some type => type.isReadable
      | none => Names.isQualified name || name == "?") &&
    (match upperBounds, lowerBound with
      | [], none => true
      | [], some bound => bound.isReadable
      | bounds, _ => TypeRef.listReadable bounds)

/-- Whether this holds of each type. -/
def TypeRef.listReadable : List TypeRef → Bool
  | [] => true
  | type :: rest => type.isReadable && TypeRef.listReadable rest

end

mutual

/-- The names in a normal form are legible. -/
def NormalType.Legible : NormalType → Prop
  | .primitive _ _ => True
  | .reference name arguments _ => Names.IsLegible name ∧ NormalArgument.ListLegible arguments

/-- The names in each argument are legible. -/
def NormalArgument.ListLegible : List NormalArgument → Prop
  | [] => True
  | argument :: rest => argument.Legible ∧ NormalArgument.ListLegible rest

/-- The names in an argument are legible. -/
def NormalArgument.Legible : NormalArgument → Prop
  | .exactly type => type.Legible
  | .extending type first others => type.Legible ∧ first.Legible ∧ NormalType.ListLegible others
  | .above type bound => type.Legible ∧ bound.Legible

/-- The names in each bound are legible. -/
def NormalType.ListLegible : List NormalType → Prop
  | [] => True
  | type :: rest => type.Legible ∧ NormalType.ListLegible rest

end

theorem NormalType.legible_array {type : NormalType} (h : type.Legible) : type.array.Legible := by
  cases type with
  | primitive type dimensions =>
    rw [array, Legible]
    trivial
  | reference name arguments dimensions =>
    rw [Legible] at h
    rw [array, Legible]
    exact h

theorem NormalType.legible_plain {name : String} :
    (reference name [] 0).Legible ↔ Names.IsLegible name := by
  rw [Legible, NormalArgument.ListLegible, and_true]

mutual

/-- The normal form of a readable type has legible names: induction over the type. -/
theorem TypeRef.legible_normal : (type : TypeRef) → type.isReadable = true → type.normal.Legible
  | .primitive type, _ => by
    rw [TypeRef.normal, NormalType.Legible]
    trivial
  | .named type, h => by
    rw [TypeRef.isReadable] at h
    rw [TypeRef.normal]
    exact ClassType.legible_normal type h
  | .array component, h => by
    rw [TypeRef.isReadable] at h
    rw [TypeRef.normal]
    exact NormalType.legible_array (TypeRef.legible_normal component h)
  | .placeholder name erasure, h => by
    rw [TypeRef.isReadable] at h
    rw [TypeRef.normal, NormalType.legible_plain]
    exact Names.isLegible_of_isQualified h

theorem ClassType.legible_normal : (type : ClassType) → type.isReadable = true →
    type.normal.Legible
  | { name, generics, .. }, h => by
    rw [ClassType.isReadable, Bool.and_eq_true, Bool.or_eq_true] at h
    have hname := Names.isLegible_sourceName h.1
    rw [ClassType.normal]
    split
    · exact NormalType.legible_plain.mpr hname
    · rename_i hgeneric
      rw [NormalType.Legible]
      exact ⟨hname, Generic.legible_listNormal generics (h.2.resolve_left hgeneric)⟩

theorem Generic.legible_listNormal : (generics : List Generic) →
    Generic.listReadable generics = true → NormalArgument.ListLegible (Generic.listNormal generics)
  | [], _ => by
    rw [Generic.listNormal, NormalArgument.ListLegible]
    trivial
  | generic :: rest, h => by
    rw [Generic.listReadable, Bool.and_eq_true] at h
    rw [Generic.listNormal, NormalArgument.ListLegible]
    exact ⟨Generic.legible_normal generic h.1, Generic.legible_listNormal rest h.2⟩

theorem Generic.legible_normal : (generic : Generic) → generic.isReadable = true →
    generic.normal.Legible
  | { name, type, upperBounds, lowerBound }, h => by
    unfold Generic.isReadable at h
    rw [Bool.and_eq_true] at h
    obtain ⟨htype, hbounds⟩ := h
    have hhead : (Generic.headNormal { name, type, upperBounds, lowerBound }).Legible := by
      cases type with
      | some type => exact TypeRef.legible_normal type htype
      | none =>
        refine NormalType.legible_plain.mpr ?_
        rcases Bool.or_eq_true_iff.mp htype with hname | hname
        · exact Names.isLegible_of_isQualified hname
        · exact beq_iff_eq.mp hname ▸ Names.isLegible_wildcard
    rw [Generic.normal_eq]
    match upperBounds, lowerBound, hbounds with
    | [], none, _ =>
      rw [NormalArgument.Legible]
      exact hhead
    | [], some bound, hbound =>
      rw [NormalArgument.Legible]
      exact ⟨hhead, TypeRef.legible_normal bound hbound⟩
    | first :: others, _, hbounds =>
      have hfirst : first.isReadable = true ∧ TypeRef.listReadable others = true := by
        rw [← Bool.and_eq_true, ← TypeRef.listReadable]
        exact hbounds
      rw [NormalArgument.Legible]
      exact ⟨hhead, TypeRef.legible_normal first hfirst.1,
        TypeRef.legible_listNormal others hfirst.2⟩

theorem TypeRef.legible_listNormal : (types : List TypeRef) →
    TypeRef.listReadable types = true → NormalType.ListLegible (TypeRef.listNormal types)
  | [], _ => by
    rw [TypeRef.listNormal, NormalType.ListLegible]
    trivial
  | type :: rest, h => by
    rw [TypeRef.listReadable, Bool.and_eq_true] at h
    rw [TypeRef.listNormal, NormalType.ListLegible]
    exact ⟨TypeRef.legible_normal type h.1, TypeRef.legible_listNormal rest h.2⟩

end

namespace NormalArgument

/-- What stands before the bounds. -/
def type : NormalArgument → NormalType
  | .exactly type => type
  | .extending type _ _ => type
  | .above type _ => type

/-- How the bounds are spelled. -/
def boundSpelling : NormalArgument → List Char
  | .exactly _ => []
  | .extending _ first others =>
    " extends ".toList ++ (first.spelling ++ NormalType.restSpelling others)
  | .above _ bound => " super ".toList ++ bound.spelling

@[simp] theorem boundSpelling_exactly (type : NormalType) :
    boundSpelling (exactly type) = [] := rfl

@[simp] theorem boundSpelling_extending (type first : NormalType) (others : List NormalType) :
    boundSpelling (extending type first others) =
      " extends ".toList ++ (first.spelling ++ NormalType.restSpelling others) := rfl

@[simp] theorem boundSpelling_above (type bound : NormalType) :
    boundSpelling (above type bound) = " super ".toList ++ bound.spelling := rfl

theorem spelling_eq (argument : NormalArgument) :
    argument.spelling = argument.type.spelling ++ argument.boundSpelling := by
  cases argument with
  | exactly type =>
    rw [spelling, boundSpelling_exactly, List.append_nil]
    rfl
  | extending type first others =>
    rw [spelling, boundSpelling_extending]
    rfl
  | above type bound =>
    rw [spelling, boundSpelling_above]
    rfl

/-- The words before the two sorts of bounds differ in their second characters. -/
theorem extending_ne_above {type other first bound : NormalType} {others : List NormalType}
    {rest rest' : List Char} : boundSpelling (extending type first others) ++ rest ≠
      boundSpelling (above other bound) ++ rest' := by
  intro h
  have hsecond := congrArg (fun chars => chars[1]?) h
  simp at hsecond

theorem legible_type {argument : NormalArgument} (h : argument.Legible) :
    argument.type.Legible := by
  cases argument with
  | exactly type =>
    rw [Legible] at h
    exact h
  | extending type first others =>
    rw [Legible] at h
    exact h.1
  | above type bound =>
    rw [Legible] at h
    exact h.1

end NormalArgument

/-- What follows begins with one of those characters, if anything follows. -/
def BeginsWith (closers rest : List Char) : Prop := ∀ c ∈ rest.head?, c ∈ closers

/-- What can follow a type, and what can follow an argument. -/
def typeClosers : List Char := [' ', ',', '>']

def argumentClosers : List Char := [',', '>']

section

variable {rest rest' : List Char}

theorem BeginsWith.type (h : BeginsWith argumentClosers rest) : BeginsWith typeClosers rest := by
  intro c hc
  exact List.mem_cons_of_mem _ (h c hc)

theorem beginsWith_cons {closers : List Char} {c : Char} :
    BeginsWith closers (c :: rest) ↔ c ∈ closers := by
  simp [BeginsWith]

/-- What follows cannot begin with any other character. -/
theorem ne_of_beginsWith {closers : List Char} {c : Char} (h : BeginsWith closers rest)
    (hc : c ∉ closers) : rest ≠ c :: rest' := by
  rintro rfl
  exact hc (beginsWith_cons.mp h)

/-- Signs are not parts of names. -/
theorem isNamePart_sign : ∀ c ∈ '<' :: '[' :: typeClosers, Names.isNamePart c = false := by
  simp only [typeClosers, List.mem_cons, List.not_mem_nil, or_false]
  rintro c (rfl | rfl | rfl | rfl | rfl) <;> decide +kernel

/-- A name ends where a sign follows it. -/
theorem name_unique {name other : List Char} (hname : ∀ c ∈ name, Names.isNamePart c = true)
    (hother : ∀ c ∈ other, Names.isNamePart c = true)
    (hrest : BeginsWith ('<' :: '[' :: typeClosers) rest)
    (hrest' : BeginsWith ('<' :: '[' :: typeClosers) rest') (h : name ++ rest = other ++ rest') :
    name = other ∧ rest = rest' := by
  have htake := Text.takeWhile_append hname fun c hc => isNamePart_sign c (hrest c hc)
  rw [h, Text.takeWhile_append hother fun c hc => isNamePart_sign c (hrest' c hc)] at htake
  subst htake
  exact ⟨rfl, List.append_cancel_left h⟩

theorem beginsWith_brackets (hrest : BeginsWith typeClosers rest) (count : Nat) :
    BeginsWith ('[' :: typeClosers) (NormalType.brackets count ++ rest) := by
  cases count with
  | zero => exact fun c hc => List.mem_cons_of_mem _ (hrest c hc)
  | succ count => simp [BeginsWith, NormalType.brackets]

theorem beginsWith_listSpelling (hrest : BeginsWith ('[' :: typeClosers) rest) :
    (arguments : List NormalArgument) →
      BeginsWith ('<' :: '[' :: typeClosers) (NormalArgument.listSpelling arguments ++ rest)
  | [] => by
    rw [NormalArgument.listSpelling]
    exact fun c hc => List.mem_cons_of_mem _ (hrest c hc)
  | argument :: others => by
    rw [NormalArgument.listSpelling]
    simp [BeginsWith]

/-- All brackets belong to the array. -/
theorem brackets_unique (hrest : BeginsWith typeClosers rest)
    (hrest' : BeginsWith typeClosers rest') {count other : Nat}
    (h : NormalType.brackets count ++ rest = NormalType.brackets other ++ rest') :
    count = other ∧ rest = rest' := by
  induction count generalizing other with
  | zero =>
    cases other with
    | zero => exact ⟨rfl, h⟩
    | succ other => exact absurd h (ne_of_beginsWith hrest (by decide))
  | succ count ih =>
    cases other with
    | zero => exact absurd h.symm (ne_of_beginsWith hrest' (by decide))
    | succ other =>
      have hmore := (List.cons.inj (List.cons.inj h).2).2
      obtain ⟨hcount, hsame⟩ := ih hmore
      exact ⟨congrArg (· + 1) hcount, hsame⟩

/-- The first character after a bound is a blank or what follows all bounds. -/
theorem beginsWith_bounds (hrest : BeginsWith argumentClosers rest) (types : List NormalType) :
    BeginsWith typeClosers (NormalType.restSpelling types ++ rest) := by
  cases types with
  | nil =>
    rw [NormalType.restSpelling]
    exact hrest.type
  | cons next others =>
    rw [NormalType.restSpelling]
    exact beginsWith_cons.mpr (by decide)

/-- The first character after an argument is a comma or the closing bracket. -/
theorem beginsWith_arguments (rest : List Char) (arguments : List NormalArgument) :
    BeginsWith argumentClosers (NormalArgument.restSpelling arguments ++ rest) := by
  cases arguments with
  | nil =>
    rw [NormalArgument.restSpelling]
    exact beginsWith_cons.mpr (by decide)
  | cons next others =>
    rw [NormalArgument.restSpelling]
    exact beginsWith_cons.mpr (by decide)

theorem beginsWith_boundSpelling (hrest : BeginsWith argumentClosers rest)
    (argument : NormalArgument) : BeginsWith typeClosers (argument.boundSpelling ++ rest) := by
  cases argument with
  | exactly type => exact hrest.type
  | extending type first others => exact beginsWith_cons.mpr (by decide)
  | above type bound => exact beginsWith_cons.mpr (by decide)

/-- The name that a type begins with can be told from what follows it. -/
theorem beginning_unique {name other : List Char} (arguments others : List NormalArgument)
    {count count' : Nat} (hname : ∀ c ∈ name, Names.isNamePart c = true)
    (hother : ∀ c ∈ other, Names.isNamePart c = true) (hrest : BeginsWith typeClosers rest)
    (hrest' : BeginsWith typeClosers rest')
    (h : name ++ (NormalArgument.listSpelling arguments ++ NormalType.brackets count) ++ rest =
      other ++ (NormalArgument.listSpelling others ++ NormalType.brackets count') ++ rest') :
    name = other ∧
      NormalArgument.listSpelling arguments ++ (NormalType.brackets count ++ rest) =
        NormalArgument.listSpelling others ++ (NormalType.brackets count' ++ rest') := by
  simp only [List.append_assoc] at h
  exact name_unique hname hother
    (beginsWith_listSpelling (beginsWith_brackets hrest count) arguments)
    (beginsWith_listSpelling (beginsWith_brackets hrest' count') others) h

end

theorem Primitive.keyword_injective {type other : Primitive}
    (h : type.keyword = other.keyword) : type = other := by
  cases type <;> cases other <;> first | rfl | exact absurd h (by decide)

/-- Keywords are made of the characters of names. -/
theorem Primitive.isNamePart_keyword (type : Primitive) :
    ∀ c ∈ type.keyword.toList, Names.isNamePart c = true := by
  have halpha : type.keyword.toList.all Char.isAlpha = true := by cases type <;> rfl
  intro c hc
  have hletter := Text.isLetter_of_isAlpha (List.all_eq_true.mp halpha c hc)
  simp [Names.isNamePart, Names.isIdentifierPart, hletter]

mutual

/-- A type can be read off its spelling, whatever follows: induction over the type. -/
theorem NormalType.spelling_unique : (type other : NormalType) → (rest rest' : List Char) →
    type.Legible → other.Legible → BeginsWith typeClosers rest → BeginsWith typeClosers rest' →
    type.spelling ++ rest = other.spelling ++ rest' → type = other ∧ rest = rest'
  | .primitive type count, .primitive type' count', rest, rest', _, _, hrest, hrest', h => by
    rw [NormalType.spelling, NormalType.spelling] at h
    obtain ⟨hkeyword, hafter⟩ := beginning_unique [] []
      type.isNamePart_keyword type'.isNamePart_keyword hrest hrest' h
    obtain ⟨hcount, hsame⟩ := brackets_unique hrest hrest' hafter
    rw [Primitive.keyword_injective (String.toList_inj.mp hkeyword), hcount]
    exact ⟨rfl, hsame⟩
  | .primitive type count, .reference name arguments count', rest, rest', _, hother, hrest, hrest',
      h => by
    rw [NormalType.Legible] at hother
    rw [NormalType.spelling, NormalType.spelling] at h
    obtain ⟨hkeyword, -⟩ := beginning_unique [] _
      type.isNamePart_keyword hother.1.parts hrest hrest' h
    exact absurd (String.toList_inj.mp hkeyword).symm (hother.1.ne_keyword type)
  | .reference name arguments count, .primitive type count', rest, rest', htype, _, hrest, hrest',
      h => by
    rw [NormalType.Legible] at htype
    rw [NormalType.spelling, NormalType.spelling] at h
    obtain ⟨hkeyword, -⟩ := beginning_unique _ []
      htype.1.parts type.isNamePart_keyword hrest hrest' h
    exact absurd (String.toList_inj.mp hkeyword) (htype.1.ne_keyword type)
  | .reference name arguments count, .reference name' arguments' count', rest, rest', htype, hother,
      hrest, hrest', h => by
    rw [NormalType.Legible] at htype hother
    rw [NormalType.spelling, NormalType.spelling] at h
    obtain ⟨hname, hafter⟩ := beginning_unique _ _ htype.1.parts hother.1.parts hrest hrest' h
    obtain ⟨harguments, hbrackets⟩ := NormalArgument.listSpelling_unique arguments arguments' _ _
      htype.2 hother.2 (beginsWith_brackets hrest count) (beginsWith_brackets hrest' count') hafter
    obtain ⟨hcount, hsame⟩ := brackets_unique hrest hrest' hbrackets
    rw [String.toList_inj.mp hname, harguments, hcount]
    exact ⟨rfl, hsame⟩

/-- A list of arguments begins with a bracket, which nothing after it does. -/
theorem NormalArgument.listSpelling_unique : (arguments others : List NormalArgument) →
    (rest rest' : List Char) → NormalArgument.ListLegible arguments →
    NormalArgument.ListLegible others → BeginsWith ('[' :: typeClosers) rest →
    BeginsWith ('[' :: typeClosers) rest' →
    NormalArgument.listSpelling arguments ++ rest = NormalArgument.listSpelling others ++ rest' →
    arguments = others ∧ rest = rest'
  | [], [], _, _, _, _, _, _, h => ⟨rfl, h⟩
  | [], other :: others, rest, rest', _, _, hrest, _, h => by
    rw [NormalArgument.listSpelling, NormalArgument.listSpelling] at h
    exact absurd h (ne_of_beginsWith hrest (by decide))
  | argument :: arguments, [], rest, rest', _, _, _, hrest', h => by
    rw [NormalArgument.listSpelling, NormalArgument.listSpelling] at h
    exact absurd h.symm (ne_of_beginsWith hrest' (by decide))
  | argument :: arguments, other :: others, rest, rest', harguments, hothers, _, _, h => by
    rw [NormalArgument.ListLegible] at harguments hothers
    rw [NormalArgument.listSpelling, NormalArgument.listSpelling, List.cons_append,
      List.cons_append, List.append_assoc, List.append_assoc] at h
    obtain ⟨hfirst, hmore⟩ := NormalArgument.spelling_unique argument other _ _ harguments.1
      hothers.1 (beginsWith_arguments rest arguments) (beginsWith_arguments rest' others)
      (List.cons.inj h).2
    obtain ⟨hrest, hsame⟩ := NormalArgument.restSpelling_unique arguments others rest rest'
      harguments.2 hothers.2 hmore
    exact ⟨congrArg₂ List.cons hfirst hrest, hsame⟩

theorem NormalArgument.restSpelling_unique : (arguments others : List NormalArgument) →
    (rest rest' : List Char) → NormalArgument.ListLegible arguments →
    NormalArgument.ListLegible others →
    NormalArgument.restSpelling arguments ++ rest = NormalArgument.restSpelling others ++ rest' →
    arguments = others ∧ rest = rest'
  | [], [], rest, rest', _, _, h => by
    rw [NormalArgument.restSpelling] at h
    exact ⟨rfl, List.append_cancel_left h⟩
  | [], other :: others, rest, rest', _, _, h => by
    rw [NormalArgument.restSpelling, NormalArgument.restSpelling] at h
    exact absurd (List.cons.inj h).1 (by decide)
  | argument :: arguments, [], rest, rest', _, _, h => by
    rw [NormalArgument.restSpelling, NormalArgument.restSpelling] at h
    exact absurd (List.cons.inj h).1 (by decide)
  | argument :: arguments, other :: others, rest, rest', harguments, hothers, h => by
    rw [NormalArgument.ListLegible] at harguments hothers
    rw [NormalArgument.restSpelling, NormalArgument.restSpelling] at h
    simp only [List.append_assoc, List.append_cancel_left_eq] at h
    obtain ⟨hfirst, hmore⟩ := NormalArgument.spelling_unique argument other _ _ harguments.1
      hothers.1 (beginsWith_arguments rest arguments) (beginsWith_arguments rest' others) h
    obtain ⟨hrest, hsame⟩ := NormalArgument.restSpelling_unique arguments others rest rest'
      harguments.2 hothers.2 hmore
    exact ⟨congrArg₂ List.cons hfirst hrest, hsame⟩

/-- An argument can be read off its spelling before a comma or a closing bracket: what comes after
its type says which form it has. -/
theorem NormalArgument.spelling_unique : (argument other : NormalArgument) →
    (rest rest' : List Char) → argument.Legible → other.Legible →
    BeginsWith argumentClosers rest → BeginsWith argumentClosers rest' →
    argument.spelling ++ rest = other.spelling ++ rest' → argument = other ∧ rest = rest'
  | .exactly type, other, rest, rest', hargument, hother, hrest, hrest', h => by
    rw [NormalArgument.spelling_eq, other.spelling_eq, List.append_assoc, List.append_assoc] at h
    obtain ⟨hsame, hafter⟩ := NormalType.spelling_unique type other.type _ _
      (NormalArgument.legible_type hargument) (NormalArgument.legible_type hother)
      (beginsWith_boundSpelling hrest (.exactly type)) (beginsWith_boundSpelling hrest' other) h
    subst hsame
    cases other with
    | exactly other => exact ⟨rfl, hafter⟩
    | extending other first others => exact absurd hafter (ne_of_beginsWith hrest (by decide))
    | above other bound => exact absurd hafter (ne_of_beginsWith hrest (by decide))
  | .extending type first others, other, rest, rest', hargument, hother, hrest, hrest', h => by
    rw [NormalArgument.spelling_eq, other.spelling_eq, List.append_assoc, List.append_assoc] at h
    obtain ⟨hsame, hafter⟩ := NormalType.spelling_unique type other.type _ _
      (NormalArgument.legible_type hargument) (NormalArgument.legible_type hother)
      (beginsWith_boundSpelling hrest (.extending type first others))
      (beginsWith_boundSpelling hrest' other) h
    subst hsame
    cases other with
    | exactly other => exact absurd hafter.symm (ne_of_beginsWith hrest' (by decide))
    | extending other first' others' =>
      rw [NormalArgument.Legible] at hargument hother
      simp only [NormalArgument.boundSpelling_extending, List.append_assoc,
        List.append_cancel_left_eq] at hafter
      obtain ⟨hfirst, hbounds⟩ := NormalType.spelling_unique first first' _ _ hargument.2.1
        hother.2.1 (beginsWith_bounds hrest others) (beginsWith_bounds hrest' others') hafter
      obtain ⟨hothers, hend⟩ := NormalType.restSpelling_unique others others' rest rest'
        hargument.2.2 hother.2.2 hrest hrest' hbounds
      rw [hfirst, hothers]
      exact ⟨rfl, hend⟩
    | above other bound => exact absurd hafter NormalArgument.extending_ne_above
  | .above type bound, other, rest, rest', hargument, hother, hrest, hrest', h => by
    rw [NormalArgument.spelling_eq, other.spelling_eq, List.append_assoc, List.append_assoc] at h
    obtain ⟨hsame, hafter⟩ := NormalType.spelling_unique type other.type _ _
      (NormalArgument.legible_type hargument) (NormalArgument.legible_type hother)
      (beginsWith_boundSpelling hrest (.above type bound)) (beginsWith_boundSpelling hrest' other) h
    subst hsame
    cases other with
    | exactly other => exact absurd hafter.symm (ne_of_beginsWith hrest' (by decide))
    | extending other first others => exact absurd hafter.symm NormalArgument.extending_ne_above
    | above other bound' =>
      rw [NormalArgument.Legible] at hargument hother
      simp only [NormalArgument.boundSpelling_above, List.append_assoc,
        List.append_cancel_left_eq] at hafter
      obtain ⟨hbound, hend⟩ := NormalType.spelling_unique bound bound' rest rest' hargument.2
        hother.2 hrest.type hrest'.type hafter
      rw [hbound]
      exact ⟨rfl, hend⟩

theorem NormalType.restSpelling_unique : (types others : List NormalType) →
    (rest rest' : List Char) → NormalType.ListLegible types → NormalType.ListLegible others →
    BeginsWith argumentClosers rest → BeginsWith argumentClosers rest' →
    NormalType.restSpelling types ++ rest = NormalType.restSpelling others ++ rest' →
    types = others ∧ rest = rest'
  | [], [], _, _, _, _, _, _, h => ⟨rfl, h⟩
  | [], other :: others, rest, rest', _, _, hrest, _, h => by
    rw [NormalType.restSpelling, NormalType.restSpelling] at h
    exact absurd h (ne_of_beginsWith hrest (by decide))
  | type :: types, [], rest, rest', _, _, _, hrest', h => by
    rw [NormalType.restSpelling, NormalType.restSpelling] at h
    exact absurd h.symm (ne_of_beginsWith hrest' (by decide))
  | type :: types, other :: others, rest, rest', htypes, hothers, hrest, hrest', h => by
    rw [NormalType.ListLegible] at htypes hothers
    rw [NormalType.restSpelling, NormalType.restSpelling] at h
    simp only [List.append_assoc, List.append_cancel_left_eq] at h
    obtain ⟨hfirst, hmore⟩ := NormalType.spelling_unique type other _ _ htypes.1 hothers.1
      (beginsWith_bounds hrest types) (beginsWith_bounds hrest' others) h
    obtain ⟨hothers, hsame⟩ := NormalType.restSpelling_unique types others rest rest' htypes.2
      hothers.2 hrest hrest' hmore
    exact ⟨congrArg₂ List.cons hfirst hothers, hsame⟩

end

/-- With generics, two readable types have one text if and only if they have one normal form. -/
theorem TypeRef.typeText_eq_iff {first second : TypeRef} (hfirst : first.isReadable = true)
    (hsecond : second.isReadable = true) :
    ({} : Source.Dialect).typeText first = ({} : Source.Dialect).typeText second ↔
      first.normal = second.normal := by
  rw [← String.toList_inj, Source.Dialect.toList_typeText, Source.Dialect.toList_typeText]
  refine ⟨fun h => ?_, congrArg NormalType.spelling⟩
  have hnothing : BeginsWith typeClosers [] := by simp [BeginsWith]
  rw [← List.append_nil first.normal.spelling, ← List.append_nil second.normal.spelling] at h
  exact (NormalType.spelling_unique _ _ [] [] (TypeRef.legible_normal first hfirst)
    (TypeRef.legible_normal second hsecond) hnothing hnothing h).1

/-- Maps from a type variable to items, with a lower bound that is not written. -/
def stock : TypeRef :=
  .array (.named { name := "java.util.Map", generics :=
    [.ofType (.typeVariable "K"),
      { name := "?", upperBounds := [.ofName "shop.Outer$Item"], lowerBound := some .string }] })

/-- Those maps as another front end may describe them. -/
def inventory : TypeRef :=
  .array (.named { name := "java.util.Map", resolved := false, generics :=
    [{ name := "V", type := some (.ofName "K") },
      .addUpperBound .wildcard (.typeVariable "shop.Outer.Item")] })

theorem stock_read_as_inventory :
    stock.isReadable = true ∧ inventory.isReadable = true ∧
      ({} : Source.Dialect).typeText stock = "java.util.Map<K, ? extends shop.Outer.Item>[]" ∧
      stock.normal = .reference "java.util.Map"
        [.exactly (.reference "K" [] 0),
          .extending (.reference "?" [] 0) (.reference "shop.Outer.Item" [] 0) []] 1 ∧
      inventory.normal = stock.normal ∧
      ({} : Source.Dialect).typeText stock = ({} : Source.Dialect).typeText inventory := by
  have hstock : stock.isReadable = true := by decide +kernel
  have hinventory : inventory.isReadable = true := by decide +kernel
  have hnormal : stock.normal = .reference "java.util.Map"
      [.exactly (.reference "K" [] 0),
        .extending (.reference "?" [] 0) (.reference "shop.Outer.Item" [] 0) []] 1 := rfl
  have hsame : inventory.normal = stock.normal := rfl
  have htext : ({} : Source.Dialect).typeText stock =
      "java.util.Map<K, ? extends shop.Outer.Item>[]" := by
    apply String.toList_inj.mp
    rw [Source.Dialect.toList_typeText, hnormal]
    decide +kernel
  exact ⟨hstock, hinventory, htext, hnormal, hsame,
    (TypeRef.typeText_eq_iff hstock hinventory).mpr hsame.symm⟩

end JavaStubs
