import JavaStubs.Model.Index

/-!
# Looking up source classes

Recording a tree of source classes puts each of its declarations under its name, the owner before
its nested classes. So the last declaration of a name is what the index has, and where names are
distinct every declaration is found again. An external class takes no name from a source class.
-/
namespace JavaStubs

mutual

/-- A class and all that is nested in it: every class comes right before its nested classes. -/
def ClassDecl.declarations (decl : ClassDecl) : List ClassDecl :=
  match decl with
  | { inner, .. } => decl :: ClassDecl.listDeclarations inner

/-- Classes and all that is nested in them. -/
def ClassDecl.listDeclarations : List ClassDecl → List ClassDecl
  | [] => []
  | decl :: rest => decl.declarations ++ ClassDecl.listDeclarations rest

end

/-- The source classes of a model, nested ones included. -/
def DeclarationModel.declarations (model : DeclarationModel) : List ClassDecl :=
  ClassDecl.listDeclarations model.topLevel

namespace ClassIndex

/-- Records a source class without its nested classes. -/
def putSource (index : ClassIndex) (decl : ClassDecl) : ClassIndex :=
  index.put decl.name ⟨.source, decl.constructors⟩

mutual

/-- Recording a tree records its declarations one after the other: induction over the tree, along
the order in which nested classes follow their owner. -/
theorem recordSource_eq_foldl (index : ClassIndex) :
    (decl : ClassDecl) → index.recordSource decl = decl.declarations.foldl putSource index
  | { inner, .. } => by
    rw [recordSource, ClassDecl.declarations, List.foldl_cons]
    exact recordSources_eq_foldl _ inner

theorem recordSources_eq_foldl (index : ClassIndex) : (decls : List ClassDecl) →
    index.recordSources decls = (ClassDecl.listDeclarations decls).foldl putSource index
  | [] => by rw [recordSources, ClassDecl.listDeclarations, List.foldl_nil]
  | decl :: rest => by
    rw [recordSources, ClassDecl.listDeclarations, List.foldl_append,
      ← recordSource_eq_foldl index decl]
    exact recordSources_eq_foldl _ rest

end

/-- Of the recorded declarations, the last one of a name counts, else what was known before. -/
theorem get?_foldl_putSource (index : ClassIndex) (decls : List ClassDecl) (name : String) :
    (decls.foldl putSource index).get? name =
      ((decls.reverse.find? fun d => d.name == name).map fun d =>
        ⟨.source, d.constructors⟩).or (index.get? name) := by
  induction decls generalizing index with
  | nil => rfl
  | cons decl rest ih =>
    rw [List.foldl_cons, ih, List.reverse_cons, List.find?_append, Option.map_or, Option.or_assoc]
    congr 1
    rw [putSource, get?_put]
    by_cases h : decl.name = name
    · simp [h]
    · simp [h, Ne.symm h]

theorem find?_reverse_of_nodup {decls : List ClassDecl} (hnames : (decls.map ClassDecl.name).Nodup)
    {decl : ClassDecl} (h : decl ∈ decls) :
    (decls.reverse.find? fun d => d.name == decl.name) = some decl := by
  induction decls with
  | nil => simp at h
  | cons first rest ih =>
    rw [List.map_cons, List.nodup_cons] at hnames
    rw [List.reverse_cons, List.find?_append]
    rcases List.mem_cons.mp h with rfl | h
    · have hnone : (rest.reverse.find? fun d => d.name == decl.name) = none := by
        rw [List.find?_eq_none]
        intro other hother heq
        have hname : other.name = decl.name := by simpa using heq
        exact hnames.1 (hname ▸ List.mem_map_of_mem (List.mem_reverse.mp hother))
      simp [hnone]
    · rw [ih hnames.2 h]
      rfl

/-- What is known already stays when external classes are recorded. -/
theorem get?_foldl_recordExternal {index : ClassIndex} {name : String} {known : KnownClass}
    (h : index.get? name = some known) (externals : List ExternalClass) :
    (externals.foldl recordExternal index).get? name = some known := by
  induction externals generalizing index with
  | nil => exact h
  | cons external rest ih =>
    rw [List.foldl_cons]
    apply ih
    unfold recordExternal
    split
    · exact h
    · next hfree =>
      have hne : name ≠ external.name := by
        rintro rfl
        simp [h] at hfree
      rw [get?_put, if_neg hne]
      exact h

/-- Where names are distinct, the index of a model has every declaration under its name. -/
theorem get?_ofModel {model : DeclarationModel}
    (hnames : (model.declarations.map ClassDecl.name).Nodup) {decl : ClassDecl}
    (h : decl ∈ model.declarations) :
    (ofModel model).get? decl.name = some ⟨.source, decl.constructors⟩ := by
  have hsource : (recordSources empty model.topLevel).get? decl.name =
      some ⟨.source, decl.constructors⟩ := by
    have hfind := find?_reverse_of_nodup hnames h
    rw [DeclarationModel.declarations] at hfind
    rw [recordSources_eq_foldl, get?_foldl_putSource, hfind]
    rfl
  exact get?_foldl_recordExternal hsource model.external

end ClassIndex

end JavaStubs
