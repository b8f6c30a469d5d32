import JavaStubs.Proofs.IndexLookup
import Mathlib.Data.Finset.Card
import Mathlib.Data.List.Induction

/-!
# What an index knows after any recordings

Source classes and external classes may be recorded in any order, with any names and any nesting.
Under a name the index then knows the last source class of that name, with nested classes counted
right after their owner; if there is none, the first external class; else nothing. So it is no
matter how the two kinds of recordings are mixed, and no external class hides a source class.
-/
namespace JavaStubs

/-- A class that is recorded in an index. -/
inductive Recording where
  | source (decl : ClassDecl)
  | external (decl : ExternalClass)

namespace Recording

/-- The source classes that it brings in: a class, and after it what is nested in it. -/
def sources : Recording → List ClassDecl
  | source decl => decl.declarations
  | external _ => []

/-- The external class that it brings in, if it is one. -/
def externals : Recording → List ExternalClass
  | source _ => []
  | external decl => [decl]

/-- The names under which it records something. -/
def names (recording : Recording) : List String :=
  recording.sources.map ClassDecl.name ++ recording.externals.map ExternalClass.name

end Recording

/-- The recordings that the index of a model is made of. -/
def DeclarationModel.recordings (model : DeclarationModel) : List Recording :=
  model.topLevel.map .source ++ model.external.map .external

namespace ClassIndex

/-- Records one class. -/
def record (index : ClassIndex) : Recording → ClassIndex
  | .source decl => index.recordSource decl
  | .external decl => index.recordExternal decl

/-- The index after recordings, one after the other. -/
def ofRecordings (recordings : List Recording) : ClassIndex :=
  recordings.foldl record empty

/-- What is known of the last source class of a name. -/
def lastSource? (name : String) (decls : List ClassDecl) : Option KnownClass :=
  (decls.reverse.find? fun d => d.name == name).map fun d => ⟨.source, d.constructors⟩

/-- What is known of the first external class of a name. -/
def firstExternal? (name : String) (decls : List ExternalClass) : Option KnownClass :=
  (decls.find? fun d => d.name == name).map fun d => ⟨.external, d.constructors⟩

theorem lastSource?_append (name : String) (decls later : List ClassDecl) :
    lastSource? name (decls ++ later) = (lastSource? name later).or (lastSource? name decls) := by
  rw [lastSource?, List.reverse_append, List.find?_append, Option.map_or]
  rfl

theorem firstExternal?_append (name : String) (decls later : List ExternalClass) :
    firstExternal? name (decls ++ later) =
      (firstExternal? name decls).or (firstExternal? name later) := by
  rw [firstExternal?, List.find?_append, Option.map_or]
  rfl

theorem get?_recordExternal (index : ClassIndex) (decl : ExternalClass) (name : String) :
    (index.recordExternal decl).get? name = (index.get? name).or (firstExternal? name [decl]) := by
  unfold recordExternal
  by_cases hname : decl.name = name
  · subst hname
    cases hknown : index.get? decl.name with
    | some known => simp [hknown]
    | none => simp [get?_put, firstExternal?]
  · have hother : firstExternal? name [decl] = none := by simp [firstExternal?, hname]
    rw [hother, Option.or_none]
    split
    · rfl
    · rw [get?_put, if_neg (Ne.symm hname)]

/-- One recording puts its source classes before everything that was known, and its external class
after it. -/
theorem get?_record (index : ClassIndex) (recording : Recording) (name : String) :
    (index.record recording).get? name =
      (lastSource? name recording.sources).or
        ((index.get? name).or (firstExternal? name recording.externals)) := by
  cases recording with
  | source decl =>
    rw [record, recordSource_eq_foldl, get?_foldl_putSource]
    exact congrArg _ (Option.or_none).symm
  | external decl => exact get?_recordExternal index decl name

/-- Induction from the end, since a recording is compared with all those before it. -/
theorem get?_ofRecordings (recordings : List Recording) (name : String) :
    (ofRecordings recordings).get? name =
      (lastSource? name (recordings.flatMap Recording.sources)).or
        (firstExternal? name (recordings.flatMap Recording.externals)) := by
  induction recordings using List.reverseRecOn with
  | nil => rfl
  | append_singleton earlier recording ih =>
    rw [ofRecordings, List.foldl_concat, ← ofRecordings, get?_record, ih, List.flatMap_append,
      List.flatMap_append, List.flatMap_singleton, List.flatMap_singleton, lastSource?_append,
      firstExternal?_append]
    simp only [Option.or_assoc]

theorem isSome_lastSource? {name : String} {decls : List ClassDecl} :
    (lastSource? name decls).isSome = true ↔ name ∈ decls.map ClassDecl.name := by
  simp [lastSource?, List.find?_isSome]

theorem isSome_firstExternal? {name : String} {decls : List ExternalClass} :
    (firstExternal? name decls).isSome = true ↔ name ∈ decls.map ExternalClass.name := by
  simp [firstExternal?, List.find?_isSome]

theorem isSome_get?_ofRecordings {recordings : List Recording} {name : String} :
    ((ofRecordings recordings).get? name).isSome = true ↔
      name ∈ recordings.flatMap Recording.names := by
  rw [get?_ofRecordings, Option.isSome_or, Bool.or_eq_true, isSome_lastSource?,
    isSome_firstExternal?]
  simp only [Recording.names, List.mem_map, List.mem_flatMap, List.mem_append]
  constructor
  · rintro (⟨decl, ⟨recording, hr, hd⟩, rfl⟩ | ⟨decl, ⟨recording, hr, hd⟩, rfl⟩)
    · exact ⟨recording, hr, .inl ⟨decl, hd, rfl⟩⟩
    · exact ⟨recording, hr, .inr ⟨decl, hd, rfl⟩⟩
  · rintro ⟨recording, hr, ⟨decl, hd, rfl⟩ | ⟨decl, hd, rfl⟩⟩
    · exact .inl ⟨decl, ⟨recording, hr, hd⟩, rfl⟩
    · exact .inr ⟨decl, ⟨recording, hr, hd⟩, rfl⟩

/-- The keys of the table are the recorded names, each of them once. -/
theorem size_ofRecordings (recordings : List Recording) :
    (ofRecordings recordings).size = (recordings.flatMap Recording.names).toFinset.card := by
  have hkeys : (ofRecordings recordings).known.keys.toFinset =
      (recordings.flatMap Recording.names).toFinset := by
    ext name
    rw [List.mem_toFinset, List.mem_toFinset, Table.mem_keys_iff]
    exact isSome_get?_ofRecordings
  have hcard := List.toFinset_card_of_nodup (ofRecordings recordings).known.distinct
  rw [← hkeys]
  exact (hcard.trans (List.length_map _)).symm

theorem ofModel_eq_ofRecordings (model : DeclarationModel) :
    ofModel model = ofRecordings model.recordings := by
  have hsources : ∀ (decls : List ClassDecl) (index : ClassIndex),
      index.recordSources decls = (decls.map Recording.source).foldl record index := by
    intro decls
    induction decls with
    | nil => exact fun index => by rw [recordSources, List.map_nil, List.foldl_nil]
    | cons decl rest ih => exact fun index => by rw [recordSources, ih, List.map_cons]; rfl
  rw [ofRecordings, DeclarationModel.recordings, List.foldl_append, ← hsources, List.foldl_map]
  rfl

theorem sources_recordings (model : DeclarationModel) :
    model.recordings.flatMap Recording.sources = model.declarations := by
  have hdeclarations : ∀ decls : List ClassDecl,
      ClassDecl.listDeclarations decls = decls.flatMap ClassDecl.declarations := by
    intro decls
    induction decls with
    | nil => rw [ClassDecl.listDeclarations, List.flatMap_nil]
    | cons decl rest ih => rw [ClassDecl.listDeclarations, ih, List.flatMap_cons]
  rw [DeclarationModel.recordings, List.flatMap_append, List.flatMap_map, List.flatMap_map,
    DeclarationModel.declarations, hdeclarations]
  simp [Recording.sources]

/-- Whatever is recorded and in whatever order, the index knows the last source class of a name,
else the first external one, and counts every name once. The index of a model is made of such
recordings, so it has a source class under the name of each source class. -/
theorem ofRecordings_knows (recordings : List Recording) :
    (∀ name, (ofRecordings recordings).get? name =
      (lastSource? name (recordings.flatMap Recording.sources)).or
        (firstExternal? name (recordings.flatMap Recording.externals))) ∧
      (ofRecordings recordings).size = (recordings.flatMap Recording.names).toFinset.card ∧
      ∀ model, ofModel model = ofRecordings model.recordings ∧
        ∀ decl ∈ model.declarations,
          ((ofModel model).get? decl.name).map KnownClass.origin = some .source := by
  refine ⟨get?_ofRecordings recordings, size_ofRecordings recordings, fun model =>
    ⟨ofModel_eq_ofRecordings model, fun decl hdecl => ?_⟩⟩
  obtain ⟨known, hknown⟩ := Option.isSome_iff_exists.mp
    (isSome_lastSource?.mpr (List.mem_map_of_mem hdecl))
  rw [ofModel_eq_ofRecordings, get?_ofRecordings, sources_recordings, hknown]
  obtain ⟨last, -, rfl⟩ := Option.map_eq_some_iff.mp hknown
  rfl

/-- A nested class without public constructors. -/
def valve : ClassDecl := { name := "geo.Engine$Valve", constructors := [.ofModifiers ∅] }

/-- Its owner, and an external class of the nested one's name. -/
def engine : DeclarationModel :=
  { units := [{ classes := [{ name := "geo.Engine", inner := [valve] }] }]
    external := [{ name := "geo.Engine$Valve" }, { name := "geo.Pump" }] }

theorem valve_not_hidden :
    valve ∈ engine.declarations ∧
      ((ofModel engine).get? valve.name).map KnownClass.origin = some .source ∧
      (ofModel engine).size = 3 := by
  have hdeclared : valve ∈ engine.declarations := List.mem_cons_of_mem _ List.mem_cons_self
  obtain ⟨-, -, hmodels⟩ := ofRecordings_knows engine.recordings
  exact ⟨hdeclared, (hmodels engine).2 valve hdeclared, rfl⟩

end ClassIndex

end JavaStubs
