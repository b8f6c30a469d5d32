import JavaStubs.Input.ModelText
import JavaStubs.Proofs.ModelRecovery

/-!
# Written models

The text that a model is written as is read as the model again, and so is the text in which members
that hold their default are left out. Only the nesting of lists and objects stands against it: a text
that is nested deeper than the limit is not read at all.
-/
namespace JavaStubs

open Json (Trims AllTrim MembersTrim Decoded Tree)

/-- The text of a trimming is read like its tree; nothing is left behind it. -/
theorem Recovers.run_eq_ok {α : Type} {kind : Kind} {json trimmed : Json}
    {read : Nat → Tree → Decoded α} {x : α} (h : Recovers kind json read x)
    (htrim : Trims kind json trimmed) (depth : Nat) (y : α) :
    Json.Decode.run (read depth) trimmed.render = .ok y ↔ trimmed.nesting ≤ depth ∧ y = x := by
  obtain ⟨tree, after, htext, htree⟩ := Tree.read_render (htrim.isExact h.exact)
  have hrun : Json.Decode.run (read depth) trimmed.render = read depth tree := by
    rw [Json.Decode.run, htext]
    cases hread : read depth tree with
    | error problem => simp [hread, bind, Except.bind]
    | ok value => simp [hread, bind, Except.bind, Cursor.skipSpace]
  rw [hrun, h.reads trimmed htrim tree htree depth y]

namespace Input

theorem parseModel_eq_ok {text : String} {model : DeclarationModel} :
    parseModel text = .ok model ↔
      Json.Decode.run (Decode.declarationModel Json.depthLimit) text = .ok model := by
  rw [parseModel]
  cases Json.Decode.run (Decode.declarationModel Json.depthLimit) text <;> simp [Except.mapError]

theorem parseModel_render_eq_ok {model : DeclarationModel} (h : model.hasFraction = false)
    {json : Json} (htrim : Trims .model model.toJson json) (other : DeclarationModel) :
    parseModel json.render = .ok other ↔ json.nesting ≤ Json.depthLimit ∧ other = model := by
  rw [parseModel_eq_ok, (DeclarationModel.recovers h).run_eq_ok htrim]

/-- Of the text of a model without constants of floating point types the model is read, and so it is
of every text that leaves out members with their default, as long as the model's JSON form is not
nested too deeply. A text of either sort that is nested too deeply is refused, all others are read as
the model. -/
theorem parseModel_trimmed {model : DeclarationModel} (h : model.hasFraction = false)
    {json : Json} (htrim : Trims .model model.toJson json) :
    (model.toJson.nesting ≤ Json.depthLimit → parseModel json.render = .ok model) ∧
      ∀ other, parseModel json.render = .ok other ↔
        json.nesting ≤ Json.depthLimit ∧ other = model := by
  refine ⟨fun hdepth => ?_, parseModel_render_eq_ok h htrim⟩
  exact (parseModel_render_eq_ok h htrim model).mpr ⟨htrim.nesting_le.trans hdepth, rfl⟩

/-- A model of one class with one property. -/
def shelf : DeclarationModel :=
  { units := [{ classes := [
      { name := "geo.Shelf", properties := [.ofName "label" .string], nesting := .member }] }] }

/-- The form of `shelf` with some members left out that hold their default: some of the class, and of
its property those that have any. -/
def shortShelf : Json :=
  .record
    [("units", .list
      [.record
        [("classes", .list
          [.record
            [("name", .text "geo.Shelf"), ("package", .null), ("nesting", .text "member"),
             ("properties", .list
               [.record
                 [("name", .text "label"),
                  ("ty", .variant "class" (.record [("name", .text "java.lang.String")]))]]),
             ("inner", .list [])]])]])]

theorem trims_shortShelf : Trims .model shelf.toJson shortShelf := by
  have htype : Trims .typeRef TypeRef.string.toJson
      (.variant "class" (.record [("name", .text "java.lang.String")])) :=
    .record <| .keep (.record <| .keep (.same ..) <| .drop rfl <| .drop rfl <| .nil _) (.nil _)
  have hproperty : Trims .propertyDecl (PropertyDecl.ofName "label" .string).toJson
      (.record [("name", .text "label"), ("ty", .variant "class"
        (.record [("name", .text "java.lang.String")]))]) :=
    .record <| .keep (.same ..) <| .keep htype <| .drop rfl <| .nil _
  refine .record <| .keep (.list (.cons (.record <| .drop rfl <| .keep (.list (.cons ?_ (.nil _)))
    (.nil _)) (.nil _))) <| .drop rfl <| .nil _
  exact .record <| .keep (.same ..) <| .keep (.same ..) <| .drop rfl <| .drop rfl <|
    .keep (.same ..) <| .drop rfl <| .drop rfl <| .drop rfl <| .drop rfl <|
    .keep (.list (.cons hproperty (.nil _))) <| .drop rfl <| .drop rfl <| .keep (.same ..) <| .nil _

theorem parseModel_shortShelf : shelf.hasFraction = false ∧
    Trims .model shelf.toJson shortShelf ∧ shelf.toJson.nesting ≤ Json.depthLimit ∧
      parseModel shortShelf.render = .ok shelf :=
  have hfraction : shelf.hasFraction = false := rfl
  have hdepth : shelf.toJson.nesting ≤ Json.depthLimit := by decide +kernel
  ⟨hfraction, trims_shortShelf, hdepth, (parseModel_trimmed hfraction trims_shortShelf).1 hdepth⟩

/-- The arrays of that many dimensions. -/
def arrayType (component : TypeRef) : Nat → TypeRef
  | 0 => component
  | n + 1 => .array (arrayType component n)

theorem nesting_arrayType (component : TypeRef) (n : Nat) :
    (arrayType component n).toJson.nesting = component.toJson.nesting + n := by
  induction n with
  | zero => rfl
  | succ n ih =>
    rw [arrayType, TypeRef.toJson, Json.nesting_variant, ih]
    rfl

/-- A model of one class, whose field is an array of that many dimensions. -/
def gridModel (n : Nat) : DeclarationModel :=
  { units := [{ classes := [
      { name := "geo.Grid", fields := [.ofName "cells" (arrayType .int n)] }] }] }

theorem nesting_gridModel (n : Nat) : (gridModel n).toJson.nesting = n + 8 := by
  have hint : TypeRef.int.toJson.nesting = 1 := rfl
  simp only [gridModel, DeclarationModel.toJson, SourceUnit.toJson, ImportSet.toJson, Json.texts,
    ClassDecl.toJson, ClassDecl.listToJson, ClassKind.toJson, Nesting.toJson, Modifiers.toJson,
    FieldDecl.ofName, FieldDecl.toJson, Json.ofOption, List.map_cons, List.map_nil, Option.map_none,
    Json.nesting, Json.nestingAll, Json.nestingMembers, nesting_arrayType, hint]
  omega

/-- An array of 120 dimensions is nested too deeply. -/
theorem parseModel_gridModel : (gridModel 120).hasFraction = false ∧
    ∀ other, parseModel (gridModel 120).toJson.render ≠ .ok other := by
  refine ⟨rfl, fun other hread => ?_⟩
  have hdepth := ((parseModel_render_eq_ok rfl (.same ..) other).mp hread).1
  rw [nesting_gridModel] at hdepth
  exact absurd hdepth (by decide)

end Input

end JavaStubs
