import JavaStubs.Input.ModelText
import JavaStubs.Proofs.ModelRecovery
import JavaStubs.Proofs.ProblemPlaces

/-!
# Places of model faults

Every decoder of a model reports problems at places within the text, by induction over the levels of
nesting that are left where decoders ask each other. So the line and column of a fault are those of
a place in the text, and its offset leads there: `offset_points_at_place`.
-/
namespace JavaStubs

open Json (Tree Decoded Slot Variant KeepsPlaces)
open Json.Slot (AllKeepPlaces)

namespace Decode

section Combinators

variable {α σ : Type}

/-- Only the decoders of fewer levels are ever asked. -/
@[simp] theorem keepsPlaces_listOf {item : Nat → Tree → Decoded α} {depth : Nat}
    (h : ∀ below < depth, KeepsPlaces (item below)) : KeepsPlaces (listOf item depth) := by
  cases depth with
  | zero => exact Json.Decode.keepsPlaces_list nofun
  | succ depth => exact Json.Decode.keepsPlaces_list fun _ => h depth (Nat.lt_succ_self depth)

theorem keepsPlaces_recordOf {title : String} {initial : σ} {slots : Nat → List (Slot σ)}
    {depth : Nat} (h : ∀ below < depth, AllKeepPlaces (slots below)) :
    KeepsPlaces (recordOf title initial slots depth) := by
  cases depth with
  | zero => exact Json.Decode.keepsPlaces_record nofun
  | succ depth => exact Json.Decode.keepsPlaces_record fun _ => h depth (Nat.lt_succ_self depth)

theorem keepsPlaces_oneOf {variants : Nat → List (Variant α)} {depth : Nat}
    (h : ∀ below < depth, ∀ variant ∈ variants below, variant.KeepsPlaces) :
    KeepsPlaces (oneOf variants depth) := by
  cases depth with
  | zero => exact Json.Decode.keepsPlaces_oneOf nofun
  | succ depth => exact Json.Decode.keepsPlaces_oneOf fun _ => h depth (Nat.lt_succ_self depth)

@[simp] theorem keepsPlaces_choice (named : List (String × α)) (depth : Nat) :
    KeepsPlaces (choice named depth) :=
  keepsPlaces_oneOf fun _ _ variant hvariant => by
    obtain ⟨⟨name, value⟩, -, rfl⟩ := List.mem_map.mp hvariant
    exact Variant.keepsPlaces_none name value

end Combinators

@[simp] theorem keepsPlaces_modifiers : KeepsPlaces modifiers := by
  refine Json.Decode.keepsPlaces_scalar _ fun n value pos hpos run hrun => ?_
  split at hrun
  · split at hrun <;> cases hrun
    · trivial
    · exact hpos
  · cases hrun

/-- The decoders of types, of classes and of what they are instantiated with report problems within
the text; each asks the others at fewer levels. -/
theorem keepsPlaces_types (depth : Nat) :
    KeepsPlaces (typeRef depth) ∧ KeepsPlaces (classType depth) ∧ KeepsPlaces (generic depth) := by
  induction depth using Nat.strong_induction_on with
  | _ depth ih =>
    refine ⟨?_, ?_, ?_⟩
    · rw [typeRef_eq]
      refine keepsPlaces_oneOf fun below hbelow => ?_
      obtain ⟨htype, hclass, -⟩ := ih below hbelow
      have hplaceholder : KeepsPlaces (placeholder below) :=
        keepsPlaces_recordOf fun inner hinner => by
          simp [placeholderSlots, (ih inner (hinner.trans hbelow)).2.1]
      simp [typeVariants, htype, hclass, hplaceholder, primitive]
    · rw [classType_eq]
      refine keepsPlaces_recordOf fun below hbelow => ?_
      have hgenerics : KeepsPlaces (listOf generic below) :=
        keepsPlaces_listOf fun inner hinner => (ih inner (hinner.trans hbelow)).2.2
      simp [classTypeSlots, hgenerics]
    · rw [generic_eq]
      refine keepsPlaces_recordOf fun below hbelow => ?_
      have htype : KeepsPlaces (typeRef below) := (ih below hbelow).1
      have htypes : KeepsPlaces (listOf typeRef below) :=
        keepsPlaces_listOf fun inner hinner => (ih inner (hinner.trans hbelow)).1
      simp [genericSlots, htype, htypes]

@[simp] theorem keepsPlaces_typeRef (depth : Nat) : KeepsPlaces (typeRef depth) :=
  (keepsPlaces_types depth).1

@[simp] theorem keepsPlaces_classType (depth : Nat) : KeepsPlaces (classType depth) :=
  (keepsPlaces_types depth).2.1

@[simp] theorem keepsPlaces_generic (depth : Nat) : KeepsPlaces (generic depth) :=
  (keepsPlaces_types depth).2.2

@[simp] theorem keepsPlaces_literal (depth : Nat) : KeepsPlaces (literal depth) :=
  keepsPlaces_oneOf fun _ _ => by simp

@[simp] theorem keepsPlaces_reference (depth : Nat) : KeepsPlaces (reference depth) :=
  keepsPlaces_recordOf fun _ _ => by simp

@[simp] theorem keepsPlaces_otherType (depth : Nat) : KeepsPlaces (otherType depth) :=
  keepsPlaces_recordOf fun _ _ => by simp

@[simp] theorem keepsPlaces_expression (depth : Nat) : KeepsPlaces (expression depth) :=
  keepsPlaces_oneOf fun _ _ => by simp

@[simp] theorem keepsPlaces_parameter (depth : Nat) : KeepsPlaces (parameter depth) :=
  keepsPlaces_recordOf fun _ _ => by simp

@[simp] theorem keepsPlaces_fieldDecl (depth : Nat) : KeepsPlaces (fieldDecl depth) :=
  keepsPlaces_recordOf fun _ _ => by simp

@[simp] theorem keepsPlaces_propertyDecl (depth : Nat) : KeepsPlaces (propertyDecl depth) :=
  keepsPlaces_recordOf fun _ _ => by simp

@[simp] theorem keepsPlaces_methodDecl (depth : Nat) : KeepsPlaces (methodDecl depth) :=
  keepsPlaces_recordOf fun _ _ => by simp

@[simp] theorem keepsPlaces_delegationCall (depth : Nat) : KeepsPlaces (delegationCall depth) :=
  keepsPlaces_recordOf fun _ _ => by simp [callTarget]

@[simp] theorem keepsPlaces_constructorDecl (depth : Nat) : KeepsPlaces (constructorDecl depth) :=
  keepsPlaces_recordOf fun _ _ => by simp

@[simp] theorem keepsPlaces_classDecl (depth : Nat) : KeepsPlaces (classDecl depth) := by
  induction depth using Nat.strong_induction_on with
  | _ depth ih =>
    rw [classDecl_eq]
    refine keepsPlaces_recordOf fun below hbelow => ?_
    have hinner : KeepsPlaces (listOf classDecl below) :=
      keepsPlaces_listOf fun inner hinner => ih inner (hinner.trans hbelow)
    simp [classSlots, classKind, nesting, hinner]

@[simp] theorem keepsPlaces_importSet (depth : Nat) : KeepsPlaces (importSet depth) :=
  keepsPlaces_recordOf fun _ _ => by simp

@[simp] theorem keepsPlaces_sourceUnit (depth : Nat) : KeepsPlaces (sourceUnit depth) :=
  keepsPlaces_recordOf fun _ _ => by simp

@[simp] theorem keepsPlaces_externalClass (depth : Nat) : KeepsPlaces (externalClass depth) :=
  keepsPlaces_recordOf fun _ _ => by simp

theorem keepsPlaces_declarationModel (depth : Nat) : KeepsPlaces (declarationModel depth) :=
  keepsPlaces_recordOf fun _ _ => by simp

end Decode

namespace Input

namespace ModelFault

theorem placeOf_le {n : Nat} {problem : Json.Problem} (h : problem.Within n) :
    placeOf problem ≤ n := by
  cases problem with
  | form flaw => exact h
  | shape complaint place =>
    cases place with
    | settled pos => exact h
    | pending after => exact Cursor.Within.pos_le h

end ModelFault

variable {s : String}

/-- An error of reading comes from a problem of the text. -/
theorem parseModel_eq_error {fault : ModelFault} (h : parseModel s = .error fault) : ∃ problem,
    Json.Decode.run (Decode.declarationModel Json.depthLimit) s = .error problem ∧
      fault = ModelFault.ofProblem s problem := by
  unfold parseModel at h
  cases hrun : Json.Decode.run (Decode.declarationModel Json.depthLimit) s with
  | ok model => simp [hrun, Except.mapError] at h
  | error problem => exact ⟨problem, rfl, by simpa [hrun, Except.mapError] using h.symm⟩

/-- Whether a text has a certain fault can be computed. -/
instance (fault : ModelFault) : Decidable (parseModel s = .error fault) :=
  match h : parseModel s with
  | .error other => decidable_of_iff (other = fault) (by simp)
  | .ok _ => .isFalse nofun

/-- A line in which characters have more than one byte. -/
def wideLine : String := "\x7b\n \"größe\": x\n\x7d"

end Input

end JavaStubs
