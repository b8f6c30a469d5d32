import JavaStubs.Model.Declaration

/-!
# Overloads for default arguments

A call may leave out trailing defaults, so a parameter list with defaults stands for several lists.
The first overload leaves out the right-most parameter with a default, the next one the two
right-most, and so on until only the parameters without a default are left. Expanding compiles the
defaults in: afterwards neither the overloads nor the list itself have any.
-/
namespace JavaStubs.Normalization

/-- The parameters without a default and, of the others, the first `count`. -/
def keepDefaulted : Nat → List Parameter → List Parameter
  | _, [] => []
  | count, parameter :: rest =>
    if parameter.hasDefault then
      match count with
      | 0 => keepDefaulted 0 rest
      | count + 1 => parameter :: keepDefaulted count rest
    else parameter :: keepDefaulted count rest

/-- The number of parameters with a default. -/
def defaultedCount (parameters : List Parameter) : Nat :=
  parameters.countP Parameter.hasDefault

/-- The overloads, from the longest to the shortest. -/
def overloads (parameters : List Parameter) : List (List Parameter) :=
  (List.range (defaultedCount parameters)).reverse.map fun count =>
    (keepDefaulted count parameters).map Parameter.withoutDefault

/-- The parameters with no defaults left. -/
def clearDefaults (parameters : List Parameter) : List Parameter :=
  parameters.map Parameter.withoutDefault

/-- What expanding a parameter list gives: its overloads, and what becomes of the list. -/
structure Expansion where
  overloads : List (List Parameter)
  parameters : List Parameter

/-- The overloads of a list, whose defaults are cleared. -/
def expandDefaults (parameters : List Parameter) : Expansion :=
  ⟨Normalization.overloads parameters, clearDefaults parameters⟩

/-- The parameters with the defaults that others have in the same places. -/
def restoreDefaults : List Parameter → List Parameter → List Parameter
  | saved :: others, parameter :: rest =>
    (match saved.default with
      | some value => parameter.withDefault value
      | none => parameter) :: restoreDefaults others rest
  | _, parameters => parameters

/-- Restoring undoes clearing. -/
theorem restoreDefaults_clearDefaults (parameters : List Parameter) :
    restoreDefaults parameters (clearDefaults parameters) = parameters := by
  induction parameters with
  | nil => rfl
  | cons parameter rest ih =>
    obtain ⟨name, type, value⟩ := parameter
    simp only [clearDefaults, List.map_cons, restoreDefaults] at ih ⊢
    rw [ih]
    cases value <;> rfl

end JavaStubs.Normalization
