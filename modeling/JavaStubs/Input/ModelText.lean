import JavaStubs.Model.Decode
import JavaStubs.Text.Location

/-!
# The text of a model

Reads a declaration model from JSON text. A failure says of which sort it is, in which line, at
which offset, and why.
-/
namespace JavaStubs.Input

/-- The sorts of failure. -/
inductive Category where
  /-- The text is well formed but has the wrong shape. -/
  | data
  | syntactic
  /-- The text ends too early. -/
  | ending
  deriving DecidableEq, Repr

/-- Why a text is no model. -/
structure ModelFault where
  category : Category
  /-- The line, counted from one. -/
  line : Nat
  /-- The place, in bytes. -/
  offset : Nat
  cause : String
  deriving DecidableEq, Repr

namespace ModelFault

/-- The sort of a problem. -/
def categoryOf : Json.Problem → Category
  | .form flaw => if flaw.fault.isEnd then .ending else .syntactic
  | .shape .. => .data

/-- The place of a problem. -/
def placeOf : Json.Problem → Nat
  | .form flaw => flaw.pos
  | .shape _ (.settled pos) => pos
  | .shape _ (.pending after) => after.pos

/-- The wording of a problem. -/
def causeOf : Json.Problem → String
  | .form flaw => flaw.fault.message
  | .shape complaint _ => complaint.message Json.spelling

/-- A problem of a text, with the place that its line and column lead to. -/
def ofProblem (text : String) (problem : Json.Problem) : ModelFault :=
  let (line, column) := Text.lineAndColumn text (placeOf problem)
  { category := categoryOf problem
    line
    offset := Text.offsetOf text line column
    cause := causeOf problem }

end ModelFault

/-- Reads a model. -/
def parseModel (text : String) : Except ModelFault DeclarationModel :=
  (Json.Decode.run (Decode.declarationModel Json.depthLimit) text).mapError
    (ModelFault.ofProblem text)

end JavaStubs.Input
