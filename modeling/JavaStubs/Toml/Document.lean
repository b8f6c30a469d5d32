import JavaStubs.Toml.Reading

/-!
# TOML documents

A document is a sequence of statements, each on a line of its own: assignments and headers. The
assignments after a header fill its table, those before the first header the document itself.
-/
namespace JavaStubs.Toml

inductive Statement where
  | assignment (assignment : Assignment)
  | header (header : Header)

/-- A header; a bracket stands at the cursor. -/
def header? (here : Cursor) : Option (Header × Cursor) := do
  let inside ← after? '[' here
  let (oneOfSeveral, inside) :=
    match after? '[' inside with
    | some inside => (true, inside)
    | none => (false, inside)
  let (path, after) ← keyPath? (skipBlanks inside)
  let after ← after? ']' (skipBlanks after)
  let after ← if oneOfSeveral then after? ']' after else some after
  return (⟨path, oneOfSeveral, .between here after⟩, after)

/-- A statement. -/
def statement? (here : Cursor) : Option (Statement × Cursor) :=
  match here.rest with
  | '[' :: _ => do
    let (header, after) ← header? here
    return (.header header, after)
  | _ => do
    let (assignment, after) ← assignment? (value? nestingLimit) here
    return (.assignment assignment, after)

/-- Whether nothing but blanks and a comment stand before the end of the line. -/
def lineEnds (here : Cursor) : Bool :=
  match (skipBlanks here).rest with
  | [] => true
  | '#' :: _ => true
  | rest => (newline? rest).isSome

/-- The statements from a place on. The fuel is at least the number of characters left. -/
def statements? : Nat → Cursor → Option (List Statement)
  | 0, here => if here.rest.isEmpty then some [] else none
  | fuel + 1, here => do
    let here ← gap? here
    if here.rest.isEmpty then return []
    let (statement, after) ← statement? here
    if !lineEnds after then none
    return statement :: (← statements? fuel after)

/-- The first assignments, and the statements from the first header on. -/
def leadingAssignments : List Statement → List Assignment × List Statement
  | .assignment assignment :: rest =>
    let (assignments, rest) := leadingAssignments rest
    (assignment :: assignments, rest)
  | statements => ([], statements)

theorem length_leadingAssignments_le (statements : List Statement) :
    (leadingAssignments statements).2.length ≤ statements.length := by
  fun_induction leadingAssignments statements with
  | case1 assignment rest assignments others h ih => simp_all; omega
  | case2 => exact Nat.le_refl _

/-- The members of a document with the tables of headers added. -/
def addSections (members : List Member) : List Statement → Option (List Member)
  | .header header :: rest => do
    let members ← Members.place members header (leadingAssignments rest).1
    addSections members (leadingAssignments rest).2
  | [] => some members
  | .assignment _ :: _ => none
termination_by statements => statements.length
decreasing_by
  have := length_leadingAssignments_le rest
  simp
  omega

/-- The members that statements make. -/
def ofStatements? (statements : List Statement) : Option (List Member) := do
  let (assignments, rest) := leadingAssignments statements
  addSections (← Members.assignAll [] assignments) rest

/-- The place after a byte order mark, if the text begins with one. -/
def afterMark (here : Cursor) : Cursor :=
  match here.rest with
  | '\ufeff' :: _ => here.advance 1
  | _ => here

/-- The members of the document that a text writes. -/
def read? (text : String) : Option (List Member) := do
  let statements ← statements? (text.length + 1) (afterMark (Cursor.start text))
  ofStatements? statements

end JavaStubs.Toml
