import JavaStubs.Text.Location

/-!
# Places in a text

A cursor is a place in a text: what remains, and how many bytes were read before it. Moving on keeps
the two together, as `pos_add_byteLength_advance` says.
-/
namespace JavaStubs

/-- A place in a text. -/
structure Cursor where
  pos : Nat
  rest : List Char
  deriving DecidableEq, Repr

namespace Cursor

/-- The beginning of a text. -/
def start (text : String) : Cursor := ⟨0, text.toList⟩

/-- The place after `count` characters. -/
def advance (here : Cursor) (count : Nat) : Cursor :=
  ⟨here.pos + Text.byteLength (here.rest.take count), here.rest.drop count⟩

@[simp] theorem rest_advance (here : Cursor) (count : Nat) :
    (here.advance count).rest = here.rest.drop count := rfl

/-- The bytes read and those that remain are those of the whole text. -/
theorem pos_add_byteLength_advance (here : Cursor) (count : Nat) :
    (here.advance count).pos + Text.byteLength (here.advance count).rest =
      here.pos + Text.byteLength here.rest := by
  simp only [advance, Nat.add_assoc, ← Text.byteLength_append, List.take_append_drop]

/-- The characters at the cursor that belong to a class, and the place after them. -/
def span (here : Cursor) (belongs : Char → Bool) : List Char × Cursor :=
  let run := here.rest.takeWhile belongs
  (run, here.advance run.length)

end Cursor

end JavaStubs
