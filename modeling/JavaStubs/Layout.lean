/-!
# Layout of generated text

A fragment is a piece of text that does not know yet how far it will be indented: a line, an empty
line, or a block whose body stands one level deeper. A `Layout` takes fragments, lines and raw
text one after the other at its present depth; it only ever appends.
-/
namespace JavaStubs

/-- What stands before a line, once for every level. -/
inductive Indent where
  | spaces (width : Nat)
  | tab
  deriving DecidableEq, Repr

namespace Indent

/-- Four spaces. -/
def standard : Indent := .spaces 4

/-- The indentation of so many levels. -/
def text : Indent → Nat → String
  | .spaces width, depth => String.ofList (List.replicate (depth * width) ' ')
  | .tab, depth => String.ofList (List.replicate depth '\t')

@[simp] theorem text_zero (indent : Indent) : indent.text 0 = "" := by
  cases indent <;> simp [text]

end Indent

/-- A piece of generated text, whatever its indentation. -/
inductive Fragment where
  | line (text : String)
  | blank
  /-- The header, the body one level deeper, and a line with a closing brace. -/
  | block (header : String) (body : List Fragment)

/-- Generated text and the depth at which it goes on. -/
structure Layout where
  depth : Nat := 0
  indent : Indent := .standard
  text : String := ""

namespace Layout

/-- Nothing yet, with that indentation. -/
def start (indent : Indent) : Layout := { indent }

/-- Nothing yet, with the usual indentation. -/
def empty : Layout := start .standard

/-- Appends a line. -/
def addLine (out : Layout) (line : String) : Layout :=
  { out with text := out.text ++ out.indent.text out.depth ++ line ++ "\n" }

/-- Appends an empty line. -/
def addBlank (out : Layout) : Layout :=
  { out with text := out.text ++ "\n" }

/-- Appends text as it is. -/
def addText (out : Layout) (text : String) : Layout :=
  { out with text := out.text ++ text }

/-- Goes one level deeper. -/
def deeper (out : Layout) : Layout :=
  { out with depth := out.depth + 1 }

/-- Goes one level back, at the outermost level not at all. -/
def shallower (out : Layout) : Layout :=
  { out with depth := out.depth - 1 }

mutual

/-- Appends a fragment. -/
def add (out : Layout) : Fragment → Layout
  | .line text => out.addLine text
  | .blank => out.addBlank
  | .block header body => (((out.addLine header).deeper.addAll body).shallower).addLine "\x7d"

/-- Appends fragments one after the other. -/
def addAll (out : Layout) : List Fragment → Layout
  | [] => out
  | fragment :: rest => (out.add fragment).addAll rest

end

@[simp] theorem depth_addLine (out : Layout) (line : String) :
    (out.addLine line).depth = out.depth := rfl

@[simp] theorem depth_addBlank (out : Layout) : out.addBlank.depth = out.depth := rfl

@[simp] theorem depth_addText (out : Layout) (text : String) :
    (out.addText text).depth = out.depth := rfl

@[simp] theorem depth_deeper (out : Layout) : out.deeper.depth = out.depth + 1 := rfl

@[simp] theorem depth_shallower (out : Layout) : out.shallower.depth = out.depth - 1 := rfl

@[simp] theorem addAll_nil (out : Layout) : out.addAll [] = out := by simp [addAll]

@[simp] theorem addAll_cons (out : Layout) (fragment : Fragment) (rest : List Fragment) :
    out.addAll (fragment :: rest) = (out.add fragment).addAll rest := by simp [addAll]

mutual

/-- A fragment leaves the depth as it is. -/
theorem depth_add (out : Layout) : (fragment : Fragment) → (out.add fragment).depth = out.depth
  | .line text => by simp [add]
  | .blank => by simp [add]
  | .block header body => by simp [add, depth_addAll]

theorem depth_addAll (out : Layout) :
    (fragments : List Fragment) → (out.addAll fragments).depth = out.depth
  | [] => by simp
  | fragment :: rest => by simp [depth_addAll, depth_add]

end

end Layout

end JavaStubs
