import JavaStubs.Text.Blank

/-!
# Balanced braces

A cheap check that a text can be one declaration: outside literals its braces balance, exactly one
outermost group is closed, and nothing but blanks follows the last brace. A literal goes from a
quote to the next same quote that no backslash escapes; the check does not mind one that is left
open at the end.
-/
namespace JavaStubs.Source

/-- How many groups are open and how many outermost ones were closed. The latter are counted in a
word of 32 bits with a sign, which holds the number of them in any text of less than four gibibytes;
in a longer one the count can wrap around. -/
structure BraceCount where
  depth : Nat := 0
  closed : Int32 := 0
  deriving DecidableEq, Repr

/-- The count after a closing brace, unless no group is open. -/
def BraceCount.close? (count : BraceCount) : Option BraceCount :=
  match count.depth with
  | 0 => none
  | 1 => some ⟨0, count.closed + 1⟩
  | depth + 2 => some ⟨depth + 1, count.closed⟩

/-- Whether the scanner is outside literals, or in one that such a quote ends. -/
inductive ScanMode where
  | code
  | literal (quote : Char)
  /-- Right after a backslash in a literal. -/
  | escaped (quote : Char)
  deriving DecidableEq, Repr

/-- The count after a text, unless it closes a group that is not open. -/
def countBraces? : ScanMode → BraceCount → List Char → Option BraceCount
  | _, count, [] => some count
  | .escaped quote, count, _ :: rest => countBraces? (.literal quote) count rest
  | .literal quote, count, c :: rest =>
    if c = '\\' then countBraces? (.escaped quote) count rest
    else if c = quote then countBraces? .code count rest
    else countBraces? (.literal quote) count rest
  | .code, count, c :: rest =>
    if c = '"' || c = '\'' then countBraces? (.literal c) count rest
    else if c = '{' then countBraces? .code { count with depth := count.depth + 1 } rest
    else if c = '}' then
      match count.close? with
      | some count => countBraces? .code count rest
      | none => none
    else countBraces? .code count rest

/-- Whether the braces of a text balance, with one outermost group that ends the text. -/
def isBalanced (source : String) : Bool :=
  countBraces? .code {} source.toList == some ⟨0, 1⟩ &&
    (Text.trimEnd source.toList).getLast? == some '}'

end JavaStubs.Source
