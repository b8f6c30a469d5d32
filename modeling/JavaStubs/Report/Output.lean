/-!
# What a report writes

A report is a list of calls that say what to show; how it looks is decided when the calls are
written. On a terminal all but warnings go to the standard output.
-/
namespace JavaStubs.Report

/-- One thing to show. -/
inductive OutputCall where
  /-- The heading of a group of items. -/
  | heading (name : String)
  | keyValue (key value : String)
  | listItem (text : String)
  /-- A file that was written. -/
  | addedItem (text : String)
  /-- A file that was deleted or would be. -/
  | removedItem (text : String)
  | warning (message : String)
  /-- The line before a previewed file. -/
  | divider (label : String)
  /-- Text as it is. -/
  | preformatted (text : String)
  | newline
  deriving DecidableEq, Repr

/-- A line on a terminal. -/
inductive TerminalLine where
  | output (text : String)
  | error (text : String)
  deriving DecidableEq, Repr

/-- How a call looks on a terminal. -/
def OutputCall.terminalLine : OutputCall → TerminalLine
  | .heading name => .output (name ++ ":")
  | .keyValue key value => .output (key ++ ": " ++ value)
  | .listItem text => .output ("  - " ++ text)
  | .addedItem text => .output ("  + " ++ text)
  | .removedItem text => .output ("  - " ++ text)
  | .warning message => .error ("warning: " ++ message)
  | .divider label => .output ("── " ++ label ++ " ──")
  | .preformatted text => .output text
  | .newline => .output ""

end JavaStubs.Report
