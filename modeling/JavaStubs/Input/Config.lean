import JavaStubs.Stubs.Generator
import JavaStubs.Toml.Decode
import JavaStubs.Toml.Document

/-!
# The configuration

What a project says about its stubs, read from TOML text. The document has one table, `stubs`, and
everything in it has a default. Names that are not known are refused, so that a misspelt one does
not go unnoticed.
-/
namespace JavaStubs.Input

open Stubs (StubSettings)
open Toml (Slot Misfit)

/-- A configuration. -/
structure Config where
  stubs : StubSettings := { outputDirectory := .ofString "build/stubs" }
  deriving DecidableEq

/-- Why a text is no configuration. -/
inductive ConfigFault where
  /-- The text is not TOML. -/
  | syntactic
  /-- The document has the wrong shape. -/
  | misfit (misfit : Misfit)
  deriving DecidableEq, Repr

namespace Config

/-- The fields of the table `stubs`. -/
def stubFields : List (Slot StubSettings) :=
  [.of "output" (Toml.Decode.text "path string") fun output settings =>
    { settings with outputDirectory := .ofString output },
   .of "generics" Toml.Decode.boolean fun generics settings => { settings with generics },
   .of "require_super_resolved" Toml.Decode.boolean fun requireSuperResolved settings =>
    { settings with requireSuperResolved }]

/-- The fields of the document. -/
def fields : List (Slot Config) :=
  [.of "stubs"
    (Toml.Decode.record "struct StubsConfig" ({} : Config).stubs stubFields)
    fun stubs config => { config with stubs }]

/-- Reads a configuration. -/
def parse (text : String) : Except ConfigFault Config :=
  match Toml.read? text with
  | none => .error .syntactic
  | some members => (Slot.readMembers fields {} members).mapError .misfit

end Config

end JavaStubs.Input
