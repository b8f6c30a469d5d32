import JavaStubs.Files.Disk

/-!
# The registry of stubs

Which stubs were written, so that exactly they can be deleted again. A stub is registered by its
path without extension, each one once; paths with the same components are the same stub. Cleaning
deletes the stubs in the order in which they were registered, with the directories that this leaves
empty. If a stub cannot be deleted, cleaning stops there and every stub stays registered.
-/
namespace JavaStubs.Stubs

open Files (Disk FileError)

/-- Stubs under an output directory. -/
structure Registry where
  base : Path
  extension : String
  stubs : List Path
  distinct : (stubs.map Path.components).Nodup

/-- What cleaning did. -/
structure Cleaned where
  deleted : List Path := []
  /-- Stubs that were registered but gone already. -/
  missing : List Path := []
  deriving DecidableEq

/-- Why cleaning stopped. -/
structure RemovalError where
  path : Path
  cause : FileError
  deriving DecidableEq

/-- The wording of a failure without its cause. -/
def RemovalError.message (error : RemovalError) : String :=
  "Failed to remove " ++ error.path.text

namespace Registry

/-- No stubs yet. -/
def empty (base : Path) (extension : String) : Registry := ⟨base, extension, [], by simp⟩

/-- Whether a stub is registered. -/
def contains (registry : Registry) (stub : Path) : Bool :=
  (registry.stubs.map Path.components).contains stub.components

/-- Registers a stub unless it is registered already. -/
def register (registry : Registry) (stub : Path) : Registry :=
  if h : registry.contains stub then registry
  else
    { registry with
      stubs := registry.stubs ++ [stub]
      distinct := by
        have hnew : stub.components ∉ registry.stubs.map Path.components := by
          simpa [contains] using h
        rw [List.map_append, List.nodup_append]
        refine ⟨registry.distinct, by simp, ?_⟩
        rintro a ha b hb rfl
        obtain rfl : a = stub.components := by simpa using hb
        exact hnew ha }

/-- The number of stubs. -/
def size (registry : Registry) : Nat := registry.stubs.length

def isEmpty (registry : Registry) : Bool := registry.stubs.isEmpty

/-- The registry without its stubs. -/
def clear (registry : Registry) : Registry := empty registry.base registry.extension

/-- The path of a stub's file. -/
def pathOf (registry : Registry) (stub : Path) : Path :=
  let path := registry.base.join stub
  path.withFileName (path.fileName?.getD "" ++ "." ++ registry.extension)

/-- The paths of all stubs' files. -/
def paths (registry : Registry) : List Path := registry.stubs.map registry.pathOf

section

variable {m : Type → Type} [Monad m] [Disk m]

/-- The paths that are there. -/
def present : List Path → m (List Path)
  | [] => return []
  | path :: rest => do
    let here ← Disk.isPresent path
    let others ← present rest
    return if here then path :: others else others

/-- The files that cleaning would delete. -/
def wouldDelete (registry : Registry) : m (List Path) := present registry.paths

/-- Deletes the directory of a path and those it lies in while they are empty; where that fails,
they stay. -/
def deleteEmptyParents (base path : Path) : m Unit := do
  match path.parent? with
  | some parent => let _ ← Files.deleteWhileEmpty parent base
  | none => return ()

/-- Deletes files one after the other up to the first failure. -/
def removeAll (base : Path) : List Path → m (Except RemovalError Cleaned)
  | [] => return .ok {}
  | path :: rest => do
    match ← Files.deleteIfPresent path with
    | .error cause => return .error ⟨path, cause⟩
    | .ok true =>
      deleteEmptyParents base path
      return (← removeAll base rest).map fun r => { r with deleted := path :: r.deleted }
    | .ok false =>
      return (← removeAll base rest).map fun r => { r with missing := path :: r.missing }

/-- Deletes every stub's file, and forgets the stubs if that succeeds. -/
def clean (registry : Registry) : m (Except RemovalError Cleaned × Registry) := do
  match ← removeAll registry.base registry.paths with
  | .ok cleaned => return (.ok cleaned, registry.clear)
  | .error error => return (.error error, registry)

end

end Registry

end JavaStubs.Stubs
