import JavaStubs.Files.Tree

/-!
# Listings of a file tree

The paths below the working directory, as a reader of the directory would list them: links are
followed, a directory has a slash after it, and the texts are in the order of their bytes.
-/
namespace JavaStubs.Files.FileTree

/-- The order of the characters of two texts, which is also that of their bytes. -/
def textLe (s t : String) : Bool := !decide (t < s)

/-- The paths below a directory, in no particular order; `depth` bounds how deep to go. -/
def pathsBelow (tree : FileTree) : Nat → Path → List String
  | 0, _ => []
  | depth + 1, directory =>
    match tree.find directory with
    | .ok (place, .directory) =>
      (tree.children place).flatMap fun name =>
        let path := directory.join (Path.ofString name)
        if tree.isDirectory path then (path.text ++ "/") :: tree.pathsBelow depth path
        else [path.text]
    | _ => []

/-- Paths have no more pieces than bytes. -/
def depthLimit : Nat := pathLimit

/-- The paths below the working directory. -/
def listing (tree : FileTree) : List String :=
  let below := tree.pathsBelow depthLimit (Path.ofString ".")
  (below.map fun path => String.ofList (path.toList.drop 2)).mergeSort textLe

/-- The number of paths that do not lead to a directory. -/
def fileCount (tree : FileTree) : Nat :=
  (tree.pathsBelow depthLimit (Path.ofString ".")).countP fun path => !path.endsWith "/"

end JavaStubs.Files.FileTree
