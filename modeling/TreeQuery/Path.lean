/-!
# Paths as texts

A path is a text whose components are separated by slashes. Empty components and components that
are a single dot do not count, except for a dot at the very front. These functions take paths
apart and put them together without asking which files there are.
-/

namespace TreeQuery.Path

/-! ## Components -/

/-- The pieces of a path between its slashes, the empty ones too. -/
def pieces : List Char → List (List Char)
  | [] => [[]]
  | c :: rest => if c = '/' then [] :: pieces rest else (pieces rest).modifyHead (c :: ·)

/-- The pieces of a path as texts. -/
def split (path : String) : List String :=
  (pieces path.toList).map String.ofList

/-- A path read backwards, without the slashes and single dots at its end. -/
def dropEmptyBack : List Char → List Char
  | '/' :: rest => dropEmptyBack rest
  | '.' :: '/' :: rest => dropEmptyBack rest
  | back => back

/-- The last component, and the text before it. There is none if the path ends in two dots, or if
    it has no component but a dot. -/
def splitName? (path : List Char) : Option (List Char × List Char) :=
  let back := dropEmptyBack path.reverse
  let name := (back.takeWhile fun c => c != '/').reverse
  if name = [] ∨ name = ['.'] ∨ name = ['.', '.'] then none
  else some ((back.drop name.length).reverse, name)

/-- A name cut at its last dot: the stem, and the extension if there is one. A dot at the front
    starts no extension. -/
def splitExtension (name : List Char) : List Char × Option (List Char) :=
  let back := name.reverse
  let extension := (back.takeWhile fun c => c != '.').reverse
  match back.drop extension.length with
  | _ :: stemBack => if stemBack.isEmpty then (name, none) else (stemBack.reverse, some extension)
  | [] => (name, none)

/-- The last component without its extension. -/
def stem? (path : String) : Option String :=
  (splitName? path.toList).map fun (_, name) => String.ofList (splitExtension name).1

/-- The extension of the last component. -/
def extension? (path : String) : Option String :=
  (splitName? path.toList).bind fun (_, name) => (splitExtension name).2.map String.ofList

/-! ## Other paths -/

/-- The path of `name` in a directory. -/
def join (dir name : String) : String :=
  if dir.isEmpty ∨ dir.endsWith "/" then dir ++ name else dir ++ "/" ++ name

/-- The path up to the stem of its last component, then a dot and an extension. A path without
    such a component stays as it is. -/
def setExtension (path extension : List Char) : List Char :=
  match splitName? path with
  | some (dir, name) => dir ++ (splitExtension name).1 ++ '.' :: extension
  | none => path

/-- The path with another extension. The text first loses as many characters as the old extension
    has; what remains decides about the stem. -/
def withExtension (path extension : String) : String :=
  let old := ((extension? path).getD "").length
  String.ofList (setExtension (path.toList.take (path.length - old)) extension.toList)

end TreeQuery.Path
