import TreeQuery.Tree.Basic

/-!
# Listings of trees

A syntax tree as text: a line for each node, every node before those below it. A line has six
columns with tabs between them: the number of the line of the parent, or a dash for the root; the
kind; the first byte and the byte behind the last one; the letters `n` for a named node, `e` for
an error and `m` for a missing node; and the fields of the parent, with commas between them.
-/

namespace TreeQuery

/-- The row that a line stands for. -/
def Row.ofLine? (line : String) : Option Row :=
  match line.splitOn "\t" with
  | [parent, kind, start, stop, flags, fields] => do
    let parent? ← if parent = "-" then some none else parent.toNat?.map some
    let start ← start.toNat?
    let stop ← stop.toNat?
    return {
      parent := parent?
      label := {
        kind, start, stop
        named := flags.contains 'n'
        error := flags.contains 'e'
        missing := flags.contains 'm'
        fields := (fields.splitOn ",").filter fun f => !f.isEmpty
      }
    }
  | _ => none

/-- The tree that a listing stands for. -/
def Tree.ofListing? (text : String) : Option Tree := do
  let rows ← ((text.splitOn "\n").filter fun line => !line.isEmpty).mapM Row.ofLine?
  ofRows? rows

end TreeQuery
