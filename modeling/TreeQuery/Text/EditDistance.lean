/-!
# Edit distance and suggestions

The least number of insertions, deletions and substitutions of single characters that turn one
text into another, and the choice of the closest of several names.

The distance is computed row by row: the row of `xs` against `ys` holds the distances of `xs` to
`ys`, to `ys` without its first character, and so on down to the empty text.
-/

namespace TreeQuery.Text

/-- The row of the empty text against `ys`: each suffix of `ys` has to be inserted whole. -/
def emptyRow : List Char → List Nat
  | [] => [0]
  | _ :: ys => (ys.length + 1) :: emptyRow ys

/-- The row of `x :: xs` against `ys`, from the row of `xs` against `ys`. The first characters
    agree, or one of them is dropped, or one is replaced by the other. -/
def extendRow (x : Char) : List Char → List Nat → List Nat
  | [], row => [row.headD 0 + 1]
  | y :: ys, row =>
    let rest := extendRow x ys row.tail
    let here := row.headD 0
    let diagonal := row.tail.headD 0
    let cost := if x = y then diagonal else 1 + min diagonal (min here (rest.headD 0))
    cost :: rest

/-- The row of `xs` against `ys`. -/
def distanceRow (xs ys : List Char) : List Nat :=
  xs.foldr (fun x row => extendRow x ys row) (emptyRow ys)

/-- The edit distance of two texts, counted in characters. -/
def editDistance (a b : String) : Nat :=
  (distanceRow a.toList b.toList).headD 0

/-- The first of `names` at the least distance from `name`, if that distance is at most two
    (`closest`). -/
def closest (name : String) (names : List String) : Option String :=
  [0, 1, 2].findSome? fun d => names.find? fun candidate => editDistance name candidate == d

end TreeQuery.Text
