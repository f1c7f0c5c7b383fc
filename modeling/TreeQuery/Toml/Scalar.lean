import TreeQuery.Toml.Value

/-!
# Numbers, booleans and dates of TOML

A value that is neither a string nor built from others is a run of characters; `scalar?` says
which value a run stands for, if any.
-/

namespace TreeQuery.Toml

/-! ## Numbers -/

/-- The digits of a run in which underscores may stand between digits. -/
def digits? (isDigit : Char → Bool) : List Char → Option (List Char)
  | [] => none
  | [c] => if isDigit c then some [c] else none
  | c :: '_' :: rest => if isDigit c then (digits? isDigit rest).map (c :: ·) else none
  | c :: rest => if isDigit c then (digits? isDigit rest).map (c :: ·) else none

/-- The value of an ASCII digit or letter as a digit. -/
def digitValue (c : Char) : Nat :=
  if c.isDigit then c.toNat - '0'.toNat else c.toLower.toNat - 'a'.toNat + 10

/-- The number that digits stand for. -/
def number (base : Nat) (digits : List Char) : Nat :=
  digits.foldl (fun n c => base * n + digitValue c) 0

/-- The digits of a decimal number that has no needless zero at its front. -/
def decimal? (cs : List Char) : Option (List Char) :=
  match digits? Char.isDigit cs with
  | some ('0' :: _ :: _) => none
  | digits => digits

/-- A text without a sign at its front, and whether that sign was a minus. -/
def unsigned : List Char → Bool × List Char
  | '-' :: rest => (true, rest)
  | '+' :: rest => (false, rest)
  | cs => (false, cs)

/-- An integer that fits into 64 bits with a sign. -/
def inRange (n : Int) : Option Value :=
  if Int64.minValue.toInt ≤ n ∧ n ≤ Int64.maxValue.toInt then some (.integer n) else none

/-- Is `c` a digit in base 2, 8 or 16? -/
def isBaseDigit (base : Nat) (c : Char) : Bool :=
  (c.isDigit || ('a' ≤ c.toLower && c.toLower ≤ 'f')) && digitValue c < base

/-- An integer. -/
def integer? : List Char → Option Value
  | '0' :: 'x' :: cs => (digits? (isBaseDigit 16) cs).bind fun ds => inRange (number 16 ds)
  | '0' :: 'o' :: cs => (digits? (isBaseDigit 8) cs).bind fun ds => inRange (number 8 ds)
  | '0' :: 'b' :: cs => (digits? (isBaseDigit 2) cs).bind fun ds => inRange (number 2 ds)
  | cs =>
    let (negative, rest) := unsigned cs
    (decimal? rest).bind fun ds =>
      inRange (if negative then -(number 10 ds : Int) else number 10 ds)

/-- Is `mantissa · 10 ^ exponent` too great for a double? The least number that is lies half a
    step above the greatest double. -/
def overflows (mantissa : Nat) (exponent : Int) : Bool :=
  let size : Int := (Nat.toDigits 10 mantissa).length
  let bound := Nat.pow 2 1024 - Nat.pow 2 970
  if mantissa = 0 ∨ size + exponent < 300 then false
  else if 320 < size + exponent then true
  else if 0 ≤ exponent then bound ≤ mantissa * Nat.pow 10 exponent.toNat
  else bound * Nat.pow 10 (-exponent).toNat ≤ mantissa

/-- The exponent of a float behind its `e`. -/
def exponent? (cs : List Char) : Option Int :=
  let (negative, rest) := unsigned cs
  (digits? Char.isDigit rest).map fun ds =>
    if negative then -(number 10 ds : Int) else number 10 ds

/-- A float. -/
def float? (cs : List Char) : Option Value := do
  let (_, rest) := unsigned cs
  if rest = ['i', 'n', 'f'] ∨ rest = ['n', 'a', 'n'] then return .float (String.ofList cs)
  let isE (c : Char) := c == 'e' || c == 'E'
  let mantissa := rest.takeWhile fun c => !isE c
  let exponent ← match rest.drop mantissa.length with
    | [] => some 0
    | _ :: cs => exponent? cs
  let whole ← decimal? (mantissa.takeWhile fun c => c != '.')
  let fraction ← match mantissa.dropWhile fun c => c != '.' with
    | [] => if mantissa.length = rest.length then none else some []
    | _ :: cs => digits? Char.isDigit cs
  if overflows (number 10 (whole ++ fraction)) (exponent - fraction.length) then none
  else return .float (String.ofList cs)

/-! ## Dates and times -/

/-- A number of exactly `count` decimal digits, and what follows it. -/
def fixed? (count : Nat) (cs : List Char) : Option (Nat × List Char) :=
  let ds := cs.take count
  if ds.length = count ∧ ds.all Char.isDigit then some (number 10 ds, cs.drop count) else none

/-- A given character, and what follows it. -/
def char? (c : Char) : List Char → Option (List Char)
  | d :: rest => if d = c then some rest else none
  | [] => none

/-- The number of days of a month. -/
def daysIn (year month : Nat) : Nat :=
  if month = 2 then
    if year % 4 = 0 ∧ (year % 100 ≠ 0 ∨ year % 400 = 0) then 29 else 28
  else if month = 4 ∨ month = 6 ∨ month = 9 ∨ month = 11 then 30
  else 31

/-- A date such as `1979-05-27`, and what follows it. -/
def date? (cs : List Char) : Option (List Char × List Char) := do
  let (year, rest) ← fixed? 4 cs
  let rest ← char? '-' rest
  let (month, rest) ← fixed? 2 rest
  let rest ← char? '-' rest
  let (day, rest) ← fixed? 2 rest
  if 1 ≤ month ∧ month ≤ 12 ∧ 1 ≤ day ∧ day ≤ daysIn year month then
    return (cs.take 10, rest)
  else none

/-- The fraction of a second, without needless digits, and what follows it. -/
def fraction? : List Char → Option (List Char × List Char)
  | '.' :: rest =>
    let ds := rest.takeWhile Char.isDigit
    let kept := ((ds.take 9).reverse.dropWhile fun c => c == '0').reverse
    if ds.isEmpty then none
    else some (if kept.isEmpty then [] else '.' :: kept, rest.drop ds.length)
  | rest => some ([], rest)

/-- A time of day such as `07:32:00.5`, and what follows it. Seconds that are left out are
    written as zero. -/
def time? (cs : List Char) : Option (List Char × List Char) := do
  let (hour, rest) ← fixed? 2 cs
  let rest ← char? ':' rest
  let (minute, rest) ← fixed? 2 rest
  if 23 < hour ∨ 59 < minute then none
  match char? ':' rest with
  | none => return (cs.take 5 ++ [':', '0', '0'], rest)
  | some rest =>
    let (second, rest) ← fixed? 2 rest
    if 60 < second then none
    let (fraction, rest) ← fraction? rest
    return (cs.take 8 ++ fraction, rest)

/-- The offset of a time zone, and nothing behind it. An offset of zero has a plus sign. -/
def offset? : List Char → Option (List Char)
  | [] => some []
  | [c] => if c == 'Z' || c == 'z' then some ['Z'] else none
  | sign :: cs => do
    if sign != '+' && sign != '-' then none
    let (hour, rest) ← fixed? 2 cs
    let rest ← char? ':' rest
    let (minute, rest) ← fixed? 2 rest
    if rest.isEmpty ∧ hour ≤ 23 ∧ minute ≤ 59 then
      return (if hour = 0 ∧ minute = 0 then '+' else sign) :: cs
    else none

/-- A date, a time of day, or both. -/
def datetime? (cs : List Char) : Option Value :=
  let text (parts : List Char) := Value.datetime (String.ofList parts)
  match date? cs with
  | some (date, []) => some (text date)
  | some (date, separator :: rest) =>
    if separator == 'T' || separator == 't' || separator == ' ' then do
      let (time, rest) ← time? rest
      let offset ← offset? rest
      return text (date ++ ['T'] ++ time ++ offset)
    else none
  | none =>
    match time? cs with
    | some (time, []) => some (text time)
    | _ => none

/-! ## Runs of characters -/

/-- The value that a run of characters stands for. -/
def scalar? (cs : List Char) : Option Value :=
  if cs = ['t', 'r', 'u', 'e'] then some (.boolean true)
  else if cs = ['f', 'a', 'l', 's', 'e'] then some (.boolean false)
  else (integer? cs).or ((float? cs).or (datetime? cs))

/-- The characters that end a run. -/
def endsRun (c : Char) : Bool :=
  [' ', '\t', '\n', '\r', ',', '=', '#', '[', ']', '\x7b', '\x7d'].contains c

/-- The run at the front of a text. A date and a time of day with one space between them are one
    run. -/
def run (cs : List Char) : List Char :=
  let first := cs.takeWhile fun c => !endsRun c
  match date? first, cs.drop first.length with
  | some (_, []), ' ' :: c :: rest =>
    if c.isDigit then first ++ [' '] ++ (c :: rest).takeWhile fun c => !endsRun c else first
  | _, _ => first

end TreeQuery.Toml
