/-!
# Colours

Text for a terminal that shows colours. Where colours are off, text stays as it is.
-/

namespace TreeQuery

/-- How a text stands out. -/
inductive Style where
  | bold
  | dimmed
  | red
  | green
  | yellow
  | blue
  | grey
  /-- Bold and underlined. -/
  | heading
  deriving DecidableEq, Repr

namespace Style

/-- The sequence that ends all styles. -/
def reset : String := "\x1b[0m"

/-- The sequence that starts a style. -/
def start : Style → String
  | bold => "\x1b[1m"
  | dimmed => "\x1b[2m"
  | red => "\x1b[31m"
  | green => "\x1b[32m"
  | yellow => "\x1b[33m"
  | blue => "\x1b[34m"
  | grey => "\x1b[90m"
  | heading => "\x1b[1m\x1b[4m"

/-- A text in a style. Where the text itself ends all styles, the style is started again. -/
def paint (colours : Bool) (style : Style) (text : String) : String :=
  if colours then
    style.start ++ (reset ++ style.start).intercalate (text.splitOn reset) ++ reset
  else text

end Style

end TreeQuery
