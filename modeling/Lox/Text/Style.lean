/-!
# Styled text

Reports set parts of a line in bold, in a colour or without. When styling is off, the text is plain.
-/

namespace Lox.Text

/-- The colours of reports. -/
inductive Hue where
  | red | magenta
  deriving DecidableEq

/-- The terminal's number for a colour. -/
def Hue.code : Hue → String
  | red => "31"
  | magenta => "35"

/-- The terminal sequence that selects a rendition. -/
def select (code : String) : String := "\x1b[" ++ code ++ "m"

/-- Bold text, in a colour if one is given, when styling is on. -/
def bold (styled : Bool) (hue : Option Hue) (s : String) : String :=
  if styled then
    select "1" ++ (hue.map (select ·.code)).getD "" ++ s ++ select "0"
  else s

end Lox.Text
