/-!
# Colours on a terminal

How colored writes. A coloured text stands between the sequence that turns its colour on and the one
that turns all colours off. A text that turns colours off itself turns its own on again after that.
-/

namespace Calculator

/-- The ways in which a text can stand out. -/
inductive Ink where
  | red
  | green
  | yellow
  | blue
  | magenta
  | brightYellow
  | brightCyan
  | boldBrightCyan
  | italic
  | dimmed
  deriving DecidableEq, Repr

namespace Ink

/-- The number of a colour in control sequences. -/
def code : Ink → String
  | red => "31"
  | green => "32"
  | yellow => "33"
  | blue => "34"
  | magenta => "35"
  | brightYellow => "93"
  | brightCyan => "96"
  | boldBrightCyan => "1;96"
  | italic => "3"
  | dimmed => "2"

/-- The sequence that turns a colour on. -/
def start (ink : Ink) : String := "\x1b[" ++ ink.code ++ "m"

/-- The sequence that turns all colours off. -/
def stop : String := "\x1b[0m"

/-- A text in a colour, if colours are on. -/
def paint (ink : Ink) (on : Bool) (text : String) : String :=
  if on then ink.start ++ text.replace stop (stop ++ ink.start) ++ stop else text

end Ink

/-- A text with spaces at its end, up to the given width. -/
def padRight (width : Nat) (text : String) : String :=
  text ++ String.ofList (List.replicate (width - text.length) ' ')

end Calculator
