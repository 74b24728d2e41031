import Firmware.Source.Position

/-! # Locations

A location is a range of positions in a named source. Tokens and errors carry
the location they come from. -/

namespace Firmware

/-- The positions of the source `name` from `start` up to but not including `stop`. -/
structure Location where
  name : String
  start : Position
  stop : Position
  deriving DecidableEq, Repr

namespace Location

/-- The location of the one column at `position`. -/
def single (name : String) (position : Position) : Location :=
  { name, start := position, stop := position.advance }

/-- The location from the start of `first` to the stop of `last`. -/
def span (first last : Location) : Location :=
  { first with stop := last.stop }

/-- The name of the source, then either the one position covered or the first and
the last one in brackets. -/
def render (location : Location) : String :=
  location.name ++ ":" ++
    if location.stop = location.start.advance then
      location.start.render
    else
      "[" ++ location.start.render ++ "-" ++ location.stop.back.render ++ "]"

end Location

/-- A value together with the location it comes from. -/
structure Located (α : Type) where
  value : α
  location : Location
  deriving DecidableEq, Repr

end Firmware
