import ThrustBench.Clock
import ThrustBench.Datum

/-!
The stopwatch.  It counts whole milliseconds while it runs, and shows seconds with their leading
zeros in grey.
-/

namespace ThrustBench

structure Stopwatch where
  origin : Int
  /-- While running: the milliseconds since the origin that do not count. -/
  delta : Int := 0
  /-- While paused: the milliseconds counted so far. -/
  stamp : Int := 0
  paused : Bool := true
  label : String := "<span style=\"color:#555555;\">000.0</span>"
  icon : String := "icons/play.png"

namespace Stopwatch

def grey : String := "#808080"
def white : String := "#FFFFFF"

def span (color : String) (c : Char) : String :=
  "<span style=\"color:" ++ color ++ ";\">" ++ String.singleton c ++ "</span>"

def timeText (seconds : Binary64) : List Char := (seconds.fixedText 1 5).toList

/-- How many characters of a time are grey: the zeros before the first other digit, or all. -/
def greyCount (time : List Char) : Nat :=
  let digits := time.filter (· != '.')
  let zeros := digits.takeWhile (· == '0')
  if zeros.length = digits.length then time.length else zeros.length

def colored (time : List Char) : String :=
  let count := greyCount time
  String.join (((time.take count).map (span grey)) ++ ((time.drop count).map (span white)))

def labelFor (milliseconds : Datum) : Except Fault String := do
  return colored (timeText (← milliseconds.div (.whole 1000)))

def elapsed (s : Stopwatch) (clock : Clock) : Int := clock.elapsed s.origin

def setLabel (s : Stopwatch) (milliseconds : Datum) : Except Fault Stopwatch := do
  return { s with label := ← labelFor milliseconds }

def begin (s : Stopwatch) (clock : Clock) : Stopwatch :=
  { s with delta := s.elapsed clock - s.stamp, paused := false }

def pause (s : Stopwatch) (clock : Clock) : Stopwatch :=
  { s with stamp := s.elapsed clock - s.delta, paused := true }

def press (s : Stopwatch) (clock : Clock) : Stopwatch :=
  if s.paused then { s.begin clock with icon := "icons/pause.png" }
  else { s.pause clock with icon := "icons/play.png" }

def reset (s : Stopwatch) (clock : Clock) : Stopwatch :=
  let s := if s.paused then s else s.press clock
  { s with origin := clock.now, delta := 0, stamp := 0, label := colored (timeText (.zero false)) }

def tick (s : Stopwatch) (clock : Clock) : Except Fault Stopwatch :=
  if s.paused then .ok s else s.setLabel (.whole (s.elapsed clock - s.delta))

def count (s : Stopwatch) (clock : Clock) : Int :=
  if s.paused then s.stamp else s.elapsed clock - s.delta

def value (s : Stopwatch) (clock : Clock) : Option Int :=
  if s.count clock = 0 then none else some (s.count clock)

end Stopwatch

end ThrustBench
