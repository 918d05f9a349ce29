import ThrustBench.Session.Serial
import ThrustBench.Session.Scripting

/-!
Everything that can happen in a session, as one type, and the step it makes.
-/

namespace ThrustBench

inductive Action where
  | show (screen : Screen)
  | switchTheme
  | offer (ports : List String)
  | refresh
  | connect
  | attach
  /-- The body of the reading thread: opening works or not, and bytes arrive. -/
  | serve (works : Bool) (bytes : List UInt8)
  | closeMonitor
  | hear (line : String)
  | tell (text : String)
  | typeInput (text : String)
  | submit
  | suppress (on : Bool)
  | scroll (position last : Int)
  | slide (position : Int)
  | zero (channel : Channel)
  | zeroAll
  | advance (micros : Int)
  | pressStopwatch
  | resetStopwatch
  | tickStopwatch
  | savePoint
  | addPoint (timer throttle : Datum)
  | toggleRecording
  | tickRecording
  | clearPoints
  | chooseScript (name : String)
  | chooseOtherScript (text : String)
  | pressScript
  | runScript (feed : List (List String)) (pressAtWait : Option Nat)

namespace Session

def tickStopwatch (s : Session) : Effect :=
  match s.stopwatch.tick s.clock with
  | .ok stopwatch => { session := { s with stopwatch } }
  | .error fault => { session := s, reported := [fault] }

def act (s : Session) : Action → Effect
  | .show screen => { session := { s with screen } }
  | .switchTheme => { session := { s with theme := (Theme.other? s.theme.name).getD s.theme } }
  | .offer ports => { session := { s with offered := ports } }
  | .refresh => { session := s.refresh }
  | .connect => { session := s.connect }
  | .attach => { session := s.attach }
  | .serve works bytes => s.serve works bytes
  | .closeMonitor => s.closeMonitor
  | .hear line => s.hear line
  | .tell text => { session := s.tell text }
  | .typeInput text => { session := { s with input := text } }
  | .submit => s.submit
  | .suppress on => { session := { s with console := { s.console with suppress := on } } }
  | .scroll position last => { session := { s with console := s.console.scrollTo position last } }
  | .slide position => s.slide position
  | .zero channel => { session := { s with stand := s.stand.zero channel } }
  | .zeroAll => { session := { s with stand := { s.stand with board := s.stand.board.zeroAll } } }
  | .advance micros => { session := { s with clock := s.clock.advance micros } }
  | .pressStopwatch => { session := { s with stopwatch := s.stopwatch.press s.clock } }
  | .resetStopwatch => { session := { s with stopwatch := s.stopwatch.reset s.clock } }
  | .tickStopwatch => s.tickStopwatch
  | .savePoint => s.savePoint
  | .addPoint timer throttle =>
    let (s, refused) := s.addPoint timer throttle
    { session := s, raised := refused }
  | .toggleRecording => { session := { s with recorder := s.recorder.toggle } }
  | .tickRecording => if s.recorder.recording then s.savePoint else { session := s }
  | .clearPoints => { session := { s with recorder := s.recorder.clear } }
  | .chooseScript name => { session := { s with panel := s.panel.choose name } }
  | .chooseOtherScript text => { session := { s with panel := s.panel.chooseOther text } }
  | .pressScript => s.pressScript
  | .runScript feed pressAtWait => s.runScript feed pressAtWait

/-- Why an action cannot happen at all: the body of a thread needs a thread. -/
def impossible? (s : Session) : Action → Option Fault
  | .serve _ _ => if s.link.isNone then some (.lacks .nothing "run") else none
  | .runScript _ _ => if s.panel.thread.isNone then some (.lacks .nothing "run") else none
  | _ => none

def actAll (s : Session) : List Action → Session
  | [] => s
  | a :: as => actAll (s.act a).session as

end Session

end ThrustBench
