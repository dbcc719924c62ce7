import Calculator.CommandLine
import Calculator.Session

/-! # The program

A session at the terminal: every line is the label of a button or key, and every call to the display
is printed as one line. The arguments choose the layout; `--debug` also prints the label that was read.
-/

namespace Calculator.Terminal

/-- The line that shows a call to the display. -/
def line : DisplayCall → String
  | .display text => s!"= {text}"
  | .expression text => s!"# {text}"
  | .clearLabel label => s!"[{label}]"
  | .panelVisible visible => if visible then "panel shown" else "panel hidden"

/-- Reads labels until the input ends. -/
partial def serve (debug : Bool) (session : Session) : IO Unit := do
  let text ← (← IO.getStdin).getLine
  if text.isEmpty then return
  let label := (text.dropEndWhile fun c => c == '\n' || c == '\r').toString
  if debug then IO.eprintln s!"label {label}"
  let (session, calls) := session.input label
  calls.forM fun call => IO.println (line call)
  serve debug session

end Calculator.Terminal

open Calculator in
/-- Reads the arguments, then ends as they ask or starts a session. -/
def main (arguments : List String) : IO UInt32 := do
  match CommandLine.parse (arguments.map String.toList) with
  | .run options =>
      Terminal.serve options.debug
        (.start (if options.basic then .basic else .scientific) .standard)
      return 0
  | outcome =>
      match outcome.exit? with
      | none => return 0
      | some ending => do
          IO.print ending.output
          IO.eprint ending.errors
          return UInt32.ofNat ending.status
