import Calculator.Text.Quoted

/-! # The command line

Options may be abbreviated to any beginning that no other option has. Each argument is first sorted by
itself: an option, possibly with a value behind an equals sign, or something that is not understood.
An abbreviation of several options is refused at once. Then the arguments are taken in their order.
No option takes a value, so a value is refused; help ends the program; what is not understood is
refused last, all together. After a lone `--` nothing is understood any more.
-/

namespace Calculator.CommandLine

/-- The options that an argument can name. -/
inductive Switch where
  | help
  | basic
  | debug
deriving DecidableEq

namespace Switch

/-- Every option, in the order of the usage text. -/
def all : List Switch := [help, basic, debug]

/-- The long name. -/
def longName : Switch → String
  | help => "--help"
  | basic => "--basic"
  | debug => "--debug"

/-- All names, as messages give them. -/
def names : Switch → String
  | help => "-h/--help"
  | switch => switch.longName

end Switch

/-- What the arguments choose. -/
structure Options where
  basic : Bool
  debug : Bool
deriving DecidableEq

/-- Why arguments are refused. -/
inductive Refusal where
  | ambiguous (argument : Text) (candidates : List Switch)
  | ignoredValue (switch : Switch) (value : Text)
  | unrecognized (arguments : List Text)
deriving DecidableEq

/-- The wording of a refusal. -/
def Refusal.message : Refusal → String
  | ambiguous argument candidates =>
      let names := ", ".intercalate (candidates.map Switch.longName)
      s!"ambiguous option: {String.ofList argument} could match {names}"
  | ignoredValue switch value =>
      s!"argument {switch.names}: ignored explicit argument {String.ofList (Quoted.encode value)}"
  | unrecognized arguments =>
      "unrecognized arguments: " ++ " ".intercalate (arguments.map String.ofList)

/-- How an argument is understood by itself. -/
inductive Argument where
  | switch (name : Switch)
  | valued (name : Switch) (value : Text)
  | ambiguous (candidates : List Switch)
  | other
deriving DecidableEq

/-- The part in front of the first equals sign, and the part behind it if there is one. -/
def splitValue (argument : Text) : Text × Option Text :=
  (argument.takeWhile (· != '='),
    match argument.dropWhile (· != '=') with
    | [] => none
    | _ :: value => some value)

/-- The characters behind the short name of help, read as further short names. All have to ask for
help again; the first one that does not is refused with what follows it. -/
def afterShortHelp : Text → Argument
  | ['h'] => .switch .help
  | 'h' :: rest => afterShortHelp rest
  | value => .valued .help value

/-- Sorts one argument. -/
def sort (argument : Text) : Argument :=
  match argument with
  | '-' :: '-' :: _ =>
      let (name, value) := splitValue argument
      match Switch.all.filter fun switch => name.isPrefixOf switch.longName.toList with
      | [] => .other
      | [switch] =>
          match value with
          | none => .switch switch
          | some value => .valued switch value
      | candidates => .ambiguous candidates
  | ['-', 'h'] => .switch .help
  | '-' :: 'h' :: '=' :: value => afterShortHelp value
  | '-' :: 'h' :: value => afterShortHelp value
  | _ => .other

/-- What the arguments come to. -/
inductive Outcome where
  | run (options : Options)
  | help
  | refuse (reason : Refusal)
deriving DecidableEq

/-- Takes the arguments in their order; `strange` are those met so far that are not understood. -/
def take (options : Options) (strange : List Text) : List Text → Outcome
  | [] => if strange.isEmpty then .run options else .refuse (.unrecognized strange)
  | argument :: rest =>
      if argument = "--".toList then .refuse (.unrecognized (strange ++ argument :: rest))
      else match sort argument with
        | .switch .help => .help
        | .switch .basic => take { options with basic := true } strange rest
        | .switch .debug => take { options with debug := true } strange rest
        | .valued switch value => .refuse (.ignoredValue switch value)
        | .ambiguous candidates => .refuse (.ambiguous argument candidates)
        | .other => take options (strange ++ [argument]) rest

/-- The first argument in front of a lone `--` that abbreviates several options. -/
def firstAmbiguous? : List Text → Option Refusal
  | [] => none
  | argument :: rest =>
      if argument = "--".toList then none
      else match sort argument with
        | .ambiguous candidates => some (.ambiguous argument candidates)
        | _ => firstAmbiguous? rest

/-- Reads the arguments. -/
def parse (arguments : List Text) : Outcome :=
  match firstAmbiguous? arguments with
  | some reason => .refuse reason
  | none => take ⟨false, false⟩ [] arguments

/-- What the program leaves behind when it ends without a session. -/
structure Exit where
  status : Nat
  output : String
  errors : String
deriving DecidableEq

/-- The name under which the program speaks of itself. -/
def programName : String := "main.py"

/-- The line that shows how the program is called. -/
def usage : String := s!"usage: {programName} [-h] [--basic] [--debug]\n"

/-- The help text below the usage line. -/
def helpText : String :=
  "\nScientific calculator\n\noptions:\n" ++
    "  -h, --help  show this help message and exit\n" ++
    "  --basic     start without the scientific panel\n" ++
    "  --debug     verbose logging\n"

/-- How the program ends, unless the arguments let it run. -/
def Outcome.exit? : Outcome → Option Exit
  | run _ => none
  | help => some ⟨0, usage ++ helpText, ""⟩
  | refuse reason => some ⟨2, "", usage ++ s!"{programName}: error: {reason.message}\n"⟩

end Calculator.CommandLine
