import FormatHost.CommandLine

/-! # Notices

What is said on standard error, as causes. Each notice has one text, in which the words that say how
bad it is can be colored.
-/

namespace FormatHost

/-- Something to be said to the user. -/
inductive Notice where
  | usage (fault : UsageFault)
  /-- The settings could not be found out or set up. -/
  | setupFailed (message : String)
  /-- A file of settings was set aside. -/
  | misread (path : String)
  /-- Options for the layout were given with an engine from a library. -/
  | layoutIgnored (library : String)
  | startFailed (engine message : String)
  | inputUnreadable (fault : IoFault)
  | listUnreadable (list : String) (fault : IoFault)
  /-- The run ended with an error. -/
  | failed (error : HostError)
  /-- The run ended with an error in one file. -/
  | failedAt (path : String) (error : HostError)
  /-- The run went on after an error in one file. -/
  | skipped (path : String) (error : HostError)
  | wouldChange (count : Nat)
deriving DecidableEq

/-- How a text stands out. -/
inductive Tint where
  | bold
  | boldRed
  | boldYellow
deriving DecidableEq

namespace Tint

def codes : Tint → String
  | .bold => "1"
  | .boldRed => "1;31"
  | .boldYellow => "1;33"

def paint (tint : Tint) (colored : Bool) (text : String) : String :=
  if colored then "\x1b[" ++ tint.codes ++ "m" ++ text ++ "\x1b[0m" else text

end Tint

namespace Notice

def errorText (colored : Bool) (message : String) : String :=
  Tint.boldRed.paint colored "error" ++ ": " ++ message

def warningText (colored : Bool) (message : String) : String :=
  Tint.boldYellow.paint colored "warning" ++ ": " ++ message

def line (colored : Bool) : Notice → String
  | .usage fault => errorText colored fault.message
  | .setupFailed message => errorText colored message
  | .misread path => "Warning: Failed to parse " ++ path
  | .layoutIgnored library =>
    warningText colored
      ("layout flags only apply to the built-in engine; ignoring them for " ++ library)
  | .startFailed engine message =>
    errorText colored ("engine `" ++ engine ++ "` failed to initialize: " ++ message)
  | .inputUnreadable fault => errorText colored ("cannot read stdin: " ++ fault.message)
  | .listUnreadable list fault =>
    errorText colored (list ++ ": cannot read path list: " ++ fault.message)
  | .failed error => errorText colored error.message
  | .failedAt path error => errorText colored (path ++ ": " ++ error.message)
  | .skipped path error => warningText colored (path ++ ": " ++ error.message)
  | .wouldChange count =>
    Tint.bold.paint colored (toString count) ++ " file(s) would be reformatted"

def text (colored : Bool) (notice : Notice) : String :=
  notice.line colored ++ "\n"

end Notice

end FormatHost
