import FormatHost.Engine.Foreign
import FormatHost.Job

/-! # The program

A run starts from its arguments, the environment, the files and standard input, and ends with an
exit code, notices, and the files and standard output as they are then. The engine is started
before any input is read.
-/

namespace FormatHost

/-- What a run starts from, apart from its arguments. -/
structure Surroundings where
  environment : Environment
  machine : Machine
  /-- What standard input delivers. -/
  input : List (Delivery IoFault)

/-- What a run came to. -/
structure Report where
  exitCode : Nat
  notices : List Notice
  /-- Whether the notices are colored. -/
  colored : Bool
  machine : Machine

namespace Report

def errorText (report : Report) : String :=
  String.join (report.notices.map (Notice.text report.colored))

end Report

namespace Program

def name : String := "fmtb"

/-- The exit code of a command line that is not understood. -/
def usageCode : Nat := 2

/-- The exit code of settings that cannot be found out or set up. -/
def setupCode : Nat := 1

/-- The first lines of the help text: what the program is for and how it is called. The lists of
arguments and options that follow, the introduction of the long form, and their layout are left
out. -/
def helpText : String :=
  "Format source code through a fmtbridge engine\n\nUsage: " ++ name ++ " [OPTIONS] [PATH]...\n"

/-- Whether the environment asks for colors wherever notices go. -/
def forcesColor (env : Environment) : Bool :=
  match env.get? "CLICOLOR_FORCE" with
  | some value => value != "0"
  | none => false

/-- The variables of the environment that a run looks at. -/
def environmentNames : List String :=
  ["HOME", "XDG_CONFIG_HOME", "GIT_CONFIG_GLOBAL", "GIT_CONFIG_SYSTEM", "NO_COLOR",
    "CLICOLOR_FORCE", "FMTB_INDENT_WIDTH", "FMTB_MAX_BLANK_LINES", "FMTB_EXTENSIONS",
    "FMTB_ENGINE", "FMTB_ENGINE_PREFIX", "FMTB_NO_COLOR"]

/-- Whether a run with some arguments formats standard input. -/
def readsInput (arguments : List String) : Bool :=
  match Request.parse arguments with
  | .ok (.run invocation) =>
    invocation.paths.isEmpty && !invocation.has .configPath && !invocation.has .configInit
  | .ok .help | .ok .version | .error _ => false

variable {σ : Type}

/-- The layout in effect: options come before settings. -/
def layout (invocation : Invocation) (settings : Settings) (env : Environment) : Layout :=
  let layout := settings.layout env
  ⟨invocation.indentWidth.getD layout.indentWidth,
    invocation.maxBlankLines.getD layout.maxBlankLines⟩

/-- The engine in effect. Options for the layout mean nothing to the engine of a library. -/
def engine (loader : Loader σ) (invocation : Invocation) (settings : Settings) (env : Environment) :
    Engine σ × List Notice :=
  match invocation.engine.or (settings.engineIn env) with
  | none => (.builtin σ (layout invocation settings env), [])
  | some library =>
    let stem := invocation.engineStem.or (settings.engineStemIn env)
    let ignored := invocation.indentWidth.isSome || invocation.maxBlankLines.isSome
    (.foreign loader library stem, if ignored then [.layoutIgnored library] else [])

def wanted (invocation : Invocation) (settings : Settings) (env : Environment) : Inputs.Wanted :=
  ⟨invocation.extensions.getD (settings.extensionsIn env), invocation.has .includeIgnored⟩

def job (invocation : Invocation) : Job :=
  ⟨invocation.mode, invocation.policy, invocation.has .failFast⟩

/-- Formats what a command line asks for with an engine that has been started. -/
def format (invocation : Invocation) (settings : Settings) (surroundings : Surroundings)
    (gate : Gate σ) : Ending σ :=
  let session : Session σ := ⟨gate, surroundings.machine⟩
  if invocation.paths.isEmpty then
    (job invocation).runInput session (.ofPath? invocation.output) invocation.tree
      surroundings.input
  else
    (job invocation).runPaths session surroundings.environment
      (wanted invocation settings surroundings.environment) invocation.paths

/-- Starts the engine and formats what a command line asks for. -/
def runJob (loader : Loader σ) (state : σ) (surroundings : Surroundings) (invocation : Invocation) :
    Report :=
  let env := surroundings.environment
  let loaded := Settings.load surroundings.machine.files env
  let settings := loaded.settings
  let colored := forcesColor env && !(invocation.has .noColor || settings.noColorIn env)
  let (engine, warnings) := engine loader invocation settings env
  let warnings := (loaded.misread.map Notice.misread).toList ++ warnings
  let (started, gate) := (Gate.fresh engine state).start
  if started then
    let ending := format invocation settings surroundings gate
    ⟨ending.exitCode, warnings ++ ending.notices, colored, ending.session.machine⟩
  else
    let message :=
      match gate.readiness with
      | .failed message => message
      | .unstarted | .ready => "engine initialization failed"
    ⟨Status.startFailed.code, warnings ++ [.startFailed engine.name message], colored,
      surroundings.machine⟩

/-- The report of a run that only shows a text. -/
def showing (colored : Bool) (machine : Machine) (text : String) : Report :=
  let console := machine.console.display text
  ⟨if console.lost then Console.lostCode else 0, [], colored, { machine with console := console }⟩

/-- The report of a run that offers a text, which may get lost. -/
def offering (colored : Bool) (machine : Machine) (text : String) : Report :=
  ⟨0, [], colored, { machine with console := machine.console.offer text }⟩

def showPath (surroundings : Surroundings) : Report :=
  let colored := forcesColor surroundings.environment
  match Settings.path? surroundings.environment with
  | some path => showing colored surroundings.machine (path ++ "\n")
  | none =>
    ⟨setupCode, [.setupFailed "Cannot determine config directory"], colored, surroundings.machine⟩

def createSettings (surroundings : Surroundings) : Report :=
  let colored := forcesColor surroundings.environment
  let (outcome, files) := Settings.create surroundings.machine.files surroundings.environment
  let machine := { surroundings.machine with files := files }
  match outcome with
  | .error message => ⟨setupCode, [.setupFailed message], colored, machine⟩
  | .ok path => showing colored machine ("Created config file: " ++ path ++ "\n")

def run (loader : Loader σ) (state : σ) (surroundings : Surroundings) (arguments : List String) :
    Report :=
  let colored := forcesColor surroundings.environment
  match Request.parse arguments with
  | .error fault => ⟨usageCode, [.usage fault], colored, surroundings.machine⟩
  | .ok .help => offering colored surroundings.machine helpText
  | .ok .version => offering colored surroundings.machine (name ++ " " ++ version ++ "\n")
  | .ok (.run invocation) =>
    if invocation.has .configPath then showPath surroundings
    else if invocation.has .configInit then createSettings surroundings
    else runJob loader state surroundings invocation

end Program

end FormatHost
