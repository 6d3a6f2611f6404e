import FormatHost.Program

/-! # The command

The outer layer of the program: it gathers what a run starts from, runs it, and brings about what
the run came to. A run sees the working directory, what absolute paths among the arguments name,
the file with the settings, the user's own ignore rules, and the ignore files of the directories
above them. Links are seen as links to where they lead in the end. Engines in shared libraries are
not available.
-/

namespace FormatHost.Main

/-- The deepest directory that is looked into. -/
def deepest : Nat := 64

def contents (path : String) : IO Bytes := do
  try
    return (← IO.FS.readBinFile path).toList
  catch _ => return []

/-- Adds what is at an absolute path, and as many levels below it or behind links as given. -/
def gather (levels : Nat) (files : FileSystem) (path : String) : IO FileSystem := do
  let place := Path.names path
  let there := (← IO.currentDir) / path
  if !(← there.pathExists) then return files
  let real := toString (← IO.FS.realPath path)
  let isLink := real != path
  let isDirectory ← there.isDir
  let files ←
    if isLink then pure (files.add place (.link real))
    else if isDirectory then pure (files.makeDirectories place)
    else pure (files.add place (.file (← contents path) FileSystem.standardMode))
  match levels with
  | 0 => return files
  | levels + 1 =>
    if isLink then
      if (files.get? (Path.names real)).isSome then return files else gather levels files real
    else if isDirectory then
      (← there.readDir).toList.foldlM
        (fun files entry => gather levels files (Path.join path entry.fileName)) files
    else return files

def gatherRules (files : FileSystem) (place : Location) : IO FileSystem :=
  (Inputs.Outer.above place).foldlM (fun files directory =>
    [".git", ".jj", ".git/info/exclude", ".fmtbignore", ".ignore", ".gitignore"].foldlM
      (fun files name => gather 0 files (Path.join directory.path name)) files) files

def gatherUserRules (files : FileSystem) (env : Environment) : IO FileSystem := do
  let configurations := (Ignore.UserRules.configurationPaths env).filter Path.isAbsolute
  let files ← configurations.foldlM (gather 1) files
  ((Ignore.UserRules.path? files env).filter Path.isAbsolute).toList.foldlM (gather 1) files

/-- The files that a run with some arguments sees. -/
def visibleFiles (arguments : List String) (env : Environment) : IO FileSystem := do
  let here := toString (← IO.currentDir)
  let files : FileSystem := ⟨[], Path.names here⟩
  let files ← gather deepest files here
  let named := arguments.filter Path.isAbsolute
  let files ← named.foldlM (gather deepest) files
  let files ← (Settings.path? env).toList.foldlM (gather 1) files
  let files ← gatherUserRules files env
  (here :: named).foldlM (fun files path => gatherRules files (Path.names path)) files

/-- What standard input delivers. -/
partial def deliveries (input : IO.FS.Stream) : IO (List (Delivery IoFault)) := do
  try
    let chunk ← input.read 65536
    if chunk.isEmpty then return []
    return .bytes chunk.toList :: (← deliveries input)
  catch e => return [.failed (.words (toString e))]

/-- The environment, as far as a run looks at it. -/
def environment : IO Environment := do
  let values ← Program.environmentNames.mapM fun name => do
    return (← IO.getEnv name).map (name, ·)
  return ⟨values.filterMap id, none⟩

/-- Brings the entries of a file system about that are not as they were before. -/
def restore (before after : FileSystem) : IO Unit :=
  after.entries.forM fun (place, entry) => do
    if before.get? place != some entry then
      match entry with
      | .file data _ =>
        IO.FS.createDirAll (Path.parent place.path)
        IO.FS.writeBinFile place.path ⟨data.toArray⟩
      | .directory => IO.FS.createDirAll place.path
      | .link _ => pure ()

def noLibraries : Loader Unit := fun _ =>
  .error "engines in shared libraries are not available"

/-- Runs the program with its arguments. Where nothing is piped in, help is shown. -/
def run (arguments : List String) : IO UInt32 := do
  let stdin ← IO.getStdin
  let reads := Program.readsInput arguments
  let arguments := if reads && (← stdin.isTty) then ["--help"] else arguments
  let input ← if Program.readsInput arguments then deliveries stdin else pure []
  let env ← environment
  let files ← visibleFiles arguments env
  let report := Program.run noLibraries () ⟨env, ⟨files, .clear⟩, input⟩ arguments
  restore files report.machine.files
  let stdout ← IO.getStdout
  stdout.write ⟨report.machine.console.written.toArray⟩
  stdout.flush
  (← IO.getStderr).putStr report.errorText
  return report.exitCode.toUInt32

end FormatHost.Main

def main (arguments : List String) : IO UInt32 :=
  FormatHost.Main.run arguments
