import TemplateGuards.Run

/-!
The program itself: it takes a picture of the working directory and of the user's own
configurations, runs the command line on it, prints what the run prints and writes the files that
the run has changed.  A call for help it answers by itself.

The picture has its limits.  Symbolic links are left out of it, and so are the files elsewhere: a
path that leads out of the two directories names nothing.  The files are read one after the other,
and of several that cannot be read the first one is complained of.
-/

namespace TemplateGuards

/-- The tree of the files below a directory. -/
partial def pictureOf (entry : IO.FS.DirEntry) : IO (Option Tree) := do
  let kind := (← entry.path.symlinkMetadata).type
  match kind with
  | .dir =>
    let mut entries := []
    for inner in ← entry.path.readDir do
      if let some t ← pictureOf inner then
        entries := (inner.fileName.toList, t) :: entries
    return some (.directory entries)
  | .file =>
    match String.fromUTF8? (← IO.FS.readBinFile entry.path) with
    | some text => return some (.file (.text text.toList))
    | none => return some (.file .binary)
  | _ => return none

/-- The names that an absolute path consists of. -/
def namesOf (path : String) : List Text := Disk.steps path.toList

/-- The disk with a picture of the directory at an absolute path. -/
def addPicture (d : Disk) (path : String) : IO Disk := do
  let entry : IO.FS.DirEntry := ⟨(← IO.currentDir) / path, ""⟩
  if !(← entry.path.isDir) then return d
  match ← pictureOf entry, d.createDirectories path.toList with
  | some t, .ok ready => return { ready with root := ready.root.put (namesOf path) t }
  | _, _ => return d

/-- The directory of the user's own configurations. -/
def userDirectory : IO String := do
  let home := (← IO.getEnv "HOME").getD ""
  match ← IO.getEnv "XDG_CONFIG_HOME" with
  | some path => return if path.startsWith "/" then path else home ++ "/.config"
  | none => return home ++ "/.config"

/-- The bytes of the standard input as the content of a file. -/
def readInput : IO Content := do
  let bytes ← (← IO.getStdin).readBinToEnd
  return match String.fromUTF8? bytes with
    | some text => .text text.toList
    | none => .binary

/-- Writes the files that differ between two pictures. -/
def writeChanges (before after : Tree) : IO Unit := do
  for (place, text) in Tree.changes before after do
    let path := (← IO.currentDir) / ("/" ++ String.ofList (Path.ofNames place))
    if let some directory := path.parent then IO.FS.createDirAll directory
    IO.FS.writeFile path (String.ofList text)

/-- How the program is used. -/
def helpText : String :=
  "Checks and compiles @allows/@denies authorization directives in templates\n\n" ++
  "Usage: azd [OPTIONS] [FILES]... [COMMAND]\n\n" ++
  "Commands:\n" ++
  "  compile  Compile templates to the host syntax\n" ++
  "  codes    List diagnostic codes\n" ++
  "  help     Print this message or the help of the given subcommand(s)\n\n" ++
  "Arguments:\n" ++
  "  [FILES]...  Files or directories to check ('-' reads standard input)\n\n" ++
  "Options:\n" ++
  "  -c, --config <CONFIG>    Path to configuration file\n" ++
  "  -f, --format <FORMAT>    Output format [default: human] [possible values: human, json]\n" ++
  "      --dialect <DIALECT>  Output dialect (overrides configuration) " ++
    "[possible values: blade, neutral]\n" ++
  "      --nesting <NESTING>  Same-type nesting policy (overrides configuration) " ++
    "[possible values: allow, warn, deny]\n" ++
  "      --set <SET>          Override a dialect template (format: field=value)\n" ++
  "      --errors-only        Show only errors, suppress warnings\n" ++
  "      --show-config        Show effective configuration and exit\n" ++
  "  -v, --verbose            Enable verbose output\n" ++
  "  -h, --help               Print help\n" ++
  "  -V, --version            Print version\n"

/-- Prints what a run has to say on its standard error output. -/
def reportEnding (o : Outcome) : IO Unit := do
  IO.eprint (String.ofList o.errors)
  match o.ending with
  | .done _ => return
  | .usage message => IO.eprintln ("error: " ++ String.ofList message)
  | .failed failure =>
    IO.eprintln "Error:"
    for (message, i) in failure.chain.zipIdx do
      IO.eprintln ("  " ++ toString i ++ ": " ++ String.ofList message)

end TemplateGuards

open TemplateGuards in
/-- Runs a command line in the working directory. -/
def main (words : List String) : IO UInt32 := do
  let given := words.map String.toList
  if let .error .help := CommandLine.read given then
    IO.print helpText
    return 0
  let working := (← IO.currentDir).toString
  let user ← userDirectory
  let empty : Disk := ⟨.directory [], namesOf working⟩
  let disk ← addPicture (← addPicture empty working) (user ++ "/azd")
  let input ← if words.contains "-" then readInput else pure (.text [])
  let colors := (← (← IO.getStdout).isTty) && (← IO.getEnv "NO_COLOR").isNone
  let outcome := run ⟨disk, user.toList, input, colors⟩ given
  IO.print (String.ofList outcome.output)
  reportEnding outcome
  writeChanges disk.root outcome.disk.root
  return outcome.exitCode.toUInt32
