import TemplateGuards.CommandLine.Basic

/-!
Reading a command line.  Words are read from left to right in a scope: the top level, and after
the name of a command that command's own.  A scope has its options; those that are in every scope
mean the same before and after the name of a command, and the one after it wins.

An option is written long (`--format json`, `--format=json`) or short (`-f json`, `-fjson`,
`-f=json`), and short flags may share a dash (`-vfjson`).  Everything after `--` is a file.

* `Choice`: what an option asks for, and the scopes that have it;
* `Given`: what has been given in a scope so far;
* `Scope.read`: the words of a scope, up to the name of a command;
* `CommandLine.read`: the meaning of the words.
-/

namespace TemplateGuards

/-- Why a command line is not acted upon. -/
inductive Halt
  /-- It asks for help. -/
  | help
  /-- It asks for the version. -/
  | version
  /-- It means nothing. -/
  | usage (message : Text)
deriving DecidableEq, Repr

/-! ### Options -/

/-- The levels of a command line. -/
inductive Scope
  | top
  | compile
  | codes
deriving DecidableEq, Repr

/-- The options that stand alone. -/
inductive Flag
  | errorsOnly
  | showConfig
  | verbose
  | dryRun
deriving DecidableEq, Repr

/-- The options that take a value. -/
inductive Setting
  | config
  | format
  | dialect
  | nesting
  | set
  | outDir
deriving DecidableEq, Repr

/-- What an option asks for. -/
inductive Choice
  | flag (flag : Flag)
  | setting (setting : Setting)
  | help
  | version
deriving DecidableEq, Repr

namespace Choice

/-- The options of every scope: their long names, and their short ones if they have any. -/
def shared : List (Text × Option Char × Choice) :=
  [("config", some 'c', setting .config), ("format", some 'f', setting .format),
   ("dialect", none, setting .dialect), ("nesting", none, setting .nesting),
   ("set", none, setting .set), ("errors-only", none, flag .errorsOnly),
   ("verbose", some 'v', flag .verbose), ("help", some 'h', help)]

/-- The options of one scope alone. -/
def own : Scope → List (Text × Option Char × Choice)
  | .top => [("show-config", none, flag .showConfig), ("version", some 'V', version)]
  | .compile => [("out-dir", some 'o', setting .outDir), ("dry-run", none, flag .dryRun)]
  | .codes => []

/-- The option of a long name. -/
def ofLong? (scope : Scope) (name : Text) : Option Choice :=
  ((shared ++ own scope).find? fun (long, _, _) => long == name).map fun (_, _, choice) => choice

/-- The option of a short name. -/
def ofShort? (scope : Scope) (name : Char) : Option Choice :=
  ((shared ++ own scope).find? fun (_, short?, _) => short? == some name).map
    fun (_, _, choice) => choice

end Choice

/-! ### What has been given -/

/-- What has been given in a scope. -/
structure Given where
  files : List Text
  flags : List Flag
  config? : Option Text
  format? : Option Format
  dialect? : Option Preset
  nesting? : Option Nesting
  settings : List Text
  outDir? : Option Text
deriving DecidableEq, Repr

namespace Given

/-- Nothing given. -/
def nothing : Given := ⟨[], [], none, none, none, none, [], none⟩

/-- The refusal of an option that has been given before. -/
def repeated : Halt := .usage "an option cannot be used more than once"

/-- The refusal of an empty path. -/
def emptyPath : Halt := .usage "a path cannot be empty"

/-- The value of an option that takes a name. -/
def readName {α : Type} [Named α] (written : Text) : Except Halt (Option α) :=
  match Named.read? written with
  | some a => .ok (some a)
  | none => .error (.usage (Named.refusal written))

/-- The value of an option that takes a path. -/
def readPath (written : Text) : Except Halt (Option Text) :=
  if written.isEmpty then .error emptyPath else .ok (some written)

/-- What is given with one more flag. -/
def addFlag (g : Given) (flag : Flag) : Except Halt Given :=
  if g.flags.contains flag then .error repeated else .ok { g with flags := flag :: g.flags }

/-- What is given with one more file. -/
def addFile (g : Given) (file : Text) : Except Halt Given :=
  if file.isEmpty then .error emptyPath else .ok { g with files := g.files ++ [file] }

/-- What is given with one more value of an option.  Only dialect fields may be set repeatedly. -/
def addSetting (g : Given) (setting : Setting) (value : Text) : Except Halt Given :=
  match setting with
  | .config => do
    if g.config?.isSome then throw repeated
    return { g with config? := ← readPath value }
  | .format => do
    if g.format?.isSome then throw repeated
    return { g with format? := ← readName value }
  | .dialect => do
    if g.dialect?.isSome then throw repeated
    return { g with dialect? := ← readName value }
  | .nesting => do
    if g.nesting?.isSome then throw repeated
    return { g with nesting? := ← readName value }
  | .set => .ok { g with settings := g.settings ++ [value] }
  | .outDir => do
    if g.outDir?.isSome then throw repeated
    return { g with outDir? := ← readPath value }

end Given

/-! ### Reading words -/

/-- How far the reading of a scope has come.  The last value of an option is put into what is
given only when the next option comes or the scope ends. -/
structure Progress where
  given : Given
  /-- The last value of an option, while it is not yet put into what is given. -/
  pending? : Option (Setting × Text)
  /-- Was the last word a file?  Then the next is no command. -/
  afterFile : Bool
deriving DecidableEq, Repr

namespace Progress

/-- Before the first word. -/
def start : Progress := ⟨.nothing, none, false⟩

/-- Everything read so far, put into what is given. -/
def settle (p : Progress) : Except Halt Given :=
  match p.pending? with
  | some (setting, value) => p.given.addSetting setting value
  | none => .ok p.given

/-- One more flag. -/
def raise (p : Progress) (flag : Flag) : Except Halt Progress := do
  return ⟨← (← p.settle).addFlag flag, none, false⟩

/-- One more file. -/
def addFile (p : Progress) (file : Text) : Except Halt Progress := do
  return ⟨← (← p.settle).addFile file, none, true⟩

/-- One more option with the value joined to it. -/
def addJoined (p : Progress) (setting : Setting) (value : Text) : Except Halt Progress := do
  return ⟨← (← p.settle).addSetting setting value, none, false⟩

/-- One more option with the value in a word of its own. -/
def addSeparate (p : Progress) (setting : Setting) (value : Text) : Except Halt Progress := do
  return ⟨← p.settle, some (setting, value), false⟩

end Progress

/-- What a word of short options comes to: all of it is read, or an option waits for its value. -/
structure Cluster where
  progress : Progress
  waiting? : Option Setting

/-- The short options that share a dash. -/
def Scope.readCluster (scope : Scope) (p : Progress) : Text → Except Halt Cluster
  | [] => .ok ⟨p, none⟩
  | c :: rest =>
    match Choice.ofShort? scope c with
    | none => .error (.usage ("unexpected option -" ++ [c]))
    | some .help => do let _ ← p.settle; throw .help
    | some .version => do let _ ← p.settle; throw .version
    | some (.flag flag) => do scope.readCluster (← p.raise flag) rest
    | some (.setting setting) =>
      match rest with
      | [] => .ok ⟨p, some setting⟩
      | '=' :: value => do return ⟨← p.addJoined setting value, none⟩
      | value => do return ⟨← p.addJoined setting value, none⟩

/-- A long option: its name, and the value after an equals sign if there is one. -/
def Scope.readLong (scope : Scope) (p : Progress) (written : Text) : Except Halt Cluster :=
  let (name, value?) :=
    match Text.cut? '=' written with
    | some (name, value) => (name, some value)
    | none => (written, none)
  match Choice.ofLong? scope name, value? with
  | some (.setting setting), some value => do return ⟨← p.addJoined setting value, none⟩
  | some (.setting setting), none => .ok ⟨p, some setting⟩
  | some (.flag flag), none => do return ⟨← p.raise flag, none⟩
  | some .help, none => do let _ ← p.settle; throw .help
  | some .version, none => do let _ ← p.settle; throw .version
  | _, _ => .error (.usage ("unexpected option --" ++ written))

/-- Does the word look like an option?  A dash alone does not. -/
def isOption (word : Text) : Bool := word.head? == some '-' && word != ['-']

/-- The command that a word of the top level names.  The name `help` stands for a command too. -/
def Scope.command? (scope : Scope) (p : Progress) (word : Text) : Option (Option Scope) :=
  if scope != .top || p.afterFile then none
  else if word = "compile" then some (some .compile)
  else if word = "codes" then some (some .codes)
  else if word = "help" then some none
  else none

/-- One more file in a scope that takes files. -/
def Scope.addFile (scope : Scope) (p : Progress) (file : Text) : Except Halt Progress :=
  match scope with
  | .codes => .error (.usage ("unexpected argument " ++ file))
  | _ => p.addFile file

/-- Where the reading of a scope has ended. -/
structure Reading where
  progress : Progress
  /-- The command that follows, `none` for help, and the words after its name. -/
  next? : Option (Option Scope × List Text)

/-- The words of a scope, up to the name of a command. -/
def Scope.read (scope : Scope) (p : Progress) : List Text → Except Halt Reading
  | [] => .ok ⟨p, none⟩
  | word :: rest =>
    match scope.command? p word with
    | some next => .ok ⟨p, some (next, rest)⟩
    | none =>
      if word = "--" then do
        return ⟨← rest.foldlM scope.addFile p, none⟩
      else if !isOption word then do
        scope.read (← scope.addFile p word) rest
      else do
        let cluster ←
          match word with
          | '-' :: '-' :: written => scope.readLong p written
          | _ => scope.readCluster p (word.drop 1)
        match cluster.waiting? with
        | none => scope.read cluster.progress rest
        | some setting =>
          match rest with
          | value :: rest =>
            if isOption value then throw (.usage "a value is required")
            scope.read (← cluster.progress.addSeparate setting value) rest
          | [] => throw (.usage "a value is required")

/-! ### The whole -/

/-- The words after the command `help`: the name of one command, or nothing. -/
def readHelp : List Text → Halt
  | [] => .help
  | [word] =>
    if word = "compile" || word = "codes" || word = "help" then .help
    else .usage ("unrecognized command " ++ word)
  | word :: _ => .usage ("unrecognized command " ++ word)

/-- What is given at the top level and in the scope of a command, together. -/
def CommandLine.ofGiven (command : Command) (top inner : Given) : CommandLine :=
  let has (flag : Flag) := top.flags.contains flag || inner.flags.contains flag
  let files := match command with
    | .compile .. => inner.files
    | _ => top.files
  { command
    files := if files.isEmpty then ["."] else files
    config? := inner.config?.or top.config?
    format := (inner.format?.or top.format?).getD .human
    dialect? := inner.dialect?.or top.dialect?
    nesting? := inner.nesting?.or top.nesting?
    settings := if inner.settings.isEmpty then top.settings else inner.settings
    errorsOnly := has .errorsOnly
    showConfig := has .showConfig
    verbose := has .verbose }

/-- The meaning of the words of a command line. -/
def CommandLine.read (words : List Text) : Except Halt CommandLine := do
  let top ← Scope.top.read .start words
  match top.next? with
  | none => return ofGiven .check (← top.progress.settle) .nothing
  | some (none, rest) => throw (readHelp rest)
  | some (some scope, rest) =>
    let reading ← scope.read .start rest
    let inner ← reading.progress.settle
    let given ← top.progress.settle
    match scope with
    | .compile =>
      return ofGiven (.compile inner.outDir? (inner.flags.contains .dryRun)) given inner
    | _ => return ofGiven .codes given inner

end TemplateGuards
