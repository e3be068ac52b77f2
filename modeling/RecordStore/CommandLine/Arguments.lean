import RecordStore.Text.Split

/-!
# Arguments of the command line

`Arguments.parse` reads the arguments of a command. There are flags, which stand alone, and options,
which take a value. A long name follows two dashes and may have its value behind `=`. Letters follow
one dash: several flags can share it, and what stands behind the letter of an option is its value.
An argument that starts with a dash is never the value of the option before it. Flags other than
`-v` and all options occur at most once, and nothing else may be given.

Reading stops early at `--help` and `--version`, and at the first `UsageFault`.
-/

namespace RecordStore.CommandLine

/-- The flags of the command. -/
inductive Flag where
  | noSync
  | envelope
  | verbose
  | help
  | version
  deriving DecidableEq, Repr

/-- The options of the command. -/
inductive Setting where
  | dataDir
  | extension
  | create
  | columns
  | command
  | file
  deriving DecidableEq, Repr

/-- The flag or option with a long name. -/
def ofLongName? : String → Option (Flag ⊕ Setting)
  | "no-sync" => some (.inl .noSync)
  | "envelope" => some (.inl .envelope)
  | "verbose" => some (.inl .verbose)
  | "help" => some (.inl .help)
  | "version" => some (.inl .version)
  | "data-dir" => some (.inr .dataDir)
  | "extension" => some (.inr .extension)
  | "create" => some (.inr .create)
  | "columns" => some (.inr .columns)
  | "command" => some (.inr .command)
  | "file" => some (.inr .file)
  | _ => none

/-- The flag or option with a letter. -/
def ofLetter? : Char → Option (Flag ⊕ Setting)
  | 'v' => some (.inl .verbose)
  | 'h' => some (.inl .help)
  | 'V' => some (.inl .version)
  | 'd' => some (.inr .dataDir)
  | 'c' => some (.inr .command)
  | 'f' => some (.inr .file)
  | _ => none

/-- Whether the value of an option names a file or folder, and so cannot be empty. -/
def Setting.isPath : Setting → Bool
  | dataDir | file => true
  | _ => false

/-- Why arguments are refused. -/
inductive UsageFault where
  | unexpected (argument : String)
  | missingValue (setting : Setting)
  | emptyValue (setting : Setting)
  | unexpectedValue (flag : Flag)
  | repeatedFlag (flag : Flag)
  | repeatedSetting (setting : Setting)
  | createWithoutColumns
  | columnsWithoutCreate
  | commandAndFile
  deriving DecidableEq, Repr

/-- Why reading stops. -/
inductive Stop where
  | help
  | version
  | fault (fault : UsageFault)
  deriving DecidableEq, Repr

/-- The arguments that were given. -/
structure Arguments where
  flags : List Flag := []
  settings : List (Setting × String) := []
  deriving DecidableEq, Repr

namespace Arguments

/-- Whether a flag was given. -/
def has (a : Arguments) (flag : Flag) : Bool := a.flags.contains flag

/-- The value of an option, if it was given. -/
def get? (a : Arguments) (setting : Setting) : Option String := a.settings.lookup setting

/-- Takes note of a flag. -/
def addFlag (a : Arguments) (flag : Flag) : Except Stop Arguments :=
  match flag with
  | .help => .error .help
  | .version => .error .version
  | .verbose => .ok { a with flags := flag :: a.flags }
  | .noSync | .envelope =>
    if a.has flag then .error (.fault (.repeatedFlag flag))
    else .ok { a with flags := flag :: a.flags }

/-- Takes note of the value of an option. -/
def addSetting (a : Arguments) (setting : Setting) (value : String) : Except Stop Arguments :=
  if (a.get? setting).isSome then .error (.fault (.repeatedSetting setting))
  else if setting.isPath && value.isEmpty then .error (.fault (.emptyValue setting))
  else .ok { a with settings := (setting, value) :: a.settings }

/-- An option that still needs its value. -/
abbrev Pending := Option Setting

/-- The value behind the letter of an option, after an optional `=`. -/
def attachedValue : List Char → String
  | '=' :: cs => String.ofList cs
  | cs => String.ofList cs

/-- Reads the letters behind one dash. -/
def addLetters (a : Arguments) : List Char → Except Stop (Arguments × Pending)
  | [] => .ok (a, none)
  | c :: cs =>
    match ofLetter? c with
    | none => .error (.fault (.unexpected ("-" ++ c.toString)))
    | some (.inl flag) =>
      match a.addFlag flag with
      | .error stop => .error stop
      | .ok a => addLetters a cs
    | some (.inr setting) =>
      if cs.isEmpty then .ok (a, some setting)
      else (a.addSetting setting (attachedValue cs)).map fun a => (a, none)

/-- Reads what stands behind two dashes. -/
def addLong (a : Arguments) (cs : List Char) : Except Stop (Arguments × Pending) :=
  let (name, value) := match Text.cut? '=' cs with
    | some (name, value) => (String.ofList name, some (String.ofList value))
    | none => (String.ofList cs, none)
  match ofLongName? name, value with
  | none, _ => .error (.fault (.unexpected ("--" ++ name)))
  | some (.inl flag), some _ => .error (.fault (.unexpectedValue flag))
  | some (.inl flag), none => (a.addFlag flag).map fun a => (a, none)
  | some (.inr setting), some value => (a.addSetting setting value).map fun a => (a, none)
  | some (.inr setting), none => .ok (a, some setting)

/-- Whether an argument starts with a dash and has more behind it. -/
def isDashed (argument : String) : Bool :=
  argument.toList.head? == some '-' && 1 < argument.toList.length

/-- Reads one argument that is not a value. -/
def addArgument (a : Arguments) (argument : String) : Except Stop (Arguments × Pending) :=
  match argument.toList with
  | '-' :: '-' :: cs => a.addLong cs
  | '-' :: c :: cs => a.addLetters (c :: cs)
  | _ => .error (.fault (.unexpected argument))

/-- Checks what only the arguments together can show. -/
def finish (a : Arguments) : Except Stop Arguments :=
  let given (s : Setting) : Bool := (a.get? s).isSome
  if given .command && given .file then .error (.fault .commandAndFile)
  else if given .create && !given .columns then .error (.fault .createWithoutColumns)
  else if given .columns && !given .create then .error (.fault .columnsWithoutCreate)
  else .ok a

/-- Reads arguments, given the option that needs a value. After a bare `--` nothing may follow. -/
def addAll (a : Arguments) (pending : Pending) : List String → Except Stop Arguments
  | [] =>
    match pending with
    | some setting => .error (.fault (.missingValue setting))
    | none => .ok a
  | argument :: rest =>
    match pending with
    | some setting =>
      if isDashed argument then .error (.fault (.missingValue setting))
      else
        match a.addSetting setting argument with
        | .error stop => .error stop
        | .ok a => addAll a none rest
    | none =>
      if argument = "--" then
        match rest with
        | [] => .ok a
        | next :: _ => .error (.fault (.unexpected next))
      else
        match a.addArgument argument with
        | .error stop => .error stop
        | .ok (a, pending) => addAll a pending rest

/-- Reads the arguments of a command. -/
def parse (arguments : List String) : Except Stop Arguments := do
  let a ← addAll {} none arguments
  a.finish

end Arguments

end RecordStore.CommandLine
