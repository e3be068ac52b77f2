import RecordStore.CommandLine.Arguments
import RecordStore.CommandLine.Columns
import RecordStore.Envelope

/-!
# The command line

A command opens the database of a folder, makes a table if it is asked to, runs a batch of queries
from an argument, a file or the standard input, and prints the entries or an envelope as JSON.

- `Setup`: what a command is given besides its arguments;
- `Failure`: why a command fails, with the message that it prints;
- `CommandLine.run`: the exit code, the texts on both outputs and the files afterwards. A command
  that fails exits with 1, one that is given wrong arguments with 2. An envelope that carries an
  error is no failure.
-/

namespace RecordStore.CommandLine

/-- What a command is given besides its arguments: the folder that the environment names, the
standard input, and the circumstances of its queries. -/
structure Setup where
  dataDir : Option String
  input : ByteArray
  circumstances : Nat → Circumstances

/-- What a command leaves. -/
structure Outcome where
  exitCode : UInt32
  output : String
  errors : String
  files : FileTree

/-- Why a command fails. -/
inductive Failure where
  | opening (dataDir : String) (e : QueryError)
  | columns (fault : ColumnsFault)
  | creating (e : QueryError)
  | readingFile (path : String) (fault : Fault)
  | readingInput
  | query (e : QueryError)
  deriving DecidableEq, Repr

/-- An error in words and, if it has a cause of its own, that cause in words. -/
def chain : QueryError → String
  | .parse e => (QueryError.parse e).message ++ ": " ++ e.message
  | e => e.message

/-- The failure in words, with its causes. -/
def Failure.message : Failure → String
  | opening dataDir e => "opening data directory " ++ Text.quote dataDir ++ ": " ++ chain e
  | columns fault => fault.message
  | creating e => chain e
  | readingFile path fault => "reading " ++ Text.quote path ++ ": " ++ fault.report
  | readingInput => "reading queries from stdin: " ++ Fault.notText.report
  | query e => chain e

/-- The configuration that arguments ask for. An argument goes before the environment. -/
def configOf (a : Arguments) (setup : Setup) : StoreConfig where
  dataDir := ((a.get? .dataDir).or setup.dataDir).getD "./data"
  extension := (a.get? .extension).getD "tbl"
  syncWrites := !a.has .noSync

/-- Whether a command only makes a table. -/
def onlyCreates (a : Arguments) : Bool :=
  (a.get? .create).isSome && (a.get? .command).isNone && (a.get? .file).isNone

/-- Whether a command reads its queries from the standard input. -/
def readsInput (a : Arguments) : Bool :=
  (a.get? .create).isNone && (a.get? .command).isNone && (a.get? .file).isNone

/-- The text of the queries of a command. -/
def queryText (a : Arguments) (setup : Setup) (files : FileTree) : Except Failure String :=
  match a.get? .command, a.get? .file with
  | some text, _ => .ok text
  | none, some path => (files.readText path).mapError (.readingFile path)
  | none, none =>
    match String.fromUTF8? setup.input with
    | some text => .ok text
    | none => .error .readingInput

/-- Operations on a store that may fail as a command does. -/
abbrev Operation := EStateM Failure Store

/-- Makes the table that arguments ask for. -/
def createTable (a : Arguments) : Operation Unit :=
  match a.get? .create, a.get? .columns with
  | some name, some columns => fun s =>
    match parseColumns columns with
    | .error fault => .error (.columns fault) s
    | .ok schema =>
      match Store.createTable name schema s with
      | .ok _ s => .ok () s
      | .error e s => .error (.creating e) s
  | _, _ => pure ()

/-- What a command prints for a tree. -/
def print (json : Json) : String := String.ofList (json.pretty 0 ++ ['\n'])

/-- Runs the queries of a command and gives the text to print. -/
def runQueries (a : Arguments) (setup : Setup) : Operation String := fun s =>
  match queryText a setup s.files with
  | .error failure => .error failure s
  | .ok text =>
    match Store.execute setup.circumstances text s with
    | .ok entries s =>
      let json := if a.has .envelope then (Envelope.success entries).toJson else entries.toJson
      .ok (print json) s
    | .error e s =>
      if a.has .envelope then .ok (print (Envelope.error e).toJson) s else .error (.query e) s

/-- What a command does once its database is open. -/
def operation (a : Arguments) (setup : Setup) : Operation String := do
  createTable a
  if onlyCreates a then return "" else runQueries a setup

/-- The name and the version of the command. -/
def version : String := "flatdb 0.1.0\n"

/-- How the command is used. -/
def usage : String :=
  "Query a directory of flat-file tables\n\n" ++
  "Usage: flatdb [OPTIONS]\n\n" ++
  "Options:\n" ++
  "  -d, --data-dir <DATA_DIR>    Directory holding the table files [default: ./data]\n" ++
  "      --extension <EXTENSION>  Extension of table files [default: tbl]\n" ++
  "      --no-sync                Skip fsync after writes\n" ++
  "      --create <TABLE>         Create a table with this name before running any query\n" ++
  "      --columns <COLUMNS>      Columns of the created table, as name:type pairs\n" ++
  "  -c, --command <COMMAND>      Run a query (or several separated by ;) and exit\n" ++
  "  -f, --file <FILE>            Run the queries in a file and exit\n" ++
  "      --envelope               Print the result wrapped in a response envelope\n" ++
  "  -v, --verbose...             Enable verbose output\n" ++
  "  -h, --help                   Print help\n" ++
  "  -V, --version                Print version\n"

/-- Runs a command whose arguments were read. -/
def runArguments (a : Arguments) (setup : Setup) (files : FileTree) : Outcome :=
  let config := configOf a setup
  let failed (failure : Failure) (files : FileTree) : Outcome :=
    { exitCode := 1, output := "", errors := "Error: " ++ failure.message ++ "\n", files }
  match Store.openDatabase config files with
  | .error e files => failed (.opening config.dataDir e) files
  | .ok database files =>
    match operation a setup { database, files } with
    | .ok output s => { exitCode := 0, output, errors := "", files := s.files }
    | .error failure s => failed failure s.files

/-- Runs a command. A folder that the environment names must have a name. -/
def run (arguments : List String) (setup : Setup) (files : FileTree) : Outcome :=
  match Arguments.parse arguments with
  | .error .help => { exitCode := 0, output := usage, errors := "", files }
  | .error .version => { exitCode := 0, output := version, errors := "", files }
  | .error (.fault _) => { exitCode := 2, output := "", errors := usage, files }
  | .ok a =>
    if (a.get? .dataDir).isNone && setup.dataDir = some "" then
      { exitCode := 2, output := "", errors := usage, files }
    else runArguments a setup files

end RecordStore.CommandLine
