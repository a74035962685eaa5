import TraceRollup.Config
import TraceRollup.LogFilter
import TraceRollup.Http.Endpoint

/-!
# Command line

`CommandLine.parse` reads the arguments: options first, then perhaps a command. `run` says how
the program ends on them. A failure is reported with its causes, the outermost first.
-/

namespace TraceRollup.CommandLine

/-! ### Arguments -/

inductive Command
  | version | checkConfig
  deriving DecidableEq

def Command.ofName? : String → Option Command
  | "version" => some .version
  | "check-config" => some .checkConfig
  | _ => none

inductive Setting
  | config | logLevel
  deriving DecidableEq

structure Invocation where
  config : Option String := none
  logLevel : Option String := none
  command : Option Command := none
  deriving DecidableEq

inductive Parsed
  | invocation (i : Invocation)
  | help
  | misuse
  deriving DecidableEq

/-- The arguments up to some point. The last option may wait for its value, or its value may
still have to be looked at. -/
structure Reading where
  settled : Invocation := {}
  held : Option (Setting × Option String) := none

namespace Reading

/-- Looks at the value of the last option. An option has one value and is given once, and the
path of a file is not empty. -/
def settle (r : Reading) : Option Invocation :=
  match r.held with
  | none => some r.settled
  | some (_, none) => none
  | some (.config, some v) =>
    if v = "" ∨ r.settled.config.isSome then none else some { r.settled with config := some v }
  | some (.logLevel, some v) =>
    if r.settled.logLevel.isSome then none else some { r.settled with logLevel := some v }

/-- An option whose value is the next argument. -/
def hold (r : Reading) (s : Setting) : Option Reading := r.settle.map fun i => ⟨i, some (s, none)⟩

/-- An option with its value in the same argument. -/
def attach (r : Reading) (s : Setting) (value : String) : Option Reading := do
  let i ← (⟨← r.settle, some (s, some value)⟩ : Reading).settle
  return ⟨i, none⟩

end Reading

/-- What an argument that starts with a dash does: an option is read, or help is asked for. -/
inductive Switch
  | read (r : Reading)
  | help

def cutAtEquals (cs : List Char) : List Char × Option (List Char) :=
  match cs.dropWhile (· ≠ '=') with
  | [] => (cs, none)
  | _ :: value => (cs.takeWhile (· ≠ '='), some value)

def longSetting? : String → Option Setting
  | "config" => some .config
  | "log-level" => some .logLevel
  | _ => none

/-- An argument that starts with two dashes, without them. -/
def longSwitch (r : Reading) (cs : List Char) : Option Switch :=
  match cutAtEquals cs with
  | (name, value) =>
    let name := String.ofList name
    match longSetting? name, value with
    | some s, none => (r.hold s).map .read
    | some s, some v => (r.attach s (String.ofList v)).map .read
    | none, none => if name = "help" then r.settle.map fun _ => .help else none
    | none, some _ => none

/-- An argument that starts with one dash, without it. -/
def shortSwitch (r : Reading) : List Char → Option Switch
  | ['c'] => (r.hold .config).map .read
  | 'c' :: '=' :: v => (r.attach .config (String.ofList v)).map .read
  | 'c' :: v => (r.attach .config (String.ofList v)).map .read
  | 'h' :: _ => r.settle.map fun _ => .help
  | _ => none

/-- Nothing but a request for help follows a command. -/
def afterCommand (r : Reading) (c : Command) : List String → Parsed
  | [] | ["--"] =>
    match r.settle with
    | some i => .invocation { i with command := some c }
    | none => .misuse
  | a :: _ => if a = "--help" ∨ a.startsWith "-h" then .help else .misuse

/-- Help may be asked for on one command. -/
def afterHelp : List String → Parsed
  | [] => .help
  | [a] => if a = "help" ∨ (Command.ofName? a).isSome then .help else .misuse
  | _ => .misuse

def parseFrom : Reading → List String → Parsed
  | r, [] =>
    match r.settle with
    | some i => .invocation i
    | none => .misuse
  | r, a :: rest =>
    match a.toList with
    | ['-', '-'] => if rest = [] then parseFrom r rest else .misuse
    | '-' :: '-' :: cs =>
      match longSwitch r cs with
      | some (.read r) => parseFrom r rest
      | some .help => .help
      | none => .misuse
    | '-' :: c :: cs =>
      match shortSwitch r (c :: cs) with
      | some (.read r) => parseFrom r rest
      | some .help => .help
      | none => .misuse
    | _ =>
      match r.held with
      | some (s, none) => parseFrom { r with held := some (s, some a) } rest
      | _ =>
        match Command.ofName? a with
        | some c => afterCommand r c rest
        | none => if a = "help" then afterHelp rest else .misuse

def parse (args : List String) : Parsed := parseFrom {} args

/-! ### Failures -/

/-- What went wrong, and what it comes from, the nearest cause first. -/
structure Failure where
  summary : String
  causes : List String := []
  deriving DecidableEq

/-- Puts a lead before a text; its further lines are indented as far. -/
def indented (lead text : String) : String :=
  lead ++ ("\n" ++ String.ofList (List.replicate lead.length ' ')).intercalate (text.splitOn "\n")

def numberLead (n : Nat) : String :=
  let digits := toString n
  String.ofList (List.replicate (5 - digits.length) ' ') ++ digits ++ ": "

/-- The lines that list the causes: several are numbered, one is not. -/
def causeTexts : List String → List String
  | [cause] => [indented "    " cause]
  | causes => causes.zipIdx.map fun c => indented (numberLead c.2) c.1

def Failure.text (f : Failure) : String :=
  "Error: " ++ f.summary
    ++ (if f.causes = [] then "" else "\n\nCaused by:\n" ++ "\n".intercalate (causeTexts f.causes)) ++ "\n"

/-! ### Running -/

structure Build where
  release : String := "0.1.0"
  commit : String := "unknown"
  system : String := "linux"
  machine : String := "x86_64"

def Build.text (b : Build) : String :=
  "spanflow " ++ b.release ++ " (commit: " ++ b.commit ++ ", " ++ b.system ++ "/" ++ b.machine ++ ")\n"

inductive Ending
  | printed (text : String)
  | help
  | misuse
  | failed (f : Failure)
  /-- It does not end by itself but serves. -/
  | serving (cfg : Config)

def Ending.code? : Ending → Option Nat
  | .printed _ | .help => some 0
  | .failed _ => some 1
  | .misuse => some 2
  | .serving _ => none

/-- Files as the program finds them: their text, or why it cannot be read. -/
abbrev Files := String → Except String String

def load (files : Files) (path : String) : Except Failure Config :=
  let failed (causes : List String) : Except Failure Config := .error ⟨"loading config from " ++ path, causes⟩
  match files path with
  | .error reason => failed ["reading config file " ++ path, reason]
  | .ok text =>
    match Config.ofYaml text with
    | .ok cfg => .ok cfg
    | .error (.unsound fault) => failed [fault.message]
    | .error .unreadable => failed ["reading config file " ++ path]
    | .error .undecodable => failed ["parsing config file " ++ path, "the text is no configuration"]

/-- Does what is asked for. An option for the log level has precedence over the file. -/
def perform (build : Build) (files : Files) (i : Invocation) : Ending :=
  if i.command = some .version then .printed build.text
  else
    match i.config with
    | none => .failed ⟨"--config is required (use --help for usage)", []⟩
    | some path =>
      match load files path with
      | .error f => .failed f
      | .ok cfg =>
        if i.command = some .checkConfig then .printed (path ++ ": ok\n")
        else
          let level := i.logLevel.getD cfg.logLevel
          if LogFilter.isValid level then .serving { cfg with logLevel := level }
          else .failed ⟨"invalid log level: " ++ level, ["invalid filter directive"]⟩

def run (build : Build) (files : Files) (args : List String) : Ending :=
  match parse args with
  | .invocation i => perform build files i
  | .help => .help
  | .misuse => .misuse

/-! ### Help -/

def helpText : String :=
  "Telemetry collector: aggregates agent segments across a cluster and persists merged metrics\n\n" ++
  "Usage: spanflow [OPTIONS] [COMMAND]\n\n" ++
  "Commands:\n" ++
  "  version       Print version information and exit\n" ++
  "  check-config  Load and validate the configuration, then exit\n" ++
  "  help          Print this message or the help of the given subcommand(s)\n\n" ++
  "Options:\n" ++
  "  -c, --config <CONFIG>        Path to the YAML configuration file\n" ++
  "      --log-level <LOG_LEVEL>  Logging verbosity level (trace, debug, info, warn, error)\n" ++
  "  -h, --help                   Print help\n"

def misuseText : String := "error: unexpected or incomplete arguments\n\nFor more information, try '--help'.\n"

/-- A host without a network cannot serve. -/
def offlineFailure (cfg : Config) : Failure :=
  ⟨"starting health metrics server",
    [Http.listenFault cfg.health.address Http.usualHealthAddress, "no network"]⟩

end TraceRollup.CommandLine
