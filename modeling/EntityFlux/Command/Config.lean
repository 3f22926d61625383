import EntityFlux.Command.Files
import EntityFlux.Lowering.Settings
import EntityFlux.Text.Quoted
import EntityFlux.Toml.Reader

/-!
# Configuration

The settings of a run come from a TOML file, and variables of the environment override them.
-/

namespace EntityFlux

structure Config where
  bucket : String := "my-bucket"
  org : String := "my-org"
  settings : Settings := {}
  level : String := "info"
  format : String := "pretty"
deriving DecidableEq

/-- The variables of the environment that are set. -/
abbrev Environment := String → Option String

/-- What a run can see around it. -/
structure Host where
  environment : Environment
  read : String → Except FileFault String

inductive ConfigFault where
  | unreadable (path : String) (fault : FileFault)
  | malformed (path : String)
deriving DecidableEq, Repr

def ConfigFault.message : ConfigFault → String
  | .unreadable path fault =>
    "Failed to read config file " ++ Text.quote path ++ ": " ++ fault.message
  | .malformed path => "Failed to parse config file " ++ Text.quote path

namespace Config

open Json.Decode

/-- Two texts, each with its default. -/
def pairOfJson? (names defaults : String × String) (json : Json) : Option (String × String) := do
  match ← fields .settings [names.1, names.2] json with
  | [first, second] => do
    let first ← defaulted defaults.1 string? first
    let second ← defaulted defaults.2 string? second
    some (first, second)
  | _ => none

def ofJson? (json : Json) : Option Config := do
  let blank : Config := {}
  match ← fields .settings ["client", "translation", "logging"] json with
  | [client, lowering, logging] => do
    let target := (blank.bucket, blank.org)
    let (bucket, org) ← defaulted target (pairOfJson? ("bucket", "org") target) client
    let settings ← defaulted {} (Settings.ofJson? .settings) lowering
    let log := (blank.level, blank.format)
    let (level, format) ← defaulted log (pairOfJson? ("level", "format") log) logging
    some { bucket, org, settings, level, format }
  | _ => none

def parse? (text : String) : Option Config := (Toml.read? text).bind ofJson?

def load (host : Host) (path : String) : Except ConfigFault Config :=
  match host.read path with
  | .error fault => .error (.unreadable path fault)
  | .ok text =>
    match parse? text with
    | some config => .ok config
    | none => .error (.malformed path)

/-- A variable that is set counts, even if it is empty. -/
def override (host : Host) (config : Config) : Config where
  bucket := (host.environment "FLUXLINQ_BUCKET").getD config.bucket
  org := (host.environment "FLUXLINQ_ORG").getD config.org
  settings := config.settings
  level := (host.environment "FLUXLINQ_LOG_LEVEL").getD config.level
  format := (host.environment "FLUXLINQ_LOG_FORMAT").getD config.format

def fromEnvironment (host : Host) : Config := override host {}

def loadWithEnvironment (host : Host) (path : String) : Except ConfigFault Config :=
  (load host path).map (override host)

/-- The directory in which users keep their configuration. -/
def userDirectory? (environment : Environment) : Option String :=
  match environment "XDG_CONFIG_HOME" with
  | some path => if path.startsWith "/" then some path else home?
  | none => home?
where
  home? : Option String :=
    match environment "HOME" with
    | none | some "" => none
    | some home => some (home ++ "/.config")

def standardPaths (environment : Environment) : List String :=
  ((userDirectory? environment).map (· ++ "/fluxlinq/config.toml")).toList ++ ["./fluxlinq.toml"]

/-- The variables that a run looks at. -/
def variableNames : List String :=
  ["FLUXLINQ_BUCKET", "FLUXLINQ_ORG", "FLUXLINQ_LOG_LEVEL", "FLUXLINQ_LOG_FORMAT",
   "XDG_CONFIG_HOME", "HOME"]

/-- The first of the standard files that can be loaded, or none of them. -/
def loadStandard (host : Host) : Config :=
  (standardPaths host.environment).findSome? (fun path => (loadWithEnvironment host path).toOption)
    |>.getD (fromEnvironment host)

/-- The text of a configuration file that sets every default. -/
def template : String :=
  "\n".intercalate
    ["# fluxlinq Configuration",
     "#",
     "# Environment variables override these settings:",
     "# - FLUXLINQ_BUCKET",
     "# - FLUXLINQ_ORG",
     "# - FLUXLINQ_LOG_LEVEL",
     "# - FLUXLINQ_LOG_FORMAT",
     "",
     "[client]",
     "# Bucket queried by translated pipelines (bound to parameter p1)",
     "bucket = \"my-bucket\"",
     "",
     "# Organization passed to the query transport",
     "org = \"my-org\"",
     "",
     "[translation]",
     "# Columns dropped ahead of the pivot stage; empty disables the drop stage",
     "# drop_columns = [\"_start\", \"_stop\", \"_measurement\"]",
     "drop_columns = []",
     "",
     "# Translate Count() into stateCount/last/keep instead of rejecting it",
     "count_result_function = false",
     "",
     "# Optional upper bound of the range (seconds since the epoch)",
     "# range_stop = 1605601215",
     "",
     "[logging]",
     "# Log level: trace, debug, info, warn, error",
     "level = \"info\"",
     "",
     "# Log format: pretty (for development) or json (for production)",
     "format = \"pretty\"",
     ""]

end Config

end EntityFlux
