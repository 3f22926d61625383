import EntityFlux.Command.Arguments
import EntityFlux.Command.Config
import EntityFlux.Flux.Json
import EntityFlux.Json.Printer
import EntityFlux.Json.Reader
import EntityFlux.Lowering.Basic
import EntityFlux.Model.Json
import EntityFlux.Schema.Json

/-!
# Running commands

A run loads its configuration, then the schemas, then the query, and prints what the query is
lowered to. The first thing that fails ends it.
-/

namespace EntityFlux.Command

/-- What is left to do at the end of a run. -/
inductive Outcome where
  | print (text : String)
  | save (path content : String)
  | fail (message : String)
  | misuse
deriving DecidableEq, Repr

/-- Why there is nothing to print. -/
inductive RunFault where
  | config (fault : ConfigFault)
  | schemaUnreadable (path : String)
  | schemaMalformed (path : String)
  | queryUnreadable (path : String)
  | queryMalformed (path : String)
  | refused (refusal : Refusal)
  | notSaved (path : String)
deriving DecidableEq, Repr

def RunFault.message : RunFault → String
  | .config fault => fault.message
  | .schemaUnreadable path => "Failed to read schema file " ++ Text.quote path
  | .schemaMalformed path => "Invalid schema file " ++ Text.quote path
  | .queryUnreadable path => "Failed to read query model " ++ Text.quote path
  | .queryMalformed path => "Invalid query model " ++ Text.quote path
  | .refused refusal => refusal.message
  | .notSaved path => "Failed to write " ++ Text.quote path

open Json.Decode

/-- A TOML file lists its schemas under `entity`. -/
def tomlEntities? (text : String) : Option (List Entity) := do
  match ← fields .settings ["entity"] (← Toml.read? text) with
  | [entities] => defaulted [] (list? (Entity.ofJson? .settings)) entities
  | _ => none

def jsonEntities? (text : String) : Option (List Entity) :=
  (Json.read? text).bind (list? (Entity.ofJson? .document))

def loadSchemas (host : Host) (path : String) : Except RunFault Registry :=
  match host.read path with
  | .error _ => .error (.schemaUnreadable path)
  | .ok text =>
    let entities? := if pathExtension? path = some "toml" then tomlEntities? else jsonEntities?
    match entities? text with
    | some entities => .ok (Registry.ofEntities entities)
    | none => .error (.schemaMalformed path)

def loadQuery (host : Host) (path : String) : Except RunFault Query :=
  match host.read path with
  | .error _ => .error (.queryUnreadable path)
  | .ok text =>
    match (Json.read? text).bind Query.ofJson? with
    | some query => .ok query
    | none => .error (.queryMalformed path)

def loadConfig (host : Host) : Option String → Except RunFault Config
  | some path => (Config.loadWithEnvironment host path).mapError .config
  | none => .ok (Config.loadStandard host)

def Output.text (request : Flux.Request) : Output → String
  | .pipeline => request.query ++ "\n"
  | .withBindings => request.bindings.text ++ "\n\n" ++ request.query ++ "\n"
  | .payload => request.json.indented 0 ++ "\n"

def runAction (host : Host) (config : Config) : Action → Except RunFault Outcome
  | .lower query schema bucket output => do
    let registry ← loadSchemas host schema
    let query ← loadQuery host query
    let (_, result) := query.lower config.settings registry (bucket.getD config.bucket)
    let request ← result.mapError .refused
    .ok (.print (output.text request))
  | .config none => .ok (.print Config.template)
  | .config (some path) => .ok (.save path Config.template)

def versionText : String := "fluxlinq 0.1.0\n"

def helpText : String :=
  "Usage: fluxlinq [--config <CONFIG>] translate --query <QUERY> --schema <SCHEMA>"
    ++ " [--bucket <BUCKET>] [--ast | --payload]\n"
    ++ "       fluxlinq [--config <CONFIG>] config [--output <OUTPUT>]\n"

/-- The files that a run may read. -/
def consulted (environment : Environment) (arguments : List String) : List String :=
  match invocation arguments with
  | .run configPath action =>
    (configPath.map ([·])).getD (Config.standardPaths environment)
      ++ match action with
        | .lower query schema _ _ => [schema, query]
        | .config _ => []
  | _ => []

def run (host : Host) (arguments : List String) : Outcome :=
  match invocation arguments with
  | .version => .print versionText
  | .help => .print helpText
  | .misuse => .misuse
  | .run configPath action =>
    match loadConfig host configPath >>= fun config => runAction host config action with
    | .ok outcome => outcome
    | .error fault => .fail fault.message

/-- What a finished run shows: its exit code, what it printed, and its message if it failed. -/
structure Report where
  code : Nat
  printed : String
  message : Option String
deriving DecidableEq, Repr

/-- Runs a command in a directory held in memory. -/
def runIn (files : Files) (environment : Environment) (arguments : List String) :
    Files × Report :=
  match run { environment, read := files.read } arguments with
  | .print text => (files, ⟨0, text, none⟩)
  | .fail message => (files, ⟨1, "", some message⟩)
  | .misuse => (files, ⟨2, "", none⟩)
  | .save path content =>
    match files.write path content with
    | .ok files => (files, ⟨0, "", none⟩)
    | .error _ => (files, ⟨1, "", some (RunFault.notSaved path).message⟩)

end EntityFlux.Command
