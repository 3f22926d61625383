/-!
# Command line arguments

Options are written `-q x`, `-qx`, `-q=x`, `--query x` or `--query=x`, each at most once. A word
that begins with a dash is never the separate value of an option.
-/

namespace EntityFlux.Command

/-- What is printed of a lowered query. -/
inductive Output where
  | pipeline
  | withBindings
  | payload
deriving DecidableEq, Repr

inductive Action where
  | lower (query schema : String) (bucket : Option String) (output : Output)
  | config (output : Option String)
deriving DecidableEq, Repr

inductive Invocation where
  | run (config : Option String) (action : Action)
  | version
  | help
  /-- Arguments that make no sense. -/
  | misuse
deriving DecidableEq, Repr

/-- What an option takes: a path that is not empty, any text, or nothing. -/
inductive Takes where
  | path
  | text
  | nothing
deriving DecidableEq, Repr

structure Flag where
  name : String
  short : Option Char
  takes : Takes

def configFlag : Flag := ⟨"config", some 'c', .path⟩

def helpFlag : Flag := ⟨"help", some 'h', .nothing⟩

def versionFlag : Flag := ⟨"version", some 'V', .nothing⟩

def commonFlags : List Flag := [configFlag, helpFlag, versionFlag]

def lowerFlags : List Flag :=
  [⟨"query", some 'q', .path⟩, ⟨"schema", some 's', .path⟩, ⟨"bucket", some 'b', .text⟩,
   ⟨"ast", none, .nothing⟩, ⟨"payload", none, .nothing⟩, configFlag, helpFlag]

def configFlags : List Flag := [⟨"output", some 'o', .path⟩, configFlag, helpFlag]

/-- An argument by its form. -/
inductive Form where
  | long (name : String) (value : Option String)
  | short (letter : Char) (value : Option String)
  | endOfOptions
  | word (text : String)

/-- A value in the same argument, behind an optional equals sign. -/
def attached : List Char → Option String
  | [] => none
  | '=' :: value => some (String.ofList value)
  | value => some (String.ofList value)

def form (argument : String) : Form :=
  match argument.toList with
  | ['-', '-'] => .endOfOptions
  | '-' :: '-' :: cs =>
    match cs.span (· ≠ '=') with
    | (name, []) => .long (String.ofList name) none
    | (name, _ :: value) => .long (String.ofList name) (some (String.ofList value))
  | '-' :: letter :: rest => .short letter (attached rest)
  | _ => .word argument

/-- The options read so far with their values. -/
abbrev Options := List (String × String)

/-- How the options of one level end. -/
inductive Ending where
  | done (options : Options)
  | atWord (options : Options) (word : String) (rest : List String)
  | version
  | help
  | misuse

def isWord (argument : String) : Bool :=
  match form argument with
  | .word _ => true
  | _ => false

def flagOf? (flags : List Flag) (argument : String) : Option (Flag × Option String) :=
  match form argument with
  | .long name value => (flags.find? (·.name = name)).map (·, value)
  | .short letter value => (flags.find? (·.short = some letter)).map (·, value)
  | _ => none

/-- Notes an option unless it was given before or lacks its path. -/
def note? (flag : Flag) (value : String) (options : Options) : Option Options :=
  if options.any (·.1 = flag.name) ∨ (flag.takes = .path ∧ value = "") then none
  else some (options ++ [(flag.name, value)])

/-- Whether the value of a flag that takes none was given with it. A single dash may be followed by
more letters. -/
def isOverfull (argument : String) (value : Option String) : Bool :=
  match form argument with
  | .long .. => value.isSome
  | _ => false

def readOptions (flags : List Flag) : List String → Options → Ending
  | [], options => .done options
  | argument :: rest, options =>
    match form argument with
    | .word word => .atWord options word rest
    | .endOfOptions => if rest.isEmpty then .done options else .misuse
    | _ =>
      match flagOf? flags argument with
      | none => .misuse
      | some (flag, value) =>
        match flag.takes, value, rest with
        | .nothing, value, rest =>
          if isOverfull argument value then .misuse
          else if flag.name = helpFlag.name then .help
          else if flag.name = versionFlag.name then .version
          else
            match note? flag "" options with
            | some options => readOptions flags rest options
            | none => .misuse
        | _, some value, rest =>
          match note? flag value options with
          | some options => readOptions flags rest options
          | none => .misuse
        | _, none, value :: rest =>
          if isWord value then
            match note? flag value options with
            | some options => readOptions flags rest options
            | none => .misuse
          else .misuse
        | _, none, [] => .misuse

def valueOf? (options : Options) (flag : Flag) : Option String := options.lookup flag.name

def lowerAction? (options : Options) : Option Action := do
  let query ← options.lookup "query"
  let schema ← options.lookup "schema"
  let bindings := (options.lookup "ast").isSome
  let payload := (options.lookup "payload").isSome
  if bindings ∧ payload then none
  else
    let output := if payload then .payload else if bindings then .withBindings else .pipeline
    some (.lower query schema (options.lookup "bucket") output)

/-- Reads the options behind a subcommand; its own choice of a configuration file wins. -/
def readAction (common : Options) (flags : List Flag) (action? : Options → Option Action)
    (arguments : List String) : Invocation :=
  match readOptions flags arguments [] with
  | .done options =>
    match action? options with
    | some action => .run ((valueOf? options configFlag).or (valueOf? common configFlag)) action
    | none => .misuse
  | .help => .help
  | _ => .misuse

/-- What help can be asked about: everything, or one subcommand. -/
def isTopic : List String → Bool
  | [] => true
  | [topic] => topic ∈ ["translate", "config", "help"]
  | _ => false

def invocation (arguments : List String) : Invocation :=
  match readOptions commonFlags arguments [] with
  | .atWord options "translate" rest => readAction options lowerFlags lowerAction? rest
  | .atWord options "config" rest =>
    readAction options configFlags (fun options => some (.config (options.lookup "output"))) rest
  | .atWord _ "help" topics => if isTopic topics then .help else .misuse
  | .version => .version
  | .help => .help
  | _ => .misuse

end EntityFlux.Command
