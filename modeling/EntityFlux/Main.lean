import EntityFlux.Command.Run

/-!
# The command line program

Looks up the environment and the files that the run may need, runs it on them, and carries out what
it asks for.
-/

namespace EntityFlux.Main

def faultOf : IO.Error → FileFault
  | .noFileOrDirectory .. => .notFound
  | .inappropriateType _ code _ =>
    if code = 20 then .notDirectory else if code = 21 then .isDirectory else .other "Wrong file type"
  | error => .other error.toString

def readFile (path : String) : IO (Except FileFault String) := do
  try
    return .ok (← IO.FS.readFile path)
  catch error => return .error (faultOf error)

def environmentPairs : IO (List (String × String)) :=
  Config.variableNames.filterMapM fun name => do
    return (← IO.getEnv name).map fun value => (name, value)

def fail (message : String) : IO UInt32 := do
  IO.eprintln ("Error: " ++ message)
  return 1

def save (path content : String) : IO UInt32 := do
  try
    IO.FS.writeFile path content
    IO.eprintln ("Config written to " ++ Text.quote path)
    return 0
  catch _ => fail (Command.RunFault.notSaved path).message

end EntityFlux.Main

open EntityFlux EntityFlux.Main in
def main (arguments : List String) : IO UInt32 := do
  let pairs ← environmentPairs
  let environment (name : String) : Option String := pairs.lookup name
  let contents ← (Command.consulted environment arguments).mapM fun path => do
    return (path, ← readFile path)
  let read (path : String) : Except FileFault String :=
    (contents.lookup path).getD (.error .notFound)
  match Command.run { environment, read } arguments with
  | .print text =>
    IO.print text
    return 0
  | .save path content => save path content
  | .fail message => fail message
  | .misuse =>
    IO.eprint Command.helpText
    return 2
