import MarkupTemplate.Command.Compile

/-!
# The program

Reads the template and writes the page; everything else is decided by the command line's answer.
-/

namespace MarkupTemplate

def readTemplate (path : Text) : IO (Except FileError Bytes) := do
  try
    return .ok (← IO.FS.readBinFile (String.ofList path)).toList
  catch e =>
    match e with
    | .noFileOrDirectory .. => return .error ⟨.noSuchFile, path⟩
    | .permissionDenied .. => return .error ⟨.denied, path⟩
    | _ => return .error ⟨.isDirectory, path⟩

def printError (s : Text) : IO Unit := do
  (← IO.getStderr).putStr (String.ofList s)

end MarkupTemplate

open MarkupTemplate Command in
def main (arguments : List String) : IO UInt32 := do
  match Compile.call (arguments.map String.toList) with
  | .exit exit =>
    IO.print (String.ofList exit.stdout)
    printError exit.stderr
    return (exit.status.getD 0).toUInt32
  | .request template request =>
    match Compile.answer template request (← readTemplate template) with
    | .error e =>
      printError (e.message ++ ['\n'])
      return 1
    | .ok ⟨exit, save⟩ =>
      if let some (path, text) := save then
        IO.FS.writeFile (String.ofList path) (String.ofList text)
      IO.print (String.ofList exit.stdout)
      printError exit.stderr
      return (exit.status.getD 0).toUInt32
