import Pkgsrc.Command.Line

/-!
# Pkgsrc.Main -- the program

Stored files are read from the disk; no request for a remote file is answered.
-/

namespace Pkgsrc

set_option autoImplicit false

/-- The content of the file that a word of the command line names, if there is one. -/
def readStored (word : String) : IO (List (Text × Bytes)) := do
  match Url.ofText? word.toList with
  | none => return []
  | some url =>
    try
      let content ← IO.FS.readBinFile (String.ofList url.path)
      return [(url.path, content.toList)]
    catch _ => return []

def exitCode : Command.Ending → UInt32
  | .done => 0
  | .failed => 255
  | .unusable => 2
  | .crashed _ => 1

end Pkgsrc

open Pkgsrc in
def main (words : List String) : IO UInt32 := do
  let stored ← words.mapM readStored
  let files : Text → Option Bytes := fun path => stored.flatten.lookup path
  let outcome := Command.run Command.standard (.start files .silent) (words.map String.toList)
  for line in outcome.printed do
    IO.println (String.ofList line)
  for note in outcome.notes do
    IO.eprintln (String.ofList note.text)
  if outcome.ending = .unusable then
    IO.eprintln "usage: [-D] [--version] COMMAND ..."
  return exitCode outcome.ending
