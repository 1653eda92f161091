import FormulaDesk.CommandLine.Run
import FormulaDesk.Expression.BuiltIn
import FormulaDesk.Service.Url

/-!
# The program

Runs a command line in the current folder: shows what the run shows, writes its files, and ends with
its code. No service is attached, so every request ends as a refused connection; an image is written
as a single point.
-/

namespace FormulaDesk

/-- The answer of a service that nobody runs. -/
def noService : Outcome :=
  .failed (.http ⟨"ConnectError", true⟩ "[Errno 111] Connection refused")

/-- An image of one point. -/
def onePoint : List Nat :=
  [137, 80, 78, 71, 13, 10, 26, 10, 0, 0, 0, 13, 73, 72, 68, 82, 0, 0, 0, 1, 0, 0, 0, 1, 8,
    6, 0, 0, 0, 31, 21, 196, 137, 0, 0, 0, 13, 73, 68, 65, 84, 120, 218, 99, 100, 96, 248, 95,
    15, 0, 2, 135, 1, 128, 235, 71, 186, 146, 0, 0, 0, 0, 73, 69, 78, 68, 174, 66, 96, 130]

/-- Writes a file: text at the end of what is there, an image in its place. -/
def writeFile (name : String) (content : Content) : IO Unit := do
  match content with
  | .text s =>
    let handle ← IO.FS.Handle.mk name .append
    handle.putStr s
  | .image => IO.FS.writeBinFile name ⟨(onePoint.map Nat.toUInt8).toArray⟩

end FormulaDesk

open FormulaDesk in
def main (args : List String) : IO UInt32 := do
  let run := CommandLine.run
    { engine := Expression.builtIn, readBase := Url.read
      folder := { root := ".", isCurrent := true }, service := fun _ => noService
      freshName := "preview.png" } args
  IO.print run.shown
  IO.eprint run.logged
  for (name, content) in run.folder.files do
    writeFile name content
  match run.ending with
  | .exit code => return code.toUInt32
  | .misused message =>
    IO.eprintln message
    return 2
  | .failed failure =>
    IO.eprintln failure.message
    return 1
