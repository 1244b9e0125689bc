import MissionScript.CommandLine.Program

/-!
The program on a real disk.
-/

namespace MissionScript

/-- Whether an action succeeds. -/
def succeeds (action : IO Unit) : IO Bool := do
  try
    action
    return true
  catch _ => return false

/-- Reads a file of the real disk. -/
def fetchFile (path : String) : IO Fetched := do
  try
    let bytes ← IO.FS.readBinFile path
    return .contents bytes.toList
  catch
    | .noFileOrDirectory .. => return .missing
    | _ => return .failed

/-- Makes a folder of the real disk. -/
def makeRealFolder (path : String) : IO Made := do
  try
    IO.FS.createDir path
    return .made
  catch
    | .alreadyExists .. =>
      if ← succeeds do discard (IO.FS.realPath (path ++ "/.")) then return .there
      else return .failed
    | .noFileOrDirectory .. => return .missing
    | _ => return .failed

instance : Disk IO where
  read := fetchFile
  isThere path := succeeds do discard (IO.FS.realPath path)
  createFolders path :=
    makeAround (fun folder => makeRealFolder (String.ofList folder)) (DiskPath.around path.toList)
  write path bytes := succeeds (IO.FS.writeBinFile path ⟨bytes.toArray⟩)
  rename source target := succeeds (IO.FS.rename source target)
  remove path := succeeds (IO.FS.removeFile path)

end MissionScript

open MissionScript

/-- The command line: missions are checked or run, and saves are kept. -/
def main (args : List String) : IO UInt32 := do
  let settingsPath ← IO.getEnv "SEXP_RUNTIME_CONFIG_PATH"
  let exit ← CommandLine.run CommandLine.programName settingsPath args
  IO.print exit.output
  match exit.error with
  | some error => IO.eprintln ("Error: " ++ error)
  | none => pure ()
  return exit.code
