import EngineHost.Cli.Basic
import Std.Time.DateTime.Timestamp

/-!
# The program

Reads the files that a command line needs, runs the command line, and does what it asks for: writes
files, prints, and ends with its exit code.
-/

namespace EngineHost.Main

/-- A byte string as the operating system takes it. -/
def systemText (s : Bytes) : String := (Utf8.toString? (Utf8.scrub s)).getD ""

/-- The reason behind an error of the operating system. -/
def reason (path : Bytes) : IO.Error → Fault
  | .noFileOrDirectory .. => PathFault.missing.fault "open" path
  | .inappropriateType .. => PathFault.isFolder.fault "read" path
  | .invalidArgument .. => PathFault.invalid.fault "open" path
  | e => .plain ("open " ++ path ++ ": " ++ Bytes.ofString (toString e))

def readFile (path : Bytes) : IO (Bytes × Except Fault Bytes) := do
  try
    return (path, .ok (← IO.FS.readBinFile (systemText path)).toList)
  catch e => return (path, .error (reason path e))

def known (files : List (Bytes × Except Fault Bytes)) (path : Bytes) : Except Fault Bytes :=
  match files.find? fun f => f.1 == path with
  | some (_, contents) => contents
  | none => .error (PathFault.missing.fault "open" path)

def now : IO Instant := do
  let t := (← Std.Time.Timestamp.now).val
  let epoch := Instant.dayNumber 1970 1 1 * 86400
  return { seconds := epoch + t.second.val, nanos := t.nano.val.toNat }

/-- Writes the files of a result; false if one cannot be written. -/
def saveAll (acts : List Cli.Act) : IO Bool := do
  let mut ok := true
  for a in acts do
    if let .saved path data := a then
      try
        IO.FS.writeBinFile (systemText path) ⟨data.toArray⟩
      catch e =>
        ok := false
        IO.eprintln s!"Error: {e}"
  return ok

def run (args : List Bytes) : IO UInt32 := do
  let config ← (Cli.filesRead args fun _ => .error default).mapM readFile
  let named ← (Cli.filesRead args (known config)).mapM readFile
  let files : Files :=
    { read := fun path => (known (config ++ named) path).map .bytes
      checkWrite := fun _ => .ok ()
      checkReplace := fun _ => .ok () }
  let start ← now
  let env : Cli.Environment (Guest.Instance Cli.EngineModule) :=
    { files := files
      openBackend := Cli.openBackend files
      runId := Cli.runIdOf (← IO.getRandomBytes 16).toList
      start := start, stop := start }
  let result := Cli.execute env args
  let saved ← saveAll result.acts
  let out ← IO.getStdout
  let err ← IO.getStderr
  out.write ⟨result.written.out.toArray⟩
  err.write ⟨result.written.err.toArray⟩
  match result.ending with
  | .refused r => err.write ⟨("Error: " ++ r.message ++ "\n").toArray⟩
  | .unwritable u => err.write ⟨("Error: " ++ u.message ++ "\n").toArray⟩
  | _ => pure ()
  out.flush
  return if !saved then 1 else result.ending.code.toNat.toUInt32

end EngineHost.Main

def main (args : List String) : IO UInt32 :=
  EngineHost.Main.run (args.map EngineHost.Bytes.ofString)
