import Std.Time.DateTime.Timestamp
import TypedPipeline.CommandLine.Program

/-!
# The command line

Answers the requests of the program from the real machine, prints what it prints, and writes its
notes and its last fault to the error output.

This is the only module in which something is done. All else are programs that say what they would
do, and here their requests are answered one by one.

Notes are printed in the order in which they were left, all with the time at which the program ends.
The fault comes last, as a report.

## Main definitions

* `Machine.real` — the answers of the real machine
* `main` — the program
-/

namespace TypedPipeline

/-- The failure of a file operation of the machine. -/
def IoError.ofMachine : IO.Error → IoError
  | .noFileOrDirectory .. => .notFound
  | .alreadyExists .. => .alreadyExists
  | .inappropriateType _ 21 _ => .isDirectory
  | .inappropriateType _ 20 _ => .notDirectory
  | .invalidArgument _ 36 _ => .nameTooLong
  | .permissionDenied _ code _ => .other s!"Permission denied (os error {code})"
  | e => .other (toString e)

namespace Machine

/-- An operation of the machine with its failure as a value. -/
def attempt {α : Type} (x : IO α) : IO (Except IoError α) := do
  try
    let a ← x
    pure (.ok a)
  catch e => pure (.error (.ofMachine e))

/-- Whether there is something of a type at a path. -/
def isOfType (path : String) (wanted : IO.FS.FileType → Bool) : IO Bool := do
  try
    let found ← (System.mkFilePath [path]).metadata
    pure (wanted found.type)
  catch _ => pure false

/-- The time of the machine, in nanoseconds since the beginning of 1970. -/
def now : IO Nat := do
  let t ← Std.Time.Timestamp.now
  pure t.toNanosecondsSinceUnixEpoch.val.toNat

/-- Copies a file; the answer is the number of bytes. -/
def copy (source destination : String) : IO Nat := do
  let bytes ← IO.FS.readBinFile source
  IO.FS.writeBinFile destination bytes
  pure bytes.size

/-- The names in a directory. -/
def names (path : String) : IO (List String) := do
  let entries ← (System.mkFilePath [path]).readDir
  pure (entries.toList.map fun e => e.fileName)

/-- Answers a request from the real machine. -/
def real : Host IO := fun
  | .isFile path => isOfType path fun
    | .file => true
    | _ => false
  | .isDirectory path => isOfType path fun
    | .dir => true
    | _ => false
  | .read path => attempt (IO.FS.readBinFile path)
  | .write path bytes => attempt (IO.FS.writeBinFile path bytes)
  | .copy source destination => attempt (copy source destination)
  | .createDirectories path => attempt (IO.FS.createDirAll path)
  | .list path => attempt (names path)
  | .setting name => IO.getEnv name
  | .ticks => IO.monoNanosNow
  | .time => now

end Machine

end TypedPipeline

open TypedPipeline in
/-- Runs the program on the arguments of the command line. -/
def main (arguments : List String) : IO UInt32 := do
  let (exit, store) ← (CommandLine.program Machine.real arguments).run {}
  let time := Timestamp.text ⟨← Machine.now⟩
  for e in store.events.reverse do
    IO.eprintln (e.stampedLine time)
  IO.print exit.output
  if let some f := exit.fault then IO.eprintln f.report
  pure (UInt32.ofNat exit.code)
