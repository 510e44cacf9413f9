import TypedPipeline.Fault

/-!
# What the surroundings are asked

Programs of this library touch files, clocks and the environment only through requests. Whoever runs
a program answers them: from the real machine, or from a tree of files in memory.

## Implementation notes

Requests are a type and answers are indexed by it, so a host is one function. It may have any
effects: in the program it is the machine, and in statements about all surroundings it is a function
to `StateM W` for any type `W`, about which nothing is assumed.

Failures are answers. A host never throws; a request that may fail has an answer that says so.

## Main definitions

* `Host.Request`, `Host.Request.Reply` — requests and the type of the answer to each
* `Host` — an answer to every request
-/

namespace TypedPipeline

namespace Host

/-- A request. -/
inductive Request where
  /-- Whether there is a file at a path. -/
  | isFile (path : String)
  /-- Whether there is a directory at a path. -/
  | isDirectory (path : String)
  /-- The bytes of a file. -/
  | read (path : String)
  /-- Makes a file of bytes, over what was there. -/
  | write (path : String) (bytes : ByteArray)
  /-- Copies a file; the answer is the number of bytes. -/
  | copy (source destination : String)
  /-- Makes a directory and all directories above it. -/
  | createDirectories (path : String)
  /-- The names in a directory. -/
  | list (path : String)
  /-- The value of a variable of the environment. -/
  | setting (name : String)
  /-- The nanoseconds that have passed since some moment. -/
  | ticks
  /-- The nanoseconds since the beginning of 1970. -/
  | time

/-- The type of the answer. -/
def Request.Reply : Request → Type
  | isFile _ => Bool
  | isDirectory _ => Bool
  | read _ => Except IoError ByteArray
  | write _ _ => Except IoError Unit
  | copy _ _ => Except IoError Nat
  | createDirectories _ => Except IoError Unit
  | list _ => Except IoError (List String)
  | setting _ => Option String
  | ticks => Nat
  | time => Nat

end Host

/-- An answer to every request, with the effects of `m`. The answer need not be the same each time,
and need not fit to answers given before. -/
abbrev Host (m : Type → Type) := (r : Host.Request) → m r.Reply

namespace Host

/-- The text of bytes. -/
def textOf? (bytes : ByteArray) : Except IoError String :=
  match String.fromUTF8? bytes with
  | some s => .ok s
  | none => .error .notText

/-- The text of a file. -/
def readText {m : Type → Type} [Monad m] (host : Host m) (path : String) :
    m (Except IoError String) := do
  match (← host (.read path) : Except IoError ByteArray) with
  | .ok bytes => pure (textOf? bytes)
  | .error e => pure (.error e)

end Host

end TypedPipeline
