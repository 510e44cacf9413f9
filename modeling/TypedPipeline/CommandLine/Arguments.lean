/-!
# Arguments of a command line

What may follow the name of a command: arguments by their place, and options, which begin with two
dashes and may stand anywhere. The value of an option is joined to it by an equals sign or follows
it. Behind a lone `--` everything is an argument by its place.

A command describes what it takes by a `Shape`, and one reader serves all commands. It goes through
the arguments once, and takes each of them either by its place or as an option. What was not given
is found out at the end, when all arguments have been read.

A request for help ends the reading where it stands, so mistakes behind it are not noticed. The text
of a mistake is not kept: the program ends with its own code for all of them.

## Main definitions

* `Shape` — what a command takes
* `Arguments` — what it was given
* `Shape.read` — reads arguments, unless they stop at a request for help or at a mistake
-/

namespace TypedPipeline.CommandLine

/-- Why the reading of a command line stops. -/
inductive Stop where
  | help
  | version
  | mistake
deriving DecidableEq

/-- The kinds of values. -/
inductive ValueKind where
  | text
  /-- A path is never empty. -/
  | path
deriving DecidableEq

/-- Whether a value is of a kind. -/
def ValueKind.accepts : ValueKind → String → Bool
  | text, _ => true
  | path, s => !s.isEmpty

/-- What a command takes. Texts that may follow the places are there for commands that take any
number of arguments. -/
structure Shape where
  /-- The arguments by their place; all have to be there. -/
  places : List ValueKind := []
  /-- Whether texts follow them, at least one. -/
  more : Bool := false
  /-- The options, with the kind of their value if they have one. -/
  options : List (String × Option ValueKind) := []

/-- What a command was given. -/
structure Arguments where
  places : List String := []
  /-- The options, with their value if they have one. -/
  options : List (String × Option String) := []

namespace Arguments

/-- Whether an option was given. -/
def has (a : Arguments) (option : String) : Bool := (a.options.lookup option).isSome

/-- The value of an option. -/
def value? (a : Arguments) (option : String) : Option String := (a.options.lookup option).join

end Arguments

/-- How an argument reads. -/
inductive Reading where
  | place
  | option (name : String) (value : Option String)
  /-- A single dash and letters. -/
  | letters (first : Char)
  /-- Two dashes alone. -/
  | only

/-- How an argument reads by its dashes. A dash alone is no option. -/
def Reading.of (argument : String) : Reading :=
  match argument.toList with
  | ['-', '-'] => only
  | '-' :: '-' :: cs =>
    let name := String.ofList (cs.takeWhile (· != '='))
    match cs.dropWhile (· != '=') with
    | [] => option name none
    | _ :: value => option name (some (String.ofList value))
  | '-' :: c :: _ => letters c
  | _ => place

/-- Whether an argument can be the value of an option before it. One that begins with a dash cannot;
it has to be joined to the option by an equals sign. -/
def isValue (argument : String) : Bool :=
  match Reading.of argument with
  | .place => true
  | _ => false

namespace Shape

/-- The arguments with one more by its place. -/
def addPlace (shape : Shape) (a : Arguments) (s : String) : Except Stop Arguments :=
  let a' := { a with places := a.places ++ [s] }
  match shape.places[a.places.length]? with
  | some kind => if kind.accepts s then .ok a' else .error .mistake
  | none => if shape.more then .ok a' else .error .mistake

/-- The arguments with one more option; an option counts once. -/
def addOption (a : Arguments) (name : String) (kind : Option ValueKind) (value : Option String) :
    Except Stop Arguments :=
  let fits :=
    match kind, value with
    | none, none => true
    | some kind, some s => kind.accepts s
    | _, _ => false
  if fits && !a.has name then .ok { a with options := a.options ++ [(name, value)] }
  else .error .mistake

/-- Whether everything is there that a command needs. -/
def isComplete (shape : Shape) (a : Arguments) : Bool :=
  if shape.more then shape.places.length < a.places.length
  else a.places.length = shape.places.length

/-- Reads arguments behind a lone `--`. -/
def readPlaces (shape : Shape) (a : Arguments) (l : List String) : Except Stop Arguments :=
  l.foldlM shape.addPlace a

/-- Reads arguments after those that were read already. -/
def readAfter (shape : Shape) (a : Arguments) : List String → Except Stop Arguments
  | [] => .ok a
  | s :: rest =>
    match Reading.of s with
    | .only => shape.readPlaces a rest
    | .place => do shape.readAfter (← shape.addPlace a s) rest
    | .letters first => .error (if first = 'h' then .help else .mistake)
    | .option "help" none => .error .help
    | .option name value =>
      match shape.options.lookup name, value, rest with
      | none, _, _ => .error .mistake
      | some (some kind), none, v :: rest =>
        if isValue v then do shape.readAfter (← addOption a name (some kind) (some v)) rest
        else .error .mistake
      | some kind, value, rest => do shape.readAfter (← addOption a name kind value) rest

/-- Reads all arguments of a command. -/
def read (shape : Shape) (l : List String) : Except Stop Arguments := do
  let a ← shape.readAfter {} l
  if shape.isComplete a then .ok a else .error .mistake

end Shape

end TypedPipeline.CommandLine
