/-!
# Options and operands

A command line is a list of words.  `CommandShape.read` tells its options, their values and its
operands apart, and stops at the name of a command.  A value is taken over only when the next option
starts or the line ends, so that of two mistakes the one found first is not always the one that is
written first.
-/

namespace CallAtlas.Command

inductive UsageError where
  | helpAsked
  | versionAsked
  | nothingGiven
  | missingCommand
  | unknownCommand
  | unknownArgument
  | missingOperand
  | invalidValue
  | givenTwice
  | unwantedValue
  deriving DecidableEq, Repr

inductive OptionRole where
  /-- Given or not. -/
  | flag
  /-- With one value, given at most once. -/
  | single
  /-- With one value each time it is given. -/
  | repeated
  | help
  | version
  deriving DecidableEq, Repr

def OptionRole.takesValue : OptionRole → Bool
  | single | repeated => true
  | flag | help | version => false

structure OptionShape where
  long : String
  short : Option Char
  role : OptionRole
  deriving DecidableEq, Repr

structure CommandShape where
  options : List OptionShape
  /-- The names of the operands, all of which are needed. -/
  operands : List String
  /-- The names of the commands, one of which is needed if there are any. -/
  commands : List String
  deriving DecidableEq, Repr

/-- An option that waits for its value, or for the value to be taken over. -/
structure Pending where
  name : String
  role : OptionRole
  value : Option String
  deriving DecidableEq, Repr

structure Reading where
  flags : List String
  values : List (String × String)
  pending : Option Pending
  /-- Two dashes were read: all that follows is an operand. -/
  operandsOnly : Bool
  /-- The number of operands so far. -/
  operandCount : Nat
  deriving DecidableEq, Repr

namespace Reading

def start : Reading := ⟨[], [], none, false, 0⟩

def takeValue (r : Reading) (name : String) (role : OptionRole) (value : String) :
    Except UsageError Reading :=
  if role = .single && r.values.any (·.1 == name) then .error .givenTwice
  else if value.isEmpty then .error .invalidValue
  else .ok { r with values := r.values ++ [(name, value)] }

def settle (r : Reading) : Except UsageError Reading :=
  match r.pending with
  | none => .ok r
  | some p =>
    match p.value with
    | none => .error .invalidValue
    | some v => { r with pending := none }.takeValue p.name p.role v

def awaitsValue (r : Reading) : Bool := r.pending.any (·.value.isNone)

def applyFlag (r : Reading) (o : OptionShape) : Except UsageError Reading :=
  match r.settle with
  | .error e => .error e
  | .ok r =>
    match o.role with
    | .help => .error .helpAsked
    | .version => .error .versionAsked
    | _ =>
      if r.flags.contains o.long then .error .givenTwice
      else .ok { r with flags := r.flags ++ [o.long] }

def applyOption (r : Reading) (o : OptionShape) (attached : Option String) :
    Except UsageError Reading :=
  match r.settle with
  | .error e => .error e
  | .ok r =>
    match attached with
    | some v => r.takeValue o.long o.role v
    | none => .ok { r with pending := some ⟨o.long, o.role, none⟩ }

def fill (r : Reading) (word : String) : Reading :=
  { r with pending := r.pending.map fun p => { p with value := some word } }

def value? (r : Reading) (name : String) : Option String :=
  (r.values.find? (·.1 == name)).map (·.2)

def valuesOf (r : Reading) (name : String) : List String :=
  (r.values.filter (·.1 == name)).map (·.2)

def isEmpty (r : Reading) : Bool := r.flags.isEmpty && r.values.isEmpty

end Reading

namespace CommandShape

/-- A word with two dashes: the name of an option, and the value behind an equals sign. -/
def readLong (shape : CommandShape) (r : Reading) (body : List Char) :
    Except UsageError Reading :=
  let name := String.ofList (body.takeWhile (· ≠ '='))
  let attached := match body.dropWhile (· ≠ '=') with
    | [] => none
    | _ :: rest => some (String.ofList rest)
  match shape.options.find? (·.long == name) with
  | none => .error .unknownArgument
  | some o =>
    if o.role.takesValue then r.applyOption o attached
    else if attached.isSome then .error .unwantedValue
    else r.applyFlag o

def attachedValue : List Char → Option String
  | [] => none
  | '=' :: rest => some (String.ofList rest)
  | rest => some (String.ofList rest)

/-- A word with one dash: short options, the last of which may have its value attached. -/
def readShort (shape : CommandShape) : Reading → List Char → Except UsageError Reading
  | r, [] => .ok r
  | r, c :: rest =>
    match shape.options.find? (·.short == some c) with
    | none => .error .unknownArgument
    | some o =>
      if o.role.takesValue then r.applyOption o (attachedValue rest)
      else
        match r.applyFlag o with
        | .error e => .error e
        | .ok r => readShort shape r rest

def readOperand (shape : CommandShape) (r : Reading) (word : String) :
    Except UsageError Reading :=
  match shape.operands[r.operandCount]? with
  | some name =>
    match r.settle with
    | .error e => .error e
    | .ok r => .ok
      { r with pending := some ⟨name, .single, some word⟩, operandCount := r.operandCount + 1 }
  | none =>
    if shape.commands.isEmpty || (r.operandsOnly && shape.commands.contains word) then
      .error .unknownArgument
    else .error .unknownCommand

def readWord (shape : CommandShape) (r : Reading) (word : String) : Except UsageError Reading :=
  if r.operandsOnly then shape.readOperand r word
  else
    match word.toList with
    | ['-', '-'] => .ok { r with operandsOnly := true }
    | '-' :: '-' :: body => shape.readLong r body
    | '-' :: c :: rest => shape.readShort r (c :: rest)
    | _ => if r.awaitsValue then .ok (r.fill word) else shape.readOperand r word

/-- Read up to the name of a command, or up to the end.  Gives the command with the words behind
    it. -/
def read (shape : CommandShape) :
    Reading → List String → Except UsageError (Reading × Option (String × List String))
  | r, [] => .ok (r, none)
  | r, word :: words =>
    if !r.operandsOnly && !r.awaitsValue && shape.commands.contains word then
      .ok (r, some (word, words))
    else
      match shape.readWord r word with
      | .error e => .error e
      | .ok r => read shape r words

end CommandShape

end CallAtlas.Command
