import PicBoard.Text.Blank
import PicBoard.Text.Decimal

/-!
# Arguments of a command

An argument is an option by its long name (`--name`, `--name=value`), a row of options by their
letters (`-x`, `-xvalue`, `-x=value`), or an operand.  After `--` every argument is an operand.  A
value that does not stand with its option is the next argument, which may not start with a hyphen.
-/

namespace PicBoard

/-- What a value has to be. -/
inductive ValueKind where
  | text
  /-- A text that is not empty. -/
  | path
  | int64
  | unsigned64
deriving DecidableEq, Repr

/-- Whether a text is a value of a kind. -/
def ValueKind.accepts (kind : ValueKind) (text : String) : Bool :=
  match kind with
  | .text => true
  | .path => text ≠ ""
  | .int64 => (Decimal.readInt64 (Bytes.ofText text)).toOption.isSome
  | .unsigned64 =>
    (Decimal.readNat (Decimal.unsignedMax 64) (Bytes.ofText text)).toOption.isSome

/-- An option of a command. -/
structure CommandOption where
  name : String
  letter : Option Char := none
  /-- What its value is; an option without a value is a switch. -/
  kind : Option ValueKind := none
  /-- Whether it may be given more than once. -/
  repeats : Bool := false
  isRequired : Bool := false
deriving DecidableEq, Repr

/-- The operands of a command. -/
inductive Operands where
  | none
  | one (kind : ValueKind)
  | many (kind : ValueKind)
deriving DecidableEq, Repr

/-- What a command takes. -/
structure CommandGrammar where
  options : List CommandOption := []
  operands : Operands := .none
deriving DecidableEq, Repr

/-- Why arguments do not name something to do. -/
inductive UsageStop where
  | misuse
  | help
  | version
deriving DecidableEq, Repr

/-- What arguments say, each list in the order in which they say it; during reading, the other
way round. -/
structure Arguments where
  switches : List String := []
  /-- The values of options by name. -/
  values : List (String × String) := []
  operands : List String := []
deriving DecidableEq, Repr

namespace Arguments

/-- Whether a switch is given. -/
def has (a : Arguments) (name : String) : Bool := a.switches.contains name

/-- The values of an option. -/
def all (a : Arguments) (name : String) : List String :=
  (a.values.filter fun (n, _) => n = name).map (·.2)

/-- The value of an option, if it is given. -/
def get? (a : Arguments) (name : String) : Option String := (a.all name).head?

/-- The switch that every command has. -/
def helpName : String := "help"

/-- The switch that tells the version. -/
def versionName : String := "version"

/-! ## Taking in options and operands -/

/-- Takes in a switch. -/
def addSwitch (o : CommandOption) (a : Arguments) : Except UsageStop Arguments :=
  if o.name = helpName then .error .help
  else if o.name = versionName then .error .version
  else if a.has o.name then .error .misuse
  else .ok { a with switches := o.name :: a.switches }

/-- Takes in a value of an option. -/
def addValue (o : CommandOption) (kind : ValueKind) (value : String) (a : Arguments) :
    Except UsageStop Arguments :=
  if kind.accepts value = false then .error .misuse
  else if o.repeats = false ∧ (a.get? o.name).isSome = true then .error .misuse
  else .ok { a with values := (o.name, value) :: a.values }

/-- Takes in an operand. -/
def addOperand (operands : Operands) (value : String) (a : Arguments) :
    Except UsageStop Arguments :=
  let add (kind : ValueKind) : Except UsageStop Arguments :=
    if kind.accepts value then .ok { a with operands := value :: a.operands } else .error .misuse
  match operands with
  | .none => .error .misuse
  | .one kind => if a.operands = [] then add kind else .error .misuse
  | .many kind => add kind

/-! ## Reading -/

/-- What was read, and the option whose value is to come next, if there is one. -/
abbrev Progress := Arguments × Option (CommandOption × ValueKind)

/-- Reads a row of option letters.  The first option with a value takes the rest of the row. -/
def readLetters (options : List CommandOption) (a : Arguments) :
    List Char → Except UsageStop Progress
  | [] => .ok (a, none)
  | c :: rest =>
    match options.find? fun o => o.letter = some c with
    | none => .error .misuse
    | some o =>
      match o.kind, rest with
      | none, _ => do readLetters options (← a.addSwitch o) rest
      | some kind, [] => .ok (a, some (o, kind))
      | some kind, '=' :: value => do return (← a.addValue o kind (String.ofList value), none)
      | some kind, value => do return (← a.addValue o kind (String.ofList value), none)

/-- Reads an option by its long name. -/
def readName (options : List CommandOption) (a : Arguments) (body : List Char) :
    Except UsageStop Progress :=
  let (name, value) :=
    match Text.splitOnce '=' body with
    | some (name, value) => (name, some (String.ofList value))
    | none => (body, none)
  match options.find? fun o => o.name = String.ofList name with
  | none => .error .misuse
  | some o =>
    match o.kind, value with
    | none, none => do return (← a.addSwitch o, none)
    | none, some _ => .error .misuse
    | some kind, none => .ok (a, some (o, kind))
    | some kind, some value => do return (← a.addValue o kind value, none)

/-- Whether an argument that starts with a hyphen is a number where numbers are wanted. -/
def isNumberOperand (operands : Operands) (arg : String) : Bool :=
  operands == .many .int64 && ValueKind.int64.accepts arg

/-- Reads all arguments as operands. -/
def readOperands (operands : Operands) (a : Arguments) : List String → Except UsageStop Arguments
  | [] => .ok a
  | arg :: rest => do readOperands operands (← a.addOperand operands arg) rest

/-- Reads arguments after some that were read. -/
def readFrom (g : CommandGrammar) : Progress → List String → Except UsageStop Arguments
  | (a, none), [] => .ok a
  | (_, some _), [] => .error .misuse
  | (a, none), arg :: rest =>
    match arg.toList with
    | ['-', '-'] => readOperands g.operands a rest
    | '-' :: '-' :: body => do readFrom g (← readName g.options a body) rest
    | '-' :: c :: letters =>
      if isNumberOperand g.operands arg then do
        readFrom g (← a.addOperand g.operands arg, none) rest
      else do readFrom g (← readLetters g.options a (c :: letters)) rest
    | _ => do readFrom g (← a.addOperand g.operands arg, none) rest
  | (a, some (o, kind)), arg :: rest =>
    match arg.toList with
    | '-' :: _ :: _ => .error .misuse
    | _ => do readFrom g (← a.addValue o kind arg, none) rest

/-- Whether everything that must be given is given. -/
def isComplete (g : CommandGrammar) (a : Arguments) : Bool :=
  (g.options.all fun o => !o.isRequired || (a.get? o.name).isSome) &&
    match g.operands with
    | .one _ => a.operands ≠ []
    | _ => true

/-- The same with each list the other way round. -/
def reversed (a : Arguments) : Arguments :=
  { switches := a.switches.reverse
    values := a.values.reverse
    operands := a.operands.reverse }

/-- Reads the arguments of a command. -/
def read (g : CommandGrammar) (args : List String) : Except UsageStop Arguments := do
  let a ← readFrom g ({}, none) args
  if a.isComplete g then .ok a.reversed else .error .misuse

end Arguments

end PicBoard
