/-!
# Criteria.Command.Arguments

Telling options from other arguments. Long options take a value after `=` or as the next argument,
short ones may be run together and take the rest of the argument or the next one. `--` ends the
options, and so does the first other argument unless the two may be mixed.
-/

namespace Criteria
namespace Command

/-- An option: what it is for, the names it goes by, and whether it takes a value. -/
structure OptionSpec (κ : Type) where
  key : κ
  names : List String
  takesValue : Bool := false

/-- An option as it was given; the value is empty if it takes none. -/
structure Given (κ : Type) where
  key : κ
  value : String := ""

/-- Options in the order in which they were given, and the other arguments. -/
structure Arguments (κ : Type) where
  given : List (Given κ) := []
  others : List String := []

/-- What is wrong with the way a command is called. -/
inductive UsageError where
  | noSuchOption (name : String)
  | needsValue (name : String)
  | takesNoValue (name : String)
  | badValue (name value : String)
  | isDirectory (name path : String)
  | noSuchCommand (name : String)
  | extraArgument (argument : String)
  deriving DecidableEq, Repr

def UsageError.message : UsageError → String
  | .noSuchOption name => "No such option: " ++ name
  | .needsValue name => "Option '" ++ name ++ "' requires an argument."
  | .takesNoValue name => "Option '" ++ name ++ "' does not take a value."
  | .badValue name value => "Invalid value for '" ++ name ++ "': '" ++ value ++ "'."
  | .isDirectory name path => "Invalid value for '" ++ name ++ "': '" ++ path ++ "' is a directory."
  | .noSuchCommand name => "No such command '" ++ name ++ "'."
  | .extraArgument argument => "Got unexpected extra argument (" ++ argument ++ ")"

namespace Arguments

variable {κ : Type}

def addGiven (gs : List (Given κ)) (a : Arguments κ) : Arguments κ :=
  { a with given := gs ++ a.given }

def addOther (s : String) (a : Arguments κ) : Arguments κ :=
  { a with others := s :: a.others }

/-- What one argument gives: options, and perhaps one that waits for its value. -/
structure Step (κ : Type) where
  given : List (Given κ) := []
  waiting : Option (κ × String) := none

def find? (specs : List (OptionSpec κ)) (name : String) : Option (OptionSpec κ) :=
  specs.find? fun o => o.names.contains name

/-- A name of one character after one hyphen. -/
def isShort (name : List Char) : Bool :=
  match name with
  | ['-', c] => c != '-'
  | _ => false

/-- Short options run together, after their hyphen. -/
def shortStep (specs : List (OptionSpec κ)) : List Char → Except UsageError (Step κ)
  | [] => .ok {}
  | c :: cs =>
    let name := String.ofList ['-', c]
    match find? specs name with
    | none => .error (.noSuchOption name)
    | some o =>
      if o.takesValue then
        match cs with
        | [] => .ok { waiting := some (o.key, name) }
        | _ => .ok { given := [⟨o.key, String.ofList cs⟩] }
      else
        match shortStep specs cs with
        | .error e => .error e
        | .ok step => .ok { step with given := ⟨o.key, ""⟩ :: step.given }

/-- An argument that starts with a hyphen. -/
def optionStep (specs : List (OptionSpec κ)) (arg : List Char) : Except UsageError (Step κ) :=
  let name := arg.takeWhile (· != '=')
  let long := if isShort name then none else find? specs (String.ofList name)
  match long, arg.dropWhile (· != '=') with
  | some o, [] =>
    if o.takesValue then .ok { waiting := some (o.key, String.ofList name) }
    else .ok { given := [⟨o.key, ""⟩] }
  | some o, _ :: value =>
    if o.takesValue then .ok { given := [⟨o.key, String.ofList value⟩] }
    else .error (.takesNoValue (String.ofList name))
  | none, _ =>
    match arg with
    | '-' :: '-' :: _ => .error (.noSuchOption (String.ofList name))
    | _ => shortStep specs (arg.drop 1)

/-- Whether an argument names options: it starts with a hyphen and has more after it. -/
def namesOptions (arg : List Char) : Bool :=
  match arg with
  | '-' :: _ :: _ => true
  | _ => false

/-- Tells the options from the other arguments. -/
def read (specs : List (OptionSpec κ)) (mixed : Bool) :
    List String → Except UsageError (Arguments κ)
  | [] => .ok {}
  | arg :: args =>
    if arg == "--" then .ok { others := args }
    else if namesOptions arg.toList then
      match optionStep specs arg.toList with
      | .error e => .error e
      | .ok { given, waiting := none } => (read specs mixed args).map (addGiven given)
      | .ok { given, waiting := some (key, name) } =>
        match args with
        | [] => .error (.needsValue name)
        | value :: args => (read specs mixed args).map (addGiven (given ++ [⟨key, value⟩]))
    else if mixed then (read specs mixed args).map (addOther arg)
    else .ok { others := arg :: args }

variable [DecidableEq κ]

def has (a : Arguments κ) (key : κ) : Bool :=
  a.given.any fun g => g.key = key

def count (a : Arguments κ) (key : κ) : Nat :=
  a.given.countP fun g => g.key = key

/-- The value that was given last. -/
def last? (a : Arguments κ) (key : κ) : Option String :=
  (a.given.filter fun g => g.key = key).getLast?.map Given.value

end Arguments
end Command
end Criteria
