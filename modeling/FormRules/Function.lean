import FormRules.Error
import FormRules.Value
import Std.Data.TreeMap

/-!
# Functions

The functions that expressions can call. A call first looks up the function and checks the number
of arguments, and only then evaluates arguments, from left to right and no further than the result
needs. The arguments and the way to evaluate them are parameters, so that the same definition tells
what a call returns and which arguments it evaluates.
-/

namespace FormRules

/-- How many arguments a function takes. -/
inductive Arity where
  | exactly (count : Nat)
  | atLeast (count : Nat)
deriving DecidableEq

namespace Arity

/-- A function of this arity can be called with so many arguments. -/
def accepts : Arity → Nat → Bool
  | exactly expected, count => count == expected
  | atLeast least, count => least ≤ count

/-- The description of an arity. -/
def display : Arity → String
  | exactly count => toString count
  | atLeast count => s!"至少 {count}"

end Arity

/-- What a function computes. -/
inductive Builtin where
  /-- Whether nothing was filled in. -/
  | isBlank
  /-- The current date. -/
  | today
  /-- Whether all arguments are true. -/
  | conjunction
  /-- Whether some argument is true. -/
  | disjunction
deriving DecidableEq

/-- A function under some name. -/
structure Function where
  arity : Arity
  builtin : Builtin
deriving DecidableEq

/-- The error of an argument that is not boolean. -/
def EvalError.notBoolean (actual : Value) : EvalError :=
  typeMismatch "boolean" actual.kind.name

namespace Builtin

section

variable {Effect : Type → Type} [Monad Effect] {Argument : Type}
  (evaluate : Argument → Effect (Except EvalError Value))

/-- Evaluates arguments until one is not the given flag. That one decides: a boolean is the result,
and anything else is an error. If there is none, the result is the flag. -/
def whileFlag (flag : Bool) : List Argument → Effect (Except EvalError Value)
  | [] => return .ok (.boolean flag)
  | argument :: rest => do
      match ← evaluate argument with
      | .error error => return .error error
      | .ok (.boolean found) =>
          if found = flag then whileFlag flag rest else return .ok (.boolean found)
      | .ok other => return .error (.notBoolean other)

/-- Evaluates the argument whose blankness is asked for. No argument counts as blank. -/
def blankness : List Argument → Effect (Except EvalError Value)
  | [] => return .ok (.boolean true)
  | argument :: _ => do
      return (← evaluate argument).map fun value => .boolean value.isBlank

/-- Computes a function on a date and arguments. -/
def apply (today : Date) : Builtin → List Argument → Effect (Except EvalError Value)
  | isBlank, arguments => blankness evaluate arguments
  | .today, _ => return .ok (.date today)
  | conjunction, arguments => whileFlag evaluate true arguments
  | disjunction, arguments => whileFlag evaluate false arguments

end

end Builtin

/-- The functions by name. Names differ by case. -/
abbrev Registry := Std.TreeMap String Function

namespace Registry

/-- The names and functions of the language. -/
def builtinFunctions : List (String × Function) :=
  [("ISBLANK", ⟨.exactly 1, .isBlank⟩), ("TODAY", ⟨.exactly 0, .today⟩),
   ("AND", ⟨.atLeast 2, .conjunction⟩), ("OR", ⟨.atLeast 2, .disjunction⟩)]

/-- The functions of the language. -/
def builtin : Registry :=
  .ofList builtinFunctions

/-- Adds a name for what another name stands for, if that exists. -/
def addAlias (registry : Registry) (name existing : String) (arity : Arity) : Option Registry :=
  registry[existing]?.map fun function => registry.insert name ⟨arity, function.builtin⟩

/-- Finds a function for a number of arguments. -/
def resolve (registry : Registry) (name : String) (count : Nat) : Except EvalError Builtin :=
  match registry[name]? with
  | none => .error (.unknownFunction name)
  | some function =>
      if function.arity.accepts count then .ok function.builtin
      else .error (.arityMismatch name function.arity.display count)

/-- Calls a function by name. -/
def call {Effect : Type → Type} [Monad Effect] {Argument : Type} (registry : Registry)
    (today : Date) (evaluate : Argument → Effect (Except EvalError Value)) (name : String)
    (arguments : List Argument) : Effect (Except EvalError Value) :=
  match registry.resolve name arguments.length with
  | .error error => return .error error
  | .ok builtin => builtin.apply evaluate today arguments

end Registry
end FormRules
