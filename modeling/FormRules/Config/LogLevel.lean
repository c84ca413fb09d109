import FormRules.Text.Digits

/-!
# Log levels

How much is logged, from nothing to everything.
-/

namespace FormRules.Config

/-- The least severity that is logged. -/
inductive LogLevel where
  | off
  | error
  | warn
  | info
  | debug
  | trace
deriving DecidableEq

namespace LogLevel

/-- The levels by their numbers. -/
def all : List LogLevel := [off, error, warn, info, debug, trace]

/-- The name of a level. -/
def name : LogLevel → String
  | off => "off"
  | error => "error"
  | warn => "warn"
  | info => "info"
  | debug => "debug"
  | trace => "trace"

/-- The level that a text gives by its name in either case, or by its number. An empty text leaves
errors only. -/
def ofText? (text : String) : Option LogLevel :=
  let digits := text.toList
  if digits = [] then some error
  else if digits.all Char.isDigit then all[Text.digitsValue digits]?
  else all.find? fun (level : LogLevel) => level.name = text.toLower

end LogLevel
end FormRules.Config
