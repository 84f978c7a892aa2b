import FactFold.Text.Blank
import FactFold.Text.Case
import FactFold.Text.Quoted

/-!
# Log levels

Messages have one of four levels. A logger has a level too, given by a number: it passes on messages
of that level and above, unless it is off.
-/

namespace FactFold.Log

-- powers are those of the core library, whatever other powers are in sight
attribute [local instance (2000)] instPowNat

/-- The level of a message. -/
inductive Level where
  | debug
  | info
  | warn
  | error
  deriving Repr, DecidableEq

/-- The number of a message's level. -/
def Level.number : Level → Int
  | .debug => 0
  | .info => 1
  | .warn => 2
  | .error => 3

/-- The number of the level at which a logger is off. -/
def off : Int := 4

/-- The level of a number: levels are signed 32-bit integers, and a number beyond them stands for the
one it agrees with modulo their count. -/
def levelOf (n : Int) : Int := Int.bmod n (2 ^ (32 : Nat))

/-- The name of the level of a number. -/
def levelName (n : Int) : String :=
  let n := levelOf n
  if n = 0 then "DEBUG"
  else if n = 1 then "INFO"
  else if n = 2 then "WARN"
  else if n = 3 then "ERROR"
  else if n = 4 then "OFF"
  else "UNKNOWN"

/-- The number of the level a configured name stands for, whatever its letter case and the blanks
around it; the empty name is the level of summaries. -/
def parseLevel? (s : String) : Option Int :=
  match Text.upperLatin (Text.trim s) with
  | "DEBUG" => some 0
  | "INFO" | "" => some 1
  | "WARN" | "WARNING" => some 2
  | "ERROR" => some 3
  | "OFF" | "NONE" => some 4
  | _ => none

/-- The level of a name that stands for none. -/
def fallbackLevel : Int := 1

/-- The wording for a name that is no level. -/
def unknownLevelMessage (s : String) : String := "unknown log level " ++ Text.quoteText s

end FactFold.Log
