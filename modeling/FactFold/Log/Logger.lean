import FactFold.Log.Format
import FactFold.Log.Level

/-!
# Loggers

A base logger writes the messages its level lets through, one line each. A named logger puts its name
before every template and hands it on; a silent one writes nothing. Base loggers are known by number:
their levels, the logger in use by default and everything written so far make up the state `Book`.
-/

namespace FactFold.Log

/-- A logger. -/
inductive Logger where
  | base (id : Nat)
  | named (name : String) (next : Logger)
  | silent
  deriving Repr, DecidableEq

/-- A message on its way to a logger. -/
structure Event where
  level : Level
  template : String
  args : List Arg

/-- The state of all loggers. -/
structure Book where
  /-- Levels of the base loggers, by number. -/
  levels : List Int
  /-- The logger in use where none is given. -/
  default : Logger
  written : String

namespace Logger

/-- The base logger behind the names, with the template that reaches it. -/
def reach : Logger → String → Option (Nat × String)
  | .base id, template => some (id, template)
  | .named name next, template => next.reach (name ++ ": " ++ template)
  | .silent, _ => none

/-- The number of the base logger behind the names. -/
def baseId? : Logger → Option Nat
  | .base id => some id
  | .named _ next => next.baseId?
  | .silent => none

end Logger

/-- A logger of this level passes on messages of that one. -/
def passes (current : Int) (level : Level) : Bool := current ≠ off && current ≤ level.number

/-- The line of a message; one that ends with a line break needs no other. -/
def line (level : Level) (message : String) : String :=
  let s := "[" ++ levelName level.number ++ "] " ++ message
  if s.toList.getLast? = some '\n' then s else s ++ "\n"

namespace Book

/-- One logger, in use by default, at the level of summaries. -/
def start : Book := ⟨[1], .base 0, ""⟩

/-- A new base logger. -/
def create (b : Book) (level : Int) : Logger × Book :=
  (.base b.levels.length, { b with levels := b.levels ++ [levelOf level] })

/-- Sets the level of the base logger behind a logger. -/
def setLevel (b : Book) (l : Logger) (level : Int) : Book :=
  match l.baseId? with
  | some id => { b with levels := b.levels.set id (levelOf level) }
  | none => b

/-- Writes a message to a logger. -/
def write (b : Book) (l : Logger) (e : Event) : Book :=
  match l.reach e.template with
  | some (id, template) =>
    if passes (b.levels.getD id off) e.level then
      { b with written := b.written ++ line e.level (format template e.args) }
    else b
  | none => b

/-- Writes messages to a logger in order. -/
def writeAll (b : Book) (l : Logger) (es : List Event) : Book :=
  es.foldl (fun b e => b.write l e) b

/-- Takes out what was written. -/
def flush (b : Book) : String × Book := (b.written, { b with written := "" })

end Book

end FactFold.Log
