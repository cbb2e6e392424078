/-
# The log

What a run has to say beside its result.  An entry is a note with a level or a warning.  A reader
has a verbosity: a note is shown when the verbosity is at least its level, a warning when the
verbosity is at least one.

| level | label |
| ---: | --- |
| 1 | `info` |
| 2 | `debug` |
| any other | `trace` |

`Logged` is a result together with the entries written on the way to it, oldest first.
-/

import Galley.Text.Basic

namespace Galley
namespace Log

/-- Something said during a run. -/
inductive Entry where
  | note (level : Int) (message : Text)
  | warning (message : Text)
  deriving DecidableEq, Repr

/-- The label under which an entry is shown. -/
inductive Label where
  | info
  | debug
  | trace
  | warning
  deriving DecidableEq, Repr

/-- The label of a note of some level. -/
def Label.ofLevel (level : Int) : Label :=
  if level = 1 then .info else if level = 2 then .debug else .trace

/-- The word for a label. -/
def Label.name : Label → Text
  | .info => "INFO".toList
  | .debug => "DEBUG".toList
  | .trace => "TRACE".toList
  | .warning => "WARNING".toList

/-- What a reader of some verbosity sees of an entry. -/
def Entry.shown? (verbosity : Int) : Entry → Option (Label × Text)
  | .note level message => if level ≤ verbosity then some (.ofLevel level, message) else none
  | .warning message => if 1 ≤ verbosity then some (.warning, message) else none

/-- What a reader of some verbosity sees of a log. -/
def shown (verbosity : Int) (log : List Entry) : List (Label × Text) :=
  log.filterMap (Entry.shown? verbosity)

/-- The verbosity of a reader that may be absent: nobody reads with verbosity zero. -/
def verbosityOf (reader : Option Int) : Int := reader.getD 0

end Log

/-- A result and the log of how it came about. -/
structure Logged (α : Type) where
  value : α
  log : List Log.Entry

namespace Logged

instance : Monad Logged where
  pure a := ⟨a, []⟩
  bind x f := ⟨(f x.value).value, x.log ++ (f x.value).log⟩

/-- Writes a note. -/
def note (level : Int) (message : Text) : Logged Unit := ⟨(), [.note level message]⟩

/-- Writes a warning. -/
def warn (message : Text) : Logged Unit := ⟨(), [.warning message]⟩

@[simp] theorem value_pure {α : Type} (a : α) : (pure a : Logged α).value = a := rfl

@[simp] theorem log_pure {α : Type} (a : α) : (pure a : Logged α).log = [] := rfl

@[simp] theorem value_bind {α β : Type} (x : Logged α) (f : α → Logged β) :
    (x >>= f).value = (f x.value).value := rfl

@[simp] theorem log_bind {α β : Type} (x : Logged α) (f : α → Logged β) :
    (x >>= f).log = x.log ++ (f x.value).log := rfl

end Logged
end Galley
