/-!
# The journal

What a program reports about itself besides its answers: entries in the order
in which they were made, each with its level and the part that reports.
-/

namespace Locus

namespace Journal

/-- How serious a journal entry is. -/
inductive Level
  | debug
  | info
  | warning
  | error
  deriving DecidableEq

/-- The name of a level as the journal shows it. -/
def Level.name : Level → String
  | .debug => "DEBUG"
  | .info => "INFO"
  | .warning => "WARNING"
  | .error => "ERROR"

/-- One line of the journal. -/
structure Entry where
  /-- How serious the entry is. -/
  level : Level
  /-- The part of the program that reports. -/
  channel : String
  /-- What is reported. -/
  text : String
  deriving DecidableEq

/-- The entry as one line. -/
def Entry.render (entry : Entry) : String :=
  entry.level.name ++ " " ++ entry.channel ++ " " ++ entry.text

end Journal

end Locus
