import CorpusQuery.Text.Pieces

/-!
# Messages

Diagnostics for the users of a corpus, the lines that go to the log beside them, and logs that keep
messages until they are taken out.
-/

namespace CorpusQuery

/-- How grave a message is. -/
inductive Severity where
  | info
  | warning
  | error
  deriving Repr, DecidableEq

/-- The word for a severity. -/
def Severity.name : Severity → String
  | .info => "info"
  | .warning => "warning"
  | .error => "error"

/-- The place of a severity in the order from harmless to grave. -/
def Severity.rank : Severity → Nat
  | .info => 0
  | .warning => 1
  | .error => 2

instance : LE Severity := ⟨fun a b => a.rank ≤ b.rank⟩
instance : LT Severity := ⟨fun a b => a.rank < b.rank⟩
instance (a b : Severity) : Decidable (a ≤ b) := inferInstanceAs (Decidable (a.rank ≤ b.rank))
instance (a b : Severity) : Decidable (a < b) := inferInstanceAs (Decidable (a.rank < b.rank))

/-- A message to the users of a corpus. -/
structure Message where
  text : String
  severity : Severity
  corpus : String
  details : String := ""
  user : Option String := none
  deriving Repr, DecidableEq

/-- The levels of log lines. -/
inductive LogLevel where
  | debug
  | info
  | warning
  | error
  deriving Repr, DecidableEq

/-- The word that stands before a log line. -/
def LogLevel.name : LogLevel → String
  | .debug => "DEBUG"
  | .info => "INFO"
  | .warning => "WARN"
  | .error => "ERROR"

/-- The place of a level in the order from harmless to grave. -/
def LogLevel.rank : LogLevel → Nat
  | .debug => 0
  | .info => 1
  | .warning => 2
  | .error => 3

/-- The level on which a message is logged. -/
def Severity.level : Severity → LogLevel
  | .info => .info
  | .warning => .warning
  | .error => .error

/-- Something that happened during an operation: a message, or a line of the log. -/
inductive Event where
  | message (m : Message)
  | log (level : LogLevel) (text : String)
  deriving Repr, DecidableEq

/-- What happens when a message is reported; with `useLog` it also goes to the log. -/
def Message.events (m : Message) (useLog : Bool) : List Event :=
  if useLog then [.log m.severity.level m.text, .message m] else [.message m]

/-- The messages among events. -/
def Event.messages (events : List Event) : List Message :=
  events.filterMap fun
    | .message m => some m
    | .log .. => none

/-- The log lines among events that are at least of the given level. -/
def Event.logLinesFrom (least : LogLevel) (events : List Event) : List String :=
  events.filterMap fun
    | .message _ => none
    | .log level text =>
      if least.rank ≤ level.rank then some (level.name ++ " " ++ text) else none

/-- The log lines among events. -/
def Event.logLines (events : List Event) : List String := logLinesFrom .debug events

/-! ## Logs of messages -/

/-- The messages received, in order. -/
structure MessageLog where
  messages : List Message
  deriving Repr, DecidableEq

namespace MessageLog

/-- The log without messages. -/
def empty : MessageLog := ⟨[]⟩

/-- The log with one more message. -/
def emit (log : MessageLog) (m : Message) : MessageLog := ⟨log.messages ++ [m]⟩

/-- All messages, and the log without them. -/
def drain (log : MessageLog) : List Message × MessageLog := (log.messages, empty)

/-- The messages whose text has `needle` in it. -/
def matching (log : MessageLog) (needle : String) : List Message :=
  log.messages.filter fun m => Text.occursIn needle.toList m.text.toList

/-- Reports a message: what goes to the log file, and the log with the message. -/
def report (log : MessageLog) (m : Message) (useLog : Bool) : List String × MessageLog :=
  (Event.logLines (m.events useLog), log.emit m)

end MessageLog

end CorpusQuery
