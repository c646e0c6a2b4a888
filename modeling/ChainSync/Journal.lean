/-!
# Journal Lines

What the library writes down while it works.

A line has a level, a message and the spans it was written in, outermost
first. A span names the piece of work under way and carries fields that tell
which one. The library never writes anywhere: operations say which lines they
give rise to, and the caller decides where the lines go.

## Main definitions

* `Level`: How much a line matters.
* `Span`: A named piece of work.
* `Line`: One line, with `Line.within` to put it inside a span.
* `Line.render`: The text of a line.
-/

namespace ChainSync

/-- How much a line matters, most first. -/
inductive Level where
  | error
  | warn
  | info
  | debug
deriving DecidableEq

/-- The name of a level. -/
def Level.name : Level → String
  | .error => "ERROR"
  | .warn => "WARN"
  | .info => "INFO"
  | .debug => "DEBUG"

/-- A named piece of work and the fields that identify it. -/
structure Span where
  name : String
  fields : List (String × String)
deriving DecidableEq

/-- The name and, between braces, the fields. -/
def Span.render (s : Span) : String :=
  s.name ++ "\x7b" ++ " ".intercalate (s.fields.map fun f => f.1 ++ "=" ++ f.2) ++ "\x7d"

/-- One line of the journal. -/
structure Line where
  level : Level
  spans : List Span := []
  message : String
deriving DecidableEq

namespace Line

/-- A line at error level. -/
def error (message : String) : Line := { level := .error, message }

/-- A line at warning level. -/
def warn (message : String) : Line := { level := .warn, message }

/-- A line at info level. -/
def info (message : String) : Line := { level := .info, message }

/-- A line at debug level. -/
def debug (message : String) : Line := { level := .debug, message }

/-- The line as written inside one more span, around those it already has. -/
def within (span : Span) (l : Line) : Line := { l with spans := span :: l.spans }

/-- Level, spans and message. -/
def render (l : Line) : String :=
  l.level.name ++ " " ++ String.join (l.spans.map fun s => s.render ++ ": ") ++ l.message

end Line

end ChainSync
