import EventClient.Error
import EventClient.Json.Decoder
import EventClient.Text.Blank

/-!
Patterns that enable the framework's own tracing: a star for all of it, a name behind an at sign
for one source unit, and any other name for one operation. Blank ends do not count, and a pattern is
shown the way it is written.
-/
namespace EventClient

inductive TracePattern where
  | all
  | unit (name : String)
  | operation (name : String)
deriving DecidableEq, Repr

namespace TracePattern

def text : TracePattern → String
  | .all => "*"
  | .unit name => "@" ++ name
  | .operation name => name

def ofTrimmed (written : String) : Except ClientError TracePattern :=
  if written = "" then .error .emptyPattern
  else if written = "*" then .ok .all
  else
    match written.toList with
    | '@' :: [] => .error .namelessUnit
    | '@' :: name => .ok (.unit (String.ofList name))
    | _ => .ok (.operation written)

def parse (written : String) : Except ClientError TracePattern := ofTrimmed (Text.trim written)

/-- All patterns of a list, or the error of the first one that is none. -/
def parseAll (written : List String) : Except ClientError (List TracePattern) :=
  written.mapM parse

def toJson (p : TracePattern) : Json := .string p.text

def decoder : Json.Decoder TracePattern :=
  Json.Decoder.string.refine fun written =>
    match parse written with
    | .ok p => .ok p
    | .error _ => .error .content

end TracePattern

end EventClient
