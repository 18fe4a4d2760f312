import EventClient.CommandLine.Setting
import EventClient.Error

/-!
How the program ends: its status and what it writes about a failure, the failure itself and then
the cause behind it.
-/
namespace EventClient.CommandLine

structure Exit where
  status : Nat
  complaint : List String := []
deriving DecidableEq, Repr

namespace Exit

def success : Exit := { status := 0 }

def failure (message : String) (cause : Option String) : Exit :=
  let behind := match cause with
    | some text => ["", "Caused by:", "    " ++ text]
    | none => []
  { status := 1, complaint := s!"Error: {message}".splitOn "\n" ++ behind }

def ofError (e : ClientError) : Exit := failure e.message e.source?

def ofResult : Except ClientError Unit → Exit
  | .ok () => success
  | .error e => ofError e

def unreachable (address : Address) : Exit :=
  failure s!"Failed to reach application framework at {address.text}"
    (some (ClientError.connectionLost address).message)

def ofRefusal : Refusal → Exit
  | .help => success
  | .malformed => { status := 2 }

end Exit

end EventClient.CommandLine
