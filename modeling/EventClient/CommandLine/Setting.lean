/-!
The settings of the command line, and the commands that they belong to. The settings of the whole
program may stand on either side of a command's name.
-/
namespace EventClient.CommandLine

inductive Setting where
  | address
  | tracing
  | verbose
  | events
  | payload
  | label
  | appId
  | binary
  | user
  | process
  | count
  | interval
  | running
deriving DecidableEq, Repr

namespace Setting

def name : Setting → String
  | .address => "addr"
  | .tracing => "debug"
  | .verbose => "verbose"
  | .events => "events"
  | .payload => "payload"
  | .label => "label"
  | .appId => "appid"
  | .binary => "binary"
  | .user => "user"
  | .process => "process"
  | .count => "count"
  | .interval => "interval"
  | .running => "running"

def takesValue : Setting → Bool
  | .verbose | .running => false
  | _ => true

def isRepeatable : Setting → Bool
  | .events => true
  | _ => false

def shared : List Setting := [.address, .tracing, .verbose]

/-- The settings that select applications, one of which has to be given with a send. -/
def selectors : List Setting := [.label, .appId, .binary, .user, .process]

end Setting

inductive CommandName where
  | listen
  | send
  | list
deriving DecidableEq, Repr

namespace CommandName

def ofText? : String → Option CommandName
  | "listen" => some .listen
  | "send" => some .send
  | "list" => some .list
  | _ => none

def settings : CommandName → List Setting
  | .listen => Setting.shared ++ [.events]
  | .send => Setting.shared ++ [.events, .payload] ++ Setting.selectors ++ [.count, .interval]
  | .list => Setting.shared ++ [.running]

end CommandName

/-- Why a command line starts nothing. -/
inductive Refusal where
  | help
  | malformed
deriving DecidableEq, Repr

end EventClient.CommandLine
