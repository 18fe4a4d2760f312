import EventClient.Error

/-!
The accounts of the machine, by name. A target may name the user who runs it, and the daemon is
told that user's number.
-/
namespace EventClient

structure Accounts where
  entries : List (String × UInt32)
deriving DecidableEq, Repr

namespace Accounts

def uid? (accounts : Accounts) (name : String) : Option UInt32 := accounts.entries.lookup name

/-- The number of a user who has to exist. -/
def find (accounts : Accounts) (name : String) : Except ClientError UInt32 :=
  match accounts.uid? name with
  | some uid => .ok uid
  | none => .error (.unknownUser name)

def standard : Accounts := ⟨[("root", 0)]⟩

end Accounts

end EventClient
