/-!
The fixed values that client and daemon agree on.
-/
namespace EventClient.Settings

/-- The largest frame, in bytes, that either side accepts. -/
def maxFrameSize : Nat := 1048576

def connectTimeoutMs : Nat := 5000

def defaultAddress : String := "127.0.0.1:4337"

/-- The environment variable that overrides the default address. -/
def addressVariable : String := "APPFW_ADDR"

def statusOk : Int32 := 0

/-- The debug pattern that enables all tracing. -/
def debugAll : String := "*"

/-- The debug pattern for tracing of the dispatch of notifications only. -/
def debugLimited : String := "@dispatch"

end EventClient.Settings
