import TraceRollup.Http.Url

/-!
# Endpoints

Where a node listens and where other nodes reach it.
-/

namespace TraceRollup.Http

/-- The path to which nodes send each other messages. -/
def messagesPath : String := "/remote"

/-- The path to which agents send segments. -/
def segmentsPath : String := "/v1/segments"

/-! ### Where a node is reached -/

def trimSlashes (s : String) : String := String.ofList (s.toList.reverse.dropWhile (· == '/')).reverse

/-- The address for messages to a node. A node is named by a whole web address, or by the part of
one between the slashes and the path. -/
def endpoint (node : String) : String :=
  if node.startsWith "http://" || node.startsWith "https://" then trimSlashes node ++ messagesPath
  else "http://" ++ node ++ messagesPath

/-! ### Where a node listens -/

/-- Where nodes listen for messages if nothing is said. -/
def usualMessageAddress : String := ":11800"

/-- Where nodes answer questions on their health if nothing is said. -/
def usualHealthAddress : String := ":9090"

/-- The address to listen on. Without a host, all interfaces are meant. -/
def listenAddress (address usual : String) : String :=
  let a := if address = "" then usual else address
  if a.startsWith ":" then "0.0.0.0" ++ a else a

/-- What is reported when nobody can listen on an address. -/
def listenFault (address usual : String) : String := "listening on " ++ listenAddress address usual

theorem listenAddress_of_host {address : String} (usual : String) (h : address ≠ "")
    (hc : address.startsWith ":" = false) : listenAddress address usual = address := by
  simp [listenAddress, h, hc]

end TraceRollup.Http
