import BuildDelivery.Exchange.Request
import BuildDelivery.Exchange.Response

/-! The messages of a conversation. A question is answered by a response or an error, a ping
by a pong with its number. -/

set_option autoImplicit false

namespace BuildDelivery

inductive Message where
  | getLatestBuild (request : Request)
  | latestBuild (response : Response)
  | error (code : UInt32) (text : String)
  | ping (number : UInt64)
  | pong (number : UInt64)
  deriving DecidableEq

namespace Message

def kind : Message → MessageKind
  | getLatestBuild _ => .getLatestBuild
  | latestBuild _ => .latestBuild
  | error _ _ => .error
  | ping _ => .ping
  | pong _ => .pong

def ofFailure (failure : Failure) : Message := error failure.code failure.message

def toResponse : Message → Except Failure Response
  | latestBuild response => .ok response
  | error code text => .error (.remote code text)
  | message => .error (.protocol (.unexpectedReply message.kind))

/-- The reply to a message, by someone who can answer questions. -/
def respond {m : Type → Type} [Monad m] (answer : Request → m (Except Failure Response)) :
    Message → m Message
  | getLatestBuild request => do
    match ← answer request with
    | .ok response => return latestBuild response
    | .error failure => return ofFailure failure
  | ping number => return pong number
  | message =>
    return error Failure.invalidRequestCode ("Unexpected message: " ++ message.kind.label)

end Message

end BuildDelivery
