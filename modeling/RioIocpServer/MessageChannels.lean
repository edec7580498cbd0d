import RioIocpServer.MessageDelivery
import RioIocpServer.SessionPair

/-!
# The two directions as channels of messages

An overload of `CreateNetBuffer` puts the id of its message before it, and
`HandlePacket` tells from the id which message to parse. If the threads of both
programs send messages that leave room for the rest of a packet, the two directions
between server and client are two channels of messages.
-/

namespace RioIocpServer.MessageChannels

open TransitionSystem FifoChannel Relation WireFormat ProtocolMessages MessageDelivery
open PacketHandler (ProtoId)

section Messages

variable {skipper : Skipper}

end Messages

section Runs

variable {T U : Type*} [DecidableEq T] [DecidableEq U]

variable {skipper : Skipper} {p p' : SessionPair.Pair T U} {a : SessionPair.Action T U}
  {as : List (SessionPair.Action T U)}

end Runs

end RioIocpServer.MessageChannels
