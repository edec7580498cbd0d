import RioIocpServer.RioConnection
import RioIocpServer.IocpConnection

/-!
# The two directions between server and client

The server's end of a connection is a RIO session and the client's end an IOCP
session: the packets to the client leave a registered buffer and arrive in the
buffer of an IOCP session, those to the server leave with `WSASend` and arrive
in the buffer of a RIO session. Whatever the threads of both programs do, the
two directions are two channels of packets.
-/

namespace RioIocpServer.SessionPair

open TransitionSystem FifoChannel Relation

variable {T U : Type*} [DecidableEq T] [DecidableEq U]

/-- The two directions; `T` and `U` are the threads that send. -/
structure Pair (T U : Type*) where
  /-- From the RIO session of the server to the IOCP session of the client. -/
  toClient : Connection.State (RioConnection.Sender T)
  /-- From the IOCP session of the client to the RIO session of the server. -/
  toServer : Connection.State (IocpConnection.Sender U)

/-- A step of one direction. -/
inductive Action (T U : Type*) where
  /-- A step of the direction to the client. -/
  | toClient (a : Connection.Action (RioConnection.Action T))
  /-- A step of the direction to the server. -/
  | toServer (a : Connection.Action (IocpConnection.Action U))

/-- One step. -/
def step (p : Pair T U) : Action T U → Option (Pair T U)
  | .toClient a => (Connection.step RioConnection.source .iocp p.toClient a).map fun s =>
      { p with toClient := s }
  | .toServer a => (Connection.step IocpConnection.source .rio p.toServer a).map fun s =>
      { p with toServer := s }

/-- Two sessions that were just connected and have posted their first receives. -/
def init (sendMemory recvMemory recvMemory' : ℤ → UInt8) (accepted accepted' : Bool) :
    Pair T U where
  toClient := Connection.init .iocp recvMemory accepted (RioConnection.init sendMemory)
  toServer := Connection.init .rio recvMemory' accepted' IocpConnection.init

/-- Both ends hand over frames. -/
def SendsFrames (p : Pair T U) : Action T U → Prop
  | .toClient a => Connection.SendsMeet RioConnection.SendsFrames p.toClient a
  | .toServer a => Connection.SendsMeet IocpConnection.SendsFrames p.toServer a

instance decidableSendsFrames (p : Pair T U) : ∀ a, Decidable (SendsFrames p a)
  | .toClient a => inferInstanceAs
      (Decidable (Connection.SendsMeet RioConnection.SendsFrames p.toClient a))
  | .toServer a => inferInstanceAs
      (Decidable (Connection.SendsMeet IocpConnection.SendsFrames p.toServer a))

/-- The direction to the client is a channel of the packets queued. -/
theorem toClient_implements : Implements (Connection.step RioConnection.source .iocp)
    (Connection.Inv RioConnection.source .iocp RioConnection.Inv)
    (Connection.SendsMeet RioConnection.SendsFrames)
    (fun s : Connection.State (RioConnection.Sender T) => s.sender.session.pushed)
    (fun s => s.receiver.handled) :=
  Connection.implements RioConnection.source_framed .iocp

/-- The direction to the server is a channel of the packets accepted by the service. -/
theorem toServer_implements [Fintype U] : Implements
    (Connection.step IocpConnection.source .rio)
    (Connection.Inv IocpConnection.source .rio IocpConnection.Inv)
    (Connection.SendsMeet IocpConnection.SendsFrames)
    (fun s : Connection.State (IocpConnection.Sender U) => s.sender.session.sent.flatten)
    (fun s => s.receiver.handled) :=
  Connection.implements IocpConnection.source_framed .rio

/-- The invariants of both directions. -/
structure Inv [Fintype U] (p : Pair T U) : Prop where
  /-- The invariant of the direction to the client. -/
  toClient : Connection.Inv RioConnection.source .iocp RioConnection.Inv p.toClient
  /-- The invariant of the direction to the server. -/
  toServer : Connection.Inv IocpConnection.source .rio IocpConnection.Inv p.toServer

section Runs

variable [Fintype U] {p p' : Pair T U} {as : List (Action T U)}

/-- The two channels a pair stands for. -/
def channels (p : Pair T U) (inv : Inv p) : Channel (List UInt8) × Channel (List UInt8) :=
  (toClient_implements.channel p.toClient inv.toClient,
    toServer_implements.channel p.toServer inv.toServer)

/-- A step keeps both invariants and takes nothing back. -/
theorem step_refines (inv : Inv p) {a : Action T U} (hok : SendsFrames p a)
    (h : step p a = some p') :
    ∃ inv' : Inv p', ReflTransGen PairStep (channels p inv) (channels p' inv') := by
  cases a with
  | toClient a =>
    obtain ⟨s, hs, rfl⟩ := Option.map_eq_some_iff.mp h
    obtain ⟨hkept, hsteps⟩ := toClient_implements.step_refines inv.toClient hok hs
    exact ⟨⟨hkept, inv.toServer⟩, steps_pair hsteps .refl⟩
  | toServer a =>
    obtain ⟨s, hs, rfl⟩ := Option.map_eq_some_iff.mp h
    obtain ⟨hkept, hsteps⟩ := toServer_implements.step_refines inv.toServer hok hs
    exact ⟨⟨inv.toClient, hkept⟩, steps_pair .refl hsteps⟩

/-- The sessions satisfy the invariants when they are connected. -/
theorem inv_init (sendMemory recvMemory recvMemory' : ℤ → UInt8) (accepted accepted' : Bool) :
    Inv (init sendMemory recvMemory recvMemory' accepted accepted' : Pair T U) where
  toClient := Connection.inv_init RioConnection.source_framed .iocp recvMemory accepted
    (RioConnection.inv_init sendMemory)
  toServer := Connection.inv_init IocpConnection.source_framed .rio recvMemory' accepted'
    IocpConnection.inv_init

/-- The invariants hold wherever the pair gets. -/
theorem inv_reachable {sendMemory recvMemory recvMemory' : ℤ → UInt8} {accepted accepted' : Bool}
    (h : ReachableVia step SendsFrames
      (init sendMemory recvMemory recvMemory' accepted accepted') p) : Inv p :=
  h.invariant (inv_init sendMemory recvMemory recvMemory' accepted accepted')
    fun _ _ _ inv hok hs => (step_refines inv hok hs).1

end Runs

/-- Two packets to the client and three to the server. -/
def exchange : List (Action Unit Bool) :=
  RioConnection.sendTwo.map .toClient ++ IocpConnection.sendThree.map .toServer

end RioIocpServer.SessionPair
