import CKGameServer.Model.ClientInfo
import CKGameServer.Model.GameServer

/-!
`GameServer::Run`: the packet manager and the slots of `IOCPServer` as one system.

* `GameServer`: the slots, and the packet manager with the database behind it.
* `GameServer.getClientInfo`, `GameServer.sendMsg`: an index from the number of slots on is
  undefined.
* `GameServer.sendPackets`: `SendPacketFunc` is `SendMsg`, for each packet that a handler sends.
* `Slot.callback`: what a slot reports to `OnConnect` and `OnClose`.
* `GameEvent`, `GameServer.step`: what happens next. It is `none` where the packet manager or a slot
  has no next state, and where `mClientInfos` is left.

What a packet looks like in memory is the parameter `wire`. The calls of `SendMsg` of one handler
are not interrupted, and a receive may complete at any slot at any time.
-/

namespace CKGameServer

open Memory

/-! ### The callbacks -/

/-- The events of the packet manager that the slots cause. -/
def Event.IsCallback : Event → Prop
  | .receive _ _ | .connect _ | .close _ => True
  | _ => False

instance : DecidablePred Event.IsCallback
  | .receive _ _ | .connect _ | .close _ => isTrue trivial
  | .clientPacket _ | .systemPacket _ | .response _ | .tick _ | .redisTask _ | .subscribe _ _ =>
    isFalse id

/-- The event of a slot that the packet manager causes. -/
def NetEvent.IsSendMsg : NetEvent → Prop
  | .sendMsg _ _ => True
  | _ => False

instance : DecidablePred NetEvent.IsSendMsg
  | .sendMsg _ _ => isTrue trivial
  | .sendCompletion .. | .recvFailed _ | .accepterThread .. | .acceptCompletion .. => isFalse id

/-- What `WokerThread` and `CloseSocket` report of a slot: `OnConnect` where its receive is armed,
and `OnClose` where a connected slot is closed. -/
def Slot.callback (s : Slot) (clientIndex : ℕ) : NetEvent → Option Event
  | .acceptCompletion wsaRecv _ =>
    some (if (s.onConnect wsaRecv).1 then .connect clientIndex else .close clientIndex)
  | .sendCompletion _ bSuccess dwIoSize _ _ =>
    if (bSuccess = false ∨ dwIoSize = 0) ∧ s.mIsConnect then some (.close clientIndex) else none
  | .recvFailed _ => if s.mIsConnect then some (.close clientIndex) else none
  | .accepterThread .. | .sendMsg _ _ => none

/-! ### The system -/

/-- `GameServer`: the slots it has from `IOCPServer`, and its packet manager with the database
behind it. -/
structure GameServer where
  mClientInfos : List Slot
  m_pPacketManager : World

/-- What happens next. The packet manager, the Redis thread or the subscriber goes on; a slot does;
a receive of a slot brings bytes. -/
inductive GameEvent where
  | packetManager (e : Event) (wsaSend : ℕ → Bool)
  | slot (clientIndex : ℕ) (e : NetEvent)
  | recv (clientIndex : ℕ) (pData : Chunk)

namespace GameServer

/-- `GameServer::Run`: `CreateClient` and the packet manager at its start. -/
def run (maxClient : UInt32) (memory : ℕ → View) (store : Store) : GameServer where
  mClientInfos := List.replicate maxClient.toNat {}
  m_pPacketManager := World.init maxClient.toNat memory store

/-- `IOCPServer::GetClientInfo`. -/
def getClientInfo (g : GameServer) (clientIndex : ℕ) : Option Slot := g.mClientInfos[clientIndex]?

/-- `IOCPServer::SendMsg`. -/
def sendMsg (g : GameServer) (clientIndex : ℕ) (pData : Bytes) (wsaSend : Bool) :
    Option GameServer :=
  (g.getClientInfo clientIndex).map fun pClient =>
    { g with mClientInfos := g.mClientInfos.set clientIndex (pClient.sendMsg pData wsaSend) }

variable (wire : ServerPacket → Bytes)

/-- The calls of `SendPacketFunc`, one after the other. Whether the system takes the `k`-th send, if
there is one, is `wsaSend k`. -/
def sendPackets (g : GameServer) : List (ℕ × ServerPacket) → (ℕ → Bool) → Option GameServer
  | [], _ => some g
  | (clientIndex, packet) :: packets, wsaSend =>
    (g.sendMsg clientIndex (wire packet) (wsaSend 0)).bind fun g =>
      g.sendPackets packets fun k => wsaSend (k + 1)

/-- The packets that the packet manager hands to `SendPacketFunc` on its way to `w`. -/
def packetsTo (g : GameServer) (w : World) : List (ℕ × ServerPacket) :=
  w.server.sent.drop g.m_pPacketManager.server.sent.length

/-- One step. -/
def step (g : GameServer) : GameEvent → Option GameServer
  | .packetManager e wsaSend =>
    if e.IsCallback then none
    else
      (g.m_pPacketManager.step e).bind fun w =>
        sendPackets wire { g with m_pPacketManager := w } (g.packetsTo w) wsaSend
  | .slot clientIndex e =>
    if e.IsSendMsg then none
    else
      (g.getClientInfo clientIndex).bind fun s => (s.step e).bind fun s' =>
        (Runs.run World.step g.m_pPacketManager (s.callback clientIndex e).toList).map fun w =>
          { mClientInfos := g.mClientInfos.set clientIndex s', m_pPacketManager := w }
  | .recv clientIndex pData =>
    (g.getClientInfo clientIndex).bind fun _ =>
      (g.m_pPacketManager.step (.receive clientIndex pData)).map fun w =>
        { g with m_pPacketManager := w }

/-- The handler that an event runs, and the packet it runs on. -/
def call (g : GameServer) : GameEvent → Option (Handler × RecvPacket)
  | .packetManager e _ => g.m_pPacketManager.call e
  | .slot _ _ | .recv _ _ => none

/-- The events of the packet manager in an event. -/
def events (g : GameServer) : GameEvent → List Event
  | .packetManager e _ => [e]
  | .slot clientIndex e =>
    ((g.getClientInfo clientIndex).bind fun s => s.callback clientIndex e).toList
  | .recv clientIndex pData => [.receive clientIndex pData]

end GameServer

end CKGameServer
