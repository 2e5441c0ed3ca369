import CKGameServer.Model.GameServer

/-!
What a client puts on its connection: the packed structures of `Packet.h` that the server reads
as `LOGIN_REQUEST_PACKET`, `ROOM_ENTER_REQUEST_PACKET` and `ROOM_LEAVE_REQUEST_PACKET`; and a
database on which its users can log in.
-/

namespace CKGameServer

open Memory

/-- The lowest `n` bytes of a number. -/
def bytesLE (x n : ℕ) : Bytes := (View.ofNatLE x).read 0 n

/-- `PACKET_HEADER`, of a packet with `bodyLength` bytes behind it. -/
def packetHeader (packetId bodyLength : ℕ) : Bytes :=
  bytesLE (packetHeaderLength + bodyLength) 2 ++ bytesLE packetId 2 ++ [0]

/-- A string in an array of `n` bytes. -/
def charArray (s : Bytes) (n : ℕ) : Bytes := (View.ofBytes s).read 0 n

/-- A packet: its header and its body. -/
def packetBytes (packetId : ℕ) (body : Bytes) : Bytes := packetHeader packetId body.length ++ body

def loginRequestPacket (userID userPW : Bytes) : Bytes :=
  packetBytes PacketId.loginRequest.code
    (charArray userID (maxUserIdLen + 1) ++ charArray userPW (maxUserPwLen + 1))

def roomEnterRequestPacket (roomNumber : ℕ) : Bytes :=
  packetBytes PacketId.roomEnterRequest.code (bytesLE roomNumber 4)

def roomLeaveRequestPacket : Bytes := packetBytes PacketId.roomLeaveRequest.code []

/-- The first bytes of a stream, as many as one receive completion takes. -/
def chunk (s : Bytes) : Chunk := ⟨s.take maxSockRecvBuf, List.length_take_le _ _⟩

/-- A packet of a client that arrives in one chunk and is handled at once. -/
def Event.request (clientIndex : ℕ) (packet : Bytes) : List Event :=
  [.receive clientIndex (chunk packet), .clientPacket {}]

/-- A login of a client: the request, the Redis thread and the response to it, and both again
for the inventory. -/
def Event.login (clientIndex : ℕ) (userID userPW : Bytes) : List Event :=
  Event.request clientIndex (loginRequestPacket userID userPW) ++
    [.redisTask default, .response {}, .redisTask default, .response {}]

/-- A database with the password `b` for the users `a` and `c`, and no inventories. -/
def twoUsers : Store := fun key => if key = [97] ∨ key = [99] then some (.str [98]) else none

end CKGameServer
