import CKGameServer.Library.Memory

/-!
`Packets.cs` and `NetworkClient.cs` of the client: the packet ids it knows and what its two
routines put on the connection.

* `EPacket`: the enumeration `E_PACKET`.
* `sendData`, `sendData2`: the bytes of one call. Both allocate a zeroed array of the size of
  the packet and fill in its header, each in its own way.
* `SendRoutine`, `wire`: the routine the caller picks.

The argument `data` is what `Marshal` makes of the structure that is sent.
-/

namespace CKGameServer

open Memory

/-- `E_PACKET`. -/
inductive EPacket where
  | loginRequest | loginResponse
  | roomEnterRequest | roomEnterResponse | roomNewUserNtf | roomUserInfoNtf
  | roomLeaveRequest | roomLeaveResponse | roomLeaveUserNtf
  | playerMovement | updatePlayerMovement
  | roomChatRequest | roomChatResponse | roomChatNotify
  | movePathRequest | movePathResponse | movePathNotify
  | inventoryInfo | shopInfo | shopBuyRequest | shopBuyResponse
  | tradeRequest | tradeRequestNtf | tradeResponse | tradeStartNtf
  | tradeItemUpdate | tradeItemNtf | tradeLock | tradeLockNtf | tradeConfirm | tradeResult
  deriving DecidableEq, Repr

/-- The numbers of `E_PACKET`. -/
def EPacket.code : EPacket → ℕ
  | loginRequest => 201
  | loginResponse => 202
  | roomEnterRequest => 206
  | roomEnterResponse => 207
  | roomNewUserNtf => 208
  | roomUserInfoNtf => 209
  | roomLeaveRequest => 215
  | roomLeaveResponse => 216
  | roomLeaveUserNtf => 217
  | playerMovement => 218
  | updatePlayerMovement => 219
  | roomChatRequest => 221
  | roomChatResponse => 222
  | roomChatNotify => 223
  | movePathRequest => 225
  | movePathResponse => 226
  | movePathNotify => 227
  | inventoryInfo => 301
  | shopInfo => 302
  | shopBuyRequest => 303
  | shopBuyResponse => 304
  | tradeRequest => 310
  | tradeRequestNtf => 311
  | tradeResponse => 312
  | tradeStartNtf => 313
  | tradeItemUpdate => 314
  | tradeItemNtf => 315
  | tradeLock => 316
  | tradeLockNtf => 317
  | tradeConfirm => 318
  | tradeResult => 319

namespace NetworkClient

/-- `sizeof(PacketBase)`. -/
def packetBaseSize : ℕ := 5

variable (packetId : EPacket) (data : Bytes)

/-- `buff` of `SendData`: the id in one byte, the size behind it. -/
def sendDataBuff : View :=
  let sz := data.length + packetBaseSize
  let sizeInBytes := View.ofNatLE sz
  let buff : View := fun _ => 0
  let buff := buff.write 0 (View.ofNatLE packetId.code) 1
  let buff := buff.write 1 sizeInBytes 2
  buff.write packetBaseSize (View.ofBytes data) data.length

/-- `NetworkClient.SendData`. -/
def sendData : Bytes := (sendDataBuff packetId data).read 0 (data.length + packetBaseSize)

/-- `buff` of `SendData2`: the size in two bytes, the id in the next two. -/
def sendData2Buff : View :=
  let sz := data.length + packetBaseSize
  let sizeInBytes := View.ofNatLE sz
  let packetIdInBytes := View.ofNatLE packetId.code
  let buff : View := fun _ => 0
  let buff := buff.write 0 sizeInBytes 2
  let buff := buff.write 2 packetIdInBytes 2
  buff.write packetBaseSize (View.ofBytes data) data.length

/-- `NetworkClient.SendData2`. -/
def sendData2 : Bytes := (sendData2Buff packetId data).read 0 (data.length + packetBaseSize)

/-- The routines that send a structure. -/
inductive SendRoutine where
  | sendPacket | sendPacket2
  deriving DecidableEq, Repr

/-- The bytes a call of the routine puts on the connection. -/
def wire : SendRoutine → Bytes
  | .sendPacket => sendData packetId data
  | .sendPacket2 => sendData2 packetId data

@[simp] lemma wire_length (routine : SendRoutine) :
    (wire packetId data routine).length = data.length + packetBaseSize := by
  cases routine <;> exact View.read_length ..

end NetworkClient

end CKGameServer
