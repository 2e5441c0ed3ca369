import Mathlib.Data.Rat.Defs
import Mathlib.Algebra.Order.Field.Rat
import CKGameServer.Library.Memory

/-!
`Packet.h`, `ErrorCode.h`, `unity.h` and `Define.h`: the constants and packets the server reads
and writes.

Packets from a client are read from raw memory (`View`), field by field at the offsets of the
packed structures, because a handler casts a pointer into the receive buffer and reads whatever
stands there. Packets to a client are values of `ServerPacket`, one constructor for each
structure the server fills, with the fields it fills; a `char` array keeps all its 33 or 257
bytes, those the server leaves uninitialised included.

Floating-point numbers are modelled by exact rationals.
-/

namespace CKGameServer

open Memory

/-! ### Constants -/

/-- `MAX_SOCK_RECVBUF`: a receive completion hands over at most this many bytes. -/
def maxSockRecvBuf : ℕ := 256

/-- `User::PACKET_DATA_BUFFER_SIZE`. -/
def packetDataBufferSize : ℕ := 8096

/-- `PACKET_HEADER_LENGTH`: two bytes of length, two of id, one of type. -/
def packetHeaderLength : ℕ := 5

def maxUserIdLen : ℕ := 32

def maxUserPwLen : ℕ := 32

def maxChatMsgSize : ℕ := 256

/-- `INVENTORY_SIZE`. -/
abbrev inventorySize : ℕ := 5

/-- `LOGIN_REQUEST_PACKET_SIZE`: the header and the two arrays. -/
def loginRequestPacketSize : ℕ :=
  packetHeaderLength + (maxUserIdLen + 1) + (maxUserPwLen + 1)

/-- The ids of `PACKET_ID` that the server receives. -/
inductive PacketId where
  | sysUserConnect | sysUserDisconnect | sysEnd
  | loginRequest
  | roomEnterRequest | roomLeaveRequest
  | playerMovement
  | roomChatRequest
  | shopBuyRequest
  | tradeRequest | tradeRequestNtf | tradeItemUpdate | tradeLock | tradeConfirm
  deriving DecidableEq, Repr

/-- The numbers of `PACKET_ID`. -/
def PacketId.code : PacketId → ℕ
  | sysUserConnect => 11
  | sysUserDisconnect => 12
  | sysEnd => 30
  | loginRequest => 201
  | roomEnterRequest => 206
  | roomLeaveRequest => 215
  | playerMovement => 218
  | roomChatRequest => 221
  | shopBuyRequest => 303
  | tradeRequest => 310
  | tradeRequestNtf => 311
  | tradeItemUpdate => 314
  | tradeLock => 316
  | tradeConfirm => 318

/-- `ERROR_CODE`, the values the server answers with. -/
inductive ErrorCode where
  | none
  | loginUserAlready | loginUserUsedAllObj | loginUserInvalidPw
  | enterRoomFullUser
  | roomInvalidIndex
  | chatRoomInvalidRoomNumber
  deriving DecidableEq, Repr

/-- The numbers of `ERROR_CODE`. -/
def ErrorCode.code : ErrorCode → ℕ
  | none => 0
  | loginUserAlready => 31
  | loginUserUsedAllObj => 32
  | loginUserInvalidPw => 33
  | enterRoomFullUser => 54
  | roomInvalidIndex => 61
  | chatRoomInvalidRoomNumber => 81

/-- What ends a thread: an exception of the standard library that nothing catches, or an
access outside an array, after which the language defines nothing. -/
inductive Fault where
  | outOfRange | invalidArgument | arrayBounds
  deriving DecidableEq, Repr

/-! ### Reading a packet -/

/-- An `INT32` field. -/
def int32At (p : View) (off : ℕ) : Int32 := Int32.ofInt (p.natLE off 4)

/-- An `INT64` field. -/
def int64At (p : View) (off : ℕ) : ℤ := Int.bmod (p.natLE off 8) (2 ^ 64)

/-- `PACKET_HEADER::PacketLength`. -/
def packetLengthAt (p : View) (off : ℕ) : ℕ := p.natLE off 2

/-- `PACKET_HEADER::PacketId`. -/
def packetIdAt (p : View) (off : ℕ) : ℕ := p.natLE (off + 2) 2

/-- The value of a `float` from its 32 bits. Infinity and NaN, with exponent 255, are left out: they
are read like the finite numbers. -/
def binary32 (bits : ℕ) : ℚ :=
  let mantissa : ℕ := bits % 2 ^ 23
  let exponent : ℕ := bits / 2 ^ 23 % 256
  let magnitude : ℚ :=
    if exponent = 0 then mantissa / 2 ^ 149 else (2 ^ 23 + mantissa) * 2 ^ exponent / 2 ^ 150
  if bits / 2 ^ 31 = 0 then magnitude else -magnitude

/-- A `float` field. -/
def floatAt (p : View) (off : ℕ) : ℚ := binary32 (p.natLE off 4)

/-! ### `unity.h` -/

structure Vector3 where
  x : ℚ
  y : ℚ
  z : ℚ

structure Quaternion where
  x : ℚ
  y : ℚ
  z : ℚ
  w : ℚ

def vector3Right : Vector3 := ⟨1, 0, 0⟩

def vector3Forward : Vector3 := ⟨0, 0, 1⟩

def vector3Multiply (a : Vector3) (b : ℚ) : Vector3 := ⟨a.x * b, a.y * b, a.z * b⟩

def vector3Addition (a b : Vector3) : Vector3 := ⟨a.x + b.x, a.y + b.y, a.z + b.z⟩

/-- `Quaternion_Multiply`: the rotation applied to a point. -/
def quaternionMultiply (rotation : Quaternion) (point : Vector3) : Vector3 :=
  let x := rotation.x * 2
  let y := rotation.y * 2
  let z := rotation.z * 2
  let xx := rotation.x * x
  let yy := rotation.y * y
  let zz := rotation.z * z
  let xy := rotation.x * y
  let xz := rotation.x * z
  let yz := rotation.y * z
  let wx := rotation.w * x
  let wy := rotation.w * y
  let wz := rotation.w * z
  { x := (1 - (yy + zz)) * point.x + (xy - wz) * point.y + (xz + wy) * point.z
    y := (xy + wz) * point.x + (1 - (xx + zz)) * point.y + (yz - wx) * point.z
    z := (xz - wy) * point.x + (yz + wx) * point.y + (1 - (xx + yy)) * point.z }

/-- `FIXED_DELTA_TIME`. -/
def fixedDeltaTime : ℚ := 33333 / 1000000

/-- A `Quaternion` field. -/
def quaternionAt (p : View) (off : ℕ) : Quaternion :=
  ⟨floatAt p off, floatAt p (off + 4), floatAt p (off + 8), floatAt p (off + 12)⟩

/-! ### Packets the server keeps and sends -/

/-- `PacketInfo`. `pDataPtr` is the offset of the packet in its user's receive buffer; it is
null for a system packet. -/
structure PacketInfo where
  clientIndex : ℕ := 0
  packetId : ℕ := 0
  dataSize : ℕ := 0
  pDataPtr : Option ℕ := none
  deriving DecidableEq, Repr

/-- A slot of the inventory for each index. -/
abbrev Inventory := Fin inventorySize → Int32

/-- The packets the server sends, with the fields it fills. -/
inductive ServerPacket where
  | loginResponse (result : ℕ)
  | roomEnterResponse (result : ErrorCode)
  | roomNewUserNtf (userUUID : ℤ) (userID : Bytes)
  | roomUserInfoNtf (userUUID : ℤ) (userID : Bytes) (position : Vector3) (rotation : Quaternion)
  | roomLeaveResponse (result : ErrorCode)
  | roomLeaveUserNtf (userUUID : ℤ) (userID : Bytes)
  | updatePlayerMovement (userUUID : ℤ) (rotation : Quaternion) (motion : Vector3)
  | roomChatResponse (result : ErrorCode)
  | roomChatNotify (userID msg : Bytes)
  | shopInfo (currentItemID : Int32) (nextUpdateTime : ℤ)
  | shopBuyResponse (isSuccess : Bool)
  | inventoryInfo (userUUID : ℤ) (itemIDs : Inventory)
  | tradeRequestNtf (reqUUID : ℤ) (reqName : Bytes)

/-- The packet is a `SHOP_INFO`. -/
def ServerPacket.IsShopInfo : ServerPacket → Prop
  | shopInfo _ _ => True
  | _ => False

end CKGameServer
