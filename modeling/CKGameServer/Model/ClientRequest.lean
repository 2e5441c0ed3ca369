import CKGameServer.Model.TradeManager
import CKGameServer.Packets.Layout
import CKGameServer.Buffer.FrameQueue

/-!
The requests of the client (`Packets.cs`) and the calls that send them: `MainMenuGUI.OnJoinButtonClick`,
`Match.Start`, `Chat.SendMessageOrCommand`, `PlayerMovement.Move`, `ShopManager.BuyItem` and
`TradeManager`.

* `ClientRequest`: a request with the values of its structure; `fields`, `data`: its members and
  what `Marshal.StructureToPtr` makes of them.
* `ClientRequest.routine`: the routine its caller picks. `wire`: the bytes that the call puts on the
  connection.
* `ClientRequest.received`: the packet that `GetPacket` should answer for it.

The structures that name no `Pack` have the default of 8, under which all their members stand one
behind the other already (`aligned_fields`).
-/

namespace CKGameServer

open Memory Layout NetworkClient

/-- A request of the client. A `float` is its bits. -/
inductive ClientRequest where
  | login (userID : CString maxUserIdLen) (userPW : CString maxUserPwLen)
  | roomEnter (roomNumber : Int32)
  | roomChat (message : CString maxChatMsgSize)
  | playerMovement (player_id : Int64) (dx dy : Fin 1 → UInt32) (rotation : Fin 4 → UInt32)
  | shopBuy (userUUID : Int64) (itemID : Int32)
  | trade (packet : TradePacket)

/-- The id that `TradeManager` sends a packet with. -/
def TradePacket.ePacket : TradePacket → EPacket
  | tradeRequest _ => .tradeRequest
  | tradeResponse _ _ => .tradeResponse
  | tradeItemUpdate _ _ => .tradeItemUpdate
  | tradeLock _ => .tradeLock
  | tradeConfirm _ => .tradeConfirm

/-- The members of the structures of `TradeManager`. -/
def TradePacket.fields : TradePacket → List wireFormat.Field
  | tradeRequest targetUUID => [⟨.int64, targetUUID⟩]
  | tradeResponse requesterUUID isAccept => [⟨.int64, requesterUUID⟩, ⟨.bool, isAccept⟩]
  | tradeItemUpdate slotIndex itemID => [⟨.int32, slotIndex⟩, ⟨.int32, itemID⟩]
  | tradeLock isLocked => [⟨.bool, isLocked⟩]
  | tradeConfirm isConfirmed => [⟨.bool, isConfirmed⟩]

namespace ClientRequest

/-- The id it is sent with. -/
def ePacket : ClientRequest → EPacket
  | login _ _ => .loginRequest
  | roomEnter _ => .roomEnterRequest
  | roomChat _ => .roomChatRequest
  | playerMovement _ _ _ _ => .playerMovement
  | shopBuy _ _ => .shopBuyRequest
  | trade packet => packet.ePacket

/-- The members of its structure. -/
def fields : ClientRequest → List wireFormat.Field
  | login userID userPW => [⟨.chars maxUserIdLen, userID⟩, ⟨.chars maxUserPwLen, userPW⟩]
  | roomEnter roomNumber => [⟨.int32, roomNumber⟩]
  | roomChat message => [⟨.chars maxChatMsgSize, message⟩]
  | playerMovement player_id dx dy rotation =>
    [⟨.int64, player_id⟩, ⟨.floats 1, dx⟩, ⟨.floats 1, dy⟩, ⟨.floats 4, rotation⟩]
  | shopBuy userUUID itemID => [⟨.int64, userUUID⟩, ⟨.int32, itemID⟩]
  | trade packet => packet.fields

/-- The routine that its caller picks. -/
def routine : ClientRequest → SendRoutine
  | login _ _ | roomEnter _ | roomChat _ | playerMovement _ _ _ _ => .sendPacket2
  | shopBuy _ _ | trade _ => .sendPacket

/-- `Pack` of its structure. -/
def pack : ClientRequest → ℕ
  | login _ _ | roomEnter _ | roomChat _ | playerMovement _ _ _ _ => 8
  | shopBuy _ _ | trade _ => 1

variable (r : ClientRequest)

/-- The bytes of its structure. Behind the terminator of a string they are zero. -/
def data : Bytes := wireFormat.payload (fun _ => 0) r.fields

/-- What the call puts on the connection. -/
def wire : Bytes := NetworkClient.wire r.ePacket r.data r.routine

/-- What `GetPacket` should answer. -/
def received : ReceivedPacket where
  packetId := r.ePacket.code
  dataSize := packetHeaderLength + r.data.length
  content := r.wire

/-- No structure has padding. -/
lemma aligned_fields : wireFormat.Aligned r.pack 0 (r.fields.map Sigma.fst) := by
  cases r with
  | trade packet =>
      cases packet <;>
        simp [pack, fields, TradePacket.fields, Format.Aligned, FieldType.align, FieldType.size]
  | _ => simp [pack, fields, Format.Aligned, FieldType.align, FieldType.size]

/-- The bytes of a request are few enough for the receive buffer, and those of one that is not sent
with `SendPacket2` for one byte of its size. -/
lemma length_data_le : packetHeaderLength + r.data.length ≤ packetDataBufferSize ∧
    (r.routine = .sendPacket → packetHeaderLength + r.data.length < 256) := by
  rw [data, Format.length_payload]
  cases r with
  | trade packet =>
      cases packet <;>
        simp [fields, TradePacket.fields, FieldType.size, packetHeaderLength, packetDataBufferSize]
  | _ =>
      simp [fields, routine, FieldType.size, packetHeaderLength, packetDataBufferSize,
        maxUserIdLen, maxUserPwLen, maxChatMsgSize]

end ClientRequest

end CKGameServer
