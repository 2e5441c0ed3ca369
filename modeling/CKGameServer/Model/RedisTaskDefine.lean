import CKGameServer.Library.Decimal
import CKGameServer.Model.Packet

/-!
`RedisTaskDefine.h`: the tasks that travel between the process thread and the Redis thread.

A task carries the bytes of a packed structure. `pData` is the memory the pointer sees: its
first `dataSize` bytes are the block that was allocated and copied, what stands behind them is
whatever the heap holds there. A consumer casts the pointer and reads fields at their offsets,
behind the end of the block where its structure is longer than the block.
-/

namespace CKGameServer

open Memory

/-- `RedisTaskID`. -/
inductive RedisTaskID where
  | invalid
  | requestLogin | responseLogin | requestNotice | responseNotice
  | requestLoadInventory | responseLoadInventory
  | requestShopUpdate | responseShopUpdate
  | requestShopBuy | responseShopBuy
  | requestTradeExchange | responseTradeExchange
  deriving DecidableEq, Repr

/-- The numbers of `RedisTaskID`. -/
def RedisTaskID.code : RedisTaskID → ℕ
  | invalid => 0
  | requestLogin => 1001
  | responseLogin => 1002
  | requestNotice => 1003
  | responseNotice => 1004
  | requestLoadInventory => 11001
  | responseLoadInventory => 11002
  | requestShopUpdate => 12001
  | responseShopUpdate => 12002
  | requestShopBuy => 12003
  | responseShopBuy => 12004
  | requestTradeExchange => 13001
  | responseTradeExchange => 13002

lemma RedisTaskID.code_injective : Function.Injective code := by
  intro a b h
  cases a <;> cases b <;> first | rfl | cases h

/-- `RedisTask`. -/
structure RedisTask where
  userIndex : ℕ := 0
  taskID : RedisTaskID := .invalid
  dataSize : ℕ := 0
  pData : View := fun _ => 0

/-- A task as a producer makes it: a block of `dataSize` bytes copied from `body`; `heap` is
the memory behind the block. -/
def RedisTask.make (userIndex : ℕ) (taskID : RedisTaskID) (dataSize : ℕ) (body heap : View) :
    RedisTask :=
  { userIndex, taskID, dataSize, pData := body.append heap dataSize }

/-- The block of a task holds what was copied into it. -/
lemma RedisTask.make_pData_lt {userIndex dataSize k : ℕ} {taskID : RedisTaskID} {body heap : View}
    (hk : k < dataSize) :
    (RedisTask.make userIndex taskID dataSize body heap).pData k = body k :=
  View.append_apply_lt hk

/-! ### The packed structures -/

/-- The bytes of an `int`. -/
def int32Bytes (x : Int32) : View := View.ofNatLE x.toUInt32.toNat

/-- `sizeof(RedisLoginReq)`. -/
def redisLoginReqSize : ℕ := (maxUserIdLen + 1) + (maxUserPwLen + 1)

/-- `sizeof(RedisLoginRes)`. -/
def redisLoginResSize : ℕ := (maxUserIdLen + 1) + 2

/-- `sizeof(RedisNoticeReq)` and `sizeof(RedisNoticeRes)`. -/
def redisNoticeSize : ℕ := (maxUserIdLen + 1) + (maxChatMsgSize + 1)

/-- `sizeof(RedisInvenReq)`. -/
def redisInvenReqSize : ℕ := 4 + (maxUserIdLen + 1)

/-- `sizeof(RedisInvenRes)`. -/
def redisInvenResSize : ℕ := 4 + 4 * inventorySize

/-- `sizeof(RedisTradeRes)`. -/
def redisTradeResSize : ℕ := 5

/-- `sizeof(RedisShopRes)`. -/
def redisShopResSize : ℕ := 12

/-- `sizeof(RedisShopBuyReq)`. -/
def redisShopBuyReqSize : ℕ := (maxUserIdLen + 1) + 4

/-- `sizeof(RedisShopBuyRes)`. -/
def redisShopBuyResSize : ℕ := 1

/-- `RedisLoginReq`: `UserID`, `UserPW`. -/
def redisLoginReq (userID userPW : View) : View := userID.append userPW (maxUserIdLen + 1)

/-- `RedisLoginRes`: `UserID`, `Result`. -/
def redisLoginRes (userID : View) (result : ErrorCode) : View :=
  userID.append (View.ofNatLE result.code) (maxUserIdLen + 1)

/-- `RedisLoginRes::Result`. -/
def loginResultAt (p : View) : ℕ := p.natLE (maxUserIdLen + 1) 2

/-- `RedisNoticeReq` and `RedisNoticeRes`: `UserID`, `Message`. -/
def redisNotice (userID message : View) : View := userID.append message (maxUserIdLen + 1)

/-- `RedisInvenReq`: `UserIndex`, `UserID`. -/
def redisInvenReq (userIndex : ℕ) (userID : View) : View :=
  (int32Bytes (Int32.ofNat userIndex)).append userID 4

/-- The bytes of `ItemSlots`. -/
def itemSlotsBytes (slots : Inventory) : View := fun k =>
  if h : k / 4 < inventorySize then int32Bytes (slots ⟨k / 4, h⟩) (k % 4) else 0

/-- `RedisInvenRes`: `UserIndex`, `ItemSlots`. -/
def redisInvenRes (userIndex : Int32) (slots : Inventory) : View :=
  (int32Bytes userIndex).append (itemSlotsBytes slots) 4

/-- `RedisInvenRes::ItemSlots`. -/
def itemSlotsAt (p : View) : Inventory := fun i => int32At p (4 + 4 * i.val)

/-- `RedisTradeRes`: `UserIndex`, `IsSuccess`. -/
def redisTradeRes (userIndex : View) (isSuccess : Bool) : View :=
  userIndex.append (fun _ => if isSuccess then 1 else 0) 4

/-- `RedisTradeRes::IsSuccess`. -/
def tradeSuccessAt (p : View) : Bool := p 4 != 0

/-- `RedisShopRes`: `ItemID`, `NextUpdateTime`. -/
def redisShopRes (itemID : Int32) (nextUpdateTime : UInt64) : View :=
  (int32Bytes itemID).append (View.ofNatLE nextUpdateTime.toNat) 4

/-- `RedisShopBuyRes`: `isSuccess`. -/
def redisShopBuyRes (isSuccess : Bool) : View := fun _ => if isSuccess then 1 else 0

/-- `RedisTradeReq` as the Redis thread reads it: the two ids as the strings made of them, which
hold no zero, and the slots and the items of the two offers. -/
structure RedisTradeReq where
  userA : Int32
  userB : Int32
  userAID : Bytes
  userBID : Bytes
  itemsASlot : Inventory
  itemsAID : Inventory
  itemsBSlot : Inventory
  itemsBID : Inventory
  zero_notMem_userAID : (0 : UInt8) ∉ userAID
  zero_notMem_userBID : (0 : UInt8) ∉ userBID

/-- The cast of a task's payload to `RedisTradeReq`. -/
def RedisTradeReq.ofView (p : View) : RedisTradeReq where
  userA := int32At p 0
  userB := int32At p 4
  userAID := p.cString 8
  userBID := p.cString 41
  itemsASlot i := int32At p (82 + 4 * i.val)
  itemsAID i := int32At p (102 + 4 * i.val)
  itemsBSlot i := int32At p (122 + 4 * i.val)
  itemsBID i := int32At p (142 + 4 * i.val)
  zero_notMem_userAID := View.zero_notMem_cString 8
  zero_notMem_userBID := View.zero_notMem_cString 41

/-! ### Copying user ids -/

/-- `CopyUserID(char*, const std::string&)` on the array `dst`: `sizeof(userID)` is the size of
a pointer, so eight bytes are copied. `rest` is the memory behind the string. -/
def copyUserIDString (dst : View) (userID : Bytes) (rest : View) : View :=
  (View.ofCString userID rest).append (dst.shift 8) 8

/-- `CopyUserID(char*, const char*)`: the whole array. -/
def copyUserIDChars (userID rest : View) : View := userID.append rest (maxUserIdLen + 1)

/-- `strncpy_s(dst, src, MAX_USER_ID_LEN)`: at most 32 bytes and a terminator; what stood in
the array behind the terminator is `rest`. -/
def strncpyUserID (src : Bytes) (rest : View) : View :=
  View.ofCString (src.take maxUserIdLen) rest

/-- The `char` array of a packet that holds a user id. -/
def userIDArray (p : View) : Bytes := p.read 0 (maxUserIdLen + 1)

end CKGameServer
