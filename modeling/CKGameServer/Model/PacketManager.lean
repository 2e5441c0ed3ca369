import CKGameServer.Model.RedisConn
import CKGameServer.Model.Server

/-!
`PacketManager.cpp`: the handlers of the process thread and their dispatch.

* `processLogin` … `processShopBuyDBResult`: the handlers. Each takes the index of its client,
  the packet size and the memory its packet pointer sees.
* `Handler`: the handlers as values, `Handler.run` runs one.
* `mRecvFuntionDictionary`: the handler `Init` registers for each id.
* `processRecvPacket`: the dispatch, one for system packets, client packets and the responses
  of the Redis thread.

Only `processRoomChatMessage` can end in an exception.
-/

namespace CKGameServer

open Memory

namespace PacketManager

variable (env : Env) (clientIndex packetSize : ℕ) (pPacket : View) (σ : Server)

/-! ### Connections -/

/-- `PacketManager::ClearConnectionInfo`. -/
def clearConnectionInfo : Server :=
  let σ :=
    if (σ.mUserObjPool clientIndex).mCurDomainState = .room then
      (RoomManager.leaveUser env σ (σ.mUserObjPool clientIndex).mRoomIndex clientIndex).2
    else σ
  if (σ.mUserObjPool clientIndex).mCurDomainState ≠ .none then
    UserManager.deleteUserInfo σ clientIndex
  else σ

/-- `PacketManager::ProcessUserConnect`. -/
def processUserConnect : Server := σ.modUser clientIndex User.clear

/-- `PacketManager::ProcessUserDisConnect`. -/
def processUserDisConnect : Server := clearConnectionInfo env clientIndex σ

/-! ### Login -/

/-- `LOGIN_REQUEST_PACKET::userID`, the offset. -/
def loginUserID : ℕ := packetHeaderLength

/-- `LOGIN_REQUEST_PACKET::userPW`, the offset. -/
def loginUserPW : ℕ := packetHeaderLength + (maxUserIdLen + 1)

/-- The `REQUEST_LOGIN` task of `ProcessLogin`. -/
def loginTask : RedisTask :=
  RedisTask.make clientIndex .requestLogin redisLoginReqSize
    (redisLoginReq (pPacket.shift loginUserID) (pPacket.shift loginUserPW)) (env.heap 0)

/-- `PacketManager::ProcessLogin`. -/
def processLogin : Server :=
  if loginRequestPacketSize ≠ packetSize then σ
  else if σ.mMaxUserCnt ≤ σ.mCurrentUserCnt then
    σ.sendPacketFunc clientIndex (.loginResponse ErrorCode.loginUserUsedAllObj.code)
  else if UserManager.findUserIndexByID σ (pPacket.cString loginUserID) = -1 then
    σ.pushTask (loginTask env clientIndex pPacket)
  else
    σ.sendPacketFunc clientIndex (.loginResponse ErrorCode.loginUserAlready.code)

/-- The `REQUEST_LOAD_INVENTORY` task of `ProcessLoginDBResult`. Its `UserIndex` is not set. -/
def loadInventoryTask : RedisTask :=
  RedisTask.make 0 .requestLoadInventory redisInvenResSize
    (redisInvenReq clientIndex (strncpyUserID (pPacket.cString 0) (env.stack 0))) (env.heap 0)

/-- `PacketManager::ProcessLoginDBResult`. -/
def processLoginDBResult : Server :=
  let σ :=
    if loginResultAt pPacket = ErrorCode.none.code then
      σ.modUser clientIndex (User.modActor (Actor.setLogin (pPacket.cString 0)))
    else σ
  let σ := σ.sendPacketFunc clientIndex (.loginResponse (clientIndex % 2 ^ 16))
  if loginResultAt pPacket = ErrorCode.none.code then
    σ.pushTask (loadInventoryTask env clientIndex pPacket)
  else σ

/-- `PacketManager::ProcessInventoryDBResult`. -/
def processInventoryDBResult : Server :=
  let itemIDs := itemSlotsAt pPacket
  let σ := σ.modUser clientIndex fun user =>
    (List.finRange inventorySize).foldl (fun u i => u.setInventory i.val (itemIDs i)) user
  σ.sendPacketFunc clientIndex (.inventoryInfo clientIndex itemIDs)

/-! ### Rooms -/

/-- `[GM]`. -/
def gmUserID : Bytes := [91, 71, 77, 93]

/-- `PacketManager::ProcessNoticeDBResult`. -/
def processNoticeDBResult : Server :=
  RoomManager.sendToAllUser σ
    (.roomChatNotify (userIDArray (View.ofBytes gmUserID))
      ((View.ofBytes ((pPacket.cString (maxUserIdLen + 1)).take maxChatMsgSize)).read 0
        (maxChatMsgSize + 1)))
    clientIndex false

/-- `ROOM_ENTER_REQUEST_PACKET::RoomNumber`. -/
def enterRoomNumber : ℤ := (int32At pPacket packetHeaderLength).toInt

/-- `PacketManager::ProcessEnterRoom`. -/
def processEnterRoom : Server :=
  let (enterResult, σ) :=
    RoomManager.enterUser env σ (enterRoomNumber pPacket) clientIndex
  let σ := σ.sendPacketFunc clientIndex (.roomEnterResponse enterResult)
  if enterResult ≠ .none then σ
  else
    match RoomManager.getRoomByNumber (enterRoomNumber pPacket) with
    | none => σ
    | some r => Room.notifyUserEnter env r σ clientIndex (σ.mUserObjPool clientIndex).mUserID

/-- `PacketManager::ProcessLeaveRoom`. -/
def processLeaveRoom : Server :=
  let (result, σ) :=
    RoomManager.leaveUser env σ (σ.mUserObjPool clientIndex).mRoomIndex clientIndex
  σ.sendPacketFunc clientIndex (.roomLeaveResponse result)

/-- `PacketManager::ProcessPlayerMovement`. -/
def processPlayerMovement : Server :=
  let userUUID := int64At pPacket packetHeaderLength
  if userUUID ≠ clientIndex then σ
  else
    match RoomManager.getRoomByNumber (σ.mUserObjPool clientIndex).mRoomIndex with
    | none => σ
    | some r =>
      let dx := floatAt pPacket (packetHeaderLength + 8)
      let dy := floatAt pPacket (packetHeaderLength + 12)
      let rotation := quaternionAt pPacket (packetHeaderLength + 16)
      let σ := σ.modUser clientIndex (User.modActor (Actor.updateMovement dx dy rotation))
      Room.sendToAllUser r σ
        (.updatePlayerMovement userUUID rotation (Actor.movement dx dy rotation))
        clientIndex false

/-- `PacketManager::RedisReqNotice`. -/
def redisReqNotice (user : ℕ) (noticeMsg : Bytes) : Server :=
  σ.pushTask
    (RedisTask.make user .requestNotice redisNoticeSize
      (redisNotice (View.ofCString gmUserID (env.stack 0))
        (View.ofCString (noticeMsg.take maxChatMsgSize) (env.stack 1)))
      (env.heap 0))

/-- `/c`. -/
def npcCommand : Bytes := [47, 99]

/-- `/n`. -/
def noticeCommand : Bytes := [47, 110]

/-- `/shop_reset`. -/
def shopResetCommand : Bytes := [47, 115, 104, 111, 112, 95, 114, 101, 115, 101, 116]

/-- `/t add`. -/
def timeAddCommand : Bytes := [47, 116, 32, 97, 100, 100]

/-- `std::string::substr` from a position on. -/
def substr (s : Bytes) (pos : ℕ) : Except Fault Bytes :=
  if s.length < pos then .error .outOfRange else .ok (s.drop pos)

/-- `PacketManager::ProcessRoomChatMessage`. -/
def processRoomChatMessage : Except Fault Server :=
  match RoomManager.getRoomByNumber (σ.mUserObjPool clientIndex).mRoomIndex with
  | none =>
    .ok (σ.sendPacketFunc clientIndex (.roomChatResponse .chatRoomInvalidRoomNumber))
  | some r => do
    let cmdMessage := pPacket.cString packetHeaderLength
    if npcCommand <+: cmdMessage then
      return Room.enterNpc env r σ
    if noticeCommand <+: cmdMessage then
      let noticeMsg ← substr cmdMessage 2
      return redisReqNotice env σ clientIndex noticeMsg
    if shopResetCommand <+: cmdMessage then
      return σ.pushTask (RedisTask.make clientIndex .requestShopUpdate 0 (env.heap 0) (env.heap 0))
    if timeAddCommand <+: cmdMessage then
      let s ← substr cmdMessage 7
      let time ← stoi s
      return σ.pushTask (RedisTask.make 0 .requestShopUpdate 4 (int32Bytes time) (env.heap 0))
    let σ := σ.sendPacketFunc clientIndex (.roomChatResponse .none)
    return Room.notifyChat env r σ clientIndex (σ.mUserObjPool clientIndex).mUserID
      (pPacket.shift packetHeaderLength)

/-! ### Trade and shop -/

/-- `PacketManager::ProcessTradeRequest`. The target is cut to 32 bits where it is passed to
`SendPacketFunc`. -/
def processTradeRequest : Server :=
  σ.sendPacketFunc ((int64At pPacket packetHeaderLength) % 2 ^ 32).toNat
    (.tradeRequestNtf clientIndex
      (userIDArray (strncpyUserID (σ.mUserObjPool clientIndex).mUserID (env.stack 0))))

/-- `PacketManager::ProcessShopUpdateDBResult`. -/
def processShopUpdateDBResult : Server :=
  RoomManager.sendToAllUser σ (.shopInfo (int32At pPacket 0) (int64At pPacket 4)) (-1) false

/-- `PacketManager::ProcessShopBuyRequest`. The packet it fills is not used, and the block of
its task is not written. -/
def processShopBuyRequest : Server :=
  σ.pushTask (RedisTask.make 0 .requestShopBuy redisShopBuyReqSize (env.heap 0) (env.heap 1))

/-- `PacketManager::ProcessShopBuyDBResult`. -/
def processShopBuyDBResult : Server :=
  σ.sendPacketFunc clientIndex (.shopBuyResponse (pPacket 0 != 0))

/-- The shop task of the clock in `ProcessPacket`. -/
def tick : Server :=
  σ.pushTask (RedisTask.make 0 .requestShopUpdate 4 (int32Bytes (-1)) (env.heap 0))

end PacketManager

/-! ### Dispatch -/

/-- The member functions that `Init` registers. -/
inductive Handler where
  | processUserConnect | processUserDisConnect
  | processLogin | processLoginDBResult | processNoticeDBResult
  | processEnterRoom | processLeaveRoom | processRoomChatMessage | processPlayerMovement
  | processInventoryDBResult | processTradeDBResult
  | processShopUpdateDBResult | processShopBuyDBResult
  | processShopBuyRequest
  | processTradeRequest | processTradeResponse | processTradeItemUpdate
  | processTradeLock | processTradeConfirm
  deriving DecidableEq, Repr

/-- A call of the handler. The handlers of a trade under way have empty bodies. -/
def Handler.run (handler : Handler) (env : Env) (clientIndex packetSize : ℕ) (pPacket : View)
    (σ : Server) : Except Fault Server :=
  match handler with
  | processUserConnect => .ok (PacketManager.processUserConnect clientIndex σ)
  | processUserDisConnect => .ok (PacketManager.processUserDisConnect env clientIndex σ)
  | processLogin => .ok (PacketManager.processLogin env clientIndex packetSize pPacket σ)
  | processLoginDBResult => .ok (PacketManager.processLoginDBResult env clientIndex pPacket σ)
  | processNoticeDBResult => .ok (PacketManager.processNoticeDBResult clientIndex pPacket σ)
  | processEnterRoom => .ok (PacketManager.processEnterRoom env clientIndex pPacket σ)
  | processLeaveRoom => .ok (PacketManager.processLeaveRoom env clientIndex σ)
  | processRoomChatMessage => PacketManager.processRoomChatMessage env clientIndex pPacket σ
  | processPlayerMovement => .ok (PacketManager.processPlayerMovement clientIndex pPacket σ)
  | processInventoryDBResult =>
    .ok (PacketManager.processInventoryDBResult clientIndex pPacket σ)
  | processTradeDBResult => .ok σ
  | processShopUpdateDBResult => .ok (PacketManager.processShopUpdateDBResult pPacket σ)
  | processShopBuyDBResult => .ok (PacketManager.processShopBuyDBResult clientIndex pPacket σ)
  | processShopBuyRequest => .ok (PacketManager.processShopBuyRequest env σ)
  | processTradeRequest => .ok (PacketManager.processTradeRequest env clientIndex pPacket σ)
  | processTradeResponse => .ok σ
  | processTradeItemUpdate => .ok σ
  | processTradeLock => .ok σ
  | processTradeConfirm => .ok σ

/-- `PacketManager::Init`. -/
def mRecvFuntionDictionary : List (ℕ × Handler) :=
  [(PacketId.sysUserConnect.code, .processUserConnect),
   (PacketId.sysUserDisconnect.code, .processUserDisConnect),
   (PacketId.loginRequest.code, .processLogin),
   (RedisTaskID.responseLogin.code, .processLoginDBResult),
   (RedisTaskID.responseNotice.code, .processNoticeDBResult),
   (PacketId.roomEnterRequest.code, .processEnterRoom),
   (PacketId.roomLeaveRequest.code, .processLeaveRoom),
   (PacketId.roomChatRequest.code, .processRoomChatMessage),
   (PacketId.playerMovement.code, .processPlayerMovement),
   (RedisTaskID.responseLoadInventory.code, .processInventoryDBResult),
   (RedisTaskID.responseTradeExchange.code, .processTradeDBResult),
   (RedisTaskID.responseShopUpdate.code, .processShopUpdateDBResult),
   (RedisTaskID.responseShopBuy.code, .processShopBuyDBResult),
   (PacketId.shopBuyRequest.code, .processShopBuyRequest),
   (PacketId.tradeRequest.code, .processTradeRequest),
   (PacketId.tradeRequestNtf.code, .processTradeResponse),
   (PacketId.tradeItemUpdate.code, .processTradeItemUpdate),
   (PacketId.tradeLock.code, .processTradeLock),
   (PacketId.tradeConfirm.code, .processTradeConfirm)]

/-- The handler registered for an id. -/
def findHandler (packetId : ℕ) : Option Handler := mRecvFuntionDictionary.lookup packetId

lemma mem_of_findHandler {packetId : ℕ} {handler : Handler}
    (h : findHandler packetId = some handler) : (packetId, handler) ∈ mRecvFuntionDictionary := by
  obtain ⟨l₁, l₂, hdict, -⟩ := List.lookup_eq_some_iff.mp h
  rw [hdict]
  exact List.mem_append_right _ List.mem_cons_self

/-- No handler is registered for two ids. -/
lemma findHandler_injective {packetId packetId' : ℕ} {handler : Handler}
    (h : findHandler packetId = some handler) (h' : findHandler packetId' = some handler) :
    packetId = packetId' := by
  have hall : ∀ e ∈ mRecvFuntionDictionary, ∀ e' ∈ mRecvFuntionDictionary,
      e.2 = e'.2 → e.1 = e'.1 := by decide
  exact hall _ (mem_of_findHandler h) _ (mem_of_findHandler h') rfl

/-- `PacketManager::ProcessRecvPacket`. -/
def processRecvPacket (env : Env) (clientIndex packetId packetSize : ℕ) (pPacket : View)
    (σ : Server) : Except Fault Server :=
  match findHandler packetId with
  | some handler => handler.run env clientIndex packetSize pPacket σ
  | none => .ok σ

end CKGameServer
