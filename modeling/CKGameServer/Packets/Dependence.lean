import CKGameServer.Buffer.ReceiveBuffer
import CKGameServer.Chat.Commands

/-!
What the handlers of a client's requests read (`PacketManager`, `User::GetPacket`).

* `Request`: the requests that carry data, with the size of their structures.
* `Server.ReadsPacketOnly`: the dispatch of a packet is decided by the bytes of the packet, and
  a packet shorter than its structure is rejected.
-/

namespace CKGameServer

open Memory

/-! ### Requests -/

/-- The requests of a client that carry data. -/
inductive Request where
  | login | roomEnter | roomChat | playerMovement | shopBuy | tradeRequest
  deriving DecidableEq, Repr

namespace Request

def packetId : Request → PacketId
  | login => .loginRequest
  | roomEnter => .roomEnterRequest
  | roomChat => .roomChatRequest
  | playerMovement => .playerMovement
  | shopBuy => .shopBuyRequest
  | tradeRequest => .tradeRequest

def handler : Request → Handler
  | login => .processLogin
  | roomEnter => .processEnterRoom
  | roomChat => .processRoomChatMessage
  | playerMovement => .processPlayerMovement
  | shopBuy => .processShopBuyRequest
  | tradeRequest => .processTradeRequest

/-- The size of the structure the handler casts the packet to. -/
def structureSize : Request → ℕ
  | login => loginRequestPacketSize
  | roomEnter => packetHeaderLength + 4
  | roomChat => packetHeaderLength + (maxChatMsgSize + 1)
  | playerMovement => packetHeaderLength + 8 + 4 + 4 + 16
  | shopBuy => packetHeaderLength + 8 + 4
  | tradeRequest => packetHeaderLength + 8

lemma findHandler_packetId (request : Request) :
    findHandler request.packetId.code = some request.handler := by
  cases request <;> rfl

end Request

namespace Server

/-- The server with other memory behind the buffer pointer of a client. -/
def setMemory (i : ℕ) (mem : View) (σ : Server) : Server :=
  σ.modUser i fun u => u.setRecv { u.recv with mPakcetDataBuffer := mem }

/-- The dispatch of a packet depends on nothing but the packet: other memory that holds the same
packet makes no difference to the state, the tasks and the packets that are sent, and a packet
shorter than its structure changes nothing. -/
structure ReadsPacketOnly (env : Env) (request : Request) (packet : PacketInfo) (σ : Server) :
    Prop where
  decides : ∀ mem : View,
    (∀ k < packet.dataSize,
      (σ.setMemory packet.clientIndex mem).packetView packet k = σ.packetView packet k) →
    dispatch env (some ((σ.setMemory packet.clientIndex mem).recvPacket packet),
        σ.setMemory packet.clientIndex mem) =
      (dispatch env (some (σ.recvPacket packet), σ)).map (setMemory packet.clientIndex mem)
  rejects : packet.dataSize < request.structureSize →
    dispatch env (some (σ.recvPacket packet), σ) = .ok σ

/-! ### The memory behind a buffer -/

section SetMemory

variable (i : ℕ) (mem : View) (σ : Server)

@[simp] lemma setMemory_toActor (u : ℕ) :
    ((σ.setMemory i mem).mUserObjPool u).toActor = (σ.mUserObjPool u).toActor := by
  by_cases hu : u = i
  · subst hu; simp [setMemory]
  · simp [setMemory, hu]

@[simp] lemma setMemory_mRoomList : (σ.setMemory i mem).mRoomList = σ.mRoomList := rfl

lemma setMemory_sendAll (packets : List (ℕ × ServerPacket)) :
    (σ.setMemory i mem).sendAll packets = (σ.sendAll packets).setMemory i mem := rfl

lemma setMemory_sendPacketFunc (u : ℕ) (packet : ServerPacket) :
    (σ.setMemory i mem).sendPacketFunc u packet =
      (σ.sendPacketFunc u packet).setMemory i mem := rfl

lemma setMemory_modRoom (r : RoomIndex) (f : Room → Room) :
    (σ.setMemory i mem).modRoom r f = (σ.modRoom r f).setMemory i mem := rfl

lemma setMemory_modActor (u : ℕ) (f : Actor → Actor) :
    (σ.setMemory i mem).modUser u (User.modActor f) =
      (σ.modUser u (User.modActor f)).setMemory i mem := by
  rw [setMemory, setMemory, modUser, modUser, modUser, modUser]
  congr 1
  funext j
  by_cases hj : j = u <;> by_cases hi : j = i
  · subst hj; subst hi; simp [User.setRecv, User.modActor]
  · subst hj; simp [hi]
  · subst hi; simp [hj]
  · simp [hj, hi]

/-- The memory a buffer has is no other memory. -/
lemma setMemory_self : σ.setMemory i (σ.mUserObjPool i).recv.mPakcetDataBuffer = σ := by
  rw [setMemory, modUser]
  congr 1
  exact Function.update_eq_self i σ.mUserObjPool

lemma setMemory_setMemory (mem' : View) :
    (σ.setMemory i mem).setMemory i mem' = σ.setMemory i mem' := by
  rw [setMemory, setMemory, setMemory, modUser, modUser, modUser]
  simp [User.setRecv]

lemma enterUser_setMemory (env : Env) (r : RoomIndex) (user : ℕ) :
    Room.enterUser env r (σ.setMemory i mem) user =
      ((Room.enterUser env r σ user).1, (Room.enterUser env r σ user).2.setMemory i mem) := by
  rw [Room.enterUser, Room.enterUser, setMemory_mRoomList]
  split
  · rfl
  · simp only [setMemory_modRoom, setMemory_modActor, setMemory_mRoomList, setMemory_toActor,
      setMemory_sendAll]

lemma processEnterRoom_setMemory (env : Env) (u : ℕ) (p : View) :
    PacketManager.processEnterRoom env u p (σ.setMemory i mem) =
      (PacketManager.processEnterRoom env u p σ).setMemory i mem := by
  rw [PacketManager.processEnterRoom, PacketManager.processEnterRoom, RoomManager.enterUser,
    RoomManager.enterUser]
  cases RoomManager.getRoomByNumber (PacketManager.enterRoomNumber p) with
  | none => rfl
  | some r =>
      simp only [enterUser_setMemory, setMemory_sendPacketFunc, setMemory_toActor]
      split <;> rfl

lemma processLogin_setMemory (env : Env) (u n : ℕ) (p : View) :
    PacketManager.processLogin env u n p (σ.setMemory i mem) =
      (PacketManager.processLogin env u n p σ).setMemory i mem := by
  rw [PacketManager.processLogin, PacketManager.processLogin]
  simp only [apply_ite (setMemory i mem)]
  rfl

lemma processPlayerMovement_setMemory (u : ℕ) (p : View) :
    PacketManager.processPlayerMovement u p (σ.setMemory i mem) =
      (PacketManager.processPlayerMovement u p σ).setMemory i mem := by
  rw [PacketManager.processPlayerMovement, PacketManager.processPlayerMovement]
  simp only [setMemory_toActor]
  split
  · rfl
  · split
    · rfl
    · rw [setMemory_modActor]
      rfl

lemma processRoomChatMessage_setMemory (env : Env) (u : ℕ) (p : View) :
    PacketManager.processRoomChatMessage env u p (σ.setMemory i mem) =
      (PacketManager.processRoomChatMessage env u p σ).map (setMemory i mem) := by
  rw [PacketManager.processRoomChatMessage, PacketManager.processRoomChatMessage]
  simp only [setMemory_toActor]
  cases RoomManager.getRoomByNumber (σ.mUserObjPool u).mRoomIndex with
  | none => rfl
  | some r =>
      simp only [bind, Except.bind, pure, Except.pure, setMemory_sendPacketFunc,
        setMemory_toActor]
      repeat' split
      all_goals rfl

/-- **Memory that no pointer leads to** is neither read nor written by the handler of a
request. -/
theorem run_setMemory (env : Env) (request : Request) (u n : ℕ) (p : View) :
    request.handler.run env u n p (σ.setMemory i mem) =
      (request.handler.run env u n p σ).map (setMemory i mem) := by
  cases request with
  | login => exact congrArg Except.ok (σ.processLogin_setMemory i mem env u n p)
  | roomEnter => exact congrArg Except.ok (σ.processEnterRoom_setMemory i mem env u p)
  | roomChat => exact σ.processRoomChatMessage_setMemory i mem env u p
  | playerMovement => exact congrArg Except.ok (σ.processPlayerMovement_setMemory i mem u p)
  | shopBuy => rfl
  | tradeRequest =>
      simp only [Request.handler, Handler.run, PacketManager.processTradeRequest,
        setMemory_toActor, setMemory_sendPacketFunc, Except.map]

end SetMemory

variable {env : Env} {request : Request} {packet : PacketInfo} {σ : Server}

/-- A request is dispatched to its handler. -/
lemma dispatch_recvPacket (hid : packet.packetId = request.packetId.code) (τ : Server) :
    dispatch env (some (τ.recvPacket packet), τ) =
      request.handler.run env packet.clientIndex packet.dataSize (τ.packetView packet) τ := by
  rw [dispatch, processRecvPacket, recvPacket, hid, request.findHandler_packetId]

/-- What a packet pointer sees in other memory. -/
lemma packetView_setMemory {off : ℕ} (hptr : packet.pDataPtr = some off) (mem : View) :
    (σ.setMemory packet.clientIndex mem).packetView packet = mem.shift off := by
  rw [packetView, hptr, setMemory]
  simp

/-- The handler reads nothing but the packet exactly if the bytes of the packet decide what it
does. -/
lemma readsPacketOnly_iff {off : ℕ} (hid : packet.packetId = request.packetId.code)
    (hptr : packet.pDataPtr = some off) :
    σ.ReadsPacketOnly env request packet ↔
      ((σ.packetView packet).Decides packet.dataSize fun p =>
        request.handler.run env packet.clientIndex packet.dataSize p σ) ∧
      (packet.dataSize < request.structureSize →
        request.handler.run env packet.clientIndex packet.dataSize (σ.packetView packet) σ =
          .ok σ) := by
  constructor
  · rintro ⟨hdecides, hrejects⟩
    refine ⟨fun p hp => ?_, fun h => (dispatch_recvPacket hid σ) ▸ hrejects h⟩
    -- `p` is what the pointer sees in the memory that holds `p` from `off` on
    have hview : (σ.setMemory packet.clientIndex fun a => p (a - off)).packetView packet = p := by
      rw [packetView_setMemory hptr]
      funext k
      rw [View.shift_apply, Nat.add_sub_cancel_left]
    have h := hdecides (fun a => p (a - off)) fun k hk => by rw [hview, hp k hk]
    rw [dispatch_recvPacket hid, dispatch_recvPacket hid, hview, run_setMemory] at h
    have hself : ∀ q : View,
        ((request.handler.run env packet.clientIndex packet.dataSize q σ).map
          (setMemory packet.clientIndex fun a => p (a - off))).map
            (setMemory packet.clientIndex
              (σ.mUserObjPool packet.clientIndex).recv.mPakcetDataBuffer) =
        request.handler.run env packet.clientIndex packet.dataSize q σ := by
      intro q
      calc _ = (request.handler.run env packet.clientIndex packet.dataSize q σ).map
            (setMemory packet.clientIndex
              (σ.mUserObjPool packet.clientIndex).recv.mPakcetDataBuffer) := by
            cases request.handler.run env packet.clientIndex packet.dataSize q σ with
            | error e => rfl
            | ok τ => exact congrArg Except.ok (setMemory_setMemory _ _ τ _)
        _ = _ := by rw [← run_setMemory, setMemory_self]
    calc request.handler.run env packet.clientIndex packet.dataSize p σ = _ := (hself p).symm
      _ = _ := by rw [h]
      _ = _ := hself _
  · rintro ⟨hdecides, hrejects⟩
    refine ⟨fun mem hmem => ?_, fun h => (dispatch_recvPacket hid σ).trans (hrejects h)⟩
    rw [dispatch_recvPacket hid, dispatch_recvPacket hid, run_setMemory]
    exact congrArg _ (hdecides _ hmem)

end Server

end CKGameServer
