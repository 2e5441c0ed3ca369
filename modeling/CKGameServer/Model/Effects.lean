import Mathlib.Logic.Relation
import CKGameServer.Model.PacketManager

/-!
What a handler can do to the server.

* `PacketManager.clearConnectionInfo_induction` and `PacketManager.processRoomChatMessage_cases`:
  what the two handlers with several outcomes do.
* `Handler.Effect`: one change of the state by a handler that is called with the index `i`, and
  which handlers make the changes that not all of them make.
* `Handler.Effects`: such changes one after the other.
* `Handler.run_effects`: whatever a handler does is of this form.
* `Handler.run_induction`: a property that every single change keeps.
-/

namespace CKGameServer

open Memory

namespace PacketManager

variable {env : Env} {clientIndex : ℕ} {pPacket : View} {σ τ : Server} {P : Server → Prop}

/-- The end of a connection: its user leaves the room it is in, and is deleted. -/
lemma clearConnectionInfo_induction
    (hleave : (σ.mUserObjPool clientIndex).mCurDomainState = .room →
      P (RoomManager.leaveUser env σ (σ.mUserObjPool clientIndex).mRoomIndex clientIndex).2)
    (hstay : (σ.mUserObjPool clientIndex).mCurDomainState ≠ .room → P σ)
    (hdelete : ∀ τ, P τ → P (UserManager.deleteUserInfo τ clientIndex)) :
    P (clearConnectionInfo env clientIndex σ) := by
  have hleft : P (if (σ.mUserObjPool clientIndex).mCurDomainState = .room then
      (RoomManager.leaveUser env σ (σ.mUserObjPool clientIndex).mRoomIndex clientIndex).2
        else σ) := by
    split
    · rename_i hroom
      exact hleave hroom
    · rename_i hroom
      exact hstay hroom
  rw [clearConnectionInfo]
  generalize (if (σ.mUserObjPool clientIndex).mCurDomainState = .room then
    (RoomManager.leaveUser env σ (σ.mUserObjPool clientIndex).mRoomIndex clientIndex).2
      else σ) = τ at hleft ⊢
  split
  · exact hdelete τ hleft
  · exact hleft

/-- A chat message is refused outside rooms; in a room it makes an npc, pushes the task of another
command, or is delivered. -/
lemma processRoomChatMessage_cases (h : processRoomChatMessage env clientIndex pPacket σ = .ok τ) :
    RoomManager.getRoomByNumber (σ.mUserObjPool clientIndex).mRoomIndex = none ∧
      τ = σ.sendPacketFunc clientIndex (.roomChatResponse .chatRoomInvalidRoomNumber) ∨
    ∃ r, RoomManager.getRoomByNumber (σ.mUserObjPool clientIndex).mRoomIndex = some r ∧
      (npcCommand <+: pPacket.cString packetHeaderLength ∧ τ = Room.enterNpc env r σ ∨
        ¬npcCommand <+: pPacket.cString packetHeaderLength ∧
          ((noticeCommand <+: pPacket.cString packetHeaderLength ∨
              shopResetCommand <+: pPacket.cString packetHeaderLength ∨
              timeAddCommand <+: pPacket.cString packetHeaderLength) ∧
            (∃ task, (task.taskID = .requestNotice ∨ task.taskID = .requestShopUpdate) ∧
              τ = σ.pushTask task) ∨
          ¬(noticeCommand <+: pPacket.cString packetHeaderLength ∨
              shopResetCommand <+: pPacket.cString packetHeaderLength ∨
              timeAddCommand <+: pPacket.cString packetHeaderLength) ∧
            τ = Room.notifyChat env r (σ.sendPacketFunc clientIndex (.roomChatResponse .none))
              clientIndex (σ.mUserObjPool clientIndex).mUserID
              (pPacket.shift packetHeaderLength))) := by
  rw [processRoomChatMessage] at h
  cases hroom : RoomManager.getRoomByNumber (σ.mUserObjPool clientIndex).mRoomIndex with
  | none =>
      rw [hroom] at h
      exact .inl ⟨rfl, (Except.ok.inj h).symm⟩
  | some r =>
      rw [hroom] at h
      simp only [bind, Except.bind, pure, Except.pure] at h
      refine .inr ⟨r, rfl, ?_⟩
      by_cases hnpc : npcCommand <+: pPacket.cString packetHeaderLength
      · rw [if_pos hnpc] at h
        exact .inl ⟨hnpc, (Except.ok.inj h).symm⟩
      rw [if_neg hnpc] at h
      refine .inr ⟨hnpc, ?_⟩
      by_cases hnotice : noticeCommand <+: pPacket.cString packetHeaderLength
      · rw [if_pos hnotice] at h
        split at h
        · cases h
        · exact .inl ⟨.inl hnotice, _, .inl rfl, (Except.ok.inj h).symm⟩
      rw [if_neg hnotice] at h
      by_cases hreset : shopResetCommand <+: pPacket.cString packetHeaderLength
      · rw [if_pos hreset] at h
        exact .inl ⟨.inr (.inl hreset), _, .inr rfl, (Except.ok.inj h).symm⟩
      rw [if_neg hreset] at h
      by_cases htime : timeAddCommand <+: pPacket.cString packetHeaderLength
      · rw [if_pos htime] at h
        split at h
        · cases h
        · split at h
          · cases h
          · exact .inl ⟨.inr (.inr htime), _, .inr rfl, (Except.ok.inj h).symm⟩
      · rw [if_neg htime] at h
        refine .inr ⟨?_, (Except.ok.inj h).symm⟩
        simp only [hnotice, hreset, htime, or_self, not_false_eq_true]

end PacketManager

/-- One change a handler makes. Of the users it is the one at the index it is called with. -/
inductive Handler.Effect (handler : Handler) (i : ℕ) : Server → Server → Prop
  | actor (σ : Server) (f : Actor → Actor) :
      Effect handler i σ (σ.modUser i (User.modActor f))
  | clear (σ : Server) (h : handler = processUserConnect ∨ handler = processUserDisConnect) :
      Effect handler i σ (σ.modUser i User.clear)
  | inventory (σ : Server) (inven : Inventory) (h : handler = processInventoryDBResult) :
      Effect handler i σ (σ.modUser i fun u => { u with mInventory := inven })
  | dictionary (σ : Server) (keep : Bytes × ℕ → Bool) :
      Effect handler i σ { σ with mUserIDDictionary := σ.mUserIDDictionary.filter keep }
  | room (σ : Server) (r : RoomIndex) (f : Room → Room) : Effect handler i σ (σ.modRoom r f)
  | send (σ : Server) (packets : List (ℕ × ServerPacket))
      (h : ∀ q ∈ packets, q.2.IsShopInfo → handler = processShopUpdateDBResult) :
      Effect handler i σ (σ.sendAll packets)
  | push (σ : Server) (task : RedisTask)
      (h : task.taskID = .requestLogin → handler = processLogin ∧ task.userIndex = i) :
      Effect handler i σ (σ.pushTask task)

/-- Changes one after the other. -/
abbrev Handler.Effects (handler : Handler) (i : ℕ) : Server → Server → Prop :=
  Relation.ReflTransGen (handler.Effect i)

namespace Effects

variable {handler : Handler} {i : ℕ} (env : Env) (σ : Server)

/-! ### The functions of users and rooms -/

lemma actor (f : Actor → Actor) : handler.Effects i σ (σ.modUser i (User.modActor f)) :=
  .single (.actor σ f)

lemma room (r : RoomIndex) (f : Room → Room) : handler.Effects i σ (σ.modRoom r f) :=
  .single (.room σ r f)

lemma push {task : RedisTask} (h : task.taskID ≠ .requestLogin) :
    handler.Effects i σ (σ.pushTask task) :=
  .single (.push σ task fun hlogin => absurd hlogin h)

lemma sendAll {packets : List (ℕ × ServerPacket)} (h : ∀ q ∈ packets, ¬q.2.IsShopInfo) :
    handler.Effects i σ (σ.sendAll packets) :=
  .single (.send σ packets fun q hq hshop => absurd hshop (h q hq))

lemma sendPacketFunc (u : ℕ) {packet : ServerPacket} (h : ¬packet.IsShopInfo) :
    handler.Effects i σ (σ.sendPacketFunc u packet) :=
  sendAll σ (by simpa using h)

/-- A broadcast in a room of anything but a `SHOP_INFO`. -/
lemma sendToAllUser (r : RoomIndex) {packet : ServerPacket} (h : ¬packet.IsShopInfo)
    (passUserIndex : ℤ) (exceptMe : Bool) :
    handler.Effects i σ (Room.sendToAllUser r σ packet passUserIndex exceptMe) :=
  sendAll σ fun q hq => by
    obtain ⟨u, -, rfl⟩ := List.mem_map.mp hq
    exact h

lemma notifyUserEnter (r : RoomIndex) (u : ℤ) (userID : Bytes) :
    handler.Effects i σ (Room.notifyUserEnter env r σ u userID) := sendToAllUser σ r id _ _

lemma enterNpc (r : RoomIndex) : handler.Effects i σ (Room.enterNpc env r σ) :=
  (room σ r _).trans (notifyUserEnter env _ r _ _)

lemma managerEnterUser (number : ℤ) :
    handler.Effects i σ (RoomManager.enterUser env σ number i).2 := by
  rw [RoomManager.enterUser]
  split
  · exact .refl
  · rename_i r _
    rw [Room.enterUser]
    split
    · exact .refl
    · refine ((room σ r _).trans (actor _ _)).trans (sendAll _ fun q hq => ?_)
      rcases List.mem_append.mp hq with hq | hq
      · obtain ⟨v, -, rfl⟩ := List.mem_map.mp hq
        exact id
      · obtain ⟨npc, -, rfl⟩ := List.mem_map.mp hq
        exact id

lemma managerLeaveUser (number : ℤ) :
    handler.Effects i σ (RoomManager.leaveUser env σ number i).2 := by
  rw [RoomManager.leaveUser]
  split
  · exact .refl
  · rename_i r _
    exact ((actor σ _).trans (room _ r _)).trans (sendToAllUser _ r id _ _)

/-! ### The handlers -/

lemma clearConnectionInfo (h : handler = .processUserDisConnect) :
    handler.Effects i σ (PacketManager.clearConnectionInfo env i σ) :=
  PacketManager.clearConnectionInfo_induction (fun _ => managerLeaveUser env σ _) (fun _ => .refl)
    fun _ hleft => (hleft.tail (.dictionary _ _)).tail (.clear _ (.inr h))

lemma processLogin (n : ℕ) (p : View) :
    Handler.processLogin.Effects i σ (PacketManager.processLogin env i n p σ) := by
  rw [PacketManager.processLogin]
  split
  · exact .refl
  · split
    · exact sendPacketFunc σ i id
    · split
      · exact .single (.push σ _ fun _ => ⟨rfl, rfl⟩)
      · exact sendPacketFunc σ i id

lemma processLoginDBResult (p : View) :
    handler.Effects i σ (PacketManager.processLoginDBResult env i p σ) := by
  rw [PacketManager.processLoginDBResult]
  split
  · exact ((actor σ _).trans (sendPacketFunc _ i id)).trans
      (push _ (by decide : RedisTaskID.requestLoadInventory ≠ .requestLogin))
  · exact sendPacketFunc σ i id

lemma processInventoryDBResult (p : View) :
    Handler.processInventoryDBResult.Effects i σ
      (PacketManager.processInventoryDBResult i p σ) := by
  obtain ⟨inven, hinven⟩ := User.foldl_setInventory (itemSlotsAt p) (List.finRange inventorySize)
    (σ.mUserObjPool i)
  have hmod : (σ.modUser i fun user => (List.finRange inventorySize).foldl
      (fun u i => u.setInventory i.val (itemSlotsAt p i)) user) =
      σ.modUser i fun u => { u with mInventory := inven } := by
    rw [Server.modUser, Server.modUser, hinven]
  rw [PacketManager.processInventoryDBResult]
  simp only [hmod]
  exact .trans (.single (.inventory σ inven rfl)) (sendPacketFunc _ i id)

lemma processEnterRoom (p : View) :
    handler.Effects i σ (PacketManager.processEnterRoom env i p σ) := by
  have hentered : handler.Effects i σ
      (RoomManager.enterUser env σ (PacketManager.enterRoomNumber p) i).2 :=
    managerEnterUser env σ _
  have hanswered := fun result => hentered.trans
    (sendPacketFunc _ i (id : ¬(ServerPacket.roomEnterResponse result).IsShopInfo))
  rw [PacketManager.processEnterRoom]
  simp only
  split
  · exact hanswered _
  · split
    · exact hanswered _
    · exact (hanswered _).trans (notifyUserEnter env _ _ _ _)

lemma processPlayerMovement (p : View) :
    handler.Effects i σ (PacketManager.processPlayerMovement i p σ) := by
  rw [PacketManager.processPlayerMovement]
  simp only
  split
  · exact .refl
  · split
    · exact .refl
    · exact (actor σ _).trans (sendToAllUser _ _ id _ _)

lemma processRoomChatMessage {p : View} {τ : Server}
    (h : PacketManager.processRoomChatMessage env i p σ = .ok τ) : handler.Effects i σ τ := by
  rcases PacketManager.processRoomChatMessage_cases h with ⟨-, rfl⟩ | ⟨r, -, ⟨-, rfl⟩ |
    ⟨-, ⟨-, task, htask, rfl⟩ | ⟨-, rfl⟩⟩⟩
  · exact sendPacketFunc σ i id
  · exact enterNpc env σ r
  · exact push σ (by rcases htask with htask | htask <;> rw [htask] <;> decide)
  · exact (sendPacketFunc σ i id).trans (sendToAllUser _ r id _ _)

end Effects

/-- **What a handler can do.** -/
theorem Handler.run_effects {handler : Handler} {env : Env} {i n : ℕ} {p : View} {σ τ : Server}
    (h : handler.run env i n p σ = .ok τ) : handler.Effects i σ τ := by
  cases handler with
  | processUserConnect => exact Except.ok.inj h ▸ .single (.clear σ (.inl rfl))
  | processUserDisConnect => exact Except.ok.inj h ▸ Effects.clearConnectionInfo env σ rfl
  | processLogin => exact Except.ok.inj h ▸ Effects.processLogin env σ n p
  | processLoginDBResult => exact Except.ok.inj h ▸ Effects.processLoginDBResult env σ p
  | processNoticeDBResult =>
      refine Except.ok.inj h ▸ Effects.sendAll σ fun q hq => ?_
      obtain ⟨r, -, hq⟩ := List.mem_flatMap.mp hq
      obtain ⟨u, -, rfl⟩ := List.mem_map.mp hq
      exact id
  | processEnterRoom => exact Except.ok.inj h ▸ Effects.processEnterRoom env σ p
  | processLeaveRoom =>
      exact Except.ok.inj h ▸
        (Effects.managerLeaveUser env σ _).trans (Effects.sendPacketFunc _ i id)
  | processRoomChatMessage => exact Effects.processRoomChatMessage env σ h
  | processPlayerMovement => exact Except.ok.inj h ▸ Effects.processPlayerMovement σ p
  | processInventoryDBResult => exact Except.ok.inj h ▸ Effects.processInventoryDBResult σ p
  | processShopUpdateDBResult => exact Except.ok.inj h ▸ .single (.send σ _ fun _ _ _ => rfl)
  | processShopBuyDBResult => exact Except.ok.inj h ▸ Effects.sendPacketFunc σ i id
  | processShopBuyRequest =>
      exact Except.ok.inj h ▸
        Effects.push σ (by decide : RedisTaskID.requestShopBuy ≠ .requestLogin)
  | processTradeRequest => exact Except.ok.inj h ▸ Effects.sendPacketFunc σ _ id
  | processTradeDBResult => exact Except.ok.inj h ▸ .refl
  | processTradeResponse => exact Except.ok.inj h ▸ .refl
  | processTradeItemUpdate => exact Except.ok.inj h ▸ .refl
  | processTradeLock => exact Except.ok.inj h ▸ .refl
  | processTradeConfirm => exact Except.ok.inj h ▸ .refl

/-- The induction over what a handler does: a property that every single change keeps holds
after the handler if it held before. -/
theorem Handler.run_induction {handler : Handler} {env : Env} {i n : ℕ} {p : View} {σ τ : Server}
    {P : Server → Prop} (hP : ∀ σ τ, handler.Effect i σ τ → P σ → P τ)
    (h : handler.run env i n p σ = .ok τ) (hσ : P σ) : P τ := by
  have heffects := Handler.run_effects h
  clear h
  induction heffects with
  | refl => exact hσ
  | tail _ heffect ih => exact hP _ _ heffect ih

end CKGameServer
