import CKGameServer.Model.GameServer

/-!
Which handler sends which packet, and pushes which task (`PacketManager.cpp`, `Room.h`).

* `ServerPacket.senders`, `RedisTaskID.pushers`: the handlers for each kind of packet and of
  request task.
* `Server.Issues`: from one state to another a handler sends packets and pushes tasks that are
  its own.
* `Handler.run_issues`: this is what a handler does; `World.exists_sent_of_step`: so what a step
  sends is sent by the handler it runs.
* `Handler.run_mInventory`: only `ProcessInventoryDBResult` writes an inventory.
-/

namespace CKGameServer

open Memory

/-- The handlers that send a packet of this kind. -/
def ServerPacket.senders : ServerPacket → List Handler
  | loginResponse _ => [.processLogin, .processLoginDBResult]
  | roomEnterResponse _ => [.processEnterRoom]
  | roomNewUserNtf _ _ => [.processEnterRoom, .processRoomChatMessage]
  | roomUserInfoNtf _ _ _ _ => [.processEnterRoom]
  | roomLeaveResponse _ => [.processLeaveRoom]
  | roomLeaveUserNtf _ _ => [.processLeaveRoom, .processUserDisConnect]
  | updatePlayerMovement _ _ _ => [.processPlayerMovement]
  | roomChatResponse _ => [.processRoomChatMessage]
  | roomChatNotify _ _ => [.processRoomChatMessage, .processNoticeDBResult]
  | shopInfo _ _ => [.processShopUpdateDBResult]
  | shopBuyResponse _ => [.processShopBuyDBResult]
  | inventoryInfo _ _ => [.processInventoryDBResult]
  | tradeRequestNtf _ _ => [.processTradeRequest]

/-- The handlers that push a task of this kind. -/
def RedisTaskID.pushers : RedisTaskID → List Handler
  | requestLogin => [.processLogin]
  | requestNotice | requestShopUpdate => [.processRoomChatMessage]
  | requestLoadInventory => [.processLoginDBResult]
  | requestShopBuy => [.processShopBuyRequest]
  | _ => []

/-- From `σ` to `τ` the handler sends packets and pushes tasks, all of them its own. -/
structure Server.Issues (handler : Handler) (σ τ : Server) : Prop where
  sent : ∃ packets, τ.sent = σ.sent ++ packets ∧ ∀ q ∈ packets, handler ∈ q.2.senders
  tasks : ∃ tasks, τ.mRequestTask = σ.mRequestTask ++ tasks ∧
    ∀ task ∈ tasks, handler ∈ task.taskID.pushers

namespace Server.Issues

variable {handler : Handler} {σ τ υ : Server}

lemma refl (handler : Handler) (σ : Server) : Issues handler σ σ := ⟨⟨[], by simp⟩, ⟨[], by simp⟩⟩

/-- A change that sends and pushes nothing. -/
lemma of_same (h : Issues handler σ τ) (hsent : υ.sent = τ.sent)
    (htasks : υ.mRequestTask = τ.mRequestTask) : Issues handler σ υ := by
  obtain ⟨⟨ps, hps, hp⟩, ts, hts, ht⟩ := h
  exact ⟨⟨ps, hsent.trans hps, hp⟩, ts, htasks.trans hts, ht⟩

lemma sendAll (h : Issues handler σ τ) {packets : List (ℕ × ServerPacket)}
    (hown : ∀ q ∈ packets, handler ∈ q.2.senders) : Issues handler σ (τ.sendAll packets) := by
  obtain ⟨⟨ps, hps, hp⟩, htasks⟩ := h
  refine ⟨⟨ps ++ packets, ?_, fun q hq => (List.mem_append.mp hq).elim (hp q) (hown q)⟩, htasks⟩
  rw [sendAll_sent, hps, List.append_assoc]

lemma sendPacketFunc (h : Issues handler σ τ) (u : ℕ) {packet : ServerPacket}
    (hown : handler ∈ packet.senders) : Issues handler σ (τ.sendPacketFunc u packet) :=
  h.sendAll fun q hq => by
    obtain rfl := List.mem_singleton.mp hq
    exact hown

lemma sendToAllUser (h : Issues handler σ τ) (r : RoomIndex) {packet : ServerPacket}
    (hown : handler ∈ packet.senders) (passUserIndex : ℤ) (exceptMe : Bool) :
    Issues handler σ (Room.sendToAllUser r τ packet passUserIndex exceptMe) :=
  h.sendAll fun q hq => by
    obtain ⟨u, -, rfl⟩ := List.mem_map.mp hq
    exact hown

lemma sendToEveryRoom (h : Issues handler σ τ) {packet : ServerPacket}
    (hown : handler ∈ packet.senders) (passUserIndex : ℤ) (exceptMe : Bool) :
    Issues handler σ (RoomManager.sendToAllUser τ packet passUserIndex exceptMe) :=
  h.sendAll fun q hq => by
    obtain ⟨r, -, hq⟩ := List.mem_flatMap.mp hq
    obtain ⟨u, -, rfl⟩ := List.mem_map.mp hq
    exact hown

lemma pushTask (h : Issues handler σ τ) {task : RedisTask}
    (hown : handler ∈ task.taskID.pushers) : Issues handler σ (τ.pushTask task) := by
  obtain ⟨hsent, ts, hts, ht⟩ := h
  refine ⟨hsent, ts ++ [task], ?_, fun t htask => ?_⟩
  · rw [pushTask_mRequestTask, hts, List.append_assoc]
  · rcases List.mem_append.mp htask with htask | htask
    · exact ht t htask
    · rwa [List.mem_singleton.mp htask]

end Server.Issues

/-! ### The handlers -/

section Handlers

open Server PacketManager

variable {handler : Handler} {env : Env} {i n : ℕ} {p : View} {σ : Server}

lemma issues_leaveUser (number : ℤ)
    (hown : ∀ uuid userID, handler ∈ (ServerPacket.roomLeaveUserNtf uuid userID).senders) :
    Issues handler σ (RoomManager.leaveUser env σ number i).2 := by
  rw [RoomManager.leaveUser]
  split
  · exact .refl handler σ
  · simp only [Room.leaveUser]
    refine Issues.sendToAllUser ?_ _ (hown _ _) _ _
    exact (Issues.refl handler σ).of_same rfl rfl

lemma issues_clearConnectionInfo :
    Issues .processUserDisConnect σ (clearConnectionInfo env i σ) := by
  refine clearConnectionInfo_induction (fun _ => ?_) (fun _ => .refl _ σ)
    fun τ hleft => hleft.of_same rfl rfl
  exact issues_leaveUser _ fun _ _ => by simp [ServerPacket.senders]

lemma issues_processLogin : Issues .processLogin σ (processLogin env i n p σ) := by
  have hrefl := Issues.refl .processLogin σ
  rw [processLogin]
  split
  · exact hrefl
  · split
    · exact hrefl.sendPacketFunc i (by simp [ServerPacket.senders])
    · split
      · exact hrefl.pushTask (by simp [loginTask, RedisTask.make, RedisTaskID.pushers])
      · exact hrefl.sendPacketFunc i (by simp [ServerPacket.senders])

lemma issues_processLoginDBResult :
    Issues .processLoginDBResult σ (processLoginDBResult env i p σ) := by
  have hrefl := Issues.refl .processLoginDBResult σ
  rw [processLoginDBResult]
  split
  · refine Issues.pushTask (Issues.sendPacketFunc ?_ i (by simp [ServerPacket.senders]))
      (by simp [loadInventoryTask, RedisTask.make, RedisTaskID.pushers])
    exact hrefl.of_same rfl rfl
  · exact hrefl.sendPacketFunc i (by simp [ServerPacket.senders])

lemma issues_enterUser (env : Env) (i : ℕ) (σ : Server) (number : ℤ) :
    Issues .processEnterRoom σ (RoomManager.enterUser env σ number i).2 := by
  have hrefl := Issues.refl .processEnterRoom σ
  rw [RoomManager.enterUser]
  split
  · exact hrefl
  · rw [Room.enterUser]
    split
    · exact hrefl
    · refine Issues.sendAll ?_ fun q hq => ?_
      · exact hrefl.of_same rfl rfl
      rcases List.mem_append.mp hq with hq | hq
      · obtain ⟨v, -, rfl⟩ := List.mem_map.mp hq
        simp [Room.roomUserInfoNtf, ServerPacket.senders]
      · obtain ⟨npc, -, rfl⟩ := List.mem_map.mp hq
        simp [Room.roomUserInfoNtf, ServerPacket.senders]

lemma issues_processEnterRoom : Issues .processEnterRoom σ (processEnterRoom env i p σ) := by
  have hanswered : ∀ result, Issues .processEnterRoom σ (Server.sendPacketFunc
      (RoomManager.enterUser env σ (enterRoomNumber p) i).2 i (.roomEnterResponse result)) :=
    fun _ => (issues_enterUser env i σ _).sendPacketFunc i (by simp [ServerPacket.senders])
  rw [processEnterRoom]
  simp only
  split
  · exact hanswered _
  · split
    · exact hanswered _
    · exact Issues.sendToAllUser (hanswered _) _ (by simp [ServerPacket.senders]) _ _

lemma issues_processPlayerMovement :
    Issues .processPlayerMovement σ (processPlayerMovement i p σ) := by
  have hrefl := Issues.refl .processPlayerMovement σ
  rw [processPlayerMovement]
  simp only
  split
  · exact hrefl
  · split
    · exact hrefl
    · refine Issues.sendToAllUser ?_ _ (by simp [ServerPacket.senders]) _ _
      exact hrefl.of_same rfl rfl

lemma issues_enterNpc (r : RoomIndex) :
    Issues .processRoomChatMessage σ (Room.enterNpc env r σ) := by
  refine Issues.sendToAllUser ?_ r (by simp [ServerPacket.senders]) _ _
  exact (Issues.refl _ σ).of_same rfl rfl

lemma issues_processRoomChatMessage {τ : Server}
    (h : processRoomChatMessage env i p σ = .ok τ) : Issues .processRoomChatMessage σ τ := by
  have hrefl := Issues.refl .processRoomChatMessage σ
  rcases processRoomChatMessage_cases h with ⟨-, rfl⟩ | ⟨r, -, ⟨-, rfl⟩ |
    ⟨-, ⟨-, task, htask, rfl⟩ | ⟨-, rfl⟩⟩⟩
  · exact hrefl.sendPacketFunc i (by simp [ServerPacket.senders])
  · exact issues_enterNpc r
  · refine hrefl.pushTask ?_
    rcases htask with htask | htask <;> simp [htask, RedisTaskID.pushers]
  · have hown : Handler.processRoomChatMessage ∈
        (ServerPacket.roomChatResponse .none).senders := by simp [ServerPacket.senders]
    exact (hrefl.sendPacketFunc i hown).sendToAllUser r (by simp [ServerPacket.senders]) _ _

end Handlers

/-- **What a handler sends and pushes** is its own. -/
theorem Handler.run_issues {handler : Handler} {env : Env} {i n : ℕ} {p : View} {σ τ : Server}
    (h : handler.run env i n p σ = .ok τ) : Server.Issues handler σ τ := by
  have hrefl := Server.Issues.refl handler σ
  cases handler with
  | processRoomChatMessage => exact issues_processRoomChatMessage h
  | processUserConnect => exact Except.ok.inj h ▸ hrefl.of_same rfl rfl
  | processUserDisConnect => exact Except.ok.inj h ▸ issues_clearConnectionInfo
  | processLogin => exact Except.ok.inj h ▸ issues_processLogin
  | processLoginDBResult => exact Except.ok.inj h ▸ issues_processLoginDBResult
  | processNoticeDBResult =>
      exact Except.ok.inj h ▸ hrefl.sendToEveryRoom (by simp [ServerPacket.senders]) _ _
  | processEnterRoom => exact Except.ok.inj h ▸ issues_processEnterRoom
  | processLeaveRoom =>
      exact Except.ok.inj h ▸ (issues_leaveUser _ fun _ _ => by
        simp [ServerPacket.senders]).sendPacketFunc i (by simp [ServerPacket.senders])
  | processPlayerMovement => exact Except.ok.inj h ▸ issues_processPlayerMovement
  | processInventoryDBResult =>
      refine Except.ok.inj h ▸ Server.Issues.sendPacketFunc ?_ i (by simp [ServerPacket.senders])
      exact hrefl.of_same rfl rfl
  | processShopUpdateDBResult =>
      exact Except.ok.inj h ▸ hrefl.sendToEveryRoom (by simp [ServerPacket.senders]) _ _
  | processShopBuyDBResult =>
      exact Except.ok.inj h ▸ hrefl.sendPacketFunc i (by simp [ServerPacket.senders])
  | processShopBuyRequest =>
      exact Except.ok.inj h ▸ hrefl.pushTask (by simp [RedisTask.make, RedisTaskID.pushers])
  | processTradeRequest =>
      exact Except.ok.inj h ▸ hrefl.sendPacketFunc _ (by simp [ServerPacket.senders])
  | processTradeDBResult => exact Except.ok.inj h ▸ hrefl
  | processTradeResponse => exact Except.ok.inj h ▸ hrefl
  | processTradeItemUpdate => exact Except.ok.inj h ▸ hrefl
  | processTradeLock => exact Except.ok.inj h ▸ hrefl
  | processTradeConfirm => exact Except.ok.inj h ▸ hrefl

/-- What a step sends is sent by the handler it runs. -/
lemma World.exists_sent_of_step {w w' : World} {e : Event} (h : w.step e = some w') :
    ∃ packets, w'.server.sent = w.server.sent ++ packets ∧
      ∀ q ∈ packets, ∃ p handler, w.call e = some (handler, p) ∧ handler ∈ q.2.senders := by
  obtain ⟨σ, hσ, ⟨-, hsame⟩ | ⟨handler, p, env, hcall, hrun⟩⟩ := step_cases h
  · exact ⟨[], by rw [hsame.sent, hσ.sent, List.append_nil], by simp⟩
  · obtain ⟨⟨packets, hsent, hown⟩, -⟩ := Handler.run_issues hrun
    exact ⟨packets, by rw [hsent, hσ.sent], fun q hq => ⟨p, handler, hcall, hown q hq⟩⟩

/-- **Only `ProcessInventoryDBResult` writes an inventory.** -/
theorem Handler.run_mInventory {handler : Handler} {env : Env} {i n : ℕ} {p : View}
    {σ τ : Server} (hother : handler ≠ .processInventoryDBResult)
    (h : handler.run env i n p σ = .ok τ) (j : ℕ) :
    (τ.mUserObjPool j).mInventory = (σ.mUserObjPool j).mInventory := by
  refine Handler.run_induction (P := fun τ => (τ.mUserObjPool j).mInventory =
    (σ.mUserObjPool j).mInventory) (fun τ υ heffect hτ => ?_) h rfl
  have hmod : ∀ f : User → User, (∀ u, (f u).mInventory = u.mInventory) →
      ((τ.modUser i f).mUserObjPool j).mInventory = (σ.mUserObjPool j).mInventory := by
    intro f hf
    rw [← hτ]
    by_cases hj : j = i
    · subst hj
      simp [hf]
    · simp [hj]
  cases heffect with
  | actor f => exact hmod _ fun _ => rfl
  | clear _ => exact hmod _ fun _ => rfl
  | inventory inven hinven => exact absurd hinven hother
  | dictionary keep => exact hτ
  | room r f => exact hτ
  | send packets _ => exact hτ
  | push task _ => exact hτ

end CKGameServer
