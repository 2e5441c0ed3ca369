import CKGameServer.Lobby.Leave
import CKGameServer.Lobby.RoomActions
import CKGameServer.Model.Client
import CKGameServer.Packets.Senders
import CKGameServer.Library.Outbox

/-!
Players who are together hear the same (`Room::SendToAllUser`, `RoomManager::SendToAllUser`).

* `ServerPacket.isBroadcast`: the packets that go to everybody in a room or in all rooms.
* `Server.Together`: every room has two players in its list equally often.
* `Server.Agrees`: what a handler broadcasts is the same for both; `Handler.run_agrees`: so it is
  where they are together before and after it.
* `World.broadcasts_agree`: so it is over a run.
-/

namespace CKGameServer

open Memory PacketManager Outbox

/-- The packet is one that goes to everybody in a room, or in all rooms. -/
def ServerPacket.isBroadcast : ServerPacket → Bool
  | roomNewUserNtf _ _ | roomLeaveUserNtf _ _ | updatePlayerMovement _ _ _ | roomChatNotify _ _ |
    shopInfo _ _ => true
  | loginResponse _ | roomEnterResponse _ | roomUserInfoNtf _ _ _ _ | roomLeaveResponse _ |
    roomChatResponse _ | shopBuyResponse _ | inventoryInfo _ _ | tradeRequestNtf _ _ => false

/-- What a player is sent of them, in order. -/
def broadcastsTo (u : ℕ) (packets : List (ℕ × ServerPacket)) : List ServerPacket :=
  (sentTo u packets).filter ServerPacket.isBroadcast

lemma broadcastsTo_append (u : ℕ) (packets packets' : List (ℕ × ServerPacket)) :
    broadcastsTo u (packets ++ packets') = broadcastsTo u packets ++ broadcastsTo u packets' := by
  rw [broadcastsTo, sentTo_append, List.filter_append]
  rfl

/-- Packets that are no broadcasts. -/
lemma broadcastsTo_eq_nil {packets : List (ℕ × ServerPacket)}
    (h : ∀ q ∈ packets, q.2.isBroadcast = false) (u : ℕ) : broadcastsTo u packets = [] := by
  rw [broadcastsTo, List.filter_eq_nil_iff]
  intro packet hpacket
  rw [h _ (mem_sentTo.mp hpacket)]
  exact Bool.false_ne_true

namespace Server

variable {u v : ℕ} {σ τ υ : Server}

/-- Every room has the two players in its list equally often. -/
def Together (u v : ℕ) (σ : Server) : Prop :=
  ∀ r, (σ.mRoomList r).mUserList.count u = (σ.mRoomList r).mUserList.count v

lemma Together.of_rooms (h : σ.Together u v)
    (hrooms : ∀ r, (τ.mRoomList r).mUserList = (σ.mRoomList r).mUserList) : τ.Together u v :=
  fun r => by rw [hrooms r, h r]

instance (u v : ℕ) (σ : Server) : Decidable (σ.Together u v) := Fintype.decidableForallFintype

/-- From `σ` to `τ` both players are sent the same broadcasts. -/
def Agrees (u v : ℕ) (σ τ : Server) : Prop :=
  ∃ packets, τ.sent = σ.sent ++ packets ∧ broadcastsTo u packets = broadcastsTo v packets

lemma agrees_of_sent (h : τ.sent = σ.sent) : σ.Agrees u v τ := ⟨[], by rw [h, List.append_nil], rfl⟩

lemma Agrees.trans (h : σ.Agrees u v τ) (h' : τ.Agrees u v υ) : σ.Agrees u v υ := by
  obtain ⟨packets, hsent, hsame⟩ := h
  obtain ⟨packets', hsent', hsame'⟩ := h'
  refine ⟨packets ++ packets', by rw [hsent', hsent, List.append_assoc], ?_⟩
  rw [broadcastsTo_append, broadcastsTo_append, hsame, hsame']

/-- What sends nothing before. -/
lemma Agrees.of_sent (h : τ.Agrees u v υ) (hsent : τ.sent = σ.sent) : σ.Agrees u v υ :=
  (agrees_of_sent hsent).trans h

/-- Packets that are no broadcasts. -/
lemma agrees_sendAll {packets : List (ℕ × ServerPacket)}
    (h : ∀ q ∈ packets, q.2.isBroadcast = false) : σ.Agrees u v (σ.sendAll packets) :=
  ⟨packets, rfl, by rw [broadcastsTo_eq_nil h, broadcastsTo_eq_nil h]⟩

lemma agrees_sendPacketFunc (i : ℕ) {packet : ServerPacket} (h : packet.isBroadcast = false) :
    σ.Agrees u v (σ.sendPacketFunc i packet) :=
  agrees_sendAll fun q hq => by rwa [List.mem_singleton.mp hq]

/-- One packet to a list that has both equally often. -/
lemma agrees_of_map {users : List ℕ} (h : users.count u = users.count v) {packet : ServerPacket}
    (hsent : τ.sent = σ.sent ++ users.map fun w => (w, packet)) : σ.Agrees u v τ :=
  ⟨_, hsent, by rw [broadcastsTo, broadcastsTo, sentTo_broadcast, sentTo_broadcast, h]⟩

lemma agrees_sendToAllUser (h : σ.Together u v) (r : RoomIndex) (packet : ServerPacket)
    (passUserIndex : ℤ) : σ.Agrees u v (Room.sendToAllUser r σ packet passUserIndex false) :=
  agrees_of_map (h r) (by rw [Room.sendToAllUser, Room.toAllUser_false]; rfl)

lemma agrees_notifyUserEnter (env : Env) (r : RoomIndex) (clientIndex : ℤ) (userID : Bytes)
    (h : σ.Together u v) : σ.Agrees u v (Room.notifyUserEnter env r σ clientIndex userID) :=
  agrees_sendToAllUser h r _ _

lemma agrees_managerSendToAllUser (h : σ.Together u v) (packet : ServerPacket)
    (passUserIndex : ℤ) : σ.Agrees u v (RoomManager.sendToAllUser σ packet passUserIndex false) := by
  have hcount : ((List.finRange mMaxRoomCount).flatMap fun r => (σ.mRoomList r).mUserList).count u =
      ((List.finRange mMaxRoomCount).flatMap fun r => (σ.mRoomList r).mUserList).count v := by
    rw [List.count_flatMap, List.count_flatMap]
    exact congrArg List.sum (List.map_congr_left fun r _ => h r)
  have hsent : (RoomManager.sendToAllUser σ packet passUserIndex false).sent = σ.sent ++
      ((List.finRange mMaxRoomCount).flatMap fun r => (σ.mRoomList r).mUserList).map
        fun w => (w, packet) := by
    rw [RoomManager.sendToAllUser, sendAll_sent, List.map_flatMap]
    simp only [Room.toAllUser_false]
  exact agrees_of_map hcount hsent

/-! ### Leaving and entering -/

section Members

variable (env : Env) (i : ℕ)

/-- Those who are left are told, so both players or none. -/
lemma agrees_managerLeaveUser (roomNumber : ℤ)
    (h : (RoomManager.leaveUser env σ roomNumber i).2.Together u v) :
    σ.Agrees u v (RoomManager.leaveUser env σ roomNumber i).2 := by
  rw [RoomManager.leaveUser] at h ⊢
  generalize RoomManager.getRoomByNumber roomNumber = found at h ⊢
  cases found with
  | none => exact agrees_of_sent rfl
  | some r =>
      simp only at h ⊢
      obtain ⟨userID, hsent⟩ := @Room.sent_leaveUser env r
        (σ.modUser i (User.modActor (Actor.setDomainState .login))) i
      exact agrees_of_map (h r) hsent

lemma agrees_clearConnectionInfo (h : (clearConnectionInfo env i σ).Together u v) :
    σ.Agrees u v (clearConnectionInfo env i σ) := by
  refine clearConnectionInfo_induction (P := fun τ => τ.Together u v → σ.Agrees u v τ)
    (fun _ h => agrees_managerLeaveUser env i _ h) (fun _ _ => agrees_of_sent rfl)
    (fun τ hleft h => ?_) h
  exact (hleft h).trans (agrees_of_sent rfl)

/-- What the other members and the npcs are is told to the one who enters, and its entry to all. -/
lemma agrees_processEnterRoom (pPacket : View)
    (h : (processEnterRoom env i pPacket σ).Together u v) :
    σ.Agrees u v (processEnterRoom env i pPacket σ) := by
  have hentered : σ.Agrees u v (RoomManager.enterUser env σ (enterRoomNumber pPacket) i).2 := by
    rw [RoomManager.enterUser]
    cases RoomManager.getRoomByNumber (enterRoomNumber pPacket) with
    | none => exact agrees_of_sent rfl
    | some r =>
        simp only
        rw [Room.enterUser]
        split
        · exact agrees_of_sent rfl
        · refine (agrees_of_sent rfl).trans (agrees_sendAll fun q hq => ?_)
          rcases List.mem_append.mp hq with hq | hq <;> obtain ⟨_, -, rfl⟩ := List.mem_map.mp hq <;>
            rfl
  rw [processEnterRoom] at h ⊢
  simp only at h ⊢
  have hanswered : σ.Agrees u v
      ((RoomManager.enterUser env σ (enterRoomNumber pPacket) i).2.sendPacketFunc i
        (.roomEnterResponse (RoomManager.enterUser env σ (enterRoomNumber pPacket) i).1)) :=
    hentered.trans (agrees_sendPacketFunc i rfl)
  split
  · exact hanswered
  · rename_i hnone
    rw [if_neg hnone] at h
    cases hr : RoomManager.getRoomByNumber (enterRoomNumber pPacket) with
    | none => exact hanswered
    | some r =>
        rw [hr] at h
        exact hanswered.trans (agrees_notifyUserEnter env r _ _ (h.of_rooms fun _ => rfl))

end Members

/-! ### A step -/

variable {env : Env} {i : ℕ}

lemma agrees_processPlayerMovement (pPacket : View)
    (h : σ.Together u v) : σ.Agrees u v (processPlayerMovement i pPacket σ) := by
  rw [processPlayerMovement]
  simp only
  split
  · exact agrees_of_sent rfl
  · split
    · exact agrees_of_sent rfl
    · rename_i r hr
      exact (agrees_of_sent rfl).trans (agrees_sendToAllUser (fun r => h r) r _ _)

lemma agrees_processRoomChatMessage {pPacket : View} (h : σ.Together u v)
    (hrun : processRoomChatMessage env i pPacket σ = .ok τ) : σ.Agrees u v τ := by
  rcases processRoomChatMessage_roomAction hrun with ⟨-, rfl | ⟨task, rfl⟩⟩ |
    ⟨r, ⟨-, rfl⟩ | ⟨-, rfl⟩⟩
  · exact agrees_sendPacketFunc i rfl
  · exact agrees_of_sent rfl
  · refine (agrees_of_sent rfl).trans (agrees_notifyUserEnter env r _ _ (h.of_rooms fun r' => ?_))
    by_cases hr : r' = r
    · subst hr
      simp
    · simp [hr]
  · have hanswered : σ.Agrees u v (σ.sendPacketFunc i (.roomChatResponse .none)) :=
      agrees_sendPacketFunc i rfl
    have hmembers : (σ.sendPacketFunc i (.roomChatResponse .none)).Together u v := h
    exact hanswered.trans (agrees_sendToAllUser hmembers r _ _)

end Server

/-- The handlers that broadcast. -/
def Handler.broadcasters : List Handler :=
  [processUserDisConnect, processEnterRoom, processLeaveRoom, processPlayerMovement,
    processRoomChatMessage, processNoticeDBResult, processShopUpdateDBResult]

section Step

variable {u v i n : ℕ} {σ τ : Server} {handler : Handler} {env : Env} {p : View}

/-- The packets of the others are no broadcasts. -/
lemma agrees_of_notMem_broadcasters (hhandler : handler ∉ Handler.broadcasters)
    (h : Server.Issues handler σ τ) : σ.Agrees u v τ := by
  obtain ⟨packets, hsent, hown⟩ := h.sent
  have hnone : ∀ q ∈ packets, q.2.isBroadcast = false := fun q hq => by
    have hsender := hown q hq
    cases hpacket : q.2 with
    | roomNewUserNtf _ _ => simp_all [ServerPacket.senders, Handler.broadcasters]
    | roomLeaveUserNtf _ _ => simp_all [ServerPacket.senders, Handler.broadcasters]
    | updatePlayerMovement _ _ _ => simp_all [ServerPacket.senders, Handler.broadcasters]
    | roomChatNotify _ _ => simp_all [ServerPacket.senders, Handler.broadcasters]
    | shopInfo _ _ => simp_all [ServerPacket.senders, Handler.broadcasters]
    | _ => rfl
  exact ⟨packets, hsent, by rw [broadcastsTo_eq_nil hnone, broadcastsTo_eq_nil hnone]⟩

/-- **What a handler broadcasts** is the same for players who are together before and after. -/
theorem Handler.run_agrees (hσ : σ.Together u v) (hτ : τ.Together u v)
    (h : handler.run env i n p σ = .ok τ) : σ.Agrees u v τ := by
  cases handler with
  | processUserDisConnect =>
      obtain rfl := Except.ok.inj h
      exact Server.agrees_clearConnectionInfo env i hτ
  | processEnterRoom =>
      obtain rfl := Except.ok.inj h
      exact Server.agrees_processEnterRoom env i p hτ
  | processLeaveRoom =>
      obtain rfl := Except.ok.inj h
      exact (Server.agrees_managerLeaveUser env i _ hτ).trans (Server.agrees_sendPacketFunc i rfl)
  | processPlayerMovement =>
      obtain rfl := Except.ok.inj h
      exact Server.agrees_processPlayerMovement p hσ
  | processRoomChatMessage => exact Server.agrees_processRoomChatMessage hσ h
  | processNoticeDBResult =>
      obtain rfl := Except.ok.inj h
      exact Server.agrees_managerSendToAllUser hσ _ _
  | processShopUpdateDBResult =>
      obtain rfl := Except.ok.inj h
      exact Server.agrees_managerSendToAllUser hσ _ _
  | _ => exact agrees_of_notMem_broadcasters (by decide) (Handler.run_issues h)

end Step

namespace World

variable {u v : ℕ} {w w' : World} {e : Event} {es : List Event}

/-- One step of the system. -/
lemma agrees_of_step (hw : w.server.Together u v) (hw' : w'.server.Together u v)
    (h : w.step e = some w') : w.server.Agrees u v w'.server := by
  obtain ⟨σ, hσ, ⟨-, hsame⟩ | ⟨handler, p, env, -, hrun⟩⟩ := step_cases h
  · exact Server.agrees_of_sent (hsame.sent.trans hσ.sent)
  · have htogether : σ.Together u v := hw.of_rooms fun r => by rw [hσ.mRoomList]
    exact (Server.agrees_of_sent hσ.sent).trans (Handler.run_agrees htogether hw' hrun)

/-- **Players who are together hear the same.** Over any run, whatever the others and the threads
do: as long as every room has two players in its list equally often, the broadcasts that the one is
sent are those that the other is sent, in the same order. -/
theorem broadcasts_agree
    (htogether : Runs.Always step (fun w => w.server.Together u v) w es)
    (hrun : Runs.run step w es = some w') : w.server.Agrees u v w'.server := by
  induction es generalizing w with
  | nil =>
      obtain rfl := Option.some.inj hrun
      exact Server.agrees_of_sent rfl
  | cons e es ih =>
      obtain ⟨w₁, hw₁, hrest⟩ := Option.bind_eq_some_iff.mp hrun
      obtain ⟨hw, hafter⟩ := htogether
      exact (agrees_of_step hw (hafter w₁ hw₁).head hw₁).trans (ih (hafter w₁ hw₁) hrest)

/-- Two clients enter a room. -/
def twoEnter : List Event :=
  Event.request 0 (roomEnterRequestPacket 0) ++ Event.request 1 (roomEnterRequestPacket 0)

/-- A third one enters the room, and somebody is told. -/
theorem broadcasts_thirdEnters :
    ∃ w w', Runs.run step (init 3 (fun _ _ => 0) fun _ => none) twoEnter = some w ∧
      Runs.run step w (Event.request 2 (roomEnterRequestPacket 0)) = some w' ∧
      w.server.Agrees 0 1 w'.server ∧ w.server.sent.length < w'.server.sent.length := by
  have hrun : (Runs.run step (init 3 (fun _ _ => 0) fun _ => none) twoEnter).map (fun w =>
      ((Runs.run step w (Event.request 2 (roomEnterRequestPacket 0))).map
        fun w' => decide (w.server.sent.length < w'.server.sent.length),
      decide (Runs.Always step (fun w => w.server.Together 0 1) w
        (Event.request 2 (roomEnterRequestPacket 0))))) = some (some true, true) := by
    decide +kernel
  obtain ⟨w, hw, hstate⟩ := Option.map_eq_some_iff.mp hrun
  simp only [Prod.mk.injEq, decide_eq_true_eq] at hstate
  obtain ⟨hthird, htogether⟩ := hstate
  obtain ⟨w', hw', hsent⟩ := Option.map_eq_some_iff.mp hthird
  exact ⟨w, w', hw, hw', broadcasts_agree htogether hw', of_decide_eq_true hsent⟩

end World

end CKGameServer
