import CKGameServer.Lobby.Basic
import CKGameServer.Model.GameServer

/-!
The server refines the lobby.

* `Server.lobby`: the lobby of a state of the server.
* `Handler.op`: the operation of the lobby a handler carries out on its packet, if it does one.
* `Handler.run_lobby`: a handler changes the lobby by that operation and in no other way.
* `World.step_lobby`: so does a step of the system.
* `World.always_lobby_iff`: what holds along runs of the lobby holds along runs of the system.
-/

namespace CKGameServer

open Memory

/-! ### The lobby of a server -/

/-- What the lobby knows of a user. -/
def Actor.session (a : Actor) : Session where
  userID := a.mUserID
  state := a.mCurDomainState
  room := RoomManager.getRoomByNumber a.mRoomIndex

/-- The lobby of a state of the server. -/
def Server.lobby (σ : Server) : Lobby where
  session u := (σ.mUserObjPool u).toActor.session
  members r := (σ.mRoomList r).mUserList
  count r := (σ.mRoomList r).mCurrentUserCount

lemma Server.SameUsers.lobby_eq {σ τ : Server} (h : σ.SameUsers τ) : τ.lobby = σ.lobby := by
  rw [Server.lobby, Server.lobby, h.mRoomList]
  simp only [h.toActor]

namespace Server

variable (σ : Server)

@[simp] lemma lobby_sendAll (packets : List (ℕ × ServerPacket)) :
    (σ.sendAll packets).lobby = σ.lobby := rfl

@[simp] lemma lobby_sendPacketFunc (i : ℕ) (packet : ServerPacket) :
    (σ.sendPacketFunc i packet).lobby = σ.lobby := rfl

@[simp] lemma lobby_pushTask (task : RedisTask) : (σ.pushTask task).lobby = σ.lobby := rfl

@[simp] lemma lobby_notifyUserEnter (env : Env) (r : RoomIndex) (i : ℤ) (userID : Bytes) :
    (Room.notifyUserEnter env r σ i userID).lobby = σ.lobby := rfl

/-- An update of a user is an update of its record. -/
lemma lobby_modUser (u : ℕ) (f : User → User) :
    (σ.modUser u f).lobby = σ.lobby.setSession u (f (σ.mUserObjPool u)).toActor.session := by
  simp only [lobby, Lobby.setSession, modUser_mUserObjPool, modUser_mRoomList, Lobby.mk.injEq,
    and_true]
  funext v
  by_cases hv : v = u
  · subst hv; simp
  · simp [hv]

/-- An update that leaves the record of its user alone leaves the lobby alone. -/
lemma lobby_modUser_of_eq {u : ℕ} {f : User → User}
    (h : (f (σ.mUserObjPool u)).toActor.session = (σ.mUserObjPool u).toActor.session) :
    (σ.modUser u f).lobby = σ.lobby := by
  rw [lobby_modUser, h]
  exact σ.lobby.setSession_self u

/-- An update of a room is an update of its list and its counter. -/
lemma lobby_modRoom (r : RoomIndex) (f : Room → Room) :
    (σ.modRoom r f).lobby =
      { σ.lobby with
        members := Function.update σ.lobby.members r (f (σ.mRoomList r)).mUserList
        count := Function.update σ.lobby.count r (f (σ.mRoomList r)).mCurrentUserCount } := by
  simp only [lobby, modRoom_mUserObjPool, modRoom_mRoomList, Lobby.mk.injEq, true_and]
  constructor
  · funext r'
    by_cases hr : r' = r
    · subst hr; simp
    · simp [hr]
  · funext r'
    by_cases hr : r' = r
    · subst hr; simp
    · simp [hr]

end Server

/-! ### The functions of the source -/

section Functions

open Server

variable (env : Env) (σ : Server) (u : ℕ) (r : RoomIndex)

lemma lobby_clear : (σ.modUser u User.clear).lobby = σ.lobby.setSession u {} := by
  rw [lobby_modUser]
  rfl

lemma lobby_enterUser :
    (Room.enterUser env r σ u).2.lobby = σ.lobby.apply (.enter u r) ∧
      ((Room.enterUser env r σ u).1 = .none ↔ σ.lobby.HasPlace r) := by
  have hplace : σ.lobby.HasPlace r ↔
      ¬mMaxUserCount ≤ (σ.mRoomList r).mCurrentUserCount.toNat := by
    rw [Lobby.HasPlace, Nat.not_le]
    rfl
  rw [Room.enterUser, Lobby.apply]
  split
  · rename_i hfull
    rw [if_neg (by rw [hplace]; exact not_not.mpr hfull)]
    exact ⟨rfl, by simp [hplace, hfull]⟩
  · rename_i hfree
    rw [if_pos (hplace.mpr hfree)]
    refine ⟨?_, by simp [hplace, hfree]⟩
    simp only [lobby_sendAll, lobby_modUser, lobby_modRoom]
    simp [Lobby.setSession, Lobby.addTo, lobby, Room.pushUser, Actor.session, Actor.enterRoom]

lemma lobby_managerEnterUser (number : ℤ) :
    (RoomManager.enterUser env σ number u).2.lobby =
      match RoomManager.getRoomByNumber number with
      | none => σ.lobby
      | some r => σ.lobby.apply (.enter u r) := by
  rw [RoomManager.enterUser]
  cases RoomManager.getRoomByNumber number with
  | none => rfl
  | some r => exact (lobby_enterUser env σ u r).1

lemma lobby_roomLeaveUser :
    (Room.leaveUser env r (σ.modUser u (User.modActor (Actor.setDomainState .login))) u).lobby =
      σ.lobby.removeFrom u r := by
  have hid : ∀ v, ((σ.modUser u (User.modActor (Actor.setDomainState .login))).mUserObjPool
      v).mUserID = (σ.mUserObjPool v).mUserID := fun v => by
    by_cases hv : v = u
    · subst hv; simp [Actor.setDomainState]
    · simp [hv]
  have hmembers : (Room.removeUsers (fun v => (σ.mUserObjPool u).mUserID ==
      (σ.mUserObjPool v).mUserID) (σ.mRoomList r)).mUserList =
      (σ.lobby.members r).filter fun v => !σ.lobby.SameID u v :=
    List.filter_congr fun v _ => congrArg not (beq_eq_decide ..)
  rw [Room.leaveUser]
  simp only [Room.sendToAllUser, lobby_sendAll, lobby_modRoom, hid, modUser_mRoomList, hmembers]
  simp only [lobby_modUser]
  rfl

lemma lobby_managerLeaveUser :
    (RoomManager.leaveUser env σ (σ.mUserObjPool u).mRoomIndex u).2.lobby =
      σ.lobby.leaveRoom u := by
  rw [RoomManager.leaveUser]
  split
  · rename_i hr
    exact (Lobby.leaveRoom_of_none hr).symm
  · rename_i r hr
    rw [Lobby.leaveRoom_of_some (show (σ.lobby.session u).room = some r from hr)]
    exact lobby_roomLeaveUser env σ u r

lemma lobby_clearConnectionInfo :
    (PacketManager.clearConnectionInfo env u σ).lobby = σ.lobby.apply (.disconnect u) := by
  rw [PacketManager.clearConnectionInfo, Lobby.apply]
  have hleft : (if (σ.mUserObjPool u).mCurDomainState = .room then
        (RoomManager.leaveUser env σ (σ.mUserObjPool u).mRoomIndex u).2 else σ).lobby =
      if (σ.lobby.session u).state = .room then σ.lobby.leaveRoom u else σ.lobby := by
    rw [show (σ.lobby.session u).state = (σ.mUserObjPool u).mCurDomainState from rfl]
    split
    · exact lobby_managerLeaveUser env σ u
    · rfl
  generalize (if (σ.mUserObjPool u).mCurDomainState = .room then
    (RoomManager.leaveUser env σ (σ.mUserObjPool u).mRoomIndex u).2 else σ) = τ at hleft ⊢
  rw [← hleft]
  show (if (τ.mUserObjPool u).mCurDomainState ≠ .none then _ else τ).lobby =
    if (τ.mUserObjPool u).mCurDomainState ≠ .none then _ else τ.lobby
  split
  · exact lobby_clear _ u
  · rfl

end Functions

/-! ### The handlers -/

/-- The operation of the lobby that a handler carries out. -/
def Handler.op : Handler → RecvPacket → Option Lobby.Op
  | .processUserConnect, p => some (.connect p.clientIndex)
  | .processUserDisConnect, p => some (.disconnect p.clientIndex)
  | .processLoginDBResult, p =>
    if loginResultAt p.pPacket = ErrorCode.none.code then
      some (.login p.clientIndex (p.pPacket.cString 0))
    else none
  | .processEnterRoom, p =>
    (RoomManager.getRoomByNumber (PacketManager.enterRoomNumber p.pPacket)).map
      (.enter p.clientIndex)
  | .processLeaveRoom, p => some (.leave p.clientIndex)
  | _, _ => none

/-- An operation, or nothing. -/
def Lobby.applyOption (L : Lobby) : Option Op → Lobby
  | none => L
  | some op => L.apply op

lemma session_updateMovement (dx dy : ℚ) (rotation : Quaternion) (a : Actor) :
    (a.updateMovement dx dy rotation).session = a.session := rfl

lemma Lobby.WellRoomed.applyOption {L : Lobby} (h : L.WellRoomed) (op : Option Op) :
    (L.applyOption op).WellRoomed := by
  cases op with
  | none => exact h
  | some op => exact h.apply op

section Handlers

open PacketManager

variable (env : Env) (clientIndex packetSize : ℕ) (pPacket : View) (σ : Server)

lemma lobby_processLogin :
    (processLogin env clientIndex packetSize pPacket σ).lobby = σ.lobby := by
  rw [processLogin]
  repeat' split
  all_goals rfl

lemma lobby_processLoginDBResult :
    (processLoginDBResult env clientIndex pPacket σ).lobby =
      if loginResultAt pPacket = ErrorCode.none.code then
        σ.lobby.apply (.login clientIndex (pPacket.cString 0))
      else σ.lobby := by
  rw [processLoginDBResult]
  split
  · simp only [Server.lobby_pushTask, Server.lobby_sendPacketFunc, Server.lobby_modUser]
    rfl
  · rfl

lemma lobby_processEnterRoom :
    (processEnterRoom env clientIndex pPacket σ).lobby =
      match RoomManager.getRoomByNumber (enterRoomNumber pPacket) with
      | none => σ.lobby
      | some r => σ.lobby.apply (.enter clientIndex r) := by
  rw [← lobby_managerEnterUser env σ clientIndex (enterRoomNumber pPacket), processEnterRoom]
  simp only
  split
  · rw [Server.lobby_sendPacketFunc]
  · split
    · rw [Server.lobby_sendPacketFunc]
    · rw [Server.lobby_notifyUserEnter, Server.lobby_sendPacketFunc]

lemma lobby_processPlayerMovement :
    (processPlayerMovement clientIndex pPacket σ).lobby = σ.lobby := by
  rw [processPlayerMovement]
  simp only
  split
  · rfl
  · split
    · rfl
    · rw [Room.sendToAllUser, Server.lobby_sendAll]
      exact Server.lobby_modUser_of_eq σ (session_updateMovement ..)

lemma lobby_processInventoryDBResult :
    (processInventoryDBResult clientIndex pPacket σ).lobby = σ.lobby := by
  rw [processInventoryDBResult]
  simp only [Server.lobby_sendPacketFunc]
  obtain ⟨inven, hinven⟩ := User.foldl_setInventory (itemSlotsAt pPacket)
    (List.finRange inventorySize) (σ.mUserObjPool clientIndex)
  exact Server.lobby_modUser_of_eq σ (by rw [hinven])

variable {env clientIndex pPacket σ} in
/-- Chat leaves the lobby alone. -/
lemma lobby_processRoomChatMessage {τ : Server}
    (h : processRoomChatMessage env clientIndex pPacket σ = .ok τ) : τ.lobby = σ.lobby := by
  have hnpc : ∀ r, (Room.enterNpc env r σ).lobby = σ.lobby := fun r => by
    rw [Room.enterNpc, Room.notifyUserEnter, Room.sendToAllUser]
    simp only [Server.lobby_sendAll, Server.lobby_modRoom]
    simp [Server.lobby]
  rcases processRoomChatMessage_cases h with ⟨-, rfl⟩ | ⟨r, -, ⟨-, rfl⟩ |
    ⟨-, ⟨-, task, -, rfl⟩ | ⟨-, rfl⟩⟩⟩
  · rfl
  · exact hnpc r
  · rfl
  · rfl

end Handlers

/-- **A handler refines its operation**: it changes the lobby by it and in no other way. -/
theorem Handler.run_lobby {handler : Handler} {env : Env} {p : RecvPacket} {σ τ : Server}
    (h : handler.run env p.clientIndex p.packetSize p.pPacket σ = .ok τ) :
    τ.lobby = σ.lobby.applyOption (handler.op p) := by
  cases handler with
  | processRoomChatMessage => exact lobby_processRoomChatMessage h
  | processUserConnect => exact Except.ok.inj h ▸ lobby_clear σ _
  | processUserDisConnect => exact Except.ok.inj h ▸ lobby_clearConnectionInfo env σ _
  | processLogin => exact Except.ok.inj h ▸ lobby_processLogin env _ _ _ σ
  | processLoginDBResult =>
      obtain rfl := Except.ok.inj h
      rw [lobby_processLoginDBResult, Handler.op]
      split <;> rfl
  | processEnterRoom =>
      obtain rfl := Except.ok.inj h
      rw [lobby_processEnterRoom, Handler.op]
      split <;> simp_all [Lobby.applyOption]
  | processLeaveRoom => exact Except.ok.inj h ▸ lobby_managerLeaveUser env σ p.clientIndex
  | processPlayerMovement => exact Except.ok.inj h ▸ lobby_processPlayerMovement _ _ σ
  | processInventoryDBResult => exact Except.ok.inj h ▸ lobby_processInventoryDBResult _ _ σ
  | processNoticeDBResult => exact Except.ok.inj h ▸ rfl
  | processTradeDBResult => exact Except.ok.inj h ▸ rfl
  | processShopUpdateDBResult => exact Except.ok.inj h ▸ rfl
  | processShopBuyDBResult => exact Except.ok.inj h ▸ rfl
  | processShopBuyRequest => exact Except.ok.inj h ▸ rfl
  | processTradeRequest => exact Except.ok.inj h ▸ rfl
  | processTradeResponse => exact Except.ok.inj h ▸ rfl
  | processTradeItemUpdate => exact Except.ok.inj h ▸ rfl
  | processTradeLock => exact Except.ok.inj h ▸ rfl
  | processTradeConfirm => exact Except.ok.inj h ▸ rfl

/-- A handler that carries out an operation does not fail. -/
lemma Handler.run_of_op {handler : Handler} {p : RecvPacket} {op : Lobby.Op}
    (h : handler.op p = some op) (env : Env) (σ : Server) :
    ∃ τ, handler.run env p.clientIndex p.packetSize p.pPacket σ = .ok τ := by
  cases handler with
  | processRoomChatMessage => cases h
  | _ => exact ⟨_, rfl⟩

/-! ### The system -/

namespace World

/-- The operation of the lobby an event carries out. -/
def op (w : World) (e : Event) : Option Lobby.Op := (w.call e).bind fun c => c.1.op c.2

/-- **A step of the system refines its operation.** -/
theorem step_lobby {w w' : World} {e : Event} (h : w.step e = some w') :
    w'.server.lobby = w.server.lobby.applyOption (w.op e) := by
  obtain ⟨σ, hσ, ⟨hcall, hsame⟩ | ⟨handler, p, env, hcall, hrun⟩⟩ := step_cases h
  · rw [op, hcall, hsame.lobby_eq, hσ.lobby_eq]
    rfl
  · rw [op, hcall, Handler.run_lobby hrun, hσ.lobby_eq]
    rfl

/-- An operation of the lobby never ends the run. -/
lemma exists_step_of_op {w : World} {e : Event} {op : Lobby.Op} (h : w.op e = some op) :
    ∃ w', w.step e = some w' := by
  obtain ⟨⟨handler, p⟩, hcall, hop⟩ := Option.bind_eq_some_iff.mp h
  exact exists_step_of_run hcall fun env σ _ => Handler.run_of_op hop env σ

/-- **Runs of the system are runs of the lobby.** If, under an invariant `I` of the operations,
an operation keeps `P` exactly when it meets `C`, then `P` holds of the lobby throughout a run
of the system exactly when all operations the run carries out meet `C`. -/
theorem always_lobby_iff {I P : Lobby → Prop} {C : Lobby → Lobby.Op → Prop}
    (hI : ∀ L op, I L → I (L.apply op))
    (hiff : ∀ L op, I L → P L → (P (L.apply op) ↔ C L op))
    {w : World} (es : List Event) (hIw : I w.server.lobby) (hw : P w.server.lobby) :
    Runs.Always step (fun w => P w.server.lobby) w es ↔
      Runs.Along step (fun w e => ∀ op, w.op e = some op → C w.server.lobby op) w es := by
  refine Runs.always_iff_along (I := fun w => I w.server.lobby) (fun w e w' hIw h => ?_)
    (fun w e hIw hw => ?_) es hIw hw
  · rw [step_lobby h]
    cases w.op e with
    | none => exact hIw
    | some op => exact hI _ op hIw
  · cases hop : w.op e with
    | none =>
        refine iff_of_true (fun w' h => ?_) (fun op hop' => by cases hop')
        rwa [step_lobby h, hop]
    | some op =>
        obtain ⟨w', hstep⟩ := exists_step_of_op hop
        have hlobby := step_lobby hstep
        rw [hop] at hlobby
        have hkeep : (∀ w', w.step e = some w' → P w'.server.lobby) ↔
            P (w.server.lobby.apply op) := by
          constructor
          · intro h
            rw [show w.server.lobby.apply op = w'.server.lobby from hlobby.symm]
            exact h w' hstep
          · intro h w'' hstep'
            rw [step_lobby hstep', hop]
            exact h
        rw [hkeep, hiff _ op hIw hw]
        exact ⟨fun h op' hop' => Option.some.inj hop' ▸ h, fun h => h op rfl⟩

end World

end CKGameServer
