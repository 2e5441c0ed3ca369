import CKGameServer.Lobby.Refinement
import CKGameServer.Lobby.RoomActions
import CKGameServer.Packets.Senders
import CKGameServer.Library.Outbox

/-!
What players are told of each other (`Room.h`, `ProcessEnterRoom`, `ProcessPlayerMovement`).

Four kinds of packets tell a player who is in its room, and where: `ROOM_USER_INFO_NTF`,
`ROOM_NEW_USER_NTF`, `ROOM_LEAVE_USER_NTF` and `UPDATE_PLAYER_MOVEMENT`.

* `News`, `newsOf`: what such a packet says, and what a list of packets says.
* `Handler.news`: what a handler says, and to whom; `Handler.run_tells`: this is what its packets
  say.
* `Server.SameActors`: no user moves and no room gets an npc, as with most handlers.
* `Handler.spawned`: the npc a handler makes; `Handler.run_mNpcList`: the npcs of a room after it.
* `World.step_news`: the same for a step of the system.
* `World.Entered`: the system with, for each slot, the number of packets sent when it last entered a
  room; `heard`: what a player has been told since then.
-/

namespace CKGameServer

open Memory PacketManager

/-! ### News -/

/-- What a packet tells a player of another one. -/
inductive News where
  | present (uuid : ℤ) (position : Vector3)
  | joined (uuid : ℤ)
  | gone (uuid : ℤ)
  | moved (uuid : ℤ) (motion : Vector3)

/-- What a packet tells of a player. -/
def ServerPacket.news : ServerPacket → Option News
  | roomUserInfoNtf userUUID _ position _ => some (.present userUUID position)
  | roomNewUserNtf userUUID _ => some (.joined userUUID)
  | roomLeaveUserNtf userUUID _ => some (.gone userUUID)
  | updatePlayerMovement userUUID _ motion => some (.moved userUUID motion)
  | _ => none

/-- What some packets tell, and whom. -/
def newsOf (packets : List (ℕ × ServerPacket)) : List (ℕ × News) :=
  packets.filterMap fun q => q.2.news.map fun n => (q.1, n)

lemma newsOf_append (packets packets' : List (ℕ × ServerPacket)) :
    newsOf (packets ++ packets') = newsOf packets ++ newsOf packets' := List.filterMap_append

/-- Packets that tell nothing. -/
lemma newsOf_eq_nil {packets : List (ℕ × ServerPacket)} (h : ∀ q ∈ packets, q.2.news = none) :
    newsOf packets = [] := by
  rw [newsOf, List.filterMap_eq_nil_iff]
  intro q hq
  rw [h q hq, Option.map_none]

/-- A packet to several users. -/
lemma newsOf_map {packet : ServerPacket} {n : News} (h : packet.news = some n) (users : List ℕ) :
    newsOf (users.map fun u => (u, packet)) = users.map fun u => (u, n) := by
  rw [newsOf, List.filterMap_map]
  simp only [Function.comp_def, h, Option.map_some]
  exact congrFun List.filterMap_eq_map' users

namespace Server

/-- From `σ` to `τ` packets are sent that tell the news. -/
def Tells (σ τ : Server) (news : List (ℕ × News)) : Prop :=
  ∃ packets, τ.sent = σ.sent ++ packets ∧ newsOf packets = news

variable {σ τ υ : Server} {news news' : List (ℕ × News)}

lemma tells_of_sent (h : τ.sent = σ.sent) : σ.Tells τ [] := ⟨[], by rw [h, List.append_nil], rfl⟩

lemma Tells.trans (h : σ.Tells τ news) (h' : τ.Tells υ news') : σ.Tells υ (news ++ news') := by
  obtain ⟨packets, hsent, rfl⟩ := h
  obtain ⟨packets', hsent', rfl⟩ := h'
  exact ⟨packets ++ packets', by rw [hsent', hsent, List.append_assoc], newsOf_append _ _⟩

/-- A change that sends nothing, before what tells the news. -/
lemma Tells.of_sent (h : τ.Tells υ news) (hsent : τ.sent = σ.sent) : σ.Tells υ news :=
  (tells_of_sent hsent).trans h

/-- What sends nothing more tells nothing more. -/
lemma Tells.then_sent (h : σ.Tells τ news) (hsent : υ.sent = τ.sent) : σ.Tells υ news :=
  (List.append_nil news) ▸ h.trans (tells_of_sent hsent)

lemma tells_sendAll (σ : Server) (packets : List (ℕ × ServerPacket)) :
    σ.Tells (σ.sendAll packets) (newsOf packets) := ⟨packets, rfl, rfl⟩

/-- A packet that tells nothing. -/
lemma Tells.sendPacketFunc (h : σ.Tells τ news) (u : ℕ) {packet : ServerPacket}
    (hnone : packet.news = none) : σ.Tells (τ.sendPacketFunc u packet) news :=
  (List.append_nil news) ▸ h.trans ⟨[(u, packet)], rfl, newsOf_eq_nil fun q hq => by
    rwa [List.mem_singleton.mp hq]⟩

/-- A broadcast in a room. -/
lemma tells_sendToAllUser (r : RoomIndex) (σ : Server) {packet : ServerPacket} {n : News}
    (h : packet.news = some n) (passUserIndex : ℤ) :
    σ.Tells (Room.sendToAllUser r σ packet passUserIndex false)
      ((σ.mRoomList r).mUserList.map fun u => (u, n)) :=
  ⟨_, rfl, by rw [Room.toAllUser_false, newsOf_map h]⟩

/-- A broadcast that tells nothing. -/
lemma tells_sendToAllUser_none (r : RoomIndex) (σ : Server) {packet : ServerPacket}
    (h : packet.news = none) (passUserIndex : ℤ) (exceptMe : Bool) :
    σ.Tells (Room.sendToAllUser r σ packet passUserIndex exceptMe) [] :=
  ⟨_, rfl, newsOf_eq_nil fun q hq => by
    obtain ⟨u, -, rfl⟩ := List.mem_map.mp hq
    exact h⟩

end Server

/-! ### What the handlers tell -/

section News

variable (i : ℕ) (r : RoomIndex) (σ : Server)

/-- Those who stay in the room are told that the user is gone. -/
def leaveNews : List (ℕ × News) :=
  match (σ.lobby.session i).room with
  | none => []
  | some r => ((σ.lobby.members r).filter fun u => !σ.lobby.SameID i u).map fun u => (u, .gone i)

/-- Who enters is told of the users and the npcs of the room, and then everybody that it is
there. -/
def enterNews : List (ℕ × News) :=
  ((((σ.mRoomList r).mUserList.filter (· ≠ i)).map fun u : ℕ =>
      (i, News.present u (σ.mUserObjPool u).position)) ++
    (σ.mRoomList r).mNpcList.map fun npc => (i, News.present npc.mIndex npc.position)) ++
  ((σ.mRoomList r).mUserList ++ [i]).map fun u => (u, News.joined i)

end News

/-- What a handler tells. -/
def Handler.news (handler : Handler) (i : ℕ) (pPacket : View) (σ : Server) : List (ℕ × News) :=
  match handler with
  | processUserDisConnect => if (σ.lobby.session i).state = .room then leaveNews i σ else []
  | processLeaveRoom => leaveNews i σ
  | processEnterRoom =>
    match RoomManager.getRoomByNumber (enterRoomNumber pPacket) with
    | none => []
    | some r => if σ.lobby.HasPlace r then enterNews i r σ else []
  | processPlayerMovement =>
    match handler.roomAction i pPacket σ with
    | some (.broadcast r) => (σ.mRoomList r).mUserList.map fun u =>
        (u, .moved i (Actor.movement (floatAt pPacket (packetHeaderLength + 8))
          (floatAt pPacket (packetHeaderLength + 12))
          (quaternionAt pPacket (packetHeaderLength + 16))))
    | _ => []
  | processRoomChatMessage =>
    match handler.roomAction i pPacket σ with
    | some (.spawn r) => (σ.mRoomList r).mUserList.map fun u =>
        (u, .joined (10000 + (σ.mRoomList r).mNpcList.length))
    | _ => []
  | _ => []

/-- The npcs a handler makes in a room. -/
def Handler.spawned (handler : Handler) (i : ℕ) (pPacket : View) (σ : Server) (r : RoomIndex) :
    List Npc :=
  if handler.roomAction i pPacket σ = some (.spawn r) then
    [{ Room.createNpc r σ with
        toActor := (Room.createNpc r σ).toActor.enterRoom (Room.mRoomNum r) }]
  else []

section Handlers

open Server

variable (env : Env) (i : ℕ) (r : RoomIndex) (σ : Server)

lemma tells_roomLeaveUser :
    σ.Tells (Room.leaveUser env r (σ.modUser i (User.modActor (Actor.setDomainState .login))) i)
      (((σ.lobby.members r).filter fun u => !σ.lobby.SameID i u).map fun u => (u, .gone i)) := by
  have hid : ∀ v, ((σ.modUser i (User.modActor (Actor.setDomainState .login))).mUserObjPool
      v).mUserID = (σ.mUserObjPool v).mUserID := fun v => by
    by_cases hv : v = i
    · subst hv; simp [Actor.setDomainState]
    · simp [hv]
  have hstay : (((σ.mRoomList r).mUserList.filter fun v =>
        !((σ.mUserObjPool i).mUserID == (σ.mUserObjPool v).mUserID)).filter
          fun u : ℕ => !(true && (u : ℤ) == (i : ℤ))) =
      (σ.lobby.members r).filter fun u => !σ.lobby.SameID i u := by
    rw [List.filter_filter]
    refine List.filter_congr fun v _ => ?_
    by_cases hv : v = i
    · subst hv
      simp [Lobby.SameID]
    · have hne : ((v : ℤ) == (i : ℤ)) = false := by simpa using hv
      rw [hne]
      exact congrArg not (beq_eq_decide ..)
  refine ⟨_, rfl, ?_⟩
  rw [Room.toAllUser]
  simp only [modRoom_mRoomList, Function.update_self, Room.removeUsers, hid, modUser_mRoomList,
    hstay]
  exact newsOf_map rfl _

lemma tells_managerLeaveUser :
    σ.Tells (RoomManager.leaveUser env σ (σ.mUserObjPool i).mRoomIndex i).2 (leaveNews i σ) := by
  have hroom : (σ.lobby.session i).room =
      RoomManager.getRoomByNumber (σ.mUserObjPool i).mRoomIndex := rfl
  rw [RoomManager.leaveUser, leaveNews, hroom]
  cases RoomManager.getRoomByNumber (σ.mUserObjPool i).mRoomIndex with
  | none => exact tells_of_sent rfl
  | some r => exact tells_roomLeaveUser env i r σ

lemma tells_clearConnectionInfo :
    σ.Tells (clearConnectionInfo env i σ)
      (if (σ.lobby.session i).state = .room then leaveNews i σ else []) := by
  have hstate : (σ.lobby.session i).state = (σ.mUserObjPool i).mCurDomainState := rfl
  rw [hstate]
  refine clearConnectionInfo_induction (P := fun τ => σ.Tells τ _) (fun hroom => ?_)
    (fun hroom => ?_) fun τ hleft => hleft.then_sent rfl
  · rw [if_pos hroom]
    exact tells_managerLeaveUser env i σ
  · rw [if_neg hroom]
    exact tells_of_sent rfl

/-- Entering a room, with the announcement to everybody in it. -/
lemma tells_enterRoom (hplace : σ.lobby.HasPlace r) (result : ErrorCode) (userID : Bytes) :
    σ.Tells (Room.notifyUserEnter env r
        ((Room.enterUser env r σ i).2.sendPacketFunc i (.roomEnterResponse result)) i userID)
      (enterNews i r σ) := by
  have hfree : ¬mMaxUserCount ≤ (σ.mRoomList r).mCurrentUserCount.toNat := Nat.not_le.mpr hplace
  rw [Room.enterUser, if_neg hfree]
  simp only
  set τ := (σ.modRoom r (Room.pushUser i)).modUser i (User.modActor
    (Actor.enterRoom (Room.mRoomNum r))) with hτ
  have hlist : (τ.mRoomList r).mUserList = (σ.mRoomList r).mUserList ++ [i] := by
    simp [hτ, Room.pushUser]
  have hnpcs : (τ.mRoomList r).mNpcList = (σ.mRoomList r).mNpcList := by
    simp [hτ, Room.pushUser]
  have hposition : ∀ v, (τ.mUserObjPool v).position = (σ.mUserObjPool v).position := fun v => by
    by_cases hv : v = i
    · subst hv; simp [hτ, Actor.enterRoom]
    · simp [hτ, hv]
  have hothers : (τ.mRoomList r).mUserList.filter (· ≠ i) =
      (σ.mRoomList r).mUserList.filter (· ≠ i) := by
    rw [hlist, List.filter_append]
    simp
  rw [hothers, hnpcs, enterNews, ← hlist]
  generalize hinfos : ((σ.mRoomList r).mUserList.filter (· ≠ i)).map (fun u => (i,
      Room.roomUserInfoNtf (env.stack 0) (env.heap u) u (τ.mUserObjPool u).toActor)) ++
    (σ.mRoomList r).mNpcList.map (fun npc => (i, Room.roomUserInfoNtf (env.stack 1)
      (env.heap npc.mIndex.toNat) npc.mIndex npc.toActor)) = infos
  have hnews : newsOf infos = ((σ.mRoomList r).mUserList.filter (· ≠ i)).map (fun u : ℕ =>
      (i, News.present u (σ.mUserObjPool u).position)) ++
      (σ.mRoomList r).mNpcList.map fun npc => (i, News.present npc.mIndex npc.position) := by
    rw [← hinfos, newsOf_append, newsOf, newsOf, List.filterMap_map, List.filterMap_map]
    simp only [Function.comp_def, Room.roomUserInfoNtf, ServerPacket.news, Option.map_some,
      hposition]
    rw [List.filterMap_eq_map', List.filterMap_eq_map']
  have hentered : σ.Tells (τ.sendAll infos) (newsOf infos) := (tells_sendAll τ infos).of_sent rfl
  rw [hnews] at hentered
  exact (hentered.sendPacketFunc i rfl).trans (tells_sendToAllUser r _ rfl i)

lemma tells_processEnterRoom (pPacket : View) :
    σ.Tells (processEnterRoom env i pPacket σ) (Handler.processEnterRoom.news i pPacket σ) := by
  rw [processEnterRoom, Handler.news, RoomManager.enterUser]
  cases hr : RoomManager.getRoomByNumber (enterRoomNumber pPacket) with
  | none => exact (tells_of_sent rfl).sendPacketFunc i rfl
  | some r =>
      simp only
      have hresult := (lobby_enterUser env σ i r).2
      by_cases hplace : σ.lobby.HasPlace r
      · have hnone : (Room.enterUser env r σ i).1 = .none := hresult.mpr hplace
        rw [if_neg (not_not.mpr hnone), if_pos hplace]
        exact tells_enterRoom env i r σ hplace _ _
      · have hfull : (Room.enterUser env r σ i).1 ≠ .none := fun h => hplace (hresult.mp h)
        have hcount : mMaxUserCount ≤ (σ.mRoomList r).mCurrentUserCount.toNat :=
          Nat.le_of_not_lt hplace
        have hsame : (Room.enterUser env r σ i).2 = σ := by rw [Room.enterUser, if_pos hcount]
        rw [if_pos hfull, if_neg hplace, hsame]
        exact (tells_of_sent rfl).sendPacketFunc i rfl

lemma tells_processPlayerMovement (pPacket : View) :
    σ.Tells (processPlayerMovement i pPacket σ)
      (Handler.processPlayerMovement.news i pPacket σ) := by
  rw [processPlayerMovement, Handler.news, Handler.roomAction]
  simp only
  by_cases huuid : int64At pPacket packetHeaderLength = i
  · rw [if_neg (not_not.mpr huuid)]
    cases hr : RoomManager.getRoomByNumber (σ.mUserObjPool i).mRoomIndex with
    | none => exact tells_of_sent rfl
    | some r =>
        simp only [Option.bind_some, if_pos huuid]
        rw [huuid]
        exact (tells_sendToAllUser r (σ.modUser i _) rfl i).of_sent rfl
  · rw [if_pos huuid]
    cases RoomManager.getRoomByNumber (σ.mUserObjPool i).mRoomIndex with
    | none => exact tells_of_sent rfl
    | some r =>
        simp only [Option.bind_some, if_neg huuid]
        exact tells_of_sent rfl

lemma tells_enterNpc :
    σ.Tells (Room.enterNpc env r σ) ((σ.mRoomList r).mUserList.map fun u =>
      (u, .joined (10000 + (σ.mRoomList r).mNpcList.length))) := by
  have hlist : ∀ npc : Npc, ((σ.modRoom r fun room =>
      { room with mNpcList := room.mNpcList ++ [npc] }).mRoomList r).mUserList =
      (σ.mRoomList r).mUserList := fun npc => by simp
  rw [Room.enterNpc]
  simp only
  rw [← hlist]
  exact (tells_sendToAllUser r (σ.modRoom r _) rfl _).of_sent rfl

variable {env i σ} in
lemma tells_processRoomChatMessage {pPacket : View} {τ : Server}
    (h : processRoomChatMessage env i pPacket σ = .ok τ) :
    σ.Tells τ (Handler.processRoomChatMessage.news i pPacket σ) := by
  rw [Handler.news]
  rcases processRoomChatMessage_roomAction h with ⟨haction, rfl | ⟨task, rfl⟩⟩ |
    ⟨r, ⟨haction, rfl⟩ | ⟨haction, rfl⟩⟩ <;> rw [haction]
  · exact (tells_of_sent rfl).sendPacketFunc i rfl
  · exact tells_of_sent rfl
  · exact tells_enterNpc env r σ
  · exact ((tells_of_sent rfl).sendPacketFunc i rfl).trans (tells_sendToAllUser_none r _ rfl _ _)

end Handlers

/-- The handlers that tell players of each other. -/
def Handler.tellers : List Handler :=
  [processUserDisConnect, processEnterRoom, processLeaveRoom, processPlayerMovement,
    processRoomChatMessage]

/-- The packets of the others tell nothing. -/
lemma tells_of_notMem_tellers {handler : Handler} {σ τ : Server}
    (hhandler : handler ∉ Handler.tellers) (h : Server.Issues handler σ τ) : σ.Tells τ [] := by
  obtain ⟨packets, hsent, hown⟩ := h.sent
  refine ⟨packets, hsent, newsOf_eq_nil fun q hq => ?_⟩
  have hsender := hown q hq
  cases hpacket : q.2 with
  | roomUserInfoNtf _ _ _ _ => simp_all [ServerPacket.senders, Handler.tellers]
  | roomNewUserNtf _ _ => simp_all [ServerPacket.senders, Handler.tellers]
  | roomLeaveUserNtf _ _ => simp_all [ServerPacket.senders, Handler.tellers]
  | updatePlayerMovement _ _ _ => simp_all [ServerPacket.senders, Handler.tellers]
  | _ => rfl

/-- **What a handler tells.** -/
theorem Handler.run_tells {handler : Handler} {env : Env} {i n : ℕ} {p : View} {σ τ : Server}
    (h : handler.run env i n p σ = .ok τ) : σ.Tells τ (handler.news i p σ) := by
  cases handler with
  | processUserConnect => exact Except.ok.inj h ▸ Server.tells_of_sent rfl
  | processUserDisConnect => exact Except.ok.inj h ▸ tells_clearConnectionInfo env i σ
  | processEnterRoom => exact Except.ok.inj h ▸ tells_processEnterRoom env i σ p
  | processLeaveRoom =>
      exact Except.ok.inj h ▸ (tells_managerLeaveUser env i σ).sendPacketFunc i rfl
  | processPlayerMovement => exact Except.ok.inj h ▸ tells_processPlayerMovement i σ p
  | processRoomChatMessage => exact tells_processRoomChatMessage h
  | _ => exact tells_of_notMem_tellers (by decide) (Handler.run_issues h)

/-! ### Whom it reaches -/

section Reach

open Outbox

variable {β : Type*} {learn : β → News → β} {b : β} {i o : ℕ} {r : RoomIndex} {σ : Server}

/-- Who enters is told who is there, and that it has joined. -/
lemma replica_enterNews_self (hi : i ∉ (σ.mRoomList r).mUserList) :
    replica learn b i (enterNews i r σ) =
      learn ((((σ.mRoomList r).mUserList.map fun u : ℕ =>
          News.present u (σ.mUserObjPool u).position) ++
        (σ.mRoomList r).mNpcList.map fun npc => News.present npc.mIndex npc.position).foldl learn b)
        (.joined i) := by
  have hothers : (σ.mRoomList r).mUserList.filter (· ≠ i) = (σ.mRoomList r).mUserList :=
    List.filter_eq_self.mpr fun u hu => decide_eq_true fun heq => hi (heq ▸ hu)
  have honce : ((σ.mRoomList r).mUserList ++ [i]).count i = 1 := by
    rw [List.count_append, List.count_eq_zero.mpr hi, List.count_singleton_self]
  rw [enterNews, hothers, replica_append, replica_append, replica_map_self, replica_map_self,
    replica_broadcast honce, List.foldl_append]

/-- The others are told that it has joined, or nothing. -/
lemma replica_enterNews_of_ne (hne : o ≠ i) :
    replica learn b o (enterNews i r σ) =
      replica learn b o (((σ.mRoomList r).mUserList ++ [i]).map fun u => (u, News.joined i)) := by
  have hpresent : ∀ n, (o, n) ∉ (((σ.mRoomList r).mUserList.filter (· ≠ i)).map fun u : ℕ =>
      (i, News.present u (σ.mUserObjPool u).position)) ++
        (σ.mRoomList r).mNpcList.map fun npc => (i, News.present npc.mIndex npc.position) := by
    intro n hmem
    rcases List.mem_append.mp hmem with hmem | hmem <;>
      obtain ⟨_, -, heq⟩ := List.mem_map.mp hmem <;>
        exact hne (Prod.mk.inj heq).1.symm
  rw [enterNews, replica_append, replica_of_notMem hpresent]

/-- A member of the room is told that somebody joined. -/
lemma replica_enterNews_of_count (hne : o ≠ i) (ho : (σ.mRoomList r).mUserList.count o = 1) :
    replica learn b o (enterNews i r σ) = learn b (.joined i) := by
  have honce : ((σ.mRoomList r).mUserList ++ [i]).count o = 1 := by
    rw [List.count_append, ho, List.count_singleton, beq_false_of_ne hne.symm]
    rfl
  rw [replica_enterNews_of_ne hne, replica_broadcast honce]

/-- Nobody else is told anything. -/
lemma replica_enterNews_of_notMem (hne : o ≠ i) (ho : o ∉ (σ.mRoomList r).mUserList) :
    replica learn b o (enterNews i r σ) = b := by
  rw [replica_enterNews_of_ne hne]
  refine replica_broadcast_of_notMem (fun hmem => ?_) _
  exact (List.mem_append.mp hmem).elim ho fun hlast => hne (List.mem_singleton.mp hlast)

/-- A member of the room that stays is told that somebody is gone. -/
lemma replica_leaveNews_of_count (hroom : (σ.lobby.session i).room = some r)
    (ho : ((σ.lobby.members r).filter fun u => !σ.lobby.SameID i u).count o = 1) :
    replica learn b o (leaveNews i σ) = learn b (.gone i) := by
  rw [leaveNews, hroom]
  exact replica_broadcast ho _

/-- Nobody else is told anything. -/
lemma replica_leaveNews_of_notMem (ho : ∀ r, (σ.lobby.session i).room = some r →
    o ∉ σ.lobby.members r) : replica learn b o (leaveNews i σ) = b := by
  rw [leaveNews]
  cases hroom : (σ.lobby.session i).room with
  | none => rfl
  | some r =>
      exact replica_broadcast_of_notMem (fun hmem => ho r hroom (List.mem_filter.mp hmem).1) _

end Reach

/-! ### Positions and npcs -/

/-- No user moves, and no room gets an npc. -/
structure Server.SameActors (σ τ : Server) : Prop where
  position : ∀ v, (τ.mUserObjPool v).position = (σ.mUserObjPool v).position
  mNpcList : ∀ r, (τ.mRoomList r).mNpcList = (σ.mRoomList r).mNpcList

namespace Server.SameActors

variable {σ τ : Server}

lemma refl (σ : Server) : σ.SameActors σ := ⟨fun _ => rfl, fun _ => rfl⟩

/-- A change that leaves users and rooms as they are. -/
lemma of_eq (h : σ.SameActors τ) {υ : Server} (hpool : υ.mUserObjPool = τ.mUserObjPool)
    (hrooms : υ.mRoomList = τ.mRoomList) : σ.SameActors υ :=
  ⟨fun v => by rw [hpool, h.position], fun r => by rw [hrooms, h.mNpcList]⟩

lemma sendAll (h : σ.SameActors τ) (packets : List (ℕ × ServerPacket)) :
    σ.SameActors (τ.sendAll packets) := h.of_eq rfl rfl

/-- A change of a user that leaves its position. -/
lemma modUser (h : σ.SameActors τ) (u : ℕ) {f : User → User}
    (hf : ∀ user, (f user).position = user.position) : σ.SameActors (τ.modUser u f) := by
  refine ⟨fun v => ?_, h.mNpcList⟩
  by_cases hv : v = u
  · subst hv
    rw [modUser_mUserObjPool, Function.update_self, hf, h.position]
  · rw [modUser_mUserObjPool, Function.update_of_ne hv, h.position]

/-- A change of a room that leaves its npcs. -/
lemma modRoom (h : σ.SameActors τ) (r : RoomIndex) {f : Room → Room}
    (hf : ∀ room, (f room).mNpcList = room.mNpcList) : σ.SameActors (τ.modRoom r f) := by
  refine ⟨h.position, fun r' => ?_⟩
  by_cases hr : r' = r
  · subst hr
    rw [modRoom_mRoomList, Function.update_self, hf, h.mNpcList]
  · rw [modRoom_mRoomList, Function.update_of_ne hr, h.mNpcList]

end Server.SameActors

section Actors

open Server

variable {env : Env} {i n : ℕ} {p : View} {σ τ : Server}

lemma sameActors_managerLeaveUser (number : ℤ) :
    σ.SameActors (RoomManager.leaveUser env σ number i).2 := by
  rw [RoomManager.leaveUser]
  split
  · exact .refl σ
  · rename_i r _
    refine .sendAll (.modRoom (.modUser (.refl σ) i fun _ => ?_) r fun _ => ?_) _ <;> rfl

lemma sameActors_processUserDisConnect : σ.SameActors (processUserDisConnect env i σ) := by
  refine clearConnectionInfo_induction (fun _ => sameActors_managerLeaveUser _)
    (fun _ => .refl σ) fun τ hleft => ?_
  exact (hleft.modUser i (f := User.clear) fun _ => rfl).of_eq rfl rfl

lemma sameActors_processEnterRoom : σ.SameActors (processEnterRoom env i p σ) := by
  have hentered : σ.SameActors (RoomManager.enterUser env σ (enterRoomNumber p) i).2 := by
    rw [RoomManager.enterUser]
    split
    · exact .refl σ
    · rename_i r _
      rw [Room.enterUser]
      split
      · exact .refl σ
      · refine .sendAll (.modUser (.modRoom (.refl σ) r fun _ => ?_) i fun _ => ?_) _ <;> rfl
  rw [processEnterRoom]
  generalize RoomManager.enterUser env σ (enterRoomNumber p) i = entered at hentered ⊢
  simp only
  split
  · exact hentered.of_eq rfl rfl
  · split <;> exact hentered.of_eq rfl rfl

lemma sameActors_processLoginDBResult : σ.SameActors (processLoginDBResult env i p σ) := by
  rw [PacketManager.processLoginDBResult]
  split
  · exact ((SameActors.refl σ).modUser i (f := User.modActor (Actor.setLogin (p.cString 0)))
      fun _ => rfl).of_eq rfl rfl
  · exact (SameActors.refl σ).of_eq rfl rfl

lemma sameActors_processInventoryDBResult : σ.SameActors (processInventoryDBResult i p σ) := by
  have hfill : ∀ user : User, ((List.finRange inventorySize).foldl
      (fun u i => u.setInventory i.val (itemSlotsAt p i)) user).position = user.position :=
    fun user => by
      obtain ⟨inven, hinven⟩ := User.foldl_setInventory (itemSlotsAt p)
        (List.finRange inventorySize) user
      rw [hinven]
  exact ((SameActors.refl σ).modUser i hfill).of_eq rfl rfl

/-- Only movements move a user, and only chat messages make an npc. -/
theorem Handler.run_sameActors {handler : Handler} (h : handler.run env i n p σ = .ok τ)
    (hmovement : handler ≠ .processPlayerMovement) (hchat : handler ≠ .processRoomChatMessage) :
    σ.SameActors τ := by
  cases handler with
  | processPlayerMovement => exact absurd rfl hmovement
  | processRoomChatMessage => exact absurd rfl hchat
  | processUserConnect => exact Except.ok.inj h ▸ (SameActors.refl σ).modUser i fun _ => rfl
  | processUserDisConnect => exact Except.ok.inj h ▸ sameActors_processUserDisConnect
  | processLogin =>
      obtain rfl := Except.ok.inj h
      refine (SameActors.refl σ).of_eq ?_ ?_ <;> rw [PacketManager.processLogin] <;>
        repeat' split
      all_goals rfl
  | processLoginDBResult => exact Except.ok.inj h ▸ sameActors_processLoginDBResult
  | processEnterRoom => exact Except.ok.inj h ▸ sameActors_processEnterRoom
  | processLeaveRoom =>
      exact Except.ok.inj h ▸ (sameActors_managerLeaveUser _).of_eq rfl rfl
  | processInventoryDBResult => exact Except.ok.inj h ▸ sameActors_processInventoryDBResult
  | _ => exact Except.ok.inj h ▸ (SameActors.refl σ).of_eq rfl rfl

lemma mNpcList_processRoomChatMessage (h : processRoomChatMessage env i p σ = .ok τ)
    (r : RoomIndex) : (τ.mRoomList r).mNpcList = (σ.mRoomList r).mNpcList ++
      Handler.processRoomChatMessage.spawned i p σ r := by
  rw [Handler.spawned]
  rcases processRoomChatMessage_roomAction h with ⟨haction, rfl | ⟨task, rfl⟩⟩ |
    ⟨r₀, ⟨haction, rfl⟩ | ⟨haction, rfl⟩⟩ <;> rw [haction]
  · exact (List.append_nil _).symm
  · exact (List.append_nil _).symm
  · simp only [Option.some.injEq, RoomAction.spawn.injEq]
    by_cases heq : r₀ = r
    · subst heq
      simp [Room.enterNpc, Room.notifyUserEnter, Room.sendToAllUser]
    · simp [Room.enterNpc, Room.notifyUserEnter, Room.sendToAllUser, heq, Ne.symm heq]
  · exact (List.append_nil _).symm

/-- **The npcs of a room** are never removed; `/c` makes one. -/
theorem Handler.run_mNpcList {handler : Handler} (h : handler.run env i n p σ = .ok τ)
    (r : RoomIndex) :
    (τ.mRoomList r).mNpcList = (σ.mRoomList r).mNpcList ++ handler.spawned i p σ r := by
  by_cases hchat : handler = .processRoomChatMessage
  · subst hchat
    exact mNpcList_processRoomChatMessage h r
  have hspawned : handler.spawned i p σ r = [] := by
    refine if_neg fun haction => ?_
    obtain ⟨r₀, -, hr₀⟩ := Option.bind_eq_some_iff.mp haction
    cases handler with
    | processRoomChatMessage => exact hchat rfl
    | processPlayerMovement =>
        simp only at hr₀
        split at hr₀ <;> cases hr₀
    | _ => cases hr₀
  rw [hspawned, List.append_nil]
  by_cases hmovement : handler = .processPlayerMovement
  · subst hmovement
    obtain rfl := Except.ok.inj h
    rw [PacketManager.processPlayerMovement]
    simp only
    split
    · rfl
    · split <;> rfl
  · exact (Handler.run_sameActors h hmovement hchat).mNpcList r

end Actors

/-! ### The system -/

/-- What a handler tells, and the npcs it makes, depend on users and rooms alone. -/
lemma Server.SameUsers.news_eq {σ τ : Server} (h : σ.SameUsers τ) (handler : Handler) (i : ℕ)
    (pPacket : View) : handler.news i pPacket τ = handler.news i pPacket σ := by
  cases handler <;>
    simp only [Handler.news, leaveNews, enterNews, h.lobby_eq, h.mRoomList, h.toActor,
      roomAction_congr h]

lemma Server.SameUsers.spawned_eq {σ τ : Server} (h : σ.SameUsers τ) (handler : Handler) (i : ℕ)
    (pPacket : View) (r : RoomIndex) :
    handler.spawned i pPacket τ r = handler.spawned i pPacket σ r := by
  simp only [Handler.spawned, roomAction_congr h, Room.createNpc, h.mRoomList]

namespace World

/-- What an event tells. -/
def news (w : World) (e : Event) : List (ℕ × News) :=
  (w.call e).elim [] fun c => c.1.news c.2.clientIndex c.2.pPacket w.server

/-- The npcs an event makes in a room. -/
def spawned (w : World) (e : Event) (r : RoomIndex) : List Npc :=
  (w.call e).elim [] fun c => c.1.spawned c.2.clientIndex c.2.pPacket w.server r

variable {w w' : World} {e : Event}

/-- **What a step tells**, and the npcs after it. -/
theorem step_news (h : w.step e = some w') :
    w.server.Tells w'.server (w.news e) ∧
      ∀ r, (w'.server.mRoomList r).mNpcList =
        (w.server.mRoomList r).mNpcList ++ w.spawned e r := by
  obtain ⟨σ, hσ, ⟨hcall, hsame⟩ | ⟨handler, p, env, hcall, hrun⟩⟩ := step_cases h
  · rw [news, hcall]
    refine ⟨Server.tells_of_sent (by rw [hsame.sent, hσ.sent]), fun r => ?_⟩
    rw [spawned, hcall, hsame.mRoomList, hσ.mRoomList]
    exact (List.append_nil _).symm
  · have htells := Handler.run_tells hrun
    rw [hσ.news_eq] at htells
    rw [news, hcall]
    refine ⟨htells.of_sent hσ.sent, fun r => ?_⟩
    rw [Handler.run_mNpcList hrun r, hσ.mRoomList, hσ.spawned_eq, spawned, hcall]
    rfl

/-- An event that carries out an operation of the lobby makes no npc. -/
lemma spawned_of_op {op : Lobby.Op} (hop : w.op e = some op) (r : RoomIndex) :
    w.spawned e r = [] := by
  obtain ⟨⟨handler, p⟩, hcall, hhandler⟩ := Option.bind_eq_some_iff.mp hop
  rw [spawned, hcall]
  refine if_neg fun haction => ?_
  obtain ⟨r₀, -, hr₀⟩ := Option.bind_eq_some_iff.mp haction
  cases handler with
  | processRoomChatMessage => cases hhandler
  | processPlayerMovement => cases hhandler
  | _ => cases hr₀

/-- What an operation of the lobby tells. -/
def opNews (w : World) : Lobby.Op → List (ℕ × News)
  | .enter i r => if w.server.lobby.HasPlace r then enterNews i r w.server else []
  | .leave i => leaveNews i w.server
  | .disconnect i =>
    if (w.server.lobby.session i).state = .room then leaveNews i w.server else []
  | _ => []

lemma news_of_op {op : Lobby.Op} (hop : w.op e = some op) : w.news e = w.opNews op := by
  obtain ⟨⟨handler, p⟩, hcall, hhandler⟩ := Option.bind_eq_some_iff.mp hop
  rw [news, hcall]
  show handler.news p.clientIndex p.pPacket w.server = _
  cases handler with
  | processUserConnect => exact Option.some.inj hhandler ▸ rfl
  | processUserDisConnect => exact Option.some.inj hhandler ▸ rfl
  | processLeaveRoom => exact Option.some.inj hhandler ▸ rfl
  | processLoginDBResult =>
      rw [Handler.op] at hhandler
      split at hhandler
      · exact Option.some.inj hhandler ▸ rfl
      · cases hhandler
  | processEnterRoom =>
      obtain ⟨r, hr, rfl⟩ := Option.map_eq_some_iff.mp hhandler
      rw [Handler.news, hr]
      rfl
  | _ => cases hhandler

/-- What an event tells that carries out no operation of the lobby: nothing, a movement, or a new
npc. -/
lemma news_of_op_none (hop : w.op e = none) :
    (∀ r, w.spawned e r = []) ∧ (w.news e = [] ∨ ∃ (uuid : ℤ) (r : RoomIndex) (motion : Vector3),
        w.news e = (w.server.mRoomList r).mUserList.map fun u => (u, .moved uuid motion)) ∨
      ∃ (r : RoomIndex) (npc : Npc), npc.mIndex = 10000 + (w.server.mRoomList r).mNpcList.length ∧
        (∀ r', w.spawned e r' = if r' = r then [npc] else []) ∧
        w.news e = (w.server.mRoomList r).mUserList.map fun u => (u, .joined npc.mIndex) := by
  cases hcall : w.call e with
  | none =>
      refine .inl ⟨fun r => ?_, .inl ?_⟩
      · rw [spawned, hcall]
        rfl
      · rw [news, hcall]
        rfl
  | some c =>
      obtain ⟨handler, p⟩ := c
      rw [op, hcall, Option.bind_some] at hop
      simp only [news, spawned, hcall, Option.elim_some]
      cases handler with
      | processUserConnect => cases hop
      | processUserDisConnect => cases hop
      | processLeaveRoom => cases hop
      | processEnterRoom =>
          refine .inl ⟨fun r => if_neg fun haction => ?_, .inl ?_⟩
          · obtain ⟨r₀, -, hr₀⟩ := Option.bind_eq_some_iff.mp haction
            cases hr₀
          · rw [Handler.news, Option.map_eq_none_iff.mp hop]
      | processPlayerMovement =>
          refine .inl ⟨fun r => if_neg fun haction => ?_, ?_⟩
          · obtain ⟨r₀, -, hr₀⟩ := Option.bind_eq_some_iff.mp haction
            simp only at hr₀
            split at hr₀ <;> cases hr₀
          · rw [Handler.news]
            split
            · exact .inr ⟨_, _, _, rfl⟩
            · exact .inl rfl
      | processRoomChatMessage =>
          simp only [Handler.news, Handler.spawned]
          rcases haction : Handler.processRoomChatMessage.roomAction p.clientIndex p.pPacket
              w.server with _ | ⟨r | r⟩
          · exact .inl ⟨fun r => if_neg (fun heq => by cases heq), .inl rfl⟩
          · exact .inl ⟨fun r => if_neg (fun heq => by cases heq), .inl rfl⟩
          · refine .inr ⟨r, { Room.createNpc r w.server with
              toActor := (Room.createNpc r w.server).toActor.enterRoom (Room.mRoomNum r) }, rfl,
              fun r' => ?_, rfl⟩
            simp only [Option.some.injEq, RoomAction.spawn.injEq]
            by_cases hr : r = r'
            · rw [if_pos hr, if_pos hr.symm, hr]
            · rw [if_neg hr, if_neg (Ne.symm hr)]
      | _ =>
          refine .inl ⟨fun r => if_neg fun haction => ?_, .inl rfl⟩
          obtain ⟨r₀, -, hr₀⟩ := Option.bind_eq_some_iff.mp haction
          cases hr₀

/-! ### Since a user entered -/

/-- The system with, for each slot, the number of packets sent when it last entered a room. -/
abbrev Entered := World × (ℕ → ℕ)

namespace Entered

variable (s : Entered)

/-- What a player has been told since it last entered a room. -/
def heard (u : ℕ) : List (ℕ × News) := newsOf (s.1.server.sent.drop (s.2 u))

/-- The user enters a room. -/
def Enters (e : Event) (u : ℕ) : Prop :=
  ∃ r, s.1.op e = some (.enter u r) ∧ s.1.server.lobby.HasPlace r

/-- The marks after an event. The packets a user is sent as it enters come after its mark. -/
def next (e : Event) (_ : World) : ℕ → ℕ :=
  match s.1.op e with
  | some (.enter u r) =>
    if s.1.server.lobby.HasPlace r then Function.update s.2 u s.1.server.sent.length else s.2
  | _ => s.2

/-- A step of the system and its marks. -/
def step : Entered → Event → Option Entered := Runs.withHistory World.step next

/-- The start of the server. -/
def init (maxClient : ℕ) (memory : ℕ → View) (store : Store) : Entered :=
  (World.init maxClient memory store, fun _ => 0)

/-- A mark stands within what has been sent. -/
def Marked : Prop := ∀ u, s.2 u ≤ s.1.server.sent.length

variable {s} {e : Event} {w' : World} {u : ℕ}

/-- Only who carries out an `enter` enters. -/
lemma enters_iff {i : ℕ} {r : RoomIndex} (hop : s.1.op e = some (.enter i r)) :
    s.Enters e u ↔ u = i ∧ s.1.server.lobby.HasPlace r := by
  constructor
  · intro henters
    obtain ⟨r', henter, hplace⟩ := henters
    obtain ⟨rfl, rfl⟩ := Lobby.Op.enter.inj (Option.some.inj (hop.symm.trans henter))
    exact ⟨rfl, hplace⟩
  · rintro ⟨rfl, hplace⟩
    exact ⟨r, hop, hplace⟩

lemma not_enters_of_op {op : Lobby.Op} (hop : s.1.op e = some op) (hne : ∀ u r, op ≠ .enter u r)
    (u : ℕ) : ¬s.Enters e u := by
  intro henters
  obtain ⟨r, henter, -⟩ := henters
  exact hne u r (Option.some.inj (hop.symm.trans henter))

lemma not_enters_of_op_none (hop : s.1.op e = none) (u : ℕ) : ¬s.Enters e u := by
  intro henters
  obtain ⟨r, henter, -⟩ := henters
  cases hop.symm.trans henter

lemma next_cases (s : Entered) (e : Event) (w' : World) :
    (∃ v, s.Enters e v ∧ s.next e w' = Function.update s.2 v s.1.server.sent.length) ∨
      (∀ v, ¬s.Enters e v) ∧ s.next e w' = s.2 := by
  rw [next]
  split
  · rename_i v r hop
    by_cases hplace : s.1.server.lobby.HasPlace r
    · rw [if_pos hplace]
      exact .inl ⟨v, ⟨r, hop, hplace⟩, rfl⟩
    · rw [if_neg hplace]
      exact .inr ⟨fun v' henters => hplace ((enters_iff hop).mp henters).2, rfl⟩
  · rename_i hnone
    refine .inr ⟨fun v henters => ?_, rfl⟩
    obtain ⟨r, hop, -⟩ := henters
    exact hnone v r hop

lemma next_of_enters (h : s.Enters e u) : s.next e w' u = s.1.server.sent.length := by
  rcases next_cases s e w' with ⟨v, ⟨r', hop', -⟩, hnext⟩ | ⟨hnone, -⟩
  · obtain ⟨r, hop, -⟩ := h
    obtain ⟨rfl, -⟩ := Lobby.Op.enter.inj (Option.some.inj (hop.symm.trans hop'))
    rw [hnext, Function.update_self]
  · exact absurd h (hnone u)

lemma next_of_not_enters (h : ¬s.Enters e u) : s.next e w' u = s.2 u := by
  rcases next_cases s e w' with ⟨v, henters, hnext⟩ | ⟨-, hnext⟩
  · have huv : u ≠ v := fun heq => h (heq ▸ henters)
    rw [hnext, Function.update_of_ne huv]
  · rw [hnext]

lemma marked_next (hs : s.Marked) (h : s.1.step e = some w') : Marked (w', s.next e w') := by
  obtain ⟨packets, hsent, -⟩ := (step_news h).1
  intro u
  show s.next e w' u ≤ w'.server.sent.length
  rw [hsent, List.length_append]
  by_cases henters : s.Enters e u
  · rw [next_of_enters henters]
    exact Nat.le_add_right _ _
  · rw [next_of_not_enters henters]
    exact (hs u).trans (Nat.le_add_right _ _)

/-- Who enters has been told what the step tells. -/
lemma heard_of_enters (h : s.1.step e = some w') (henters : s.Enters e u) :
    heard (w', s.next e w') u = s.1.news e := by
  obtain ⟨packets, hsent, hnews⟩ := (step_news h).1
  show newsOf (w'.server.sent.drop (s.next e w' u)) = _
  rw [next_of_enters henters, hsent, List.drop_left, hnews]

/-- Everybody else has been told that in addition. -/
lemma heard_of_not_enters (hs : s.Marked) (h : s.1.step e = some w') (henters : ¬s.Enters e u) :
    heard (w', s.next e w') u = s.heard u ++ s.1.news e := by
  obtain ⟨packets, hsent, hnews⟩ := (step_news h).1
  show newsOf (w'.server.sent.drop (s.next e w' u)) = _
  rw [next_of_not_enters henters, hsent, List.drop_append_of_le_length (hs u), newsOf_append, hnews]
  rfl

end Entered

end World

end CKGameServer
