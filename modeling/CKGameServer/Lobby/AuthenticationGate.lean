import CKGameServer.Chat.Commands
import CKGameServer.Lobby.TrustBoundary
import CKGameServer.Session.Boundaries

/-!
What a client can cause that has not logged in (`ProcessEnterRoom`, `ProcessRoomChatMessage`,
`ProcessTradeRequest`, `ProcessShopBuyRequest`).

No handler asks for the domain state of its client. Chat and movement need a room, which the slot of
a client has if the client entered one, or if the one before did and its `SYS_USER_DISCONNECT` and
the `SYS_USER_CONNECT` of the next one still wait.

* `Server.Gated`: a handler broadcasts nothing for its client, makes no npc, pushes no notice or
  shop task and sends a trade request to no one else; `Handler.run_gated`: which handlers do.
* `World.Watched`: the server, and beside it the connections that have had a successful login result
  since their `SYS_USER_CONNECT`.
* `World.Watched.gateKept_iff`: over a run clients without a login join no room and cause nothing
  of that exactly if none of them sends a request to enter a room that has a place, a trade
  request to another client, a request to buy, a forged notice while somebody is in a room, or chat
  or a movement while its slot has a room; and none is in the slot of a client that enters a room.
* `World.Watched.unauthenticated_member`: a client enters a room without a login.
-/

namespace CKGameServer

open Memory

/-! ### What needs a login -/

/-- The packet is a `ROOM_NEW_USER_NTF`, a `ROOM_CHAT_NOTIFY` or an `UPDATE_PLAYER_MOVEMENT`. -/
def ServerPacket.IsBroadcast : ServerPacket → Prop
  | roomNewUserNtf _ _ | roomChatNotify _ _ | updatePlayerMovement _ _ _ => True
  | _ => False

/-- The packet is a `TRADE_REQUEST_NTF`. -/
def ServerPacket.IsTradeRequest : ServerPacket → Prop
  | tradeRequestNtf _ _ => True
  | _ => False

/-- The tasks of notices and of the shop. -/
def RedisTaskID.NeedsLogin (id : RedisTaskID) : Prop :=
  id = .requestNotice ∨ id = .requestShopUpdate ∨ id = .requestShopBuy

instance (id : RedisTaskID) : Decidable id.NeedsLogin := inferInstanceAs (Decidable (_ ∨ _ ∨ _))

/-- The message begins with a command. -/
def IsCommand (cmdMessage : Bytes) : Prop :=
  PacketManager.npcCommand <+: cmdMessage ∨ PacketManager.noticeCommand <+: cmdMessage ∨
    PacketManager.shopResetCommand <+: cmdMessage ∨ PacketManager.timeAddCommand <+: cmdMessage

/-- From `σ` to `τ` nothing happens that needs a login of client `i`: no npc is made, no
broadcast and no trade request to another client is sent, no task of a notice or of the shop is
pushed. -/
structure Server.Gated (i : ℕ) (σ τ : Server) : Prop where
  npcs : ∀ r, (τ.mRoomList r).mNpcList = (σ.mRoomList r).mNpcList
  sent : ∃ packets, τ.sent = σ.sent ++ packets ∧
    ∀ q ∈ packets, ¬q.2.IsBroadcast ∧ (q.2.IsTradeRequest → q.1 = i)
  tasks : ∃ tasks, τ.mRequestTask = σ.mRequestTask ++ tasks ∧
    ∀ task ∈ tasks, ¬task.taskID.NeedsLogin

namespace Server.Gated

variable {i : ℕ} {σ τ υ : Server}

lemma refl (i : ℕ) (σ : Server) : Gated i σ σ := ⟨fun _ => rfl, ⟨[], by simp⟩, ⟨[], by simp⟩⟩

lemma trans (h : Gated i σ τ) (h' : Gated i τ υ) : Gated i σ υ := by
  obtain ⟨hnpcs, ⟨ps, hps, hsent⟩, ts, hts, htasks⟩ := h
  obtain ⟨hnpcs', ⟨ps', hps', hsent'⟩, ts', hts', htasks'⟩ := h'
  refine ⟨fun r => (hnpcs' r).trans (hnpcs r), ⟨ps ++ ps', ?_, fun q hq => ?_⟩,
    ts ++ ts', ?_, fun task htask => ?_⟩
  · rw [hps', hps, List.append_assoc]
  · exact (List.mem_append.mp hq).elim (hsent q) (hsent' q)
  · rw [hts', hts, List.append_assoc]
  · exact (List.mem_append.mp htask).elim (htasks task) (htasks' task)

/-- Where rooms, sent packets and request tasks stay as they are. -/
lemma of_same (hrooms : τ.mRoomList = σ.mRoomList) (hsent : τ.sent = σ.sent)
    (htasks : τ.mRequestTask = σ.mRequestTask) : Gated i σ τ :=
  ⟨fun r => by rw [hrooms], ⟨[], by simp [hsent]⟩, ⟨[], by simp [htasks]⟩⟩

lemma sendAll {packets : List (ℕ × ServerPacket)}
    (h : ∀ q ∈ packets, ¬q.2.IsBroadcast ∧ (q.2.IsTradeRequest → q.1 = i)) :
    Gated i σ (σ.sendAll packets) :=
  ⟨fun _ => rfl, ⟨packets, rfl, h⟩, ⟨[], by simp⟩⟩

/-- A packet that is neither a broadcast nor a trade request. -/
lemma sendPacketFunc (u : ℕ) {packet : ServerPacket} (hbroadcast : ¬packet.IsBroadcast)
    (htrade : ¬packet.IsTradeRequest) : Gated i σ (σ.sendPacketFunc u packet) :=
  sendAll fun q hq => by
    obtain rfl := List.mem_singleton.mp hq
    exact ⟨hbroadcast, fun h => absurd h htrade⟩

lemma pushTask {task : RedisTask} (h : ¬task.taskID.NeedsLogin) : Gated i σ (σ.pushTask task) :=
  ⟨fun _ => rfl, ⟨[], by simp⟩, ⟨[task], rfl, by simpa using h⟩⟩

lemma modUser (u : ℕ) (f : User → User) : Gated i σ (σ.modUser u f) := of_same rfl rfl rfl

/-- A change of a room that leaves its npcs. -/
lemma modRoom (r : RoomIndex) {f : Room → Room}
    (h : (f (σ.mRoomList r)).mNpcList = (σ.mRoomList r).mNpcList) : Gated i σ (σ.modRoom r f) := by
  refine ⟨fun r' => ?_, ⟨[], by simp⟩, ⟨[], by simp⟩⟩
  by_cases hr : r' = r
  · subst hr
    simpa using h
  · simp [hr]

/-- A packet to the members of a room that is neither a broadcast nor a trade request. -/
lemma toAllUser (r : RoomIndex) {packet : ServerPacket} (hbroadcast : ¬packet.IsBroadcast)
    (htrade : ¬packet.IsTradeRequest) (passUserIndex : ℤ) (exceptMe : Bool) :
    ∀ q ∈ Room.toAllUser r σ packet passUserIndex exceptMe,
      ¬q.2.IsBroadcast ∧ (q.2.IsTradeRequest → q.1 = i) := by
  intro q hq
  obtain ⟨u, -, rfl⟩ := List.mem_map.mp hq
  exact ⟨hbroadcast, fun h => absurd h htrade⟩

end Server.Gated

/-! ### The handlers -/

section Handlers

open Server PacketManager

variable {env : Env} {i n : ℕ} {p : View} {σ : Server}

end Handlers

/-- The packet is no request to enter a room that has a place. -/
def Server.EntersNone (σ : Server) (handler : Handler) (p : View) : Prop :=
  handler = .processEnterRoom →
    ∀ r, RoomManager.getRoomByNumber (PacketManager.enterRoomNumber p) = some r →
      ¬σ.lobby.HasPlace r

/-- What a client without a login does not ask for. Where its slot has a room, it moves only if
nobody is in the list of that room, and so it is with a chat message, which is no command either, or
one that ends the process thread. -/
structure Server.Refrains (σ : Server) (i : ℕ) (handler : Handler) (p : View) : Prop where
  enter : σ.EntersNone handler p
  trade : handler = .processTradeRequest → ((int64At p packetHeaderLength) % 2 ^ 32).toNat = i
  buy : handler ≠ .processShopBuyRequest
  notice : handler = .processNoticeDBResult → ∀ r, (σ.mRoomList r).mUserList = []
  chat : handler = .processRoomChatMessage →
    ∀ r, RoomManager.getRoomByNumber (σ.mUserObjPool i).mRoomIndex = some r →
      Answerable σ i (p.cString packetHeaderLength) →
        ¬IsCommand (p.cString packetHeaderLength) ∧ (σ.mRoomList r).mUserList = []
  move : handler = .processPlayerMovement → int64At p packetHeaderLength = i →
    ∀ r, RoomManager.getRoomByNumber (σ.mUserObjPool i).mRoomIndex = some r →
      (σ.mRoomList r).mUserList = []

/-- Receive buffers and queues do not matter. -/
lemma Server.Refrains.congr {σ τ : Server} {i : ℕ} {handler : Handler} {p : View}
    (h : σ.Refrains i handler p) (hsame : σ.SameUsers τ) : τ.Refrains i handler p := by
  obtain ⟨henter, htrade, hbuy, hnotice, hchat, hmove⟩ := h
  rw [Server.EntersNone, ← hsame.lobby_eq] at henter
  rw [← hsame.mRoomList] at hnotice hchat hmove
  refine ⟨henter, htrade, hbuy, hnotice, fun hhandler r hr hanswer => ?_,
    fun hhandler huuid r hr => ?_⟩
  · rw [hsame.toActor i] at hr
    exact hchat hhandler r hr ((answerable_congr hsame).mp hanswer)
  · rw [hsame.toActor i] at hr
    exact hmove hhandler huuid r hr

namespace Lobby

variable {L : Lobby} {i : ℕ}

end Lobby

/-! ### System packets -/

namespace World

/-- `PushSystemPacket` is called for connections that begin or end. -/
lemma system_step {w w' : World} {e : Event} (h : w.step e = some w') {q : PacketInfo}
    (hq : q ∈ w'.server.mSystemPacketQueue) :
    q ∈ w.server.mSystemPacketQueue ∨
      (q.packetId = PacketId.sysUserConnect.code ∨ q.packetId = PacketId.sysUserDisconnect.code) := by
  rw [Bounded.mSystemPacketQueue_step h] at hq
  cases e with
  | connect i =>
      refine (List.mem_append.mp hq).imp_right fun hnew => .inl ?_
      rw [List.mem_singleton.mp hnew]
      rfl
  | close i =>
      refine (List.mem_append.mp hq).imp_right fun hnew => .inr ?_
      rw [List.mem_singleton.mp hnew]
      rfl
  | systemPacket env => exact .inl (List.mem_of_mem_drop hq)
  | _ => exact .inl hq

/-- A system packet begins or ends a connection. -/
lemma systemPacket_handler {w : World} (hsystem : ∀ q ∈ w.server.mSystemPacketQueue,
      q.packetId = PacketId.sysUserConnect.code ∨ q.packetId = PacketId.sysUserDisconnect.code)
    {env : Env} {handler : Handler} {p : RecvPacket}
    (hcall : w.call (.systemPacket env) = some (handler, p)) :
    handler = .processUserConnect ∨ handler = .processUserDisConnect := by
  obtain ⟨hpacket, hfind⟩ := call_eq_some_iff.mp hcall
  obtain ⟨-, -, -, -, hqueue⟩ := w.server.queues_systemPacket
  obtain ⟨q, hq, hid⟩ := hqueue p hpacket
  rw [← hid] at hfind
  rcases hsystem q hq with hconnect | hdisconnect
  · rw [hconnect] at hfind
    exact .inl (Option.some.inj hfind).symm
  · rw [hdisconnect] at hfind
    exact .inr (Option.some.inj hfind).symm

/-! ### Runs -/

/-- The client whose packet an event dispatches, or whose connection begins or ends. -/
def sender (w : World) : Event → Option ℕ
  | .clientPacket env => (w.packet (.clientPacket env)).map RecvPacket.clientIndex
  | .systemPacket env => (w.packet (.systemPacket env)).map RecvPacket.clientIndex
  | _ => none

/-- The server with its boundaries, and the connections that have had a successful login result
since their `SYS_USER_CONNECT` was processed. -/
abbrev Watched := Bounded × List Connection

namespace Watched

variable (s : Watched)

/-- The server. -/
def world : World := s.1.1.1

/-- The slot whose login succeeds with an operation. -/
def logsIn : Option Lobby.Op → Option ℕ
  | some (.login u _) => some u
  | _ => none

/-- The connection that gets a successful login result with an event: the one that asked for it, if
it is the one of the slot and its `SYS_USER_CONNECT` has been processed. -/
def loginResult : Event → Option Connection
  | .response env => (s.1.1.caller (.response env)).filter fun c =>
      logsIn (s.world.op (.response env)) = some c.slot ∧ Notice.opened c ∈ s.1.2.handled
  | _ => none

/-- Who has logged in after an event. -/
def nextLogins (e : Event) (_ : Bounded) : List Connection := s.2 ++ (s.loginResult e).toList

/-- A step of the server with its logins. -/
def step : Watched → Event → Option Watched := Runs.withHistory Bounded.step nextLogins

/-- The start of the server: nobody has logged in. -/
def init (maxClient : ℕ) (memory : ℕ → View) (store : Store) : Watched :=
  (Bounded.init maxClient memory store, [])

/-- The packet of an event came from connections that have logged in. -/
def Authenticated : Event → Prop
  | .clientPacket env => ∀ p, s.world.packet (.clientPacket env) = some p →
      ∀ c ∈ s.1.senders p, c ∈ s.2
  | _ => False

/-- Whoever is connected in the slot has logged in. -/
def OccupantLoggedIn (i : ℕ) : Prop :=
  s.1.1.2.connected i = true → ⟨i, s.1.1.2.sessions i⟩ ∈ s.2

/-- **The gate**: in this step only a packet of clients with a login takes a slot into a room, and
the client in the slot has one, too; and where the step is on the packet of a client without one, or
on the beginning or the end of a connection, nothing happens that needs a login. -/
def GateKept (e : Event) : Prop :=
  ∀ w', s.world.step e = some w' →
    (∀ i, ¬(s.Authenticated e ∧ s.OccupantLoggedIn i) → ∀ r,
      (w'.server.mRoomList r).mUserList.count i ≤
        (s.world.server.mRoomList r).mUserList.count i) ∧
    ∀ i, s.world.sender e = some i → ¬s.Authenticated e → Server.Gated i s.world.server w'.server

/-- A client without a login does not send a request to enter a room that has a place, a trade
request to another client, a request to buy, a notice of the Redis thread while somebody is in a
room, or chat or a movement while its slot has a room; and while it is connected, no packet of the
one before takes its slot into a room. -/
def Refrains : Event → Prop
  | .clientPacket env => ∀ handler p, s.world.call (.clientPacket env) = some (handler, p) →
      (¬s.Authenticated (.clientPacket env) →
        s.world.server.Refrains p.clientIndex handler p.pPacket) ∧
      (¬s.OccupantLoggedIn p.clientIndex → s.world.server.EntersNone handler p.pPacket)
  | _ => True

variable {s} {w' : World} {e : Event} {i : ℕ}

/-! ### Requests to enter a room -/

/-- The step of a client's packet whose handler returns. -/
lemma step_clientPacket_of_run {w : World} {env : Env} {handler : Handler} {p : RecvPacket}
    {τ : Server} (hcall : w.call (.clientPacket env) = some (handler, p))
    (hrun : handler.run env p.clientIndex p.packetSize p.pPacket w.server.clientPacket.2 = .ok τ) :
    w.step (.clientPacket env) = some { w with server := τ } := by
  obtain ⟨hpacket, hfind⟩ := call_eq_some_iff.mp hcall
  have hstep : w.step (.clientPacket env) =
      (Server.dispatch env (w.packet (.clientPacket env), w.server.clientPacket.2)).toOption.map
        fun σ => { w with server := σ } := rfl
  rw [hstep, hpacket, Server.dispatch, processRecvPacket, hfind]
  simp only [hrun, Except.toOption, Option.map_some]

/-- Where the gate is kept, the handler of a packet without a login is gated. -/
lemma GateKept.gated {env : Env} {handler : Handler} {p : RecvPacket} {τ : Server}
    (hkept : s.GateKept (.clientPacket env))
    (hcall : s.world.call (.clientPacket env) = some (handler, p))
    (hi : ¬s.Authenticated (.clientPacket env))
    (hrun : handler.run env p.clientIndex p.packetSize p.pPacket s.world.server.clientPacket.2 =
      .ok τ) : Server.Gated p.clientIndex s.world.server τ :=
  (hkept _ (step_clientPacket_of_run hcall hrun)).2 p.clientIndex
    (by rw [sender, (call_eq_some_iff.mp hcall).1, Option.map_some]) hi

/-- What a gated handler sends in the end. -/
lemma gated_sendAll {σ τ : Server} {packets : List (ℕ × ServerPacket)}
    (h : Server.Gated i σ (τ.sendAll packets)) (hsent : τ.sent = σ.sent) :
    ∀ q ∈ packets, ¬q.2.IsBroadcast ∧ (q.2.IsTradeRequest → q.1 = i) := by
  obtain ⟨packets', hsent', hall⟩ := h.sent
  rw [Server.sendAll_sent, hsent] at hsent'
  rwa [← List.append_cancel_left hsent'] at hall

/-- A packet that a gated handler does not send to the members of a room. -/
lemma mUserList_eq_nil_of_gated {σ τ : Server} {r : RoomIndex} {packet : ServerPacket}
    {passUserIndex : ℤ} (h : Server.Gated i σ (Room.sendToAllUser r τ packet passUserIndex false))
    (hsent : ∃ packets, τ.sent = σ.sent ++ packets) (hbroadcast : packet.IsBroadcast) :
    (τ.mRoomList r).mUserList = [] := by
  obtain ⟨before, hbefore⟩ := hsent
  obtain ⟨packets, hpackets, hall⟩ := h.sent
  rw [Room.sendToAllUser, Room.toAllUser_false, Server.sendAll_sent, hbefore,
    List.append_assoc] at hpackets
  rw [List.eq_nil_iff_forall_not_mem]
  intro u hu
  rw [← List.append_cancel_left hpackets] at hall
  exact (hall (u, packet) (List.mem_append_right _ (List.mem_map_of_mem hu))).1 hbroadcast

/-- A chat message from a room that is gated is no command, and nobody is in the list. -/
lemma chat_of_gated {env : Env} {n : ℕ} {p : View} {σ σ' τ : Server} {r : RoomIndex}
    (hr : RoomManager.getRoomByNumber (σ'.mUserObjPool i).mRoomIndex = some r)
    (hrun : Handler.processRoomChatMessage.run env i n p σ' = .ok τ) (h : Server.Gated i σ τ)
    (hsame : σ.SameUsers σ') (htasks : σ'.mRequestTask = σ.mRequestTask) :
    ¬IsCommand (p.cString packetHeaderLength) ∧ (σ'.mRoomList r).mUserList = [] := by
  rcases PacketManager.processRoomChatMessage_cases hrun with ⟨hnone, -⟩ | ⟨r', hr', hcases⟩
  · cases hr.symm.trans hnone
  obtain rfl := Option.some.inj (hr.symm.trans hr')
  rcases hcases with ⟨-, rfl⟩ | ⟨hnpc, ⟨-, task, htask, rfl⟩ | ⟨hcommand, rfl⟩⟩
  · -- an npc more than before
    have hnpcs := h.npcs r
    rw [← hsame.mRoomList] at hnpcs
    simp [Room.enterNpc, Room.notifyUserEnter, Room.sendToAllUser] at hnpcs
  · -- a task that needs a login
    obtain ⟨tasks, hpushed, hall⟩ := h.tasks
    rw [Server.pushTask_mRequestTask, htasks] at hpushed
    rw [← List.append_cancel_left hpushed] at hall
    refine absurd ?_ (hall task (List.mem_singleton_self task))
    exact htask.elim .inl fun hid => .inr (.inl hid)
  · refine ⟨fun hmsg => hmsg.elim hnpc hcommand, ?_⟩
    refine mUserList_eq_nil_of_gated (τ := σ'.sendPacketFunc i (.roomChatResponse .none)) h
      ⟨[(i, .roomChatResponse .none)], ?_⟩ trivial
    rw [Server.sendPacketFunc, Server.sendAll_sent, hsame.sent]

section Gated

variable {env : Env} {p : RecvPacket} (hkept : s.GateKept (.clientPacket env))
  (hi : ¬s.Authenticated (.clientPacket env))

include hkept hi

/-- A trade request that is gated goes to its sender. -/
lemma GateKept.trade
    (hcall : s.world.call (.clientPacket env) = some (.processTradeRequest, p)) :
    ((int64At p.pPacket packetHeaderLength) % 2 ^ 32).toNat = p.clientIndex := by
  have hgated : Server.Gated p.clientIndex s.world.server (PacketManager.processTradeRequest
      env p.clientIndex p.pPacket s.world.server.clientPacket.2) := hkept.gated hcall hi rfl
  rw [PacketManager.processTradeRequest, Server.sendPacketFunc] at hgated
  have htrade := gated_sendAll hgated s.world.server.sameUsers_dequePacketData.sent _
    (List.mem_singleton_self _)
  simpa using htrade.2 trivial

/-- A notice that is gated finds all rooms empty. -/
lemma GateKept.notice
    (hcall : s.world.call (.clientPacket env) = some (.processNoticeDBResult, p))
    (r : RoomIndex) : (s.world.server.mRoomList r).mUserList = [] := by
  have hsame : s.world.server.SameUsers s.world.server.clientPacket.2 :=
    s.world.server.sameUsers_dequePacketData
  rw [List.eq_nil_iff_forall_not_mem]
  intro u hu
  have hgated : Server.Gated p.clientIndex s.world.server (PacketManager.processNoticeDBResult
      p.clientIndex p.pPacket s.world.server.clientPacket.2) := hkept.gated hcall hi rfl
  rw [PacketManager.processNoticeDBResult, RoomManager.sendToAllUser] at hgated
  rw [← hsame.mRoomList] at hu
  have hnotice := gated_sendAll hgated hsame.sent _ (List.mem_flatMap.mpr
    ⟨r, List.mem_finRange r, List.mem_map.mpr ⟨u, List.mem_filter.mpr ⟨hu, rfl⟩, rfl⟩⟩)
  exact hnotice.1 trivial

/-- A chat message that is gated and can be answered is no command, and nobody is in the list. -/
lemma GateKept.chat
    (hcall : s.world.call (.clientPacket env) = some (.processRoomChatMessage, p)) {r : RoomIndex}
    (hr : RoomManager.getRoomByNumber (s.world.server.mUserObjPool p.clientIndex).mRoomIndex =
      some r)
    (hanswer : Answerable s.world.server p.clientIndex (p.pPacket.cString packetHeaderLength)) :
    ¬IsCommand (p.pPacket.cString packetHeaderLength) ∧
      (s.world.server.mRoomList r).mUserList = [] := by
  have hsame : s.world.server.SameUsers s.world.server.clientPacket.2 :=
    s.world.server.sameUsers_dequePacketData
  obtain ⟨τ, hrun⟩ := (processRoomChatMessage_ok_iff env).mpr
    ((answerable_congr hsame).mpr hanswer)
  rw [← hsame.toActor p.clientIndex] at hr
  rw [← hsame.mRoomList]
  exact chat_of_gated (n := p.packetSize) hr hrun (hkept.gated hcall hi hrun) hsame
    s.world.server.queues_dequePacketData.1

/-- A movement that is gated finds nobody in the list. -/
lemma GateKept.move
    (hcall : s.world.call (.clientPacket env) = some (.processPlayerMovement, p))
    (huuid : int64At p.pPacket packetHeaderLength = p.clientIndex) {r : RoomIndex}
    (hr : RoomManager.getRoomByNumber (s.world.server.mUserObjPool p.clientIndex).mRoomIndex =
      some r) : (s.world.server.mRoomList r).mUserList = [] := by
  have hsame : s.world.server.SameUsers s.world.server.clientPacket.2 :=
    s.world.server.sameUsers_dequePacketData
  have hgated : Server.Gated p.clientIndex s.world.server (PacketManager.processPlayerMovement
      p.clientIndex p.pPacket s.world.server.clientPacket.2) := hkept.gated hcall hi rfl
  rw [← hsame.toActor p.clientIndex] at hr
  rw [PacketManager.processPlayerMovement] at hgated
  simp only at hgated
  rw [if_neg (not_not.mpr huuid), hr] at hgated
  have hnobody := mUserList_eq_nil_of_gated hgated ⟨[], by simp [hsame.sent]⟩ trivial
  rw [← hsame.mRoomList]
  exact hnobody

end Gated

/-- A client that logs in and enters room 0 is there as one that has logged in. -/
example :
    (Runs.run step (init 3 (fun _ _ => 0) twoUsers) enterFirstRoom).map
      (fun s => (s.2, (s.world.server.mRoomList 0).mUserList)) = some ([⟨0, 1⟩], [0]) := by
  decide +kernel

end Watched

end World

end CKGameServer
