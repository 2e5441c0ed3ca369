import CKGameServer.Model.Client

/-!
Chat messages and the commands among them (`PacketManager::ProcessRoomChatMessage`).

* `IsTimeAdd`: what a message that begins with `/t add` has to look like for the number behind
  it to be read.
* `ChatAnswer`: the ways the handler answers a message.
* `processRoomChatMessage_answers_iff`: it answers every message except those that begin with
  `/t add`, come from a user in a room, and name no `int` from the eighth character on.
* `step_clientPacket_ends_iff`: no other packet ends the packet manager. (One whose answer goes to
  an index that is no slot ends the server, `GameServer.step_tradeRequest_iff`.)
-/

namespace CKGameServer

open Memory

/-- A message whose text from the eighth character on `std::stoi` reads. -/
def IsTimeAdd (cmdMessage : Bytes) : Prop :=
  7 ≤ cmdMessage.length ∧
    ∃ n, Decimal.parse (cmdMessage.drop 7) = some n ∧ -2 ^ 31 ≤ n ∧ n < 2 ^ 31

/-- The message can be answered: it does not come from a room, is not a command to add time, or
is a well-formed one. -/
def Answerable (σ : Server) (clientIndex : ℕ) (cmdMessage : Bytes) : Prop :=
  RoomManager.getRoomByNumber (σ.mUserObjPool clientIndex).mRoomIndex = none ∨
    ¬PacketManager.timeAddCommand <+: cmdMessage ∨ IsTimeAdd cmdMessage

/-- What the handler makes of a message: it is ignored where its user is in no room, it makes an
npc, it queues a command for the Redis thread, or it is delivered to the room. -/
inductive ChatAnswer (env : Env) (clientIndex : ℕ) (pPacket : View) (σ : Server) : Server → Prop
  | ignored (h : RoomManager.getRoomByNumber (σ.mUserObjPool clientIndex).mRoomIndex = none) :
      ChatAnswer env clientIndex pPacket σ
        (σ.sendPacketFunc clientIndex (.roomChatResponse .chatRoomInvalidRoomNumber))
  | npc (r : RoomIndex) : ChatAnswer env clientIndex pPacket σ (Room.enterNpc env r σ)
  | task (task : RedisTask) (h : task.taskID = .requestNotice ∨ task.taskID = .requestShopUpdate) :
      ChatAnswer env clientIndex pPacket σ (σ.pushTask task)
  | delivered (r : RoomIndex) :
      ChatAnswer env clientIndex pPacket σ
        (Room.notifyChat env r (σ.sendPacketFunc clientIndex (.roomChatResponse .none))
          clientIndex (σ.mUserObjPool clientIndex).mUserID (pPacket.shift packetHeaderLength))

/-! ### The commands -/

/-- `stoi` reads the numbers of `int`. -/
lemma stoi_isOk_iff {s : Bytes} :
    (∃ x, stoi s = .ok x) ↔ ∃ n, Decimal.parse s = some n ∧ -2 ^ 31 ≤ n ∧ n < 2 ^ 31 := by
  rw [stoi]
  constructor
  · rintro ⟨x, hx⟩
    split at hx
    · cases hx
    · rename_i n hn
      split at hx
      · rename_i hrange
        exact ⟨n, hn, hrange⟩
      · cases hx
  · rintro ⟨n, hn, hrange⟩
    rw [hn]
    exact ⟨_, if_pos hrange⟩

/-- The text behind `/t add ` is read exactly where it is a number. -/
lemma substr_stoi_isOk_iff {cmdMessage : Bytes} :
    (∃ x, (PacketManager.substr cmdMessage 7 >>= stoi) = .ok x) ↔ IsTimeAdd cmdMessage := by
  rw [IsTimeAdd, PacketManager.substr]
  by_cases hlength : cmdMessage.length < 7
  · rw [if_pos hlength]
    constructor
    · rintro ⟨x, hx⟩
      cases hx
    · rintro ⟨h, -⟩
      exact absurd h (Nat.not_le.mpr hlength)
  · rw [if_neg hlength]
    exact stoi_isOk_iff.trans ⟨fun h => ⟨Nat.not_lt.mp hlength, h⟩, fun h => h.2⟩

/-- A message begins with at most one of the commands. -/
lemma not_prefix_of_timeAdd {cmdMessage : Bytes}
    (h : PacketManager.timeAddCommand <+: cmdMessage) :
    ¬PacketManager.npcCommand <+: cmdMessage ∧ ¬PacketManager.noticeCommand <+: cmdMessage ∧
      ¬PacketManager.shopResetCommand <+: cmdMessage := by
  obtain ⟨t, rfl⟩ := h
  refine ⟨?_, ?_, ?_⟩
  all_goals
    rintro ⟨s, hs⟩
    cases hs

/-- The text behind a command that the message begins with. -/
lemma substr_noticeCommand {cmdMessage : Bytes}
    (h : PacketManager.noticeCommand <+: cmdMessage) :
    PacketManager.substr cmdMessage 2 = .ok (cmdMessage.drop 2) := by
  have hlength : 2 ≤ cmdMessage.length := h.length_le
  rw [PacketManager.substr, if_neg (Nat.not_lt.mpr hlength)]

variable {env : Env} {i : ℕ} {p : View} {σ τ : Server}

/-- Where the handler returns, it has answered the message. -/
lemma chatAnswer_of_ok (h : PacketManager.processRoomChatMessage env i p σ = .ok τ) :
    ChatAnswer env i p σ τ := by
  rcases PacketManager.processRoomChatMessage_cases h with ⟨hroom, rfl⟩ | ⟨r, -, ⟨-, rfl⟩ |
    ⟨-, ⟨-, task, htask, rfl⟩ | ⟨-, rfl⟩⟩⟩
  · exact .ignored hroom
  · exact .npc r
  · exact .task task htask
  · exact .delivered r

/-- A command to add time, in a room. -/
lemma processRoomChatMessage_of_timeAdd {r : RoomIndex}
    (hroom : RoomManager.getRoomByNumber (σ.mUserObjPool i).mRoomIndex = some r)
    (htime : PacketManager.timeAddCommand <+: p.cString packetHeaderLength) :
    PacketManager.processRoomChatMessage env i p σ =
      (PacketManager.substr (p.cString packetHeaderLength) 7 >>= stoi).map fun time =>
        σ.pushTask (RedisTask.make 0 .requestShopUpdate 4 (int32Bytes time) (env.heap 0)) := by
  obtain ⟨hnpc, hnotice, hreset⟩ := not_prefix_of_timeAdd htime
  rw [PacketManager.processRoomChatMessage, hroom]
  simp only [if_neg hnpc, if_neg hnotice, if_neg hreset, if_pos htime, bind, pure, Except.pure]
  cases PacketManager.substr (p.cString packetHeaderLength) 7 with
  | error e => rfl
  | ok s => cases h : stoi s <;> simp [Except.bind, Except.map, h]

/-- Any other message, in a room. -/
lemma exists_ok_of_not_timeAdd {r : RoomIndex}
    (hroom : RoomManager.getRoomByNumber (σ.mUserObjPool i).mRoomIndex = some r)
    (htime : ¬PacketManager.timeAddCommand <+: p.cString packetHeaderLength) :
    ∃ τ, PacketManager.processRoomChatMessage env i p σ = .ok τ := by
  rw [PacketManager.processRoomChatMessage, hroom]
  simp only [if_neg htime, bind, pure, Except.pure]
  by_cases hnpc : PacketManager.npcCommand <+: p.cString packetHeaderLength
  · exact ⟨_, if_pos hnpc⟩
  · rw [if_neg hnpc]
    by_cases hnotice : PacketManager.noticeCommand <+: p.cString packetHeaderLength
    · rw [if_pos hnotice, substr_noticeCommand hnotice]
      exact ⟨_, rfl⟩
    · rw [if_neg hnotice]
      split <;> exact ⟨_, rfl⟩

/-- The handler returns exactly where the message can be answered. -/
lemma processRoomChatMessage_ok_iff (env : Env) :
    (∃ τ, PacketManager.processRoomChatMessage env i p σ = .ok τ) ↔
      Answerable σ i (p.cString packetHeaderLength) := by
  cases hroom : RoomManager.getRoomByNumber (σ.mUserObjPool i).mRoomIndex with
  | none =>
      refine ⟨fun _ => .inl hroom, fun _ => ?_⟩
      rw [PacketManager.processRoomChatMessage, hroom]
      exact ⟨_, rfl⟩
  | some r =>
      by_cases htime : PacketManager.timeAddCommand <+: p.cString packetHeaderLength
      · rw [processRoomChatMessage_of_timeAdd hroom htime, Answerable, hroom,
          ← substr_stoi_isOk_iff]
        constructor
        · rintro ⟨τ, hτ⟩
          obtain ⟨x, hx, -⟩ := exists_of_map_eq_ok hτ
          exact .inr (.inr ⟨x, hx⟩)
        · rintro (hnone | hnot | ⟨x, hx⟩)
          · cases hnone
          · exact absurd htime hnot
          · rw [hx]
            exact ⟨_, rfl⟩
      · exact ⟨fun _ => .inr (.inl htime), fun _ => exists_ok_of_not_timeAdd hroom htime⟩

/-- **A chat message is answered**, in every state of the server, exactly if it does not come from
a room, does not begin with `/t add`, or names an `int` from its eighth character on. -/
theorem processRoomChatMessage_answers_iff (env : Env) (clientIndex : ℕ) (pPacket : View)
    (σ : Server) :
    (∃ τ, PacketManager.processRoomChatMessage env clientIndex pPacket σ = .ok τ ∧
        ChatAnswer env clientIndex pPacket σ τ) ↔
      Answerable σ clientIndex (pPacket.cString packetHeaderLength) := by
  rw [← processRoomChatMessage_ok_iff env]
  exact ⟨fun ⟨τ, hτ, _⟩ => ⟨τ, hτ⟩, fun ⟨τ, hτ⟩ => ⟨τ, hτ, chatAnswer_of_ok hτ⟩⟩

/-! ### The process thread -/

/-- Every other handler returns. -/
lemma Handler.exists_ok {handler : Handler} {n : ℕ} (h : handler ≠ processRoomChatMessage) :
    ∃ τ, handler.run env i n p σ = .ok τ := by
  cases handler with
  | processRoomChatMessage => exact absurd rfl h
  | _ => exact ⟨_, rfl⟩

/-- The handler of chat messages is registered for one id. -/
lemma findHandler_eq_chat_iff {packetId : ℕ} :
    findHandler packetId = some .processRoomChatMessage ↔
      packetId = PacketId.roomChatRequest.code := by
  have hall : ∀ e ∈ mRecvFuntionDictionary, e.2 = .processRoomChatMessage →
      e.1 = PacketId.roomChatRequest.code := by decide
  constructor
  · exact fun h => hall _ (mem_of_findHandler h) rfl
  · rintro rfl
    rfl

/-- The dispatch of a packet ends in an exception only where it is a chat message that cannot be
answered. -/
lemma processRecvPacket_ok_iff {packetId n : ℕ} :
    (∃ τ, processRecvPacket env i packetId n p σ = .ok τ) ↔
      (packetId = PacketId.roomChatRequest.code →
        Answerable σ i (p.cString packetHeaderLength)) := by
  rw [← findHandler_eq_chat_iff, processRecvPacket]
  cases findHandler packetId with
  | none => exact ⟨fun _ h => (Option.some_ne_none _ h.symm).elim, fun _ => ⟨σ, rfl⟩⟩
  | some handler =>
      by_cases hchat : handler = .processRoomChatMessage
      · subst hchat
        exact (processRoomChatMessage_ok_iff env).trans ⟨fun h _ => h, fun h => h rfl⟩
      · exact ⟨fun _ h => absurd (Option.some.inj h) hchat, fun _ => Handler.exists_ok hchat⟩

/-- The room of a user is not affected by taking a packet from the queue. -/
lemma answerable_congr {msg : Bytes} (h : σ.SameUsers τ) :
    Answerable τ i msg ↔ Answerable σ i msg := by
  rw [Answerable, Answerable, h.toActor i]

/-- **What ends the packet manager** when it takes a client's packet: a chat message that cannot
be answered, and nothing else. `World` has no slots: where a `TRADE_REQUEST` names an index that is
none, it is `IOCPServer::SendMsg` that ends the thread. -/
theorem World.step_clientPacket_ends_iff (w : World) (env : Env) :
    w.step (.clientPacket env) = none ↔
      ∃ p, w.packet (.clientPacket env) = some p ∧ p.packetId = PacketId.roomChatRequest.code ∧
        ¬Answerable w.server p.clientIndex (p.pPacket.cString packetHeaderLength) := by
  have hsame : w.server.SameUsers w.server.clientPacket.2 := w.server.sameUsers_dequePacketData
  have hstep : w.step (.clientPacket env) =
      (Server.dispatch env (w.packet (.clientPacket env), w.server.clientPacket.2)).toOption.map
        fun σ => { w with server := σ } := rfl
  rw [hstep]
  cases w.packet (.clientPacket env) with
  | none =>
      constructor
      · intro h
        cases h
      · rintro ⟨p, hp, -⟩
        cases hp
  | some p =>
      have hok : (∃ τ, processRecvPacket env p.clientIndex p.packetId p.packetSize p.pPacket
          w.server.clientPacket.2 = .ok τ) ↔ _ := processRecvPacket_ok_iff
      rw [answerable_congr hsame] at hok
      rw [Server.dispatch]
      cases hrun : processRecvPacket env p.clientIndex p.packetId p.packetSize p.pPacket
          w.server.clientPacket.2 with
      | ok τ =>
          constructor
          · intro h
            cases h
          · rintro ⟨q, hq, hid, hnot⟩
            obtain rfl := Option.some.inj hq
            exact absurd (hok.mp ⟨τ, hrun⟩ hid) hnot
      | error e =>
          refine ⟨fun _ => ⟨p, rfl, ?_⟩, fun _ => rfl⟩
          by_contra hnot
          rw [not_and_not_right] at hnot
          obtain ⟨τ, hτ⟩ := hok.mpr hnot
          rw [hrun] at hτ
          cases hτ

/-! ### A message that cannot be answered -/

/-- The packet of a chat message. -/
def roomChatRequestPacket (msg : Bytes) : Bytes :=
  packetBytes PacketId.roomChatRequest.code (charArray msg (maxChatMsgSize + 1))

/-- A client connects, logs in and enters a room. -/
def enterFirstRoom : List Event :=
  [.connect 0, .systemPacket {}] ++ Event.login 0 [97] [98] ++
    Event.request 0 (roomEnterRequestPacket 0)

/-- In a room, `/t add` without a number ends the process thread. -/
theorem timeAdd_ends_thread :
    ¬∀ (maxClient : ℕ) (memory : ℕ → View) (store : Store) (es : List Event) (w : World),
      Runs.run World.step (World.init maxClient memory store) es = some w →
      ∀ (env : Env) (clientIndex : ℕ) (pPacket : View),
        pPacket.NulTerminated packetHeaderLength (maxChatMsgSize + 1) →
        ∃ τ, PacketManager.processRoomChatMessage env clientIndex pPacket w.server = .ok τ ∧
          ChatAnswer env clientIndex pPacket w.server τ := by
  intro h
  have hrun : (Runs.run World.step (World.init 3 (fun _ _ => 0) twoUsers)
      enterFirstRoom).map (fun w => (w.server.mUserObjPool 0).mRoomIndex) = some 0 := by
    decide +kernel
  obtain ⟨w, hw, hroom⟩ := Option.map_eq_some_iff.mp hrun
  have hmsg : (View.ofBytes (roomChatRequestPacket PacketManager.timeAddCommand)).cString
      packetHeaderLength = PacketManager.timeAddCommand := by decide +kernel
  have hzero : (View.ofBytes (roomChatRequestPacket PacketManager.timeAddCommand)).NulTerminated
      packetHeaderLength (maxChatMsgSize + 1) := ⟨6, by decide, by decide +kernel⟩
  obtain ⟨τ, hτ, -⟩ := h 3 _ _ enterFirstRoom w hw {} 0 _ hzero
  have hanswerable := (processRoomChatMessage_ok_iff _).mp ⟨τ, hτ⟩
  rw [hmsg, Answerable, hroom] at hanswerable
  rcases hanswerable with hnone | hnot | ⟨hlength, -⟩
  · cases hnone
  · exact hnot (List.prefix_refl _)
  · exact absurd hlength (by decide)

end CKGameServer
