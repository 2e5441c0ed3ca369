import CKGameServer.Chat.Commands
import CKGameServer.Lobby.Refinement

/-!
Chat and movement in rooms (`ProcessRoomChatMessage`, `ProcessPlayerMovement`, `GetCurrentRoom`).

Both handlers find the room of their client by `mRoomIndex`, which survives `LeaveUser` and
`SetLogin`, and not by the list of the room.

* `RoomAction`, `Handler.roomAction`: what a packet of a client does in the room its `mRoomIndex`
  names.
* `Server.ActsIn`: what can be seen of it in a room.
* `World.actsByMembers_iff`: over a run only members act in a room exactly if every packet that
  is acted upon finds its sender in the list of the room.
* `World.spawn_after_leave`: a client that has left a room puts an npc into it.
-/

namespace CKGameServer

open Memory PacketManager

/-! ### Actions -/

/-- What a packet of a client does in a room. -/
inductive RoomAction where
  /-- Everybody in the room is sent a `ROOM_CHAT_NOTIFY` or an `UPDATE_PLAYER_MOVEMENT`. -/
  | broadcast (r : RoomIndex)
  /-- The room gets a new npc. -/
  | spawn (r : RoomIndex)
  deriving DecidableEq

/-- The packet is a `ROOM_CHAT_NOTIFY` or an `UPDATE_PLAYER_MOVEMENT`. -/
def ServerPacket.isRoomAction : ServerPacket → Bool
  | roomChatNotify _ _ => true
  | updatePlayerMovement _ _ _ => true
  | _ => false

/-- The handlers of `ROOM_CHAT_REQUEST` and `PLAYER_MOVEMENT`. -/
def Handler.isRoomAction : Handler → Bool
  | processRoomChatMessage | processPlayerMovement => true
  | _ => false

/-- A command of a chat message that stays outside the room. -/
def IsServerCommand (cmdMessage : Bytes) : Prop :=
  noticeCommand <+: cmdMessage ∨ shopResetCommand <+: cmdMessage ∨ timeAddCommand <+: cmdMessage

instance (cmdMessage : Bytes) : Decidable (IsServerCommand cmdMessage) :=
  inferInstanceAs (Decidable (_ ∨ _ ∨ _))

/-- What the packet of a client does in the room its `mRoomIndex` names. -/
def Handler.roomAction (handler : Handler) (i : ℕ) (pPacket : View) (σ : Server) :
    Option RoomAction :=
  (RoomManager.getRoomByNumber (σ.mUserObjPool i).mRoomIndex).bind fun r =>
    match handler with
    | processPlayerMovement =>
      if int64At pPacket packetHeaderLength = i then some (.broadcast r) else none
    | processRoomChatMessage =>
      let cmdMessage := pPacket.cString packetHeaderLength
      if npcCommand <+: cmdMessage then some (.spawn r)
      else if IsServerCommand cmdMessage then none
      else some (.broadcast r)
    | _ => none

namespace Server

/-- The chat notifications and movements sent from one state to another. -/
def roomActions (σ τ : Server) : List (ℕ × ServerPacket) :=
  (τ.sent.drop σ.sent.length).filter fun q => q.2.isRoomAction

/-- From `σ` to `τ` something is done in the room: its members, and they alone, are sent a chat
notification or a movement, or it gets a new npc. -/
def ActsIn (σ τ : Server) (r : RoomIndex) : Prop :=
  (∃ packet : ServerPacket, (σ.mRoomList r).mUserList ≠ [] ∧
      σ.roomActions τ = (σ.mRoomList r).mUserList.map fun u => (u, packet)) ∨
    (σ.mRoomList r).mNpcList.length < (τ.mRoomList r).mNpcList.length

/-- What `ActsIn` shows of an action. -/
def Shows (σ τ : Server) : Option RoomAction → Prop
  | none => σ.roomActions τ = [] ∧
      ∀ r, (τ.mRoomList r).mNpcList.length = (σ.mRoomList r).mNpcList.length
  | some (.broadcast r) => (∃ packet, σ.roomActions τ =
        (σ.mRoomList r).mUserList.map fun u => (u, packet)) ∧
      ∀ r, (τ.mRoomList r).mNpcList.length = (σ.mRoomList r).mNpcList.length
  | some (.spawn r) => σ.roomActions τ = [] ∧ ∀ r', (τ.mRoomList r').mNpcList.length =
      (σ.mRoomList r').mNpcList.length + if r' = r then 1 else 0

variable {σ τ : Server}

/-- The packets of an addition to what was sent. -/
lemma roomActions_of_sent {packets : List (ℕ × ServerPacket)} (h : τ.sent = σ.sent ++ packets) :
    σ.roomActions τ = packets.filter fun q => q.2.isRoomAction := by
  rw [roomActions, h, List.drop_left]

lemma filter_map_packet (users : List ℕ) (packet : ServerPacket) :
    (users.map fun u => (u, packet)).filter (fun q => q.2.isRoomAction) =
      if packet.isRoomAction then users.map fun u => (u, packet) else [] := by
  rw [List.filter_map]
  cases h : packet.isRoomAction <;> simp [Function.comp_def, h]

end Server

/-! ### The two handlers -/

section Handlers

open Server

variable {env : Env} {i : ℕ} {pPacket : View} {σ τ : Server}

lemma shows_none_of_sent (hsent : τ.sent = σ.sent) (hrooms : τ.mRoomList = σ.mRoomList) :
    σ.Shows τ none := ⟨by simp [roomActions, hsent], fun r => by rw [hrooms]⟩

lemma shows_processPlayerMovement (i : ℕ) (pPacket : View) (σ : Server) :
    σ.Shows (processPlayerMovement i pPacket σ)
      (Handler.processPlayerMovement.roomAction i pPacket σ) := by
  rw [processPlayerMovement, Handler.roomAction]
  simp only
  by_cases huuid : int64At pPacket packetHeaderLength = i
  · rw [if_neg (not_not.mpr huuid)]
    cases hr : RoomManager.getRoomByNumber (σ.mUserObjPool i).mRoomIndex with
    | none => exact shows_none_of_sent rfl rfl
    | some r =>
        simp only [Option.bind_some, if_pos huuid]
        refine ⟨⟨.updatePlayerMovement (int64At pPacket packetHeaderLength)
          (quaternionAt pPacket (packetHeaderLength + 16))
          (Actor.movement (floatAt pPacket (packetHeaderLength + 8))
            (floatAt pPacket (packetHeaderLength + 12))
            (quaternionAt pPacket (packetHeaderLength + 16))), ?_⟩, fun _ => rfl⟩
        rw [Room.sendToAllUser, Room.toAllUser_false, roomActions_of_sent rfl, filter_map_packet]
        rfl
  · rw [if_pos huuid]
    cases RoomManager.getRoomByNumber (σ.mUserObjPool i).mRoomIndex with
    | none => exact shows_none_of_sent rfl rfl
    | some r =>
        rw [Option.bind_some, if_neg huuid]
        exact shows_none_of_sent rfl rfl

lemma shows_enterNpc (env : Env) (r : RoomIndex) (σ : Server) :
    σ.Shows (Room.enterNpc env r σ) (some (.spawn r)) := by
  constructor
  · rw [Room.enterNpc, Room.notifyUserEnter, Room.sendToAllUser, Room.toAllUser_false,
      roomActions_of_sent rfl, filter_map_packet]
    rfl
  · intro r'
    by_cases hr : r' = r
    · subst hr
      simp [Room.enterNpc, Room.notifyUserEnter, Room.sendToAllUser]
    · simp [Room.enterNpc, Room.notifyUserEnter, Room.sendToAllUser, hr]

lemma shows_notifyChat (env : Env) (i : ℕ) (r : RoomIndex) (userID : Bytes) (msg : View)
    (σ : Server) :
    σ.Shows (Room.notifyChat env r (σ.sendPacketFunc i (.roomChatResponse .none)) i userID msg)
      (some (.broadcast r)) := by
  refine ⟨⟨.roomChatNotify (userIDArray (View.ofCString userID (env.heap i)))
    (msg.read 0 (maxChatMsgSize + 1)), ?_⟩, fun _ => rfl⟩
  rw [Room.notifyChat, Room.sendToAllUser, Room.toAllUser_false,
    roomActions_of_sent (List.append_assoc _ _ _), List.filter_append, filter_map_packet]
  rfl

/-- A chat message by what it does in the room. -/
lemma processRoomChatMessage_roomAction (h : processRoomChatMessage env i pPacket σ = .ok τ) :
    Handler.processRoomChatMessage.roomAction i pPacket σ = none ∧
      (τ = σ.sendPacketFunc i (.roomChatResponse .chatRoomInvalidRoomNumber) ∨
        ∃ task, τ = σ.pushTask task) ∨
    ∃ r, Handler.processRoomChatMessage.roomAction i pPacket σ = some (.spawn r) ∧
        τ = Room.enterNpc env r σ ∨
      Handler.processRoomChatMessage.roomAction i pPacket σ = some (.broadcast r) ∧
        τ = Room.notifyChat env r (σ.sendPacketFunc i (.roomChatResponse .none)) i
          (σ.mUserObjPool i).mUserID (pPacket.shift packetHeaderLength) := by
  rw [Handler.roomAction]
  rcases processRoomChatMessage_cases h with ⟨hr, rfl⟩ | ⟨r, hr, ⟨hnpc, rfl⟩ |
    ⟨hnpc, ⟨hcommand, task, -, rfl⟩ | ⟨hcommand, rfl⟩⟩⟩
  · rw [hr]
    exact .inl ⟨rfl, .inl rfl⟩
  · rw [hr]
    exact .inr ⟨r, .inl ⟨if_pos hnpc, rfl⟩⟩
  · rw [hr]
    exact .inl ⟨(if_neg hnpc).trans (if_pos hcommand), .inr ⟨task, rfl⟩⟩
  · rw [hr]
    exact .inr ⟨r, .inr ⟨(if_neg hnpc).trans (if_neg hcommand), rfl⟩⟩

lemma shows_processRoomChatMessage (h : processRoomChatMessage env i pPacket σ = .ok τ) :
    σ.Shows τ (Handler.processRoomChatMessage.roomAction i pPacket σ) := by
  rcases processRoomChatMessage_roomAction h with ⟨haction, rfl | ⟨task, rfl⟩⟩ |
    ⟨r, ⟨haction, rfl⟩ | ⟨haction, rfl⟩⟩ <;> rw [haction]
  · exact ⟨by rw [Server.sendPacketFunc, roomActions_of_sent rfl]; rfl, fun _ => rfl⟩
  · exact shows_none_of_sent rfl rfl
  · exact shows_enterNpc env r σ
  · exact shows_notifyChat env i r _ _ σ

/-- A packet that is acted upon does not end the process thread. -/
lemma exists_run_of_roomAction {handler : Handler} {action : RoomAction}
    (h : handler.roomAction i pPacket σ = some action) (env : Env) (n : ℕ) :
    ∃ τ, handler.run env i n pPacket σ = .ok τ := by
  by_cases hchat : handler = .processRoomChatMessage
  · subst hchat
    refine (processRoomChatMessage_ok_iff env).mpr (.inr (.inl fun htime => ?_))
    obtain ⟨hnpc, -, -⟩ := not_prefix_of_timeAdd htime
    obtain ⟨r, -, haction⟩ := Option.bind_eq_some_iff.mp h
    simp only at haction
    have hcommand : IsServerCommand (pPacket.cString packetHeaderLength) := .inr (.inr htime)
    rw [if_neg hnpc, if_pos hcommand] at haction
    cases haction
  · exact Handler.exists_ok hchat

/-- What a packet does in a room depends on the room index of its client alone. -/
lemma roomAction_congr (h : σ.SameUsers τ) (handler : Handler) (i : ℕ) (pPacket : View) :
    handler.roomAction i pPacket τ = handler.roomAction i pPacket σ := by
  rw [Handler.roomAction, Handler.roomAction, h.toActor i]

end Handlers

/-! ### The system -/

namespace World

/-- Only members act in a room: where the packet of a client leads to a chat notification or a
movement for the members of a room, or to a new npc in it, the client is one of them. -/
def ActsByMembers (w : World) (e : Event) : Prop :=
  ∀ handler p w', w.call e = some (handler, p) → handler.isRoomAction = true →
    w.step e = some w' → ∀ r, w.server.ActsIn w'.server r →
      p.clientIndex ∈ (w.server.mRoomList r).mUserList

/-- The sender of a packet that is acted upon stands in the list of the room its `mRoomIndex`
names. A broadcast to a room without members reaches nobody. -/
def FindsMember (w : World) (e : Event) : Prop :=
  ∀ handler p, w.call e = some (handler, p) → ∀ r,
    (handler.roomAction p.clientIndex p.pPacket w.server = some (.spawn r) →
      p.clientIndex ∈ (w.server.mRoomList r).mUserList) ∧
    (handler.roomAction p.clientIndex p.pPacket w.server = some (.broadcast r) →
      (w.server.mRoomList r).mUserList ≠ [] → p.clientIndex ∈ (w.server.mRoomList r).mUserList)

section Step

variable {w w' : World} {e : Event} {handler : Handler} {p : RecvPacket}

/-- The step of a chat message or a movement shows what the packet does. -/
lemma shows_of_step (hcall : w.call e = some (handler, p)) (haction : handler.isRoomAction = true)
    (hstep : w.step e = some w') :
    w.server.Shows w'.server (handler.roomAction p.clientIndex p.pPacket w.server) := by
  obtain ⟨σ, hσ, ⟨hnone, -⟩ | ⟨handler', q, env, hsome, hrun⟩⟩ := step_cases hstep
  · cases hnone.symm.trans hcall
  · obtain ⟨rfl, rfl⟩ := Prod.mk.inj (Option.some.inj (hsome.symm.trans hcall))
    have hshows : σ.Shows w'.server (handler'.roomAction q.clientIndex q.pPacket σ) := by
      cases handler' with
      | processPlayerMovement =>
          exact Except.ok.inj hrun ▸ shows_processPlayerMovement q.clientIndex q.pPacket σ
      | processRoomChatMessage => exact shows_processRoomChatMessage hrun
      | _ => cases haction
    rw [roomAction_congr hσ] at hshows
    simp only [Server.Shows, Server.roomActions, hσ.sent, hσ.mRoomList] at hshows
    exact hshows

end Step

/-- **One step**: only a member acts in a room exactly if the sender is found in its list. -/
lemma actsByMembers_step_iff (w : World) (e : Event) : w.ActsByMembers e ↔ w.FindsMember e := by
  constructor
  · intro h handler p hcall r
    have hmember : ∀ action, handler.roomAction p.clientIndex p.pPacket w.server = some action →
        (∀ w' : World, w.server.Shows w'.server (some action) → w.server.ActsIn w'.server r) →
        p.clientIndex ∈ (w.server.mRoomList r).mUserList := fun action haction hacts => by
      obtain ⟨w', hstep⟩ := exists_step_of_run hcall fun env σ hσ =>
        exists_run_of_roomAction ((roomAction_congr hσ _ _ _).trans haction) env _
      have hhandler : handler.isRoomAction = true := by
        obtain ⟨r', -, hr'⟩ := Option.bind_eq_some_iff.mp haction
        cases handler with
        | processPlayerMovement => rfl
        | processRoomChatMessage => rfl
        | _ => cases hr'
      have hshows := shows_of_step hcall hhandler hstep
      rw [haction] at hshows
      exact h handler p w' hcall hhandler hstep r (hacts w' hshows)
    refine ⟨fun haction => hmember _ haction fun w' hshows => .inr ?_,
      fun haction hne => hmember _ haction fun w' hshows => .inl ?_⟩
    · rw [hshows.2 r, if_pos rfl]
      exact Nat.lt_succ_self _
    · obtain ⟨packet, hpackets⟩ := hshows.1
      exact ⟨packet, hne, hpackets⟩
  · intro h handler p w' hcall hhandler hstep r hacts
    have hshows := shows_of_step hcall hhandler hstep
    cases haction : handler.roomAction p.clientIndex p.pPacket w.server with
    | none =>
        rw [haction] at hshows
        obtain ⟨hactions, hnpcs⟩ := hshows
        rcases hacts with ⟨packet, hne, hpackets⟩ | hnpc
        · rw [hactions] at hpackets
          exact absurd (List.map_eq_nil_iff.mp hpackets.symm) hne
        · exact absurd (hnpcs r) hnpc.ne'
    | some action =>
        rw [haction] at hshows
        cases action with
        | broadcast r₀ =>
            obtain ⟨⟨packet₀, hpackets₀⟩, hnpcs⟩ := hshows
            rcases hacts with ⟨packet, hne, hpackets⟩ | hnpc
            · -- the members of both rooms have been sent the same packets
              have hlists :
                (w.server.mRoomList r).mUserList = (w.server.mRoomList r₀).mUserList := by
                have hmap := congrArg (List.map Prod.fst) (hpackets.symm.trans hpackets₀)
                simpa [Function.comp_def] using hmap
              rw [hlists] at hne ⊢
              exact (h handler p hcall r₀).2 haction hne
            · exact absurd (hnpcs r) hnpc.ne'
        | spawn r₀ =>
            obtain ⟨hactions, hnpcs⟩ := hshows
            rcases hacts with ⟨packet, hne, hpackets⟩ | hnpc
            · rw [hactions] at hpackets
              exact absurd (List.map_eq_nil_iff.mp hpackets.symm) hne
            · by_cases hr : r = r₀
              · subst hr
                exact (h handler p hcall r).1 haction
              · rw [hnpcs r, if_neg hr] at hnpc
                exact absurd rfl hnpc.ne

/-- **Room actions by members.** In any run from the start of the server only members act in a
room exactly if every chat message and every movement that is acted upon finds its sender in the
list of the room its `mRoomIndex` names, or sends to a room without members. -/
theorem actsByMembers_iff (maxClient : ℕ) (memory : ℕ → View) (store : Store) (es : List Event) :
    Runs.Along step ActsByMembers (init maxClient memory store) es ↔
      Runs.Along step FindsMember (init maxClient memory store) es :=
  Runs.along_iff_along (P := fun _ => True) (fun w e _ => actsByMembers_step_iff w e)
    (fun _ _ _ _ _ _ => trivial) es trivial

/-- `a` enters room 0, leaves it, and sends the command for an npc. -/
def leaveAndChat : List Event :=
  enterFirstRoom ++ Event.request 0 roomLeaveRequestPacket ++
    [.receive 0 (chunk (roomChatRequestPacket npcCommand)),
      .receive 0 (chunk ((roomChatRequestPacket npcCommand).drop maxSockRecvBuf))]

/-- The npc appears in room 0, in whose list `a` does not stand. -/
theorem spawn_after_leave :
    ¬∀ (maxClient : ℕ) (memory : ℕ → View) (store : Store) (es : List Event),
      Runs.Along step ActsByMembers (init maxClient memory store) es := by
  intro h
  have hrun : (Runs.run step (init 3 (fun _ _ => 0) twoUsers) leaveAndChat).bind
      (fun w => (w.call (.clientPacket {})).map fun c => (c.1,
        c.1.roomAction c.2.clientIndex c.2.pPacket w.server,
        (w.server.mRoomList ⟨0, Nat.succ_pos _⟩).mUserList)) =
      some (.processRoomChatMessage, some (.spawn ⟨0, Nat.succ_pos _⟩), []) := by decide +kernel
  obtain ⟨w, hw, hcall⟩ := Option.bind_eq_some_iff.mp hrun
  obtain ⟨⟨handler, p⟩, hcall, heq⟩ := Option.map_eq_some_iff.mp hcall
  obtain ⟨-, heq⟩ := Prod.mk.inj heq
  obtain ⟨haction, hlist⟩ := Prod.mk.inj heq
  have hfinds := (actsByMembers_step_iff w _).mp ((h 3 (fun _ _ => 0) twoUsers
    (leaveAndChat ++ Event.clientPacket {} :: [])).of_run hw)
  have hmember := (hfinds handler p hcall _).1 haction
  rw [hlist] at hmember
  cases hmember

end World

end CKGameServer
