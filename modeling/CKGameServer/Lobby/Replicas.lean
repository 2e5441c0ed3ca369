import CKGameServer.Lobby.Views

/-!
Where players take each other to be (`Actor::Init`, `Actor::UpdateMovement`, `Room::EnterUser`,
`Match.OnPacketReceived`).

A player starts from the position in `ROOM_USER_INFO_NTF`, or from the one `Actor::Init` sets if it
learns of somebody by `ROOM_NEW_USER_NTF`, and adds the motions of all later
`UPDATE_PLAYER_MOVEMENT`.

* `Move`, `Handler.moves`: the movement a handler carries out; `Handler.run_position`: the positions
  after a handler.
* `News.locate`: where a player takes another one to be, after one more piece of news.
* `Entered.ReplicasAgree`: two members of a room take each other to be where they are.
* `Entered.KeepsReplicas`: which steps keep that.
* `Entered.replicasAgree_iff`: over a run the replicas agree exactly if all its steps keep that;
  where users enter only from outside rooms, exactly if who enters a room with somebody in it
  stands at the spawn position.
* `Entered.misplaced_after_reentry`: a player that moves, leaves and enters again is taken to be
  where it is not.
-/

namespace CKGameServer

open Memory PacketManager

/-! ### Movements -/

/-- Who moves, in which room, and how far. -/
structure Move where
  user : ℕ
  room : RoomIndex
  motion : Vector3

/-- The movement a handler carries out. -/
def Handler.moves (handler : Handler) (i : ℕ) (pPacket : View) (σ : Server) : Option Move :=
  match handler with
  | processPlayerMovement =>
    match handler.roomAction i pPacket σ with
    | some (.broadcast r) =>
      some ⟨i, r, Actor.movement (floatAt pPacket (packetHeaderLength + 8))
        (floatAt pPacket (packetHeaderLength + 12))
        (quaternionAt pPacket (packetHeaderLength + 16))⟩
    | _ => none
  | _ => none

/-- The position of a user after a movement of somebody. -/
def Move.position (move : Move) (v : ℕ) (position : Vector3) : Vector3 :=
  if v = move.user then vector3Addition position move.motion else position

section Handlers

open Server

variable {env : Env} {i n : ℕ} {pPacket : View} {σ τ : Server}

lemma mUserObjPool_processRoomChatMessage
    (h : processRoomChatMessage env i pPacket σ = .ok τ) : τ.mUserObjPool = σ.mUserObjPool := by
  rcases processRoomChatMessage_cases h with ⟨-, rfl⟩ | ⟨r, -, ⟨-, rfl⟩ |
    ⟨-, ⟨-, task, -, rfl⟩ | ⟨-, rfl⟩⟩⟩ <;> rfl

/-- **The positions after a handler**: a movement changes one, and no other handler any. -/
theorem Handler.run_position {handler : Handler} (h : handler.run env i n pPacket σ = .ok τ)
    (v : ℕ) : (τ.mUserObjPool v).position =
      (handler.moves i pPacket σ).elim (σ.mUserObjPool v).position
        fun move => move.position v (σ.mUserObjPool v).position := by
  cases handler with
  | processPlayerMovement =>
      obtain rfl := Except.ok.inj h
      rw [PacketManager.processPlayerMovement, Handler.moves, Handler.roomAction]
      simp only
      by_cases huuid : int64At pPacket packetHeaderLength = i
      · rw [if_neg (not_not.mpr huuid)]
        cases RoomManager.getRoomByNumber (σ.mUserObjPool i).mRoomIndex with
        | none => rfl
        | some r =>
            simp only [Option.bind_some, if_pos huuid, Option.elim_some, Move.position]
            by_cases hv : v = i
            · subst hv
              rw [if_pos rfl]
              simp [Room.sendToAllUser, Actor.updateMovement]
            · rw [if_neg hv]
              simp [Room.sendToAllUser, hv]
      · rw [if_pos huuid]
        cases RoomManager.getRoomByNumber (σ.mUserObjPool i).mRoomIndex with
        | none => rfl
        | some r =>
            simp only [Option.bind_some, if_neg huuid]
            rfl
  | processRoomChatMessage =>
      rw [mUserObjPool_processRoomChatMessage h]
      rfl
  | _ => exact (Handler.run_sameActors h (by decide) (by decide)).position v

end Handlers

/-- A movement depends on users and rooms alone. -/
lemma Server.SameUsers.moves_eq {σ τ : Server} (h : σ.SameUsers τ) (handler : Handler) (i : ℕ)
    (pPacket : View) : handler.moves i pPacket τ = handler.moves i pPacket σ := by
  simp only [Handler.moves, roomAction_congr h]

namespace World

/-- The movement an event carries out. -/
def moves (w : World) (e : Event) : Option Move :=
  (w.call e).bind fun c => c.1.moves c.2.clientIndex c.2.pPacket w.server

section Moves

variable {w w' : World} {e : Event} {move : Move}

/-- **The positions after a step.** -/
theorem step_position (h : w.step e = some w') (v : ℕ) :
    (w'.server.mUserObjPool v).position = (w.moves e).elim (w.server.mUserObjPool v).position
      fun move => move.position v (w.server.mUserObjPool v).position := by
  obtain ⟨σ, hσ, ⟨hcall, hsame⟩ | ⟨handler, p, env, hcall, hrun⟩⟩ := step_cases h
  · rw [moves, hcall, hsame.toActor, hσ.toActor]
    rfl
  · rw [Handler.run_position hrun, hσ.moves_eq, hσ.toActor, moves, hcall]
    rfl

lemma moves_eq_some (h : w.moves e = some move) :
    ∃ p, w.call e = some (.processPlayerMovement, p) ∧ p.clientIndex = move.user ∧
      Handler.processPlayerMovement.roomAction move.user p.pPacket w.server =
        some (.broadcast move.room) := by
  obtain ⟨⟨handler, p⟩, hcall, hmoves⟩ := Option.bind_eq_some_iff.mp h
  cases handler with
  | processPlayerMovement =>
      refine ⟨p, hcall, ?_⟩
      rw [Handler.moves] at hmoves
      split at hmoves
      · rename_i r haction
        obtain rfl := Option.some.inj hmoves
        exact ⟨rfl, haction⟩
      · cases hmoves
  | _ => cases hmoves

/-- Who moves does so in the room its `mRoomIndex` names. -/
lemma room_of_moves (h : w.moves e = some move) :
    (w.server.lobby.session move.user).room = some move.room := by
  obtain ⟨p, -, -, haction⟩ := moves_eq_some h
  obtain ⟨r, hr, haction⟩ := Option.bind_eq_some_iff.mp haction
  simp only at haction
  split at haction
  · obtain rfl := RoomAction.broadcast.inj (Option.some.inj haction)
    exact hr
  · cases haction

/-- A movement is no operation of the lobby, and makes no npc. -/
lemma op_of_moves (h : w.moves e = some move) : w.op e = none := by
  obtain ⟨p, hcall, -⟩ := moves_eq_some h
  rw [op, hcall]
  rfl

lemma moves_of_op {op : Lobby.Op} (h : w.op e = some op) : w.moves e = none :=
  Option.eq_none_iff_forall_ne_some.mpr fun move hmove => by
    cases (op_of_moves hmove).symm.trans h

lemma exists_step_of_moves (h : w.moves e = some move) : ∃ w', w.step e = some w' := by
  obtain ⟨p, hcall, huser, haction⟩ := moves_eq_some h
  rw [← huser] at haction
  exact exists_step_of_run hcall fun env σ hσ =>
    exists_run_of_roomAction ((roomAction_congr hσ _ _ _).trans haction) env _

/-- What an event tells that neither carries out an operation nor makes an npc. -/
lemma news_eq_of_moves (hop : w.op e = none) (hspawned : ∀ r, w.spawned e r = []) :
    w.news e = (w.moves e).elim [] fun move =>
      (w.server.mRoomList move.room).mUserList.map fun u => (u, .moved move.user move.motion) := by
  cases hcall : w.call e with
  | none =>
      rw [news, moves, hcall]
      rfl
  | some c =>
      obtain ⟨handler, p⟩ := c
      rw [op, hcall, Option.bind_some] at hop
      simp only [news, moves, spawned, hcall, Option.elim_some, Option.bind_some] at hspawned ⊢
      cases handler with
      | processUserConnect => cases hop
      | processUserDisConnect => cases hop
      | processLeaveRoom => cases hop
      | processEnterRoom =>
          rw [Handler.news, Option.map_eq_none_iff.mp hop]
          rfl
      | processPlayerMovement =>
          rw [Handler.news, Handler.moves]
          rcases Handler.processPlayerMovement.roomAction p.clientIndex p.pPacket w.server with
            _ | ⟨r | r⟩ <;> rfl
      | processRoomChatMessage =>
          rw [Handler.news]
          split
          · rename_i r haction
            have hnone := hspawned r
            rw [Handler.spawned, if_pos haction] at hnone
            cases hnone
          · rfl
      | _ => rfl

end Moves

end World

/-! ### Where a player takes another one to be -/

/-- The position `Actor::Init` sets, at which the client puts a player that joins. -/
def Actor.initPosition : Vector3 := ⟨5, 2, 5⟩

/-- Where a player takes another one to be, after one more piece of news. Who is already known is
not put anywhere again. -/
def News.locate (target : ℤ) (known : Option Vector3) : News → Option Vector3
  | present uuid position => if uuid = target then known.or (some position) else known
  | joined uuid => if uuid = target then known.or (some Actor.initPosition) else known
  | gone uuid => if uuid = target then none else known
  | moved uuid motion =>
    if uuid = target then known.map fun position => vector3Addition position motion else known

/-- Whom the news is about. -/
def News.uuid : News → ℤ
  | present uuid _ => uuid
  | joined uuid => uuid
  | gone uuid => uuid
  | moved uuid _ => uuid

section Locate

open Outbox

variable {target : ℤ} {known : Option Vector3} {o : ℕ} {users : List ℕ}

/-- News about others. -/
lemma News.locate_of_ne {n : News} (h : n.uuid ≠ target) (known : Option Vector3) :
    News.locate target known n = known := by
  cases n <;> exact if_neg h

/-- Who is placed is known. -/
lemma replica_locate_isSome (out : List (ℕ × News)) :
    (replica (News.locate target) none o out).isSome ↔
      target ∈ replica News.roster ∅ o out := by
  refine replica_rel (R := fun (known : Option Vector3) (roster : Finset ℤ) =>
    known.isSome ↔ target ∈ roster) (fun known roster n hR => ?_) (by simp) o out
  cases n with
  | gone uuid =>
      rw [News.locate, News.roster]
      by_cases huuid : uuid = target
      · simp [huuid]
      · simp [if_neg huuid, hR, Ne.symm huuid]
  | moved uuid motion =>
      rw [News.locate, News.roster]
      by_cases huuid : uuid = target
      · simp [huuid, hR]
      · simp [if_neg huuid, hR]
  | _ uuid =>
      rw [News.locate, News.roster]
      by_cases huuid : uuid = target
      · simp [huuid]
      · simp [if_neg huuid, hR, Ne.symm huuid]

/-- What is told about others. -/
lemma replica_locate_of_ne {out : List (ℕ × News)} (h : ∀ n, (o, n) ∈ out → n.uuid ≠ target) :
    replica (News.locate target) known o out = known :=
  replica_of_ignored fun n hn known => News.locate_of_ne (h n hn) known

/-- Who is told of everybody present places those whom it does not know. -/
lemma foldl_locate_present (position : ℕ → Vector3) (t : ℕ) :
    (users.map fun u : ℕ => News.present u (position u)).foldl (News.locate t) known =
      known.or (if t ∈ users then some (position t) else none) := by
  induction users generalizing known with
  | nil => simp
  | cons u users ih =>
      rw [List.map_cons, List.foldl_cons, ih, News.locate]
      by_cases hu : u = t
      · subst hu
        rw [if_pos rfl, if_pos List.mem_cons_self]
        cases known <;> rfl
      · rw [if_neg fun heq => hu (Int.ofNat_inj.mp heq)]
        simp [Ne.symm hu]

/-! ### Movements of one another -/

lemma iterate_vector3Addition (motion position : Vector3) (n : ℕ) :
    (fun position => vector3Addition position motion)^[n] position =
      ⟨position.x + n * motion.x, position.y + n * motion.y, position.z + n * motion.z⟩ := by
  induction n with
  | zero => simp
  | succ n ih =>
      rw [Function.iterate_succ_apply', ih, vector3Addition]
      push_cast
      simp only [add_mul, one_mul, add_assoc]

/-- A motion is added once, or is no motion. -/
lemma iterate_vector3Addition_eq_iff {motion position : Vector3} {n : ℕ} :
    (fun position => vector3Addition position motion)^[n] position =
      vector3Addition position motion ↔ (motion ≠ ⟨0, 0, 0⟩ → n = 1) := by
  obtain ⟨mx, my, mz⟩ := motion
  rw [iterate_vector3Addition, vector3Addition]
  simp only [Vector3.mk.injEq, add_right_inj, mul_left_eq_self₀, Nat.cast_eq_one, ne_eq]
  tauto

/-- A movement reaches a player as often as it is in the list. -/
lemma replica_locate_moved (i : ℕ) (motion : Vector3) :
    replica (News.locate i) known o (users.map fun u => (u, .moved i motion)) =
      known.map (fun position => vector3Addition position motion)^[users.count o] := by
  rw [replica_broadcast_iterate]
  generalize users.count o = n
  induction n with
  | zero => simp
  | succ n ih =>
      rw [Function.iterate_succ_apply', ih, News.locate, if_pos rfl, Option.map_map,
        Function.iterate_succ']

/-! ### Entering and leaving -/

variable {i : ℕ} {r : RoomIndex} {σ : Server}

/-- Who leaves is told to be gone. -/
lemma mem_leaveNews {n : News} (h : (o, n) ∈ leaveNews i σ) : n = .gone i := by
  rw [leaveNews] at h
  split at h
  · cases h
  · obtain ⟨u, -, heq⟩ := List.mem_map.mp h
    exact (Prod.mk.inj heq).2.symm

/-- Who enters a room without npcs places all who are there. -/
lemma replica_locate_enterNews_self {t : ℕ} (hnpcs : (σ.mRoomList r).mNpcList = []) (ht : t ≠ i) :
    replica (News.locate t) none i (enterNews i r σ) =
      if t ∈ (σ.mRoomList r).mUserList then some (σ.mUserObjPool t).position else none := by
  have hjoined : ∀ n, (i, n) ∈ (((σ.mRoomList r).mUserList ++ [i]).map fun u =>
      (u, News.joined i)) → n.uuid ≠ (t : ℤ) := fun n hn heq => by
    obtain ⟨u, -, hun⟩ := List.mem_map.mp hn
    rw [← (Prod.mk.inj hun).2] at heq
    exact ht (Int.ofNat_inj.mp heq).symm
  rw [enterNews, hnpcs, List.map_nil, List.append_nil, replica_append, replica_locate_of_ne hjoined,
    replica_map_self, foldl_locate_present, Option.none_or]
  simp only [List.mem_filter, decide_eq_true ht, and_true]

/-- Who is in the room puts who enters at the spawn position, unless it knows it. -/
lemma replica_locate_enterNews (hne : o ≠ i) :
    replica (News.locate i) known o (enterNews i r σ) =
      if o ∈ (σ.mRoomList r).mUserList then known.or (some Actor.initPosition) else known := by
  by_cases ho : o ∈ (σ.mRoomList r).mUserList
  · rw [if_pos ho, replica_enterNews_of_ne hne]
    refine (replica_broadcast_of_mem (List.mem_append_left _ ho) fun known => ?_).trans (if_pos rfl)
    cases known <;> simp [News.locate]
  · rw [if_neg ho, replica_enterNews_of_notMem hne ho]

/-- The others are placed as before. -/
lemma replica_locate_enterNews_of_ne {t : ℕ} (hne : o ≠ i) (ht : t ≠ i) :
    replica (News.locate t) known o (enterNews i r σ) = known := by
  rw [replica_enterNews_of_ne hne]
  refine replica_locate_of_ne fun n hn heq => ht ?_
  obtain ⟨u, -, hun⟩ := List.mem_map.mp hn
  rw [← (Prod.mk.inj hun).2] at heq
  exact (Int.ofNat_inj.mp heq).symm

end Locate

/-! ### Two members of a room -/

/-- Who enters a room with somebody in it stands at the position `Actor::Init` sets. -/
def World.EntersAtSpawn (w : World) (e : Event) : Prop :=
  ∀ i r, w.op e = some (.enter i r) → w.server.lobby.HasPlace r →
    (w.server.mRoomList r).mUserList ≠ [] → (w.server.mUserObjPool i).position = Actor.initPosition

namespace Lobby

/-- Nobody who is told that the user is gone is in another room with it. -/
def LeavesAltogether (L : Lobby) (i : ℕ) : Prop :=
  ∀ r r', (L.session i).room = some r → r' ≠ r → i ∈ L.members r' →
    ∀ o ∈ L.members r', o ≠ i → o ∈ L.members r → L.SameID i o

end Lobby

namespace World.Entered

variable (s : Entered)

/-- Where a player takes another one to be. -/
def located (o t : ℕ) : Option Vector3 :=
  Outbox.replica (News.locate t) none o (s.heard o)

/-- Two members of a room take each other to be where they are. -/
def ReplicasAgree : Prop :=
  ∀ r, ∀ o ∈ (s.1.server.mRoomList r).mUserList, ∀ t ∈ (s.1.server.mRoomList r).mUserList, o ≠ t →
    s.located o t = some (s.1.server.mUserObjPool t).position

/-- Everybody in the room who does not know the user yet finds it at the spawn position, and who
knows it has it where it is; and whoever shares a room with it then is in this one. -/
structure EntersInPlace (i : ℕ) (r : RoomIndex) : Prop where
  placed : ∀ o ∈ s.1.server.lobby.members r, o ≠ i →
    (s.located o i).getD Actor.initPosition = (s.1.server.mUserObjPool i).position
  met : ∀ r', i ∈ s.1.server.lobby.members r' → ∀ t ∈ s.1.server.lobby.members r', t ≠ i →
    t ∈ s.1.server.lobby.members r

/-- Everybody who shares a room with who moves is told of it once. -/
def MovesInSight (move : Move) : Prop :=
  move.motion ≠ ⟨0, 0, 0⟩ → ∀ r, move.user ∈ s.1.server.lobby.members r →
    ∀ o ∈ s.1.server.lobby.members r, o ≠ move.user →
      (s.1.server.lobby.members move.room).count o = 1

/-- Who enters a room does so in place, and who leaves one leaves altogether. -/
def OpKeepsReplicas : Lobby.Op → Prop
  | .enter i r => s.1.server.lobby.HasPlace r → s.EntersInPlace i r
  | .leave i => s.1.server.lobby.LeavesAltogether i
  | .disconnect i =>
    (s.1.server.lobby.session i).state = .room → s.1.server.lobby.LeavesAltogether i
  | _ => True

/-- The operation of the event keeps the replicas in agreement, and who moves does so in sight. -/
def KeepsReplicas (e : Event) : Prop :=
  (∀ op, s.1.op e = some op → s.OpKeepsReplicas op) ∧
    ∀ move, s.1.moves e = some move → s.MovesInSight move

/-- No room has an npc. -/
def WithoutNpcs : Prop := ∀ r, (s.1.server.mRoomList r).mNpcList = []

variable {s} {e : Event} {w' : World} {o t i : ℕ} {r : RoomIndex}

lemma withoutNpcs_next (hnpcs : s.WithoutNpcs) (hspawned : ∀ r, s.1.spawned e r = [])
    (h : s.1.step e = some w') : WithoutNpcs (w', s.next e w') := fun r => by
  show (w'.server.mRoomList r).mNpcList = []
  rw [(step_news h).2 r, hnpcs r, hspawned r]
  rfl

/-- Where who enters takes the others to be. -/
lemma located_of_enters (h : s.1.step e = some w') (henters : s.Enters e o) (t : ℕ) :
    located (w', s.next e w') o t = Outbox.replica (News.locate t) none o (s.1.news e) := by
  rw [located, heard_of_enters h henters]

/-- Where anybody else takes them to be. -/
lemma located_of_not_enters (hs : s.Marked) (h : s.1.step e = some w') (henters : ¬s.Enters e o)
    (t : ℕ) : located (w', s.next e w') o t =
      Outbox.replica (News.locate t) (s.located o t) o (s.1.news e) := by
  rw [located, heard_of_not_enters hs h henters, Outbox.replica_append]
  rfl

/-! ### One step -/

/-- A step without news of others, that leaves the rooms as they are and moves nobody. -/
lemma replicasAgree_of_quiet (hs : s.Marked) (hagree : s.ReplicasAgree) (h : s.1.step e = some w')
    (henters : ∀ o, ¬s.Enters e o) (hnews : s.1.news e = []) (hmoves : s.1.moves e = none)
    (hmembers : ∀ r, (w'.server.mRoomList r).mUserList = (s.1.server.mRoomList r).mUserList) :
    ReplicasAgree (w', s.next e w') := by
  intro r o ho t ht hne
  replace ho : o ∈ (w'.server.mRoomList r).mUserList := ho
  replace ht : t ∈ (w'.server.mRoomList r).mUserList := ht
  rw [hmembers] at ho ht
  rw [located_of_not_enters hs h (henters o), hnews, Outbox.replica_nil, hagree r o ho t ht hne]
  show _ = some (w'.server.mUserObjPool t).position
  rw [step_position h, hmoves]
  rfl

/-- A movement. -/
lemma replicasAgree_move_iff (hs : s.Marked) (hagree : s.ReplicasAgree) (h : s.1.step e = some w')
    {move : Move} (hmoves : s.1.moves e = some move) (hspawned : ∀ r, s.1.spawned e r = []) :
    ReplicasAgree (w', s.next e w') ↔ s.MovesInSight move := by
  have hop := op_of_moves hmoves
  have henters : ∀ o, ¬s.Enters e o := not_enters_of_op_none hop
  have hmembers : ∀ r, (w'.server.mRoomList r).mUserList = (s.1.server.mRoomList r).mUserList :=
    fun r => by
      rw [members_of_step h, hop]
      rfl
  have hposition : ∀ v, (w'.server.mUserObjPool v).position =
      move.position v (s.1.server.mUserObjPool v).position := fun v => by
    rw [step_position h, hmoves]
    rfl
  have hlocated : ∀ o, located (w', s.next e w') o move.user = (s.located o move.user).map
      (fun position => vector3Addition position move.motion)^[
        (s.1.server.mRoomList move.room).mUserList.count o] := fun o => by
    rw [located_of_not_enters hs h (henters o), news_eq_of_moves hop hspawned, hmoves]
    exact replica_locate_moved move.user move.motion
  constructor
  · intro h' hmotion r hmem o ho hne
    have hold := hagree r o ho move.user hmem hne
    have hnew := h' r o ((hmembers r).symm ▸ ho) move.user ((hmembers r).symm ▸ hmem) hne
    rw [hlocated, hold, Option.map_some, Option.some.injEq] at hnew
    exact iterate_vector3Addition_eq_iff.mp
      (hnew.trans ((hposition move.user).trans (if_pos rfl))) hmotion
  · intro hsight r o ho t ht hne
    replace ho : o ∈ (w'.server.mRoomList r).mUserList := ho
    replace ht : t ∈ (w'.server.mRoomList r).mUserList := ht
    rw [hmembers] at ho ht
    have hold := hagree r o ho t ht hne
    show _ = some (w'.server.mUserObjPool t).position
    rw [hposition, Move.position]
    by_cases htu : t = move.user
    · subst htu
      rw [hlocated, hold, if_pos rfl, Option.map_some, Option.some.injEq]
      exact iterate_vector3Addition_eq_iff.mpr fun hmotion => hsight hmotion r ht o ho hne
    · rw [if_neg htu, ← hold, located_of_not_enters hs h (henters o), news_eq_of_moves hop hspawned,
        hmoves]
      refine replica_locate_of_ne fun n hn heq => htu ?_
      obtain ⟨u, -, hun⟩ := List.mem_map.mp hn
      rw [← (Prod.mk.inj hun).2] at heq
      exact (Int.ofNat_inj.mp heq).symm

/-- A user leaves its room. -/
lemma replicasAgree_leave_iff (hs : s.Marked) (hagree : s.ReplicasAgree) (h : s.1.step e = some w')
    (henters : ∀ o, ¬s.Enters e o) (hmoves : s.1.moves e = none)
    (hnews : s.1.news e = leaveNews i s.1.server)
    (hmembers : ∀ r, (w'.server.mRoomList r).mUserList =
      (s.1.server.lobby.leaveRoom i).members r) :
    ReplicasAgree (w', s.next e w') ↔ s.1.server.lobby.LeavesAltogether i := by
  have hposition : ∀ v, (w'.server.mUserObjPool v).position =
      (s.1.server.mUserObjPool v).position := fun v => by
    rw [step_position h, hmoves]
    rfl
  have hother : ∀ {r r'}, (s.1.server.lobby.session i).room = some r → r' ≠ r →
      (w'.server.mRoomList r').mUserList = s.1.server.lobby.members r' := fun hroom hr => by
    rw [hmembers, Lobby.leaveRoom_of_some hroom, Lobby.removeFrom_members, Function.update_of_ne hr]
  have hleft : ∀ {r}, (s.1.server.lobby.session i).room = some r →
      (w'.server.mRoomList r).mUserList =
        (s.1.server.lobby.members r).filter fun v => !s.1.server.lobby.SameID i v := fun hroom => by
    rw [hmembers, Lobby.leaveRoom_of_some hroom, Lobby.removeFrom_members, Function.update_self]
  constructor
  · intro h' r r' hroom hr hi o ho hne hor
    by_contra hid
    have hstays : o ∈ (s.1.server.lobby.members r).filter fun v => !s.1.server.lobby.SameID i v :=
      List.mem_filter.mpr ⟨hor, by simpa using hid⟩
    have hnew := h' r' o ((hother hroom hr).symm ▸ ho) i ((hother hroom hr).symm ▸ hi) hne
    rw [located_of_not_enters hs h (henters o), hnews, leaveNews, hroom] at hnew
    have hgone : Outbox.replica (News.locate i) (s.located o i) o
        (((s.1.server.lobby.members r).filter fun v => !s.1.server.lobby.SameID i v).map
          fun u => (u, .gone i)) = none :=
      (Outbox.replica_broadcast_of_mem hstays fun known => by simp [News.locate]).trans (if_pos rfl)
    rw [hgone] at hnew
    cases hnew
  · intro haltogether r' o ho t ht hne
    replace ho : o ∈ (w'.server.mRoomList r').mUserList := ho
    replace ht : t ∈ (w'.server.mRoomList r').mUserList := ht
    have hsub : ∀ u ∈ (w'.server.mRoomList r').mUserList, u ∈ s.1.server.lobby.members r' := by
      intro u hu
      cases hroom : (s.1.server.lobby.session i).room with
      | none => rwa [hmembers, Lobby.leaveRoom_of_none hroom] at hu
      | some r =>
          by_cases hr : r' = r
          · subst hr
            rw [hleft hroom] at hu
            exact (List.mem_filter.mp hu).1
          · rwa [hother hroom hr] at hu
    show _ = some (w'.server.mUserObjPool t).position
    rw [hposition, located_of_not_enters hs h (henters o), hnews,
      ← hagree r' o (hsub o ho) t (hsub t ht) hne]
    by_cases hti : t = i
    · subst hti
      rw [leaveNews]
      cases hroom : (s.1.server.lobby.session t).room with
      | none => rfl
      | some r =>
          have hr : r' ≠ r := fun heq => by
            rw [heq, hleft hroom] at ht
            simpa [Lobby.SameID] using (List.mem_filter.mp ht).2
          refine Outbox.replica_broadcast_of_notMem (fun hmem => ?_) _
          obtain ⟨hor, hstay⟩ := List.mem_filter.mp hmem
          have hid := haltogether r r' hroom hr (hsub t ht) o (hsub o ho) hne hor
          simp [hid] at hstay
    · refine replica_locate_of_ne fun n hn heq => hti ?_
      rw [mem_leaveNews hn] at heq
      exact (Int.ofNat_inj.mp heq).symm

/-- A user enters a room that has a place for it. -/
lemma replicasAgree_enter_iff (hs : s.Marked) (hnpcs : s.WithoutNpcs) (hagree : s.ReplicasAgree)
    (h : s.1.step e = some w') (hop : s.1.op e = some (.enter i r))
    (hplace : s.1.server.lobby.HasPlace r) :
    ReplicasAgree (w', s.next e w') ↔ s.EntersInPlace i r := by
  have hmoves := moves_of_op hop
  have hnews : s.1.news e = enterNews i r s.1.server := by
    rw [news_of_op hop, opNews, if_pos hplace]
  have hnot : ∀ o, o ≠ i → ¬s.Enters e o := fun o hne henters =>
    hne ((enters_iff hop).mp henters).1
  have hposition : ∀ v, (w'.server.mUserObjPool v).position =
      (s.1.server.mUserObjPool v).position := fun v => by
    rw [step_position h, hmoves]
    rfl
  have hmem : ∀ u r', u ∈ (w'.server.mRoomList r').mUserList ↔
      u ∈ s.1.server.lobby.members r' ∨ r' = r ∧ u = i := fun u r' => by
    rw [members_of_step h, hop, Lobby.applyOption, Lobby.apply, if_pos hplace, Lobby.addTo_members]
    by_cases hr : r' = r
    · subst hr
      simp
    · simp [hr]
  constructor
  · intro h'
    refine ⟨fun o ho hne => ?_, fun r' hi t ht hne => ?_⟩
    · replace ho : o ∈ (s.1.server.mRoomList r).mUserList := ho
      have hnew := h' r o ((hmem o r).mpr (.inl ho)) i ((hmem i r).mpr (.inr ⟨rfl, rfl⟩)) hne
      rw [located_of_not_enters hs h (hnot o hne), hnews, replica_locate_enterNews hne, if_pos ho]
        at hnew
      replace hnew : _ = some (w'.server.mUserObjPool i).position := hnew
      rw [hposition] at hnew
      cases hknown : s.located o i <;> rw [hknown] at hnew <;> exact Option.some.inj hnew
    · by_contra hout
      replace hout : t ∉ (s.1.server.mRoomList r).mUserList := hout
      have hnew := h' r' i ((hmem i r').mpr (.inl hi)) t ((hmem t r').mpr (.inl ht)) (Ne.symm hne)
      rw [located_of_enters h ⟨r, hop, hplace⟩, hnews, replica_locate_enterNews_self (hnpcs r) hne,
        if_neg hout] at hnew
      cases hnew
  · rintro ⟨hplaced, hmet⟩ r' o ho t ht hne
    replace ho := (hmem o r').mp ho
    replace ht := (hmem t r').mp ht
    show _ = some (w'.server.mUserObjPool t).position
    rw [hposition]
    by_cases hoi : o = i
    · subst hoi
      have ht' := ht.resolve_right fun hlast => hne hlast.2.symm
      have hpresent : t ∈ (s.1.server.mRoomList r).mUserList := by
        rcases ho with ho | ⟨rfl, -⟩
        · exact hmet r' ho t ht' (Ne.symm hne)
        · exact ht'
      rw [located_of_enters h ⟨r, hop, hplace⟩, hnews,
        replica_locate_enterNews_self (hnpcs r) (Ne.symm hne), if_pos hpresent]
    · have ho' := ho.resolve_right fun hlast => hoi hlast.2
      rw [located_of_not_enters hs h (hnot o hoi), hnews]
      by_cases hti : t = i
      · subst hti
        rw [replica_locate_enterNews hoi]
        by_cases hor : o ∈ (s.1.server.mRoomList r).mUserList
        · rw [if_pos hor, ← hplaced o hor hoi]
          cases s.located o t <;> rfl
        · rw [if_neg hor]
          refine hagree r' o ho' t (ht.resolve_right fun hlast => hor ?_) hne
          exact hlast.1 ▸ ho'
      · rw [replica_locate_enterNews_of_ne hoi hti]
        exact hagree r' o ho' t (ht.resolve_right fun hlast => hti hlast.2) hne

/-- An operation keeps the replicas in agreement exactly under its condition. -/
lemma replicasAgree_op_iff (hs : s.Marked) (hrooms : s.1.server.lobby.WellRoomed)
    (hnpcs : s.WithoutNpcs) (hagree : s.ReplicasAgree) (h : s.1.step e = some w') {op : Lobby.Op}
    (hop : s.1.op e = some op) : ReplicasAgree (w', s.next e w') ↔ s.OpKeepsReplicas op := by
  have hmoves := moves_of_op hop
  have hmembers : ∀ r, (w'.server.mRoomList r).mUserList = (s.1.server.lobby.apply op).members r :=
    fun r => by
      rw [members_of_step h, hop]
      rfl
  have hquiet : (∀ u, ¬s.Enters e u) → s.1.opNews op = [] →
      (s.1.server.lobby.apply op).members = s.1.server.lobby.members →
      ReplicasAgree (w', s.next e w') := fun henters hnews hsame =>
    replicasAgree_of_quiet hs hagree h henters ((news_of_op hop).trans hnews) hmoves fun r => by
      rw [hmembers, hsame]
      rfl
  cases op with
  | connect u => exact iff_of_true (hquiet (not_enters_of_op hop (by simp)) rfl rfl) trivial
  | login u userID => exact iff_of_true (hquiet (not_enters_of_op hop (by simp)) rfl rfl) trivial
  | enter u r =>
      rw [OpKeepsReplicas]
      by_cases hplace : s.1.server.lobby.HasPlace r
      · exact (replicasAgree_enter_iff hs hnpcs hagree h hop hplace).trans
          ⟨fun hkeeps _ => hkeeps, fun hkeeps => hkeeps hplace⟩
      · exact iff_of_true (hquiet (fun v henters => hplace ((enters_iff hop).mp henters).2)
          (if_neg hplace) (by rw [Lobby.apply, if_neg hplace])) fun hplace' => absurd hplace' hplace
  | leave u =>
      exact replicasAgree_leave_iff hs hagree h (not_enters_of_op hop (by simp)) hmoves
        (news_of_op hop) hmembers
  | disconnect u =>
      rw [OpKeepsReplicas]
      by_cases hstate : (s.1.server.lobby.session u).state = .room
      · obtain ⟨r, hroom⟩ := Option.isSome_iff_exists.mp ((hrooms u).2 hstate)
        refine (replicasAgree_leave_iff hs hagree h (not_enters_of_op hop (by simp)) hmoves
          ((news_of_op hop).trans (if_pos hstate)) fun r' => ?_).trans
            ⟨fun hkeeps _ => hkeeps, fun hkeeps => hkeeps hstate⟩
        rw [hmembers, Lobby.apply_disconnect_of_room hstate hroom, Lobby.setSession_members,
          Lobby.leaveRoom_of_some hroom]
      · refine iff_of_true (hquiet (not_enters_of_op hop (by simp)) (if_neg hstate) ?_) fun hroom =>
          absurd hroom hstate
        cases hnone : (s.1.server.lobby.session u).state with
        | none => rw [Lobby.apply_disconnect_of_none hnone]
        | login => rw [Lobby.apply_disconnect_of_login hnone, Lobby.setSession_members]
        | room => exact absurd hnone hstate

/-- **One step** keeps the replicas in agreement exactly under its condition. -/
lemma replicasAgree_step_iff (hs : s.Marked) (hrooms : s.1.server.lobby.WellRoomed)
    (hnpcs : s.WithoutNpcs) (hagree : s.ReplicasAgree) (hspawned : ∀ r, s.1.spawned e r = []) :
    (∀ w', s.1.step e = some w' → ReplicasAgree (w', s.next e w')) ↔ s.KeepsReplicas e := by
  cases hop : s.1.op e with
  | some op =>
      obtain ⟨w', h⟩ := exists_step_of_op hop
      constructor
      · intro hall
        refine ⟨fun op' hop' => ?_, fun move hmove => ?_⟩
        · obtain rfl := Option.some.inj (hop.symm.trans hop')
          exact (replicasAgree_op_iff hs hrooms hnpcs hagree h hop).mp (hall w' h)
        · cases (moves_of_op hop).symm.trans hmove
      · intro hkeeps w'' h''
        exact (replicasAgree_op_iff hs hrooms hnpcs hagree h'' hop).mpr (hkeeps.1 op hop)
  | none =>
      have hnone : ∀ op, s.1.op e ≠ some op := fun op hop' => by cases hop.symm.trans hop'
      cases hmoves : s.1.moves e with
      | some move =>
          obtain ⟨w', h⟩ := exists_step_of_moves hmoves
          constructor
          · intro hall
            refine ⟨fun op' hop' => absurd hop' (hnone op'), fun move' hmove => ?_⟩
            obtain rfl := Option.some.inj (hmoves.symm.trans hmove)
            exact (replicasAgree_move_iff hs hagree h hmoves hspawned).mp (hall w' h)
          · intro hkeeps w'' h''
            exact (replicasAgree_move_iff hs hagree h'' hmoves hspawned).mpr (hkeeps.2 move hmoves)
      | none =>
          refine iff_of_true (fun w' h => replicasAgree_of_quiet hs hagree h
            (not_enters_of_op_none hop) ?_ hmoves fun r => ?_)
            ⟨fun op' hop' => absurd hop' (hnone op'), fun move hmove => by
              cases hmoves.symm.trans hmove⟩
          · rw [news_eq_of_moves hop hspawned, hmoves]
            rfl
          · rw [members_of_step h, hop]
            rfl

/-! ### Users from outside rooms -/

/-- Who knows its room knows nothing of those outside it. -/
lemma located_eq_none (hviews : s.ViewsAgree) (hnpcs : s.WithoutNpcs)
    (ho : o ∈ s.1.server.lobby.members r) (ht : t ∉ s.1.server.lobby.members r) :
    s.located o t = none := by
  refine Option.not_isSome_iff_eq_none.mp fun hsome => ?_
  have hview : (t : ℤ) ∈ s.view o := replica_locate_isSome (s.heard o) |>.mp hsome
  rw [hviews r o ho, hnpcs r, mem_occupants] at hview
  rcases hview with ⟨u, hu, heq⟩ | ⟨npc, hnpc, -⟩
  · exact ht (Int.ofNat_inj.mp heq ▸ hu)
  · cases hnpc

/-- Where users come from outside rooms, the replicas depend on where those stand who enter. -/
lemma keepsReplicas_iff_of_outside (hcoherent : s.1.server.lobby.Coherent) (hviews : s.ViewsAgree)
    (hnpcs : s.WithoutNpcs) (hfrom : s.1.FromOutside e) :
    s.KeepsReplicas e ↔ s.1.EntersAtSpawn e := by
  have hroom : ∀ {u r r'}, (s.1.server.lobby.session u).room = some r →
      u ∈ s.1.server.lobby.members r' → r' = r := fun hr hu =>
    Option.some.inj ((hcoherent.mem_iff.mp hu).2.symm.trans hr)
  have hleaves : ∀ u, s.1.server.lobby.LeavesAltogether u := fun u r r' hr hne hu =>
    absurd (hroom hr hu) hne
  have hout : ∀ {u r}, s.1.op e = some (.enter u r) → s.1.server.lobby.HasPlace r →
      ∀ r', u ∉ s.1.server.lobby.members r' := fun hop hplace r' hu =>
    hfrom _ hop hplace (hcoherent.mem_iff.mp hu).1
  constructor
  · intro hkeeps u r hop hplace hne
    obtain ⟨o, ho⟩ := List.exists_mem_of_ne_nil _ hne
    have hu := hout hop hplace r
    have hplaced := (hkeeps.1 _ hop hplace).placed o ho fun heq => hu (heq ▸ ho)
    rw [located_eq_none hviews hnpcs ho hu] at hplaced
    exact hplaced.symm
  · intro hspawn
    refine ⟨fun op hop => ?_, fun move hmove _ r hr o ho _ => ?_⟩
    · cases op with
      | connect u => trivial
      | login u userID => trivial
      | leave u => exact hleaves u
      | disconnect u => exact fun _ => hleaves u
      | enter u r =>
          refine fun hplace => ⟨fun o ho _ => ?_, fun r' hu => absurd hu (hout hop hplace r')⟩
          rw [located_eq_none hviews hnpcs ho (hout hop hplace r)]
          exact (hspawn u r hop hplace (List.ne_nil_of_mem ho)).symm
    · obtain rfl := hroom (room_of_moves hmove) hr
      exact hcoherent.count_eq_one ho

/-! ### Runs -/

variable (s) in
/-- The event makes no npc. -/
def MakesNoNpc (e : Event) : Prop := ∀ r, s.1.spawned e r = []

instance (s : Entered) (e : Event) : Decidable (s.MakesNoNpc e) :=
  inferInstanceAs (Decidable (∀ r, s.1.spawned e r = []))

variable (s) in
/-- What every step keeps that makes no npc. -/
structure Tracked : Prop where
  marked : s.Marked
  wellRoomed : s.1.server.lobby.WellRoomed
  withoutNpcs : s.WithoutNpcs

lemma Tracked.next (hs : s.Tracked) (hspawned : s.MakesNoNpc e) (h : s.1.step e = some w') :
    Tracked (w', s.next e w') where
  marked := marked_next hs.marked h
  wellRoomed := (congrArg Lobby.WellRoomed (step_lobby h)).mpr (hs.wellRoomed.applyOption _)
  withoutNpcs := withoutNpcs_next hs.withoutNpcs hspawned h

lemma tracked_init (maxClient : ℕ) (memory : ℕ → View) (store : Store) :
    (init maxClient memory store).Tracked :=
  ⟨fun _ => Nat.zero_le _, Lobby.wellRoomed_empty, fun _ => rfl⟩

lemma coherent_next (hrooms : s.1.server.lobby.WellRoomed) (hcoherent : s.1.server.lobby.Coherent)
    (hfrom : s.1.FromOutside e) (h : s.1.step e = some w') : w'.server.lobby.Coherent := by
  rw [step_lobby h]
  cases hop : s.1.op e with
  | none => exact hcoherent
  | some op => exact (Lobby.coherent_apply_iff hrooms hcoherent op).mpr (hfrom op hop)

/-- **Replicas of positions.** In a run without npcs two members of a room take each other to be
where they are, all along, exactly if every step keeps that. In such a run of users who enter only
from outside rooms, and leave only rooms in which nobody else has their id, exactly if who enters a
room with somebody in it stands at the position `Actor::Init` sets. -/
theorem replicasAgree_iff (maxClient : ℕ) (memory : ℕ → View) (store : Store) (es : List Event)
    (hspawned : Runs.Along step MakesNoNpc (init maxClient memory store) es) :
    (Runs.Always step ReplicasAgree (init maxClient memory store) es ↔
      Runs.Along step KeepsReplicas (init maxClient memory store) es) ∧
    (Runs.Along step (fun s e => s.1.FromOutside e) (init maxClient memory store) es →
      (Runs.Always step ReplicasAgree (init maxClient memory store) es ↔
        Runs.Along step (fun s e => s.1.EntersAtSpawn e) (init maxClient memory store) es)) := by
  have hinit := tracked_init maxClient memory store
  have hkeeps : Runs.Always step ReplicasAgree (init maxClient memory store) es ↔
      Runs.Along step KeepsReplicas (init maxClient memory store) es := by
    refine Runs.always_iff_along_of_along (I := Tracked) (fun s e s' hs hspawned h => ?_)
      (fun s e hs hspawned hagree => ?_) hinit (fun _ _ ho => by cases ho) hspawned
    · obtain ⟨w', hw', rfl⟩ := Option.map_eq_some_iff.mp h
      exact hs.next hspawned hw'
    · exact (Runs.forall_withHistory World.step next).trans
        (replicasAgree_step_iff hs.marked hs.wellRoomed hs.withoutNpcs hagree hspawned)
  refine ⟨hkeeps, fun hfrom => hkeeps.trans ?_⟩
  refine Runs.along_iff_along_of_along (P := fun s => s.Tracked ∧ s.1.server.lobby.Coherent ∧
    s.ViewsAgree) (fun s e hs hD => ?_) (fun s e s' hs hD _ h => ?_)
    ⟨hinit, Lobby.coherent_empty, fun _ _ ho => by cases ho⟩ (hspawned.and hfrom)
  · exact keepsReplicas_iff_of_outside hs.2.1 hs.2.2 hs.1.withoutNpcs hD.2
  · obtain ⟨w', hw', rfl⟩ := Option.map_eq_some_iff.mp h
    refine ⟨hs.1.next hD.1 hw', coherent_next hs.1.wellRoomed hs.2.1 hD.2 hw', ?_⟩
    refine hs.2.2.next hs.1.marked hs.1.wellRoomed hs.2.1 hD.2 (fun i r _ npc hnpc => ?_) hw'
    rw [hs.1.withoutNpcs r] at hnpc
    cases hnpc

/-- A movement of one unit forward. -/
def playerMovementPacket (userUUID : ℕ) : Bytes :=
  packetBytes PacketId.playerMovement.code
    (bytesLE userUUID 8 ++ bytesLE 0 4 ++ bytesLE 0x3F800000 4 ++ bytesLE 0 12 ++
      bytesLE 0x3F800000 4)

/-- `a` and `c` enter room 0, and `c` moves. -/
def moveTogether : List Event :=
  enterFirstRoom ++ [.connect 1, .systemPacket {}] ++ Event.login 1 [99] [98] ++
    Event.request 1 (roomEnterRequestPacket 0) ++ Event.request 1 (playerMovementPacket 1)

/-- `c` leaves the room and enters it again. -/
def enterAgain : List Event :=
  moveTogether ++ (Event.request 1 roomLeaveRequestPacket ++
    Event.request 1 (roomEnterRequestPacket 0))

/-- The run makes no npc. At its end `a` takes `c` to be at the spawn position, which `c` has left. -/
lemma enterAgain_spec :
    Runs.Along step MakesNoNpc (init 3 (fun _ _ => 0) twoUsers) enterAgain ∧
      (Runs.run step (init 3 (fun _ _ => 0) twoUsers) enterAgain).map
        (fun s => ((s.1.server.mRoomList 0).mUserList, (s.located 0 1).map Vector3.z,
          (s.1.server.mUserObjPool 1).position.z)) =
        some ([0, 1], some 5, 5 + 66666 / 100000) := by
  decide +kernel

lemma makesNoNpc_enterAgain :
    Runs.Along step MakesNoNpc (init 3 (fun _ _ => 0) twoUsers) enterAgain :=
  enterAgain_spec.1

/-- The run in which `c` has moved and not yet left. -/
theorem replicasAgree_iff_moveTogether :
    let start := init 3 (fun _ _ => 0) twoUsers
    (Runs.Always step ReplicasAgree start moveTogether ↔
      Runs.Along step KeepsReplicas start moveTogether) ∧
    (Runs.Along step (fun s e => s.1.FromOutside e) start moveTogether →
      (Runs.Always step ReplicasAgree start moveTogether ↔
        Runs.Along step (fun s e => s.1.EntersAtSpawn e) start moveTogether)) :=
  replicasAgree_iff 3 (fun _ _ => 0) twoUsers moveTogether
    makesNoNpc_enterAgain.of_append

/-- After `c` has entered again, `a` takes it to be at the spawn position. -/
theorem misplaced_after_reentry :
    ¬∀ (maxClient : ℕ) (memory : ℕ → View) (store : Store) (es : List Event),
      Runs.Along step MakesNoNpc (init maxClient memory store) es →
        Runs.Always step ReplicasAgree (init maxClient memory store) es := by
  intro h
  obtain ⟨s, hs, hmap⟩ := Option.map_eq_some_iff.mp enterAgain_spec.2
  simp only [Prod.mk.injEq] at hmap
  obtain ⟨hlist, hlocated, hposition⟩ := hmap
  have hagree := (h 3 (fun _ _ => 0) twoUsers enterAgain
    makesNoNpc_enterAgain).of_run hs 0 0 (by simp [hlist]) 1 (by simp [hlist]) (by decide)
  rw [hagree, Option.map_some, hposition] at hlocated
  exact absurd (Option.some.inj hlocated) (by norm_num)

end World.Entered

end CKGameServer
