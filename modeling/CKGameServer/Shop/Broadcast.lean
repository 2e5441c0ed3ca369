import CKGameServer.Chat.Commands
import CKGameServer.Library.Outbox
import CKGameServer.Lobby.Refinement
import CKGameServer.Packets.Senders
import CKGameServer.Trade.Failures
import CKGameServer.Shop.Schedule

/-!
What the players know of the shop (`ProcessShopUpdateDBResult`, `ProcessEnterRoom`).

A `SHOP_INFO` is sent to the members of all rooms when the response of an update is processed, and
at no other time: not at a login and not when a room is entered.

* `Shown`: the server with, for each slot, the number of packets sent when its session began.
* `Shown.Told`: a player has been sent a `SHOP_INFO` in its session, and the last of them carries
  what is stored.
* `Shown.ShopSeen`: where no update of the shop waits, every player in a room has been told.
* `Audience`: beside it what has been broadcast while a player was in the list of a room.
* `Audience.shopSeen_iff`: the players see the shop throughout a run exactly if whoever enters a
  room was in one when what is stored was broadcast, or an update waits that tells it, and so on for
  the other steps that matter.
* `Audience.entered_after_update`: a player that enters after the update is told nothing.
-/

namespace CKGameServer

open Memory PacketManager

/-! ### What a player is shown -/

/-- The item and the deadline a player knows of, after one more packet. -/
def ServerPacket.shownShop (shown : Option (Int32 × ℤ)) : ServerPacket → Option (Int32 × ℤ)
  | shopInfo currentItemID nextUpdateTime => some (currentItemID, nextUpdateTime)
  | _ => shown

/-- What `game:shop_state` stores, in the types of a `SHOP_INFO`. -/
def shopOnOffer (db : Store) : Option (Int32 × ℤ) :=
  (storedOffer db).map fun p => (p.1, (p.2 : ℤ))

/-- What the response of an update carries. -/
def carriedOffer (pPacket : View) : Int32 × ℤ := (int32At pPacket 0, int64At pPacket 4)

/-- An update of the shop waits, or the response of one. -/
def Server.ShopPending (σ : Server) : Prop :=
  (∃ task ∈ σ.mRequestTask, task.taskID = .requestShopUpdate) ∨
    ∃ task ∈ σ.mResponseTask, task.taskID = .responseShopUpdate

instance (σ : Server) : Decidable σ.ShopPending := inferInstanceAs (Decidable (_ ∨ _))

/-- The user stands in the list of a room. -/
def Lobby.Listed (L : Lobby) (u : ℕ) : Prop := ∃ r, u ∈ L.members r

instance (L : Lobby) (u : ℕ) : Decidable (L.Listed u) :=
  inferInstanceAs (Decidable (∃ r : Fin mMaxRoomCount, u ∈ L.members r))

/-- The task is an update that leaves the shop as it is: a tick before the deadline, or a command
value below that of a tick. -/
def LeavesShop (env : RedisEnv) (db : Store) (task : RedisTask) : Prop :=
  task.taskID = .requestShopUpdate ∧ ∃ storedNextTime currentItemID,
    readNextTime (env.replies 0) db = .ok storedNextTime ∧
      readCurrentItem (env.replies 1) db = .ok currentItemID ∧
        shopUpdate env (commandValue task) storedNextTime currentItemID = none

/-! ### The update and its response -/

section Update

variable {env : RedisEnv} {db : Store} {task : RedisTask} {out : RedisOutcome}

/-- An update leaves the shop and answers nothing, or it answers. -/
lemma taskProcess_shopUpdate (hid : task.taskID = .requestShopUpdate)
    (h : taskProcess env db task = .ok out) :
    LeavesShop env db task ∧ out = { store := db } ∨
      ∃ response ∈ out.responses, response.taskID = .responseShopUpdate := by
  rw [taskProcess, hid] at h
  simp only at h
  rw [requestShopUpdate_eq] at h
  obtain ⟨storedNextTime, htime, hmap⟩ := exists_of_bind_eq_ok h
  obtain ⟨currentItemID, hitem, rfl⟩ := exists_of_map_eq_ok hmap
  rw [updateShop]
  cases hupdate : shopUpdate env (commandValue task) storedNextTime currentItemID with
  | none => exact .inl ⟨⟨hid, _, _, htime, hitem, hupdate⟩, rfl⟩
  | some p => exact .inr ⟨_, List.mem_singleton.mpr rfl, rfl⟩

/-- An update that leaves the shop comes to its end. -/
lemma LeavesShop.taskProcess (h : LeavesShop env db task) :
    taskProcess env db task = .ok { store := db } := by
  obtain ⟨hid, storedNextTime, currentItemID, htime, hitem, hupdate⟩ := h
  rw [CKGameServer.taskProcess, hid]
  simp only
  rw [requestShopUpdate_eq, htime, hitem]
  simp only [Except.bind, Except.map, updateShop, hupdate]

/-- Where Redis answers both `HSET` commands of an update, its response carries what is stored. -/
theorem carriedOffer_shopUpdateResponse {itemID : Int32} {next : UInt64}
    (h : ∀ s, db (cstr shopStateKey) ≠ some (.str s)) (h2 : env.replies 2 = true)
    (h3 : env.replies 3 = true) (hpos : 0 < next.toNat) (hlt : next.toNat < 2 ^ 63) :
    shopOnOffer (shopStore env db itemID next) =
      some (carriedOffer (shopUpdateResponse env itemID next).pData) := by
  obtain ⟨hitem, hnext⟩ := shopUpdateResponse_reads env itemID hlt
  rw [shopOnOffer, storedOffer_eq (storesOffer_shopStore h h2 h3 hpos), carriedOffer, hitem, hnext]
  rfl

/-- Any other task leaves what the shop offers. -/
lemma shopOnOffer_of_ne (hid : task.taskID ≠ .requestShopUpdate)
    (h : taskProcess env db task = .ok out) : shopOnOffer out.store = shopOnOffer db := by
  obtain ⟨hkept, -⟩ : ShopKept env db task := shopKept_of_ne hid
  rw [storeAfter_of_ok h] at hkept
  simp only [shopOnOffer, storedOffer, Store.hget, hkept]

end Update

/-! ### Lists of rooms -/

namespace Lobby

variable {L : Lobby} {u : ℕ}

/-- A user gets into the list of a room by entering it. -/
lemma listed_of_applyOption {op : Option Op} (h : (L.applyOption op).Listed u) :
    L.Listed u ∨ ∃ r, op = some (.enter u r) ∧ L.HasPlace r := by
  by_contra hnot
  obtain ⟨hout, hstays⟩ := not_or.mp hnot
  cases op with
  | none => exact hout h
  | some op =>
      obtain ⟨r, hr⟩ := h
      have hle := count_apply_le (fun r hop hplace => hstays ⟨r, congrArg some hop, hplace⟩) r
      exact hout ⟨r, List.count_pos_iff.mp ((List.count_pos_iff.mpr hr).trans_le hle)⟩

/-- After it has entered a room a user stands in its list. -/
lemma listed_enter {r : RoomIndex} (h : L.HasPlace r) : (L.apply (.enter u r)).Listed u := by
  refine ⟨r, ?_⟩
  rw [apply, if_pos h, addTo_members, Function.update_self]
  exact List.mem_append_right _ (List.mem_singleton.mpr rfl)

end Lobby

/-! ### What a step sends, and what waits after it -/

namespace World

/-- The server without the response or the task that an event takes. -/
def rest (w : World) : Event → Server
  | .response _ => w.server.takeResponseTask.2
  | .redisTask _ => w.server.takeRequestTask.2
  | _ => w.server

variable {w w' : World} {e : Event}

/-- What waited besides what the event takes still waits after it; a handler adds tasks of its own
and no response. -/
lemma exists_queues_of_step (h : w.step e = some w') :
    ∃ requests responses, w'.server.mRequestTask = (w.rest e).mRequestTask ++ requests ∧
      w'.server.mResponseTask = (w.rest e).mResponseTask ++ responses ∧
      ∀ handler p, w.call e = some (handler, p) →
        responses = [] ∧ ∀ task ∈ requests, handler ∈ task.taskID.pushers := by
  have hdispatch : ∀ {env : Env} {p : Option RecvPacket} {σ : Server}, w.packet e = p →
      σ.mRequestTask = (w.rest e).mRequestTask → σ.mResponseTask = (w.rest e).mResponseTask →
      Server.dispatch env (p, σ) = .ok w'.server →
      ∃ requests responses, w'.server.mRequestTask = (w.rest e).mRequestTask ++ requests ∧
        w'.server.mResponseTask = (w.rest e).mResponseTask ++ responses ∧
        ∀ handler p, w.call e = some (handler, p) →
          responses = [] ∧ ∀ task ∈ requests, handler ∈ task.taskID.pushers := by
    intro env p σ hp hrequests hresponses hd
    rcases Server.dispatch_cases hd with ⟨hnone, hτ⟩ | ⟨handler, q, hsome, hrun⟩
    · refine ⟨[], [], by rw [hτ, hrequests, List.append_nil],
        by rw [hτ, hresponses, List.append_nil], fun handler p' hcall => ?_⟩
      rw [call, hp] at hcall
      cases hnone.symm.trans hcall
    · obtain ⟨-, tasks, htasks, hown⟩ := Handler.run_issues hrun
      obtain ⟨_, hpushes, -⟩ := Handler.run_pushes hrun
      refine ⟨tasks, [], by rw [htasks, hrequests],
        by rw [hpushes.mResponseTask, hresponses, List.append_nil], fun handler' p' hcall => ?_⟩
      rw [call, hp] at hcall
      obtain ⟨rfl, -⟩ := Prod.mk.inj (Option.some.inj (hsome.symm.trans hcall))
      exact ⟨rfl, hown⟩
  cases e with
  | receive i pData =>
      obtain ⟨recv, -, rfl⟩ := World.exists_receive h
      exact ⟨[], [], (List.append_nil _).symm, (List.append_nil _).symm,
        fun _ _ hcall => by cases hcall⟩
  | connect i =>
      obtain rfl := Option.some.inj h
      exact ⟨[], [], (List.append_nil _).symm, (List.append_nil _).symm,
        fun _ _ hcall => by cases hcall⟩
  | close i =>
      obtain rfl := Option.some.inj h
      exact ⟨[], [], (List.append_nil _).symm, (List.append_nil _).symm,
        fun _ _ hcall => by cases hcall⟩
  | clientPacket env =>
      obtain ⟨hrequests, hresponses, -⟩ := w.server.queues_dequePacketData
      exact hdispatch rfl hrequests hresponses (exists_dispatch h)
  | systemPacket env =>
      obtain ⟨hrequests, hresponses, -⟩ := w.server.queues_systemPacket
      exact hdispatch rfl hrequests hresponses (exists_dispatch h)
  | response env => exact hdispatch rfl rfl rfl (exists_dispatch h)
  | tick env =>
      obtain rfl := Option.some.inj h
      exact ⟨_, [], rfl, (List.append_nil _).symm, fun _ _ hcall => by cases hcall⟩
  | redisTask env =>
      obtain ⟨out, -, rfl⟩ := exists_taskProcess h
      exact ⟨out.requests, out.responses, rfl, rfl, fun _ _ hcall => by cases hcall⟩
  | subscribe env message =>
      obtain rfl := Option.some.inj h
      exact ⟨[], _, (List.append_nil _).symm, rfl, fun _ _ hcall => by cases hcall⟩

/-- Where nothing of the shop waits after a step, nothing else waited than the step took. -/
lemma not_shopPending_rest (h : w.step e = some w') (hnone : ¬w'.server.ShopPending) :
    ¬(w.rest e).ShopPending := by
  obtain ⟨requests, responses, hrequests, hresponses, -⟩ := exists_queues_of_step h
  rintro (⟨task, htask, hid⟩ | ⟨task, htask, hid⟩)
  · exact hnone (.inl ⟨task, hrequests ▸ List.mem_append_left _ htask, hid⟩)
  · exact hnone (.inr ⟨task, hresponses ▸ List.mem_append_left _ htask, hid⟩)

/-- A handler other than that of chat messages pushes no update of the shop. -/
lemma not_shopPending_of_call (h : w.step e = some w') {handler : Handler} {p : RecvPacket}
    (hcall : w.call e = some (handler, p)) (hchat : handler ≠ .processRoomChatMessage)
    (hnone : ¬(w.rest e).ShopPending) : ¬w'.server.ShopPending := by
  obtain ⟨requests, responses, hrequests, hresponses, hown⟩ := exists_queues_of_step h
  obtain ⟨rfl, hpushers⟩ := hown handler p hcall
  rintro (⟨task, htask, hid⟩ | ⟨task, htask, hid⟩)
  · rw [hrequests] at htask
    rcases List.mem_append.mp htask with hold | hnew
    · exact hnone (.inl ⟨task, hold, hid⟩)
    · have := hpushers task hnew
      rw [hid] at this
      exact hchat (List.mem_singleton.mp this)
  · rw [hresponses, List.append_nil] at htask
    exact hnone (.inr ⟨task, htask, hid⟩)

/-- An event that takes nothing of the shop leaves what waits of it. -/
lemma not_shopPending_of_rest (hbroadcast : ∀ p, w.call e ≠ some (.processShopUpdateDBResult, p))
    (hupdate : ∀ env, e = .redisTask env → w.server.takeRequestTask.1.taskID ≠ .requestShopUpdate)
    (hnone : ¬(w.rest e).ShopPending) : ¬w.server.ShopPending := by
  cases e with
  | response env =>
      rintro (⟨task, htask, hid⟩ | ⟨task, htask, hid⟩)
      · exact hnone (.inl ⟨task, by rwa [rest, w.server.queues_takeResponseTask.1], hid⟩)
      · cases hq : w.server.mResponseTask with
        | nil => rw [hq] at htask; cases htask
        | cons first tasks =>
            rw [hq] at htask
            rcases List.mem_cons.mp htask with rfl | hmem
            · have hpacket : w.packet (.response env) = some
                  { clientIndex := task.userIndex, packetId := task.taskID.code
                    packetSize := task.dataSize, pPacket := task.pData } := by
                simp [packet, Server.responsePacket, Server.takeResponseTask, hq, hid]
              refine hbroadcast _ (call_eq_some_iff.mpr ⟨hpacket, ?_⟩)
              simp only [hid]
              decide
            · refine hnone (.inr ⟨task, ?_, hid⟩)
              rw [rest, w.server.queues_takeResponseTask.2.1, hq]
              exact hmem
  | redisTask env =>
      rintro (⟨task, htask, hid⟩ | ⟨task, htask, hid⟩)
      · cases hq : w.server.mRequestTask with
        | nil => rw [hq] at htask; cases htask
        | cons first tasks =>
            have hfirst : w.server.takeRequestTask.1 = first := by rw [Server.takeRequestTask, hq]
            rw [hq] at htask
            rcases List.mem_cons.mp htask with rfl | hmem
            · exact hupdate env rfl (by rw [hfirst, hid])
            · refine hnone (.inl ⟨task, ?_, hid⟩)
              rw [rest, w.server.queues_takeRequestTask.1, hq]
              exact hmem
      · exact hnone (.inr ⟨task, by rwa [rest, w.server.queues_takeRequestTask.2.1], hid⟩)
  | _ => exact hnone

/-! ### Sessions -/

/-- The server with, for each slot, the number of packets sent when its session began, with
`OnConnect`. -/
abbrev Shown := World × (ℕ → ℕ)

namespace Shown

variable (s : Shown)

/-- What a player knows of the shop by the packets it was sent in its session. -/
def shows (u : ℕ) : Option (Int32 × ℤ) :=
  Outbox.replica ServerPacket.shownShop none u (s.1.server.sent.drop (s.2 u))

/-- The sessions after an event. -/
def next (e : Event) (w' : World) : ℕ → ℕ :=
  match e with
  | .connect u => Function.update s.2 u w'.server.sent.length
  | _ => s.2

/-- A step of the server and of its sessions. -/
def step : Shown → Event → Option Shown := Runs.withHistory World.step next

/-- The start of the server. -/
def init (maxClient : ℕ) (memory : ℕ → View) (store : Store) : Shown :=
  (World.init maxClient memory store, fun _ => 0)

/-- The player has been sent a `SHOP_INFO` in its session, and the last carries what is stored. -/
def Told (u : ℕ) : Prop := ∃ offer, shopOnOffer s.1.store = some offer ∧ s.shows u = some offer

/-- Where no update of the shop waits, every player in a room has been told of the shop. -/
def ShopSeen : Prop :=
  ¬s.1.server.ShopPending → ∀ u, s.1.server.lobby.Listed u → s.Told u

end Shown

/-- What a step must find for the players to know the shop after it, where `told` says who has been
told what is stored. -/
structure FindsTold (told : ℕ → Prop) (w : World) (e : Event) : Prop where
  /-- A broadcast to anybody carries what is stored. -/
  broadcast : ∀ p, w.call e = some (.processShopUpdateDBResult, p) →
    (∃ u, w.server.lobby.Listed u) → shopOnOffer w.store = some (carriedOffer p.pPacket)
  /-- A player who enters a room has been told. -/
  enter : ∀ u r, w.op e = some (.enter u r) → w.server.lobby.HasPlace r → told u
  /-- A session begins in a slot that is in the list of no room. -/
  connect : ∀ u, e = .connect u → ¬w.server.lobby.Listed u
  /-- An update that broadcasts nothing leaves nobody waiting for it. -/
  update : ∀ env, e = .redisTask env → LeavesShop env w.store w.server.takeRequestTask.1 →
    ∀ u, w.server.lobby.Listed u → told u

/-- Where a step leaves nothing of the shop waiting, it finds what it must. -/
def KeepsTold (told : ℕ → Prop) (w : World) (e : Event) : Prop :=
  ¬(w.rest e).ShopPending → FindsTold told w e

namespace Shown

variable {s : Shown} {e : Event} {w' : World} {u : ℕ}

/-- The mark of a session stands within what has been sent. -/
def Marked (s : Shown) : Prop := ∀ u, s.2 u ≤ s.1.server.sent.length

lemma next_cases (s : Shown) (e : Event) (w' : World) :
    (∃ v, e = .connect v ∧ s.next e w' = Function.update s.2 v w'.server.sent.length) ∨
      (∀ v, e ≠ .connect v) ∧ s.next e w' = s.2 := by
  cases e with
  | connect v => exact .inl ⟨v, rfl, rfl⟩
  | _ => exact .inr ⟨by simp, rfl⟩

lemma marked_next (hs : s.Marked) (h : s.1.step e = some w') : Marked (w', s.next e w') := by
  obtain ⟨packets, hsent, -⟩ := World.exists_sent_of_step h
  have hold : ∀ u, s.2 u ≤ w'.server.sent.length := fun u => by
    rw [hsent, List.length_append]
    exact (hs u).trans (Nat.le_add_right _ _)
  intro u
  show s.next e w' u ≤ w'.server.sent.length
  rcases next_cases s e w' with ⟨v, -, hnext⟩ | ⟨-, hnext⟩
  · rw [hnext]
    by_cases huv : u = v
    · rw [huv, Function.update_self]
    · rw [Function.update_of_ne huv]
      exact hold u
  · rw [hnext]
    exact hold u

/-- A new session knows nothing. -/
lemma shows_connect : shows (w', s.next (.connect u) w') u = none := by
  have hmark : s.next (.connect u) w' u = w'.server.sent.length := Function.update_self ..
  show Outbox.replica _ _ _ (w'.server.sent.drop (s.next (.connect u) w' u)) = none
  rw [hmark, List.drop_length]
  rfl

/-- Within a session the mark stays. -/
lemma next_of_ne (he : e ≠ .connect u) : s.next e w' u = s.2 u := by
  rcases next_cases s e w' with ⟨v, hv, hnext⟩ | ⟨-, hnext⟩
  · rw [hnext]
    refine Function.update_of_ne (fun huv => he ?_) _ _
    rw [hv, huv]
  · rw [hnext]

/-- A connection that begins runs no handler. -/
lemma ne_connect_of_call {handler : Handler} {p : RecvPacket}
    (hcall : s.1.call e = some (handler, p)) : e ≠ .connect u := by
  rintro rfl
  cases hcall

/-- Within a session a player knows what it knew, where the step is no broadcast of the shop. -/
lemma shows_next (hs : s.Marked) (h : s.1.step e = some w') (he : e ≠ .connect u)
    (hcall : ∀ p, s.1.call e ≠ some (.processShopUpdateDBResult, p)) :
    shows (w', s.next e w') u = s.shows u := by
  obtain ⟨packets, hsent, hown⟩ := World.exists_sent_of_step h
  show Outbox.replica _ _ _ (w'.server.sent.drop (s.next e w' u)) = _
  rw [next_of_ne he, hsent, Outbox.replica_drop_append (hs u)]
  refine Outbox.replica_of_ignored fun packet hmem shown => ?_
  cases packet with
  | shopInfo itemID nextUpdate =>
      obtain ⟨p, handler, hhandler, hsender⟩ := hown _ hmem
      rw [List.mem_singleton.mp hsender] at hhandler
      exact absurd hhandler (hcall p)
  | _ => rfl

/-- The packets of a broadcast of the shop. -/
lemma sent_broadcast (h : s.1.step e = some w') {p : RecvPacket}
    (hcall : s.1.call e = some (.processShopUpdateDBResult, p)) :
    ∃ σ, s.1.server.SameUsers σ ∧ w'.server.sent = s.1.server.sent ++
      (List.finRange mMaxRoomCount).flatMap fun r => Room.toAllUser r σ
        (.shopInfo (int32At p.pPacket 0) (int64At p.pPacket 4)) (-1) false := by
  obtain ⟨σ, hσ, ⟨hnone, -⟩ | ⟨handler, q, env, hcall', hrun⟩⟩ := World.step_cases h
  · cases hnone.symm.trans hcall
  · obtain ⟨rfl, rfl⟩ := Prod.mk.inj (Option.some.inj (hcall'.symm.trans hcall))
    have hsent := congrArg Server.sent (Except.ok.inj hrun)
    rw [processShopUpdateDBResult, RoomManager.sendToAllUser, Server.sendAll_sent, hσ.sent] at hsent
    exact ⟨σ, hσ, hsent.symm⟩

/-- A broadcast of the shop reaches every player in a room. -/
lemma shows_broadcast (hs : s.Marked) (h : s.1.step e = some w') {p : RecvPacket}
    (hcall : s.1.call e = some (.processShopUpdateDBResult, p)) (hu : s.1.server.lobby.Listed u) :
    shows (w', s.next e w') u = some (carriedOffer p.pPacket) := by
  obtain ⟨σ, hσ, hsent⟩ := sent_broadcast h hcall
  show Outbox.replica _ _ _ (w'.server.sent.drop (s.next e w' u)) = _
  rw [next_of_ne (ne_connect_of_call hcall), hsent, Outbox.replica_drop_append (hs u)]
  obtain ⟨r, hr⟩ := hu
  have hmem : (u, ServerPacket.shopInfo (int32At p.pPacket 0) (int64At p.pPacket 4)) ∈
      (List.finRange mMaxRoomCount).flatMap fun r => Room.toAllUser r σ
        (.shopInfo (int32At p.pPacket 0) (int64At p.pPacket 4)) (-1) false := by
    refine List.mem_flatMap.mpr ⟨r, List.mem_finRange r, List.mem_map.mpr ⟨u, ?_, rfl⟩⟩
    rw [hσ.mRoomList]
    exact List.mem_filter.mpr ⟨hr, rfl⟩
  refine Outbox.replica_of_const (fun packet hpacket shown => ?_) hmem
  obtain ⟨r', -, hpacket⟩ := List.mem_flatMap.mp hpacket
  obtain ⟨v, -, hv⟩ := List.mem_map.mp hpacket
  rw [← (Prod.mk.inj hv).2]
  rfl

/-- And nobody else. -/
lemma shows_broadcast_of_not (hs : s.Marked) (h : s.1.step e = some w') {p : RecvPacket}
    (hcall : s.1.call e = some (.processShopUpdateDBResult, p))
    (hu : ¬s.1.server.lobby.Listed u) : shows (w', s.next e w') u = s.shows u := by
  obtain ⟨σ, hσ, hsent⟩ := sent_broadcast h hcall
  show Outbox.replica _ _ _ (w'.server.sent.drop (s.next e w' u)) = _
  rw [next_of_ne (ne_connect_of_call hcall), hsent, Outbox.replica_drop_append (hs u)]
  refine Outbox.replica_of_notMem fun packet hmem => hu ?_
  obtain ⟨r, -, hmem⟩ := List.mem_flatMap.mp hmem
  obtain ⟨v, hv, heq⟩ := List.mem_map.mp hmem
  obtain rfl := (Prod.mk.inj heq).1
  rw [hσ.mRoomList] at hv
  exact ⟨r, (List.mem_filter.mp hv).1⟩

/-- Within a session a player has been told as before, where the shop is as before. -/
lemma told_next_iff (hs : s.Marked) (h : s.1.step e = some w')
    (he : e ≠ .connect u) (hcall : ∀ p, s.1.call e ≠ some (.processShopUpdateDBResult, p))
    (hstore : shopOnOffer w'.store = shopOnOffer s.1.store) :
    Told (w', s.next e w') u ↔ s.Told u := by
  rw [Told, Told, shows_next hs h he hcall]
  show (∃ offer, shopOnOffer w'.store = _ ∧ _) ↔ _
  rw [hstore]

/-- What a handler is called for changes no database. -/
lemma store_of_call (h : s.1.step e = some w') {handler : Handler} {p : RecvPacket}
    (hcall : s.1.call e = some (handler, p)) : w'.store = s.1.store :=
  World.store_of_step h fun env he => by
    rw [he] at hcall
    cases hcall

/-- A handler that carries out an operation of the lobby sends nothing about the shop, and pushes no
update of it. -/
lemma exists_call_of_op {op : Lobby.Op} (hop : s.1.op e = some op) :
    (∃ handler p, s.1.call e = some (handler, p) ∧ handler ≠ .processRoomChatMessage) ∧
      ∀ p, s.1.call e ≠ some (.processShopUpdateDBResult, p) := by
  obtain ⟨⟨handler, p⟩, hcall, hhandler⟩ := Option.bind_eq_some_iff.mp hop
  refine ⟨⟨handler, p, hcall, ?_⟩, fun q hq => ?_⟩
  · rintro rfl
    cases hhandler
  · obtain ⟨rfl, -⟩ := Prod.mk.inj (Option.some.inj (hcall.symm.trans hq))
    cases hhandler

/-- A step that finds what it must leaves every player in a room told. -/
lemma ShopSeen.next (hs : s.Marked) (hseen : s.ShopSeen) (hkeeps : KeepsTold s.Told s.1 e)
    (h : s.1.step e = some w') : ShopSeen (w', s.next e w') := by
  intro hnone u hu
  have hfinds := hkeeps (World.not_shopPending_rest h hnone)
  have hlobby : w'.server.lobby = s.1.server.lobby.applyOption (s.1.op e) := World.step_lobby h
  replace hu : (s.1.server.lobby.applyOption (s.1.op e)).Listed u := hlobby ▸ hu
  by_cases hbroadcast : ∃ p, s.1.call e = some (.processShopUpdateDBResult, p)
  · -- everybody is sent what is stored
    obtain ⟨p, hcall⟩ := hbroadcast
    have hop : s.1.op e = none := by rw [World.op, hcall]; rfl
    rw [hop] at hu
    refine ⟨carriedOffer p.pPacket, ?_, shows_broadcast hs h hcall hu⟩
    show shopOnOffer w'.store = _
    rw [store_of_call h hcall]
    exact hfinds.broadcast p hcall ⟨u, hu⟩
  rw [not_exists] at hbroadcast
  by_cases hupdate : ∃ env, e = .redisTask env ∧
      s.1.server.takeRequestTask.1.taskID = .requestShopUpdate
  · obtain ⟨env, rfl, hid⟩ := hupdate
    obtain ⟨out, hout, rfl⟩ := World.exists_taskProcess h
    rcases taskProcess_shopUpdate hid hout with ⟨hleaves, rfl⟩ | ⟨response, hmem, hresponse⟩
    · exact (told_next_iff hs h (by simp) hbroadcast rfl).mpr
        (hfinds.update env rfl hleaves u hu)
    · exact absurd (.inr ⟨response, List.mem_append_right _ hmem, hresponse⟩) hnone
  · -- nothing of the shop was taken, so nothing of it waited before
    have hother : ∀ env, e = .redisTask env →
        s.1.server.takeRequestTask.1.taskID ≠ .requestShopUpdate :=
      fun env he hid => hupdate ⟨env, he, hid⟩
    have hbefore := World.not_shopPending_of_rest hbroadcast hother
      (World.not_shopPending_rest h hnone)
    have hconnect : e ≠ .connect u := by
      rintro rfl
      exact hfinds.connect u rfl hu
    have hstore : shopOnOffer w'.store = shopOnOffer s.1.store := by
      by_cases he : ∃ env, e = .redisTask env
      · obtain ⟨env, rfl⟩ := he
        obtain ⟨out, hout, rfl⟩ := World.exists_taskProcess h
        exact shopOnOffer_of_ne (hother env rfl) hout
      · rw [World.store_of_step h fun env henv => he ⟨env, henv⟩]
    rw [told_next_iff hs h hconnect hbroadcast hstore]
    rcases Lobby.listed_of_applyOption hu with hlisted | ⟨r, henter, hplace⟩
    · exact hseen hbefore u hlisted
    · exact hfinds.enter u r henter hplace

/-- A step after which every player in a room has been told, where nothing of the shop waits, found
what it must. -/
lemma keepsTold_of_shopSeen (hs : s.Marked)
    (hall : ∀ w', s.1.step e = some w' → ShopSeen (w', s.next e w')) : KeepsTold s.Told s.1 e := by
  intro hrest
  refine ⟨fun p hcall ⟨u, hu⟩ => ?_, fun u r hop hplace => ?_, fun u he hu => ?_,
    fun env he hleaves u hu => ?_⟩
  · obtain ⟨w', h⟩ := World.exists_step_of_run hcall fun env σ _ => ⟨_, rfl⟩
    have hlobby := World.step_lobby h
    rw [World.op, hcall] at hlobby
    obtain ⟨offer, hstored, hshows⟩ := hall w' h
      (World.not_shopPending_of_call h hcall (by decide) hrest) u (hlobby ▸ hu)
    rw [shows_broadcast hs h hcall hu] at hshows
    rw [← store_of_call h hcall, hshows]
    exact hstored
  · obtain ⟨⟨handler, p, hcall, hchat⟩, hbroadcast⟩ := exists_call_of_op hop
    obtain ⟨w', h⟩ := World.exists_step_of_op hop
    have hlobby := World.step_lobby h
    rw [hop] at hlobby
    rw [← told_next_iff hs h (ne_connect_of_call hcall) hbroadcast
      (by rw [store_of_call h hcall])]
    exact hall w' h (World.not_shopPending_of_call h hcall hchat hrest) u
      (hlobby ▸ Lobby.listed_enter hplace)
  · subst he
    obtain ⟨offer, -, hshows⟩ := hall _ rfl hrest u hu
    cases shows_connect.symm.trans hshows
  · subst he
    have h : s.1.step (.redisTask env) = some (commit s.1.server.takeRequestTask.2
        { store := s.1.store }) := by
      show (taskProcess env s.1.store s.1.server.takeRequestTask.1).toOption.map _ = _
      rw [hleaves.taskProcess]
      rfl
    have hnone :
        ¬(commit s.1.server.takeRequestTask.2 { store := s.1.store }).server.ShopPending := by
      rw [commit, Server.ShopPending]
      simp only [List.append_nil]
      exact hrest
    exact (told_next_iff hs h (by simp) (fun p hcall => by cases hcall) rfl).mp
      (hall _ h hnone u ((World.step_lobby h) ▸ hu))

end Shown

/-! ### Who is there -/

/-- The server with its sessions, and for each slot what the last update said that was broadcast in
its session while the slot was in the list of a room. -/
abbrev Audience := Shown × (ℕ → Option (Int32 × ℤ))

namespace Audience

variable (s : Audience)

/-- The world. -/
def world : World := s.1.1

/-- What has been said to whom after an event. -/
def next (e : Event) (_ : Shown) : ℕ → Option (Int32 × ℤ) :=
  match s.world.call e with
  | some (.processShopUpdateDBResult, p) => fun u =>
    if s.world.server.lobby.Listed u then some (carriedOffer p.pPacket) else s.2 u
  | _ =>
    match e with
    | .connect u => Function.update s.2 u none
    | _ => s.2

/-- A step of the server, of its sessions and of what has been said. -/
def step : Audience → Event → Option Audience := Runs.withHistory Shown.step next

/-- The start of the server. -/
def init (maxClient : ℕ) (memory : ℕ → View) (store : Store) : Audience :=
  (Shown.init maxClient memory store, fun _ => none)

/-- The slot was in the list of a room, in its session, when what is stored was broadcast, and no
other update has been broadcast to it since. -/
def WasThere (u : ℕ) : Prop := ∃ offer, shopOnOffer s.world.store = some offer ∧ s.2 u = some offer

/-- Where a step leaves nothing of the shop waiting, players who enter a room were there when what is
stored was broadcast, and so on. -/
def KeepsPresent (e : Event) : Prop := KeepsTold s.WasThere s.world e

/-- **The invariant**: the players know what has been broadcast while they were there. -/
structure Heard (s : Audience) : Prop where
  marked : s.1.Marked
  shows : ∀ u, s.1.shows u = s.2 u

variable {s} {e : Event} {t : Shown} {u : ℕ}

lemma next_connect : s.next (.connect u) t u = none := Function.update_self ..

lemma next_broadcast {p : RecvPacket}
    (hcall : s.world.call e = some (.processShopUpdateDBResult, p)) :
    s.next e t u =
      if s.world.server.lobby.Listed u then some (carriedOffer p.pPacket) else s.2 u := by
  simp only [next, hcall]

/-- Any other step leaves what has been said. -/
lemma next_of_ne (he : e ≠ .connect u)
    (hcall : ∀ p, s.world.call e ≠ some (.processShopUpdateDBResult, p)) :
    s.next e t u = s.2 u := by
  cases e with
  | connect v => exact Function.update_of_ne (fun huv => he (by rw [huv])) _ _
  | _ => simp only [next]

lemma Heard.told_eq (hs : s.Heard) : s.1.Told = s.WasThere :=
  funext fun u => by rw [Shown.Told, WasThere, hs.shows u]; rfl

lemma heard_step {s' : Audience} (hs : s.Heard) (h : s.step e = some s') : s'.Heard := by
  obtain ⟨t, ht, rfl⟩ := Option.map_eq_some_iff.mp h
  obtain ⟨w', hw', rfl⟩ := Option.map_eq_some_iff.mp ht
  refine ⟨Shown.marked_next hs.marked hw', fun u => ?_⟩
  show Shown.shows (w', s.1.next e w') u = s.next e (w', s.1.next e w') u
  by_cases hbroadcast : ∃ p, s.world.call e = some (.processShopUpdateDBResult, p)
  · obtain ⟨p, hcall⟩ := hbroadcast
    rw [next_broadcast hcall]
    split
    · rename_i hu
      exact Shown.shows_broadcast hs.marked hw' hcall hu
    · rename_i hu
      rw [Shown.shows_broadcast_of_not hs.marked hw' hcall hu, hs.shows u]
  · rw [not_exists] at hbroadcast
    by_cases he : e = .connect u
    · subst he
      rw [Shown.shows_connect, next_connect]
    · rw [Shown.shows_next hs.marked hw' he hbroadcast, hs.shows u, next_of_ne he hbroadcast]

/-- **Every player sees the current shop.** In any run from the start of the server every player in
a room has been told what is stored, wherever no update of the shop waits, exactly if every step
that leaves none waiting finds what it must: a player that enters a room was in the list of a room
when what is stored was broadcast, in the same session, a session begins in a slot that is in the
list of no room, an update that broadcasts nothing finds all players in rooms so, and a broadcast to
any player carries what is stored. -/
theorem shopSeen_iff (maxClient : ℕ) (memory : ℕ → View) (store : Store) (es : List Event) :
    Runs.Always step (fun s => s.1.ShopSeen) (init maxClient memory store) es ↔
      Runs.Along step KeepsPresent (init maxClient memory store) es := by
  refine Runs.always_iff_along (I := Heard) (fun s e s' hs h => heard_step hs h)
    (fun s e hs hseen => ?_) es ⟨fun _ => le_rfl, fun _ => rfl⟩ fun _ u hu => ?_
  · rw [step, Runs.forall_withHistory, Shown.step, Runs.forall_withHistory, KeepsPresent,
      ← hs.told_eq]
    exact ⟨Shown.keepsTold_of_shopSeen hs.marked, fun hkeeps w' h =>
      Shown.ShopSeen.next hs.marked hseen hkeeps h⟩
  · obtain ⟨r, hr⟩ := hu
    cases hr

/-- The clock has the shop filled and its offer sent to the players in rooms; then `a` connects,
logs in and enters a room. -/
def enterAfterUpdate : List Event :=
  [.tick {}, .redisTask default, .response {}] ++ enterFirstRoom

/-- The player in the room is sent no `SHOP_INFO`. -/
theorem entered_after_update :
    ¬∀ (maxClient : ℕ) (memory : ℕ → View) (store : Store) (es : List Event),
      Runs.Always step (fun s => s.1.ShopSeen) (init maxClient memory store) es := by
  intro h
  have hrun : (Runs.run step (init 3 (fun _ _ => 0) twoUsers) enterAfterUpdate).map
      (fun s => (decide s.world.server.ShopPending,
        (s.world.server.mRoomList ⟨0, Nat.succ_pos _⟩).mUserList, s.1.shows 0)) =
      some (false, [0], none) := by decide +kernel
  obtain ⟨s, hs, hstate⟩ := Option.map_eq_some_iff.mp hrun
  simp only [Prod.mk.injEq, decide_eq_false_iff_not] at hstate
  obtain ⟨hnone, hlist, hshows⟩ := hstate
  have hmember : s.world.server.lobby.Listed 0 := ⟨⟨0, Nat.succ_pos _⟩, by
    show 0 ∈ (s.world.server.mRoomList _).mUserList
    rw [hlist]
    exact List.mem_singleton.mpr rfl⟩
  obtain ⟨offer, -, htold⟩ := (h _ _ _ enterAfterUpdate).of_run hs hnone 0 hmember
  cases hshows.symm.trans htold

end Audience

end World

end CKGameServer
