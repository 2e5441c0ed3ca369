import CKGameServer.Chat.Commands
import CKGameServer.Inventory.Load
import CKGameServer.Login.EndToEnd
import CKGameServer.Packets.Senders

/-!
The payloads of the request tasks, from their producers to the Redis thread.

* `PushedRequest`: a request task by its producer; `PushedRequest.task`: the task it pushes.
* `World.exists_request_of_step`: apart from updates of the shop no other request is ever pushed.
* `RedisTask.castSize`, `RedisTask.requestFields`: the structure `TaskProcessThread` casts `pData`
  to, and what it reads of it.
* `PushedRequest.meant`: what the producer means to send.
* `PushedRequest.RoundTrips`: the block is as long as that structure and, whatever stands in the
  memory around, what is read is what was meant.
* `PushedRequest.isRead_iff`: the requests of which that holds.
* `reads_loadInventory_iff`: what is left of the id in the block of the wrong size.
-/

namespace CKGameServer

open Memory PacketManager

/-! ### The producers -/

/-- The task of `RedisReqNotice`, for a chat message that begins with `/n`. -/
def noticeTask (env : Env) (clientIndex : ℕ) (pPacket : View) : RedisTask :=
  RedisTask.make clientIndex .requestNotice redisNoticeSize
    (redisNotice (View.ofCString gmUserID (env.stack 0))
      (View.ofCString (((pPacket.cString packetHeaderLength).drop 2).take maxChatMsgSize)
        (env.stack 1)))
    (env.heap 0)

/-- A request by its producer: `ProcessLogin`, `RedisReqNotice`, `ProcessLoginDBResult` after a
login, the Redis thread after the purchase of a task, and `ProcessShopBuyRequest`. -/
inductive PushedRequest where
  | login (clientIndex : ℕ) (pPacket : View)
  | notice (clientIndex : ℕ) (pPacket : View)
  | loadInventory (clientIndex : ℕ) (pPacket : View)
  | reloadInventory (task : RedisTask)
  | shopBuy (user : Actor) (pPacket : View)

/-- The task a producer pushes, in the memory it finds. -/
def PushedRequest.task (env : Env) (redis : RedisEnv) : PushedRequest → RedisTask
  | login clientIndex pPacket => loginTask env clientIndex pPacket
  | notice clientIndex pPacket => noticeTask env clientIndex pPacket
  | loadInventory clientIndex pPacket => loadInventoryTask env clientIndex pPacket
  | reloadInventory task => reloadTask redis task
  | shopBuy _ _ => shopBuyTask env

/-! ### What the handlers push -/

section Producers

variable {env : Env} {i n : ℕ} {p : View} {σ τ : Server}

lemma mRequestTask_processLogin :
    (processLogin env i n p σ).mRequestTask = σ.mRequestTask ∨
      (processLogin env i n p σ).mRequestTask = σ.mRequestTask ++ [loginTask env i p] := by
  rw [processLogin]
  split
  · exact .inl rfl
  · split
    · exact .inl rfl
    · split
      · exact .inr rfl
      · exact .inl rfl

lemma mRequestTask_processLoginDBResult :
    (processLoginDBResult env i p σ).mRequestTask = σ.mRequestTask ∨
      (processLoginDBResult env i p σ).mRequestTask =
        σ.mRequestTask ++ [loadInventoryTask env i p] := by
  rw [processLoginDBResult]
  split
  · exact .inr rfl
  · exact .inl rfl

/-- A chat message pushes nothing, a notice or an update of the shop. -/
lemma mRequestTask_processRoomChatMessage (h : processRoomChatMessage env i p σ = .ok τ) :
    τ.mRequestTask = σ.mRequestTask ∨ ∃ task, τ.mRequestTask = σ.mRequestTask ++ [task] ∧
      (task = noticeTask env i p ∨ task.taskID = .requestShopUpdate) := by
  cases hroom : RoomManager.getRoomByNumber (σ.mUserObjPool i).mRoomIndex with
  | none =>
      rw [processRoomChatMessage, hroom] at h
      obtain rfl := Except.ok.inj h
      exact .inl rfl
  | some r =>
      by_cases htime : timeAddCommand <+: p.cString packetHeaderLength
      · rw [processRoomChatMessage_of_timeAdd hroom htime] at h
        obtain ⟨time, -, rfl⟩ := exists_of_map_eq_ok h
        exact .inr ⟨_, rfl, .inr rfl⟩
      · rw [processRoomChatMessage, hroom] at h
        simp only [if_neg htime, bind, Except.bind, pure, Except.pure] at h
        by_cases hnpc : npcCommand <+: p.cString packetHeaderLength
        · rw [if_pos hnpc] at h
          obtain rfl := Except.ok.inj h
          exact .inl rfl
        · rw [if_neg hnpc] at h
          by_cases hnotice : noticeCommand <+: p.cString packetHeaderLength
          · rw [if_pos hnotice, substr_noticeCommand hnotice] at h
            obtain rfl := Except.ok.inj h
            exact .inr ⟨_, rfl, .inl rfl⟩
          · rw [if_neg hnotice] at h
            split at h
            · obtain rfl := Except.ok.inj h
              exact .inr ⟨_, rfl, .inr rfl⟩
            · obtain rfl := Except.ok.inj h
              exact .inl rfl

/-- A task of a kind that only other handlers push is not pushed. -/
lemma tasks_eq_nil {handler : Handler} {tasks : List RedisTask}
    (hother : ∀ id : RedisTaskID, handler ∉ id.pushers)
    (hown : ∀ task ∈ tasks, handler ∈ task.taskID.pushers) : tasks = [] :=
  List.eq_nil_iff_forall_not_mem.mpr fun task htask => hother _ (hown task htask)

/-- A handler pushes updates of the shop and the requests of the producers. -/
lemma Handler.exists_request {handler : Handler} (h : handler.run env i n p σ = .ok τ) :
    ∃ tasks, τ.mRequestTask = σ.mRequestTask ++ tasks ∧ ∀ task ∈ tasks,
      task.taskID = .requestShopUpdate ∨
        ∃ r : PushedRequest, ∀ redis, task = r.task env redis := by
  have hnone : τ.mRequestTask = σ.mRequestTask → ∃ tasks,
      τ.mRequestTask = σ.mRequestTask ++ tasks ∧ ∀ task ∈ tasks,
        task.taskID = .requestShopUpdate ∨
          ∃ r : PushedRequest, ∀ redis, task = r.task env redis :=
    fun hsame => ⟨[], by rw [hsame, List.append_nil], by simp⟩
  have hone : ∀ {r : PushedRequest} {t : RedisTask}, (∀ redis, r.task env redis = t) →
      τ.mRequestTask = σ.mRequestTask ++ [t] → ∃ tasks,
      τ.mRequestTask = σ.mRequestTask ++ tasks ∧ ∀ task ∈ tasks,
        task.taskID = .requestShopUpdate ∨
          ∃ r : PushedRequest, ∀ redis, task = r.task env redis := by
    intro r t hr ht
    refine ⟨[t], ht, fun task htask => .inr ⟨r, fun redis => ?_⟩⟩
    rw [List.mem_singleton.mp htask, hr redis]
  cases handler with
  | processLogin =>
      obtain rfl := Except.ok.inj h
      exact mRequestTask_processLogin.elim hnone (hone (r := .login i p) fun _ => rfl)
  | processLoginDBResult =>
      obtain rfl := Except.ok.inj h
      exact mRequestTask_processLoginDBResult.elim hnone
        (hone (r := .loadInventory i p) fun _ => rfl)
  | processShopBuyRequest =>
      obtain rfl := Except.ok.inj h
      exact hone (r := .shopBuy (σ.mUserObjPool i).toActor p) (fun _ => rfl) rfl
  | processRoomChatMessage =>
      rcases mRequestTask_processRoomChatMessage h with hsame | ⟨task, htask, rfl | hshop⟩
      · exact hnone hsame
      · exact hone (r := .notice i p) (fun _ => rfl) htask
      · refine ⟨[task], htask, fun t ht => .inl ?_⟩
        rw [List.mem_singleton.mp ht, hshop]
  | _ =>
      obtain ⟨tasks, htasks, hown⟩ := (Handler.run_issues h).tasks
      obtain rfl := tasks_eq_nil (fun id => by cases id <;> decide) hown
      exact ⟨[], htasks, by simp⟩

end Producers

/-- What waits after a dispatch waited before it, or is the request of a producer. -/
lemma Server.exists_request_of_dispatch {env : Env} {p : Option RecvPacket} {σ τ : Server}
    (h : Server.dispatch env (p, σ) = .ok τ) :
    ∀ task ∈ τ.mRequestTask, task ∈ σ.mRequestTask ∨ task.taskID = .requestShopUpdate ∨
      ∃ (r : PushedRequest) (env : Env) (redis : RedisEnv), task = r.task env redis := by
  intro task htask
  rcases Server.dispatch_cases h with ⟨-, rfl⟩ | ⟨handler, q, -, hrun⟩
  · exact .inl htask
  · obtain ⟨tasks, htasks, hpushed⟩ := Handler.exists_request hrun
    rw [htasks] at htask
    refine (List.mem_append.mp htask).imp_right fun hnew => ?_
    exact (hpushed task hnew).imp_right fun ⟨r, hr⟩ => ⟨r, env, default, hr default⟩

/-- **Every request is one of these**: what waits after a step waited before it, is an update of the
shop, or is the request of a producer. -/
lemma World.exists_request_of_step {w w' : World} {e : Event} (h : w.step e = some w') :
    ∀ task ∈ w'.server.mRequestTask, task ∈ w.server.mRequestTask ∨
      task.taskID = .requestShopUpdate ∨
        ∃ (r : PushedRequest) (env : Env) (redis : RedisEnv), task = r.task env redis := by
  intro task htask
  cases e with
  | receive i pData =>
      obtain ⟨recv, -, rfl⟩ := World.exists_receive h
      exact .inl htask
  | clientPacket env =>
      rw [← w.server.queues_dequePacketData.1]
      exact Server.exists_request_of_dispatch (exists_dispatch h) task htask
  | systemPacket env =>
      rw [← w.server.queues_systemPacket.1]
      exact Server.exists_request_of_dispatch (exists_dispatch h) task htask
  | response env =>
      rw [← w.server.queues_takeResponseTask.1]
      exact Server.exists_request_of_dispatch (exists_dispatch h) task htask
  | redisTask env =>
      obtain ⟨out, hout, rfl⟩ := exists_taskProcess h
      rcases List.mem_append.mp htask with hold | hnew
      · rw [w.server.queues_takeRequestTask.1] at hold
        exact .inl (List.mem_of_mem_drop hold)
      · by_cases hload : w.server.takeRequestTask.1.taskID = .requestLoadInventory
        · rw [(taskProcess_login (.inr hload) hout).1] at hnew
          cases hnew
        · obtain ⟨-, rfl⟩ := (taskProcess_noLoad hload hout).2 task hnew
          exact .inr (.inr ⟨.reloadInventory _, {}, env, rfl⟩)
  | connect i =>
      obtain rfl := Option.some.inj h
      exact .inl htask
  | close i =>
      obtain rfl := Option.some.inj h
      exact .inl htask
  | subscribe env message =>
      obtain rfl := Option.some.inj h
      exact .inl htask
  | tick env =>
      obtain rfl := Option.some.inj h
      rcases List.mem_append.mp htask with hold | hnew
      · exact .inl hold
      · rw [List.mem_singleton.mp hnew]
        exact .inr (.inl rfl)

/-! ### The consumer -/

/-- The size of the structure that `TaskProcessThread` casts `pData` of such a request to. -/
def RedisTask.castSize (task : RedisTask) : ℕ :=
  match task.taskID with
  | .requestLogin => redisLoginReqSize
  | .requestNotice => redisNoticeSize
  | .requestLoadInventory => redisInvenReqSize
  | .requestShopBuy => redisShopBuyReqSize
  | _ => 0

/-- The fields of the requests, as far as the Redis thread reads them. -/
inductive RequestFields where
  | login (userID userPW : Bytes)
  | notice (message : Bytes)
  | loadInventory (userIndex : Int32) (userID : Bytes)
  | shopBuy (userID : Bytes) (itemID : Int32)

/-- What the Redis thread reads of a request. -/
def RedisTask.requestFields (task : RedisTask) : Option RequestFields :=
  match task.taskID with
  | .requestLogin => some (.login (task.pData.cString 0) (task.pData.cString (maxUserIdLen + 1)))
  | .requestNotice => some (.notice (task.pData.cString (maxUserIdLen + 1)))
  | .requestLoadInventory => some (.loadInventory (int32At task.pData 0) (loadedUser task))
  | .requestShopBuy => some (.shopBuy (boughtBy task) (boughtItem task))
  | _ => none

namespace PushedRequest

/-- What the producer means to send. -/
def meant : PushedRequest → RequestFields
  | login _ pPacket => .login (requestedUserID pPacket) (requestedUserPW pPacket)
  | notice _ pPacket => .notice ((pPacket.cString packetHeaderLength).drop 2)
  | loadInventory clientIndex pPacket =>
    .loadInventory (Int32.ofNat clientIndex) (pPacket.cString 0)
  | reloadInventory task => .loadInventory (Int32.ofNat task.userIndex) (boughtBy task)
  | shopBuy user pPacket => .shopBuy user.mUserID (requestedItem pPacket)

/-- The user id that the producer copies has up to 32 characters. -/
def IdFits : PushedRequest → Prop
  | login _ pPacket => pPacket.NulTerminated loginUserID (maxUserIdLen + 1)
  | notice _ _ => True
  | loadInventory _ pPacket => (pPacket.cString 0).length ≤ maxUserIdLen
  | reloadInventory task => (boughtBy task).length ≤ maxUserIdLen
  | shopBuy user _ => user.mUserID.length ≤ maxUserIdLen

/-- The block is as long as the structure it is cast to, and what is read is what was meant,
whatever stands in the memory around. -/
structure RoundTrips (r : PushedRequest) : Prop where
  covers : ∀ env redis, (r.task env redis).castSize ≤ (r.task env redis).dataSize
  reads : ∀ env redis, (r.task env redis).requestFields = some r.meant

/-- The request is not the load after a login or a purchase, the password ends in its array, and
the notice fits the message. -/
def Copied : PushedRequest → Prop
  | login _ pPacket => pPacket.NulTerminated loginUserPW (maxUserPwLen + 1)
  | notice _ pPacket => (pPacket.cString packetHeaderLength).length ≤ 2 + maxChatMsgSize
  | reloadInventory _ => True
  | loadInventory _ _ | shopBuy _ _ => False

end PushedRequest

/-! ### What is read -/

section Reads

variable {env : Env} {redis : RedisEnv} {i : ℕ} {p : View}

/-- A notice is cut to the message of the structure. -/
lemma cString_noticeTask (env : Env) (i : ℕ) :
    (noticeTask env i p).pData.cString (maxUserIdLen + 1) =
      ((p.cString packetHeaderLength).drop 2).take maxChatMsgSize := by
  have hlength : (((p.cString packetHeaderLength).drop 2).take maxChatMsgSize).length ≤
      maxChatMsgSize := List.length_take_le _ _
  have hcopied : ∀ k < maxChatMsgSize + 1, (noticeTask env i p).pData (maxUserIdLen + 1 + k) =
      View.ofCString (((p.cString packetHeaderLength).drop 2).take maxChatMsgSize)
        (env.stack 1) k := by
    intro k hk
    have hsize : maxUserIdLen + 1 + k < redisNoticeSize := Nat.add_lt_add_left hk _
    rw [noticeTask, RedisTask.make_pData_lt hsize, redisNotice, View.append_apply_add]
  have h0 : (0 : UInt8) ∉ ((p.cString packetHeaderLength).drop 2).take maxChatMsgSize :=
    fun hmem => View.zero_notMem_cString _ (List.mem_of_mem_drop (List.mem_of_mem_take hmem))
  refine View.cStringFrom_eq h0 (fun k hk => ?_) ?_ (hlength.trans (by decide))
  · rw [hcopied k (by omega), View.ofCString, if_pos hk, List.getD_eq_getElem _ _ hk]
  · rw [hcopied _ (by omega), View.ofCString, if_neg (lt_irrefl _), if_pos rfl]

/-- The index in a request for an inventory is the one that was copied in. -/
lemma int32At_make_invenReq {userIndex size index : ℕ} {taskID : RedisTaskID} {userID heap : View}
    (hsize : 4 ≤ size) :
    int32At (RedisTask.make userIndex taskID size (redisInvenReq index userID) heap).pData 0 =
      Int32.ofNat index := by
  refine int32At_of_int32Bytes fun k hk => ?_
  rw [Nat.zero_add, RedisTask.make_pData_lt (by omega), redisInvenReq, View.append_apply_lt hk]

/-- **The load after a login** names its user, whatever stands behind the block, exactly if the id
has at most 19 characters: the block has the size of the response. -/
theorem reads_loadInventory_iff (hid : (p.cString 0).length ≤ maxUserIdLen) :
    (∀ env, loadedUser (loadInventoryTask env i p) = p.cString 0) ↔
      (p.cString 0).length ≤ 19 := by
  constructor
  · intro hreads
    by_contra hlong
    have hdiffer := @View.cString_append_ne
      (redisInvenReq i (strncpyUserID (p.cString 0) fun _ => 0)) 4 20
      (fun ⟨k, hk, hzero⟩ => ?_) (by decide)
    · refine hdiffer ?_
      exact (hreads { heap := fun _ _ => 0 }).trans (hreads { heap := fun _ _ => 1 }).symm
    · rw [redisInvenReq, View.append_apply_add, strncpyUserID, List.take_of_length_le hid,
        View.ofCString, if_pos (by omega), List.getD_eq_getElem _ _ (by omega)] at hzero
      exact View.zero_notMem_cString 0 (hzero ▸ List.getElem_mem _)
  · intro hshort env
    refine loadedUser_loadInventoryTask ?_
    rw [redisInvenResSize, inventorySize]
    omega

/-- A password that does not end in its array is not read the same in front of all memories. -/
lemma nulTerminated_of_reads
    (h : ∀ env, (loginTask env i p).pData.cString (maxUserIdLen + 1) = requestedUserPW p) :
    p.NulTerminated loginUserPW (maxUserPwLen + 1) := by
  by_contra hopen
  have hdiffer := @View.cString_append_ne
    (redisLoginReq (p.shift loginUserID) (p.shift loginUserPW)) (maxUserIdLen + 1)
    (maxUserPwLen + 1) (fun ⟨k, hk, hzero⟩ => hopen ⟨k, hk, ?_⟩) (by decide)
  · refine hdiffer ?_
    exact (h { heap := fun _ _ => 0 }).trans (h { heap := fun _ _ => 1 }).symm
  · rwa [redisLoginReq, View.append_apply_add, View.shift_apply] at hzero

/-- What is read of the block of a purchase, which is not written, is not always the same. -/
lemma not_reads_shopBuy (userID : Bytes) : ¬∀ env, boughtBy (shopBuyTask env) = userID := by
  intro h
  have hempty := h { heap := fun _ _ => 0 }
  have hfull := h { heap := fun _ _ => 1 }
  have hzero : boughtBy (shopBuyTask { heap := fun _ _ => 0 }) = [] := rfl
  rw [← hempty, hzero] at hfull
  exact absurd hfull (List.cons_ne_nil _ _)

end Reads

/-! ### The round trip -/

/-- A login round-trips exactly if its password ends in its array. -/
lemma PushedRequest.roundTrips_login_iff {i : ℕ} {p : View} (hid : (login i p).IdFits) :
    (login i p).RoundTrips ↔ (login i p).Copied := by
  constructor
  · rintro ⟨-, hreads⟩
    refine nulTerminated_of_reads (i := i) fun env => ?_
    exact (RequestFields.login.inj (Option.some.inj (hreads env {}))).2
  · intro hpw
    refine ⟨fun _ _ => le_rfl, fun env redis => ?_⟩
    have huser := requestedUserID_loginTask env i hid
    have hpassword := requestedUserPW_loginTask env i hpw
    rw [meant, ← huser, ← hpassword]
    rfl

/-- A notice round-trips exactly if its text fits the message. -/
lemma PushedRequest.roundTrips_notice_iff (i : ℕ) (p : View) :
    (notice i p).RoundTrips ↔ (notice i p).Copied := by
  have hread : ∀ env redis, ((notice i p).task env redis).requestFields =
      some (.notice (((p.cString packetHeaderLength).drop 2).take maxChatMsgSize)) := by
    intro env redis
    rw [← cString_noticeTask env i]
    rfl
  constructor
  · rintro ⟨-, hreads⟩
    have htext := RequestFields.notice.inj
      (Option.some.inj ((hread {} {}).symm.trans (hreads {} {})))
    have hlength := congrArg List.length htext
    rw [List.length_take, List.length_drop] at hlength
    rw [Copied]
    omega
  · intro hfits
    refine ⟨fun _ _ => le_rfl, fun env redis => ?_⟩
    rw [hread, meant, List.take_of_length_le]
    rw [List.length_drop]
    exact Nat.sub_le_of_le_add (by rw [Copied] at hfits; omega)

/-- The load after a purchase round-trips. -/
lemma PushedRequest.roundTrips_reloadInventory {task : RedisTask}
    (hid : (reloadInventory task).IdFits) : (reloadInventory task).RoundTrips := by
  refine ⟨fun _ _ => le_rfl, fun env redis => ?_⟩
  have huser : loadedUser (reloadTask redis task) = boughtBy task := loadedUser_reloadTask hid
  have hindex : int32At (reloadTask redis task).pData 0 = Int32.ofNat task.userIndex :=
    int32At_make_invenReq (by decide)
  rw [meant, ← huser, ← hindex]
  rfl

/-- **The payload of a request round-trips** exactly if it is neither the load after a login, whose
block has the size of the response, nor a purchase, whose block is not written, its password ends in
its array, and its notice fits the message. -/
theorem PushedRequest.isRead_iff {r : PushedRequest} (hid : r.IdFits) :
    r.RoundTrips ↔ r.Copied := by
  cases r with
  | login i p => exact roundTrips_login_iff hid
  | notice i p => exact roundTrips_notice_iff i p
  | loadInventory i p =>
      refine iff_of_false (fun h => ?_) not_false
      have hsize : redisInvenReqSize ≤ redisInvenResSize := h.covers {} {}
      exact absurd hsize (by decide)
  | reloadInventory task => exact iff_of_true (roundTrips_reloadInventory hid) trivial
  | shopBuy user p =>
      refine iff_of_false (fun h => not_reads_shopBuy user.mUserID fun env => ?_) not_false
      exact (RequestFields.shopBuy.inj (Option.some.inj (h.reads env {}))).1

/-- The load after a purchase of a user with a name of one letter. -/
theorem PushedRequest.roundTrips_reload :
    (PushedRequest.reloadInventory { pData := View.ofBytes [97] }).RoundTrips :=
  (isRead_iff (r := .reloadInventory { pData := View.ofBytes [97] })
    (show (boughtBy _).length ≤ maxUserIdLen by decide +kernel)).mpr trivial

/-- **An inventory is loaded for a cut name**: the load after the login of a user whose id has 20
characters. -/
theorem load_of_cut_name :
    ¬∀ r : PushedRequest, r.IdFits → r.RoundTrips := by
  intro h
  have hlength : ((View.ofBytes (List.replicate 20 97)).cString 0).length = 20 := by
    decide +kernel
  have hid : (PushedRequest.loadInventory 0 (View.ofBytes (List.replicate 20 97))).IdFits := by
    rw [PushedRequest.IdFits, hlength]
    decide
  have hread := (reads_loadInventory_iff (i := 0) hid).mp fun env => by
    exact (RequestFields.loadInventory.inj (Option.some.inj ((h _ hid).reads env {}))).2
  omega

end CKGameServer
