import CKGameServer.Model.GameServer

/-!
The queues of tasks between the process thread and the Redis thread.

* `Server.Pushes`: from one state to another some request tasks are pushed, and nothing else
  happens to the queues.
* `Handler.run_pushes`, `dispatch_pushes`: this is what a handler does, and only `ProcessLogin`
  pushes a `REQUEST_LOGIN`, in the name of its client.
* `taskProcess_login`, `taskProcess_other`: the responses the Redis thread pushes for a task.
* `dispatch_responseLogin`, `dispatch_responseLoadInventory`: the handlers of the two responses a
  login leads to, and the slot they touch.
* `World.exists_dispatch`, `World.exists_taskProcess`: the dispatch or the task behind a step.
-/

namespace CKGameServer

open Memory

namespace Server

/-- From `σ` to `τ` the tasks are pushed. The other queues stay as they are, and a receive buffer
stays as it is or is emptied. -/
structure Pushes (σ τ : Server) (tasks : List RedisTask) : Prop where
  mRequestTask : τ.mRequestTask = σ.mRequestTask ++ tasks
  mResponseTask : τ.mResponseTask = σ.mResponseTask
  mSystemPacketQueue : τ.mSystemPacketQueue = σ.mSystemPacketQueue
  recv : ∀ i, (τ.mUserObjPool i).recv = (σ.mUserObjPool i).recv ∨
    (τ.mUserObjPool i).recv = (σ.mUserObjPool i).recv.clear

variable {σ τ : Server}

lemma Pushes.refl (σ : Server) : σ.Pushes σ [] := ⟨by simp, rfl, rfl, fun _ => .inl rfl⟩

/-- A change that leaves the queues alone and empties a receive buffer at most. -/
lemma Pushes.of_same {υ : Server} {tasks : List RedisTask} (h : σ.Pushes τ tasks)
    (hrequests : υ.mRequestTask = τ.mRequestTask) (hresponses : υ.mResponseTask = τ.mResponseTask)
    (hsystem : υ.mSystemPacketQueue = τ.mSystemPacketQueue)
    (hrecv : ∀ j, (υ.mUserObjPool j).recv = (τ.mUserObjPool j).recv ∨
      (υ.mUserObjPool j).recv = (τ.mUserObjPool j).recv.clear) : σ.Pushes υ tasks where
  mRequestTask := hrequests.trans h.mRequestTask
  mResponseTask := hresponses.trans h.mResponseTask
  mSystemPacketQueue := hsystem.trans h.mSystemPacketQueue
  recv j := by
    rcases hrecv j with heq | heq <;> rcases h.recv j with hj | hj <;>
      simp [heq, hj, RecvBuffer.clear]

/-- An update of a user leaves the other buffers alone. -/
lemma recv_modUser {i : ℕ} {f : User → User}
    (hf : ∀ u, (f u).recv = u.recv ∨ (f u).recv = u.recv.clear) (j : ℕ) :
    ((τ.modUser i f).mUserObjPool j).recv = (τ.mUserObjPool j).recv ∨
      ((τ.modUser i f).mUserObjPool j).recv = (τ.mUserObjPool j).recv.clear := by
  by_cases hj : j = i
  · subst hj
    simpa using hf (τ.mUserObjPool j)
  · simp [hj]

/-- Only the tasks are new, and a user's buffer is emptied at most. -/
lemma Pushes.effect {handler : Handler} {i : ℕ} {υ : Server} {tasks : List RedisTask}
    (h : σ.Pushes τ tasks) (heffect : handler.Effect i τ υ) :
    ∃ tasks', σ.Pushes υ (tasks ++ tasks') ∧ ∀ task ∈ tasks', task.taskID = .requestLogin →
      handler = .processLogin ∧ task.userIndex = i := by
  have hsame : σ.Pushes υ tasks → ∃ tasks', σ.Pushes υ (tasks ++ tasks') ∧
      ∀ task ∈ tasks', task.taskID = .requestLogin → handler = .processLogin ∧
        task.userIndex = i := fun h => ⟨[], by rwa [List.append_nil], by simp⟩
  cases heffect with
  | actor f => exact hsame (h.of_same rfl rfl rfl (recv_modUser fun _ => .inl rfl))
  | clear _ => exact hsame (h.of_same rfl rfl rfl (recv_modUser fun _ => .inr rfl))
  | inventory inven _ => exact hsame (h.of_same rfl rfl rfl (recv_modUser fun _ => .inl rfl))
  | dictionary keep => exact hsame (h.of_same rfl rfl rfl fun _ => .inl rfl)
  | room r f => exact hsame (h.of_same rfl rfl rfl fun _ => .inl rfl)
  | send packets _ => exact hsame (h.of_same rfl rfl rfl fun _ => .inl rfl)
  | push task hlogin =>
      refine ⟨[task], ⟨?_, h.mResponseTask, h.mSystemPacketQueue, h.recv⟩, by simpa using hlogin⟩
      rw [pushTask_mRequestTask, h.mRequestTask, List.append_assoc]

end Server

/-- **What a handler does to the queues.** -/
theorem Handler.run_pushes {handler : Handler} {env : Env} {i n : ℕ} {p : View} {σ τ : Server}
    (h : handler.run env i n p σ = .ok τ) :
    ∃ tasks, σ.Pushes τ tasks ∧ ∀ task ∈ tasks, task.taskID = .requestLogin →
      handler = .processLogin ∧ task.userIndex = i := by
  refine Handler.run_induction (P := fun τ => ∃ tasks, σ.Pushes τ tasks ∧ ∀ task ∈ tasks,
    task.taskID = .requestLogin → handler = .processLogin ∧ task.userIndex = i) ?_ h
    ⟨[], .refl σ, by simp⟩
  rintro τ υ heffect ⟨tasks, hpushes, hlogin⟩
  obtain ⟨tasks', hpushes', hlogin'⟩ := hpushes.effect heffect
  exact ⟨tasks ++ tasks', hpushes', fun task htask =>
    (List.mem_append.mp htask).elim (hlogin task) (hlogin' task)⟩

/-- A handler leaves the queue of the receives alone. -/
lemma Handler.run_mInComingPacketUserIndex {handler : Handler} {env : Env} {i n : ℕ}
    {p : View} {σ τ : Server} (h : handler.run env i n p σ = .ok τ) :
    τ.mInComingPacketUserIndex = σ.mInComingPacketUserIndex := by
  refine Handler.run_induction (P := fun τ => τ.mInComingPacketUserIndex =
    σ.mInComingPacketUserIndex) (fun τ υ heffect hτ => ?_) h rfl
  cases heffect <;> exact hτ

namespace Server

variable {τ : Server} {env : Env}

/-- **What a dispatch does to the queues.** -/
theorem dispatch_pushes {taken : Option RecvPacket × Server} (h : dispatch env taken = .ok τ) :
    ∃ tasks, taken.2.Pushes τ tasks ∧ ∀ task ∈ tasks, task.taskID = .requestLogin →
      ∃ q, taken.1 = some q ∧ q.packetId = PacketId.loginRequest.code ∧
        task.userIndex = q.clientIndex := by
  obtain ⟨p, σ⟩ := taken
  cases p with
  | none => exact ⟨[], Except.ok.inj h ▸ .refl σ, by simp⟩
  | some q =>
      rw [dispatch, processRecvPacket] at h
      cases hfind : findHandler q.packetId with
      | none =>
          rw [hfind] at h
          exact ⟨[], Except.ok.inj h ▸ .refl σ, by simp⟩
      | some handler =>
          rw [hfind] at h
          obtain ⟨tasks, hpushes, hlogin⟩ := Handler.run_pushes h
          refine ⟨tasks, hpushes, fun task htask hid => ⟨q, rfl, ?_, (hlogin task htask hid).2⟩⟩
          rw [(hlogin task htask hid).1] at hfind
          exact findHandler_injective hfind rfl

end Server

namespace Server

variable (σ : Server)

/-- `DequePacketData` leaves the other queues alone. -/
lemma queues_dequePacketData : σ.dequePacketData.2.mRequestTask = σ.mRequestTask ∧
    σ.dequePacketData.2.mResponseTask = σ.mResponseTask ∧
      σ.dequePacketData.2.mSystemPacketQueue = σ.mSystemPacketQueue := by
  rw [dequePacketData]
  split <;> exact ⟨rfl, rfl, rfl⟩

/-- The system packet that is dispatched comes from the queue. -/
lemma queues_systemPacket :
    σ.systemPacket.2.mRequestTask = σ.mRequestTask ∧
      σ.systemPacket.2.mResponseTask = σ.mResponseTask ∧
      σ.systemPacket.2.mUserObjPool = σ.mUserObjPool ∧
      (∀ q ∈ σ.systemPacket.2.mSystemPacketQueue, q ∈ σ.mSystemPacketQueue) ∧
      ∀ p, σ.systemPacket.1 = some p → ∃ q ∈ σ.mSystemPacketQueue, q.packetId = p.packetId := by
  cases hq : σ.mSystemPacketQueue with
  | nil => simp [systemPacket, dequeSystemPacketData, hq]
  | cons packet rest =>
      simp only [systemPacket, dequeSystemPacketData, hq, true_and]
      refine ⟨fun q h => List.mem_cons_of_mem _ h, fun p hp => ?_⟩
      split at hp
      · exact ⟨packet, List.mem_cons_self, congrArg RecvPacket.packetId (Option.some.inj hp)⟩
      · cases hp

/-- `TakeResponseTask` takes the first response and changes nothing else. -/
lemma queues_takeResponseTask :
    σ.takeResponseTask.2.mRequestTask = σ.mRequestTask ∧
      σ.takeResponseTask.2.mResponseTask = σ.mResponseTask.drop 1 ∧
      σ.takeResponseTask.2.mSystemPacketQueue = σ.mSystemPacketQueue ∧
      σ.takeResponseTask.2.mUserObjPool = σ.mUserObjPool ∧
      σ.takeResponseTask.2.sent = σ.sent := by
  cases hq : σ.mResponseTask <;> simp [takeResponseTask, hq]

/-- `TakeRequestTask` takes the first request. -/
lemma queues_takeRequestTask :
    σ.takeRequestTask.2.mRequestTask = σ.mRequestTask.drop 1 ∧
      σ.takeRequestTask.2.mResponseTask = σ.mResponseTask ∧
      σ.takeRequestTask.2.mSystemPacketQueue = σ.mSystemPacketQueue ∧
      σ.takeRequestTask.2.mUserObjPool = σ.mUserObjPool := by
  cases hq : σ.mRequestTask <;> simp [takeRequestTask, hq]

/-- The packet made of a response has the id of the response. -/
lemma packetId_responsePacket {p : RecvPacket} (h : σ.responsePacket.1 = some p) :
    p.packetId = σ.takeResponseTask.1.taskID.code := by
  rw [responsePacket] at h
  simp only at h
  split at h
  · exact (congrArg RecvPacket.packetId (Option.some.inj h)).symm
  · cases h

end Server

/-! ### The Redis thread -/

section TaskProcess

variable {env : RedisEnv} {db : Store} {task : RedisTask} {req : RedisTradeReq}
  {out : RedisOutcome}

lemma tasks_requestLoadInventory (h : requestLoadInventory env db task = .ok out) :
    out.requests = [] ∧ ∀ response ∈ out.responses,
      response.taskID = .responseLoadInventory ∧ response.userIndex = task.userIndex := by
  simp only [requestLoadInventory] at h
  split at h
  · obtain ⟨slots, -, rfl⟩ := exists_of_map_eq_ok h
    exact ⟨rfl, by simp [RedisTask.make]⟩
  · obtain ⟨r, -, rfl⟩ := exists_of_map_eq_ok h
    exact ⟨rfl, by simp [RedisTask.make]⟩

lemma tasks_requestTradeExchange (h : requestTradeExchange env db req = .ok out) :
    out.requests = [] ∧ ∀ response ∈ out.responses, response.taskID = .responseTradeExchange := by
  rw [requestTradeExchange] at h
  split at h
  · obtain ⟨a, -, h⟩ := exists_of_bind_eq_ok h
    obtain ⟨b, -, h⟩ := exists_of_bind_eq_ok h
    obtain ⟨a', -, h⟩ := exists_of_bind_eq_ok h
    obtain ⟨b', -, h⟩ := exists_of_bind_eq_ok h
    simp only at h
    split at h
    all_goals
      obtain rfl := Except.ok.inj h
      exact ⟨rfl, by simp [tradeResponses, RedisTask.make]⟩
  · obtain rfl := Except.ok.inj h
    exact ⟨rfl, by simp⟩

lemma tasks_requestShopUpdate (h : requestShopUpdate env db task = .ok out) :
    out.requests = [] ∧ ∀ response ∈ out.responses, response.taskID = .responseShopUpdate := by
  rw [requestShopUpdate] at h
  simp only [bind, Except.bind] at h
  repeat' split at h
  all_goals cases h
  all_goals exact ⟨rfl, by simp [RedisTask.make]⟩

lemma tasks_requestShopBuy (h : requestShopBuy env db task = .ok out) :
    (∀ request ∈ out.requests, request.taskID = .requestLoadInventory) ∧
      ∀ response ∈ out.responses, response.taskID = .responseShopBuy := by
  rw [requestShopBuy] at h
  obtain ⟨inven, -, h⟩ := exists_of_bind_eq_ok h
  split at h
  all_goals
    obtain rfl := Except.ok.inj h
    simp [RedisTask.make]

/-- A login, or a load of an inventory, leads to responses for the same slot only. -/
theorem taskProcess_login (hid : task.taskID = .requestLogin ∨ task.taskID = .requestLoadInventory)
    (h : taskProcess env db task = .ok out) :
    out.requests = [] ∧ ∀ response ∈ out.responses,
      (response.taskID = .responseLogin ∨ response.taskID = .responseLoadInventory) ∧
        response.userIndex = task.userIndex := by
  rcases hid with hid | hid
  · rw [taskProcess, hid] at h
    obtain rfl := Except.ok.inj h
    exact ⟨rfl, by simp [requestLogin, RedisTask.make]⟩
  · rw [taskProcess, hid] at h
    obtain ⟨hnone, hresponses⟩ := tasks_requestLoadInventory h
    exact ⟨hnone, fun response hresponse =>
      ⟨.inr (hresponses response hresponse).1, (hresponses response hresponse).2⟩⟩

/-- Only a login leads to a `RESPONSE_LOGIN`, and no task leads to a `REQUEST_LOGIN`. -/
theorem taskProcess_other (hid : task.taskID ≠ .requestLogin)
    (h : taskProcess env db task = .ok out) :
    (∀ response ∈ out.responses, response.taskID ≠ .responseLogin) ∧
      ∀ request ∈ out.requests, request.taskID ≠ .requestLogin := by
  rw [taskProcess] at h
  split at h
  · contradiction
  · obtain rfl := Except.ok.inj h
    simp [requestNotice]
  · obtain ⟨hnone, hresponses⟩ := tasks_requestLoadInventory h
    exact ⟨fun response hresponse => by simp [hresponses response hresponse], by simp [hnone]⟩
  · obtain ⟨hnone, hresponses⟩ := tasks_requestTradeExchange h
    exact ⟨fun response hresponse => by simp [hresponses response hresponse], by simp [hnone]⟩
  · obtain ⟨hnone, hresponses⟩ := tasks_requestShopUpdate h
    exact ⟨fun response hresponse => by simp [hresponses response hresponse], by simp [hnone]⟩
  · obtain ⟨hrequests, hresponses⟩ := tasks_requestShopBuy h
    exact ⟨fun response hresponse => by simp [hresponses response hresponse],
      fun request hrequest => by simp [hrequests request hrequest]⟩
  · obtain rfl := Except.ok.inj h
    simp

end TaskProcess

/-! ### The responses to a login -/

/-- No task has the id of a `LOGIN_REQUEST`. -/
lemma code_ne_loginRequest (id : RedisTaskID) : id.code ≠ PacketId.loginRequest.code := by
  cases id <;> decide

namespace Server

/-- From `σ` to `τ` no user changes but the one at `i`, and packets are sent to `i` only. -/
structure TouchesOnly (σ τ : Server) (i : ℕ) : Prop where
  mUserObjPool : ∀ j, j ≠ i → τ.mUserObjPool j = σ.mUserObjPool j
  sent : ∃ packets, τ.sent = σ.sent ++ packets ∧ ∀ q ∈ packets, q.1 = i

variable {σ τ : Server} {env : Env} {i : ℕ}

lemma TouchesOnly.modUser (h : σ.TouchesOnly τ i) (f : User → User) :
    σ.TouchesOnly (τ.modUser i f) i :=
  ⟨fun j hj => by rw [modUser_mUserObjPool, Function.update_of_ne hj, h.mUserObjPool j hj], h.sent⟩

lemma TouchesOnly.sendPacketFunc (h : σ.TouchesOnly τ i) (packet : ServerPacket) :
    σ.TouchesOnly (τ.sendPacketFunc i packet) i := by
  obtain ⟨packets, hsent, hto⟩ := h.sent
  refine ⟨h.mUserObjPool, packets ++ [(i, packet)], ?_, fun q hq => ?_⟩
  · rw [Server.sendPacketFunc, sendAll_sent, hsent, List.append_assoc]
  · rcases List.mem_append.mp hq with hq | hq
    · exact hto q hq
    · rw [List.mem_singleton.mp hq]

lemma TouchesOnly.pushTask (h : σ.TouchesOnly τ i) (task : RedisTask) :
    σ.TouchesOnly (τ.pushTask task) i := ⟨h.mUserObjPool, h.sent⟩

lemma touchesOnly_takeResponseTask (σ : Server) (i : ℕ) : σ.TouchesOnly σ.takeResponseTask.2 i := by
  obtain ⟨-, -, -, hpool, hsent⟩ := σ.queues_takeResponseTask
  exact ⟨fun j _ => by rw [hpool], [], by rw [hsent, List.append_nil], by simp⟩

/-- A response that is taken runs its handler on the rest of the queue. -/
lemma dispatch_response {handler : Handler} {id : RedisTaskID}
    (hfind : findHandler id.code = some handler) (hvalid : id ≠ .invalid)
    (hid : σ.takeResponseTask.1.taskID = id) (h : dispatch env σ.responsePacket = .ok τ) :
    handler.run env σ.takeResponseTask.1.userIndex σ.takeResponseTask.1.dataSize
      σ.takeResponseTask.1.pData σ.takeResponseTask.2 = .ok τ := by
  rw [responsePacket] at h
  simp only [hid, if_pos hvalid, dispatch, processRecvPacket, hfind] at h
  exact h

/-- `ProcessLoginDBResult` touches the slot of the response, and the task it pushes if the login
succeeds is one for slot 0. -/
theorem dispatch_responseLogin (hid : σ.takeResponseTask.1.taskID = .responseLogin)
    (h : dispatch env σ.responsePacket = .ok τ) :
    σ.TouchesOnly τ σ.takeResponseTask.1.userIndex ∧
      ∃ tasks, τ.mRequestTask = σ.mRequestTask ++ tasks ∧ ∀ t ∈ tasks,
        loginResultAt σ.takeResponseTask.1.pData = ErrorCode.none.code ∧
          t.taskID = .requestLoadInventory ∧ t.userIndex = 0 := by
  have hfind : findHandler RedisTaskID.responseLogin.code = some .processLoginDBResult := by decide
  have hrun := dispatch_response hfind (by decide) hid h
  have htaken := σ.touchesOnly_takeResponseTask σ.takeResponseTask.1.userIndex
  rw [← σ.queues_takeResponseTask.1, ← Except.ok.inj hrun, PacketManager.processLoginDBResult]
  split
  · rename_i hsuccess
    exact ⟨((htaken.modUser _).sendPacketFunc _).pushTask _, [_], rfl,
      by simp [hsuccess, PacketManager.loadInventoryTask, RedisTask.make]⟩
  · exact ⟨htaken.sendPacketFunc _, [], (List.append_nil _).symm, by simp⟩

/-- `ProcessInventoryDBResult` touches the slot of the response and pushes nothing. -/
theorem dispatch_responseLoadInventory
    (hid : σ.takeResponseTask.1.taskID = .responseLoadInventory)
    (h : dispatch env σ.responsePacket = .ok τ) :
    σ.TouchesOnly τ σ.takeResponseTask.1.userIndex ∧ τ.mRequestTask = σ.mRequestTask := by
  have hfind : findHandler RedisTaskID.responseLoadInventory.code =
      some .processInventoryDBResult := by decide
  have hrun := dispatch_response hfind (by decide) hid h
  have htaken := σ.touchesOnly_takeResponseTask σ.takeResponseTask.1.userIndex
  rw [← σ.queues_takeResponseTask.1, ← Except.ok.inj hrun, PacketManager.processInventoryDBResult]
  exact ⟨(htaken.modUser _).sendPacketFunc _, rfl⟩

end Server

/-! ### The steps of the two threads -/

namespace World

/-- A dispatch by the process thread, with the server it leaves. -/
lemma exists_dispatch {env : Env} {p : Option RecvPacket × Server} {w w' : World}
    (h : (Server.dispatch env p).toOption.map (fun σ => { w with server := σ }) = some w') :
    Server.dispatch env p = .ok w'.server := by
  obtain ⟨σ, hσ, rfl⟩ := Option.map_eq_some_iff.mp h
  cases hd : Server.dispatch env p with
  | error f => rw [hd] at hσ; cases hσ
  | ok τ => rw [hd] at hσ; exact congrArg Except.ok (Option.some.inj hσ)

/-- A pass of the Redis thread, with the world it leaves. -/
lemma exists_taskProcess {env : RedisEnv} {w w' : World}
    (h : World.step w (.redisTask env) = some w') :
    ∃ out, taskProcess env w.store w.server.takeRequestTask.1 = .ok out ∧
      w' = commit w.server.takeRequestTask.2 out := by
  change (taskProcess env w.store w.server.takeRequestTask.1).toOption.map
    (fun out => commit w.server.takeRequestTask.2 out) = some w' at h
  obtain ⟨out, hout, rfl⟩ := Option.map_eq_some_iff.mp h
  refine ⟨out, ?_, rfl⟩
  cases hp : taskProcess env w.store w.server.takeRequestTask.1 with
  | error f => rw [hp] at hout; cases hout
  | ok out' => rw [hp] at hout; exact congrArg Except.ok (Option.some.inj hout)

/-- The database changes by tasks only. -/
lemma store_of_step {w w' : World} {e : Event} (h : w.step e = some w')
    (he : ∀ env, e ≠ .redisTask env) : w'.store = w.store := by
  cases e with
  | receive i pData =>
      obtain ⟨σ, -, rfl⟩ := Option.map_eq_some_iff.mp h
      rfl
  | clientPacket env =>
      obtain ⟨σ, -, rfl⟩ := Option.map_eq_some_iff.mp h
      rfl
  | systemPacket env =>
      obtain ⟨σ, -, rfl⟩ := Option.map_eq_some_iff.mp h
      rfl
  | response env =>
      obtain ⟨σ, -, rfl⟩ := Option.map_eq_some_iff.mp h
      rfl
  | redisTask env => exact absurd rfl (he env)
  | connect i => exact Option.some.inj h ▸ rfl
  | close i => exact Option.some.inj h ▸ rfl
  | tick env => exact Option.some.inj h ▸ rfl
  | subscribe env message => exact Option.some.inj h ▸ rfl

end World

end CKGameServer
