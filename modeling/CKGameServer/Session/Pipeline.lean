import CKGameServer.Shop.Broadcast

/-!
Requests to the Redis thread and the packets that answer them (`PushTask`, `TaskProcessThread`,
`PushResponse`, `ProcessPacket`).

* `Query`: a login, a load of an inventory and a purchase, each with the ids of its request and its
  response and with the packet that answers it.
* `Query.clients_taskProcess`: a request gets one response, for its own slot.
* `Query.exists_answered_of_response`: a response that is taken is answered by one packet.
* `Query.Logged`: the server with the slots for which something has been asked and those that have
  been answered; `Query.answered_inOrder`: the first ones asked have been answered.
-/

namespace CKGameServer

open Memory PacketManager

/-- What the process thread asks the Redis thread to find out for a slot. -/
inductive Query where
  | login | loadInventory | shopBuy
  deriving DecidableEq, Repr

/-- The slots of the tasks with an id, in order. -/
def clientsOf (id : RedisTaskID) (tasks : List RedisTask) : List ℕ :=
  (tasks.filter fun task => task.taskID = id).map RedisTask.userIndex

lemma clientsOf_append (id : RedisTaskID) (tasks tasks' : List RedisTask) :
    clientsOf id (tasks ++ tasks') = clientsOf id tasks ++ clientsOf id tasks' := by
  rw [clientsOf, List.filter_append, List.map_append]
  rfl

lemma clientsOf_eq_nil {id : RedisTaskID} {tasks : List RedisTask}
    (h : ∀ task ∈ tasks, task.taskID ≠ id) : clientsOf id tasks = [] := by
  rw [clientsOf, List.map_eq_nil_iff, List.filter_eq_nil_iff]
  exact fun task htask => by simpa using h task htask

lemma clientsOf_singleton (id : RedisTaskID) (task : RedisTask) :
    clientsOf id [task] = if task.taskID = id then [task.userIndex] else [] := by
  rw [clientsOf, List.filter_singleton]
  by_cases h : task.taskID = id <;> simp [h]

namespace Query

def request : Query → RedisTaskID
  | login => .requestLogin
  | loadInventory => .requestLoadInventory
  | shopBuy => .requestShopBuy

def response : Query → RedisTaskID
  | login => .responseLogin
  | loadInventory => .responseLoadInventory
  | shopBuy => .responseShopBuy

/-- The packet answers the query. -/
def isAnswer : Query → ServerPacket → Bool
  | login, .loginResponse _ => true
  | loadInventory, .inventoryInfo _ _ => true
  | shopBuy, .shopBuyResponse _ => true
  | _, _ => false

/-- The slots that are sent an answer, in order. -/
def answered (q : Query) (packets : List (ℕ × ServerPacket)) : List ℕ :=
  (packets.filter fun p => q.isAnswer p.2).map Prod.fst

/-! ### One task -/

section Task

variable {env : RedisEnv} {db : Store} {task : RedisTask} {out : RedisOutcome} (q : Query)

lemma exists_response_loadInventory (h : requestLoadInventory env db task = .ok out) :
    ∃ response, out.responses = [response] ∧ response.taskID = .responseLoadInventory ∧
      response.userIndex = task.userIndex := by
  rw [requestLoadInventory] at h
  simp only at h
  split at h
  · obtain ⟨slots, -, rfl⟩ := exists_of_map_eq_ok h
    exact ⟨_, rfl, rfl, rfl⟩
  · obtain ⟨r, -, rfl⟩ := exists_of_map_eq_ok h
    exact ⟨_, rfl, rfl, rfl⟩

lemma exists_response_shopBuy (h : requestShopBuy env db task = .ok out) :
    ∃ response, out.responses = [response] ∧ response.taskID = .responseShopBuy ∧
      response.userIndex = task.userIndex := by
  rw [requestShopBuy] at h
  obtain ⟨inven, -, h⟩ := exists_of_bind_eq_ok h
  split at h
  all_goals
    obtain rfl := Except.ok.inj h
    exact ⟨_, rfl, rfl, rfl⟩

/-- The one response to a request. -/
lemma clientsOf_one {response : RedisTask} (hid : ∃ p : Query, task.taskID = p.request ∧
    response.taskID = p.response) (hclient : response.userIndex = task.userIndex) :
    clientsOf q.response [response] = clientsOf q.request [task] := by
  obtain ⟨p, htask, hresponse⟩ := hid
  rw [clientsOf_singleton, clientsOf_singleton, htask, hresponse, hclient]
  cases p <;> cases q <;> rfl

/-- **A request gets one response**, for its own slot, and nothing else does. -/
theorem clients_taskProcess (h : taskProcess env db task = .ok out) :
    clientsOf q.response out.responses = clientsOf q.request [task] := by
  have hother : (∀ response ∈ out.responses, ∀ p : Query, response.taskID ≠ p.response) →
      (∀ p : Query, task.taskID ≠ p.request) →
      clientsOf q.response out.responses = clientsOf q.request [task] := fun hresponses htask => by
    rw [clientsOf_eq_nil fun response hresponse => hresponses response hresponse q,
      clientsOf_singleton, if_neg (htask q)]
  rw [taskProcess] at h
  split at h
  · rename_i hid
    obtain rfl := Except.ok.inj h
    exact q.clientsOf_one ⟨.login, hid, rfl⟩ rfl
  · rename_i hid
    obtain rfl := Except.ok.inj h
    exact hother (by simp [requestNotice]) fun p => by cases p <;> simp [hid, request]
  · rename_i hid
    obtain ⟨response, hresponses, hresponse, hclient⟩ := exists_response_loadInventory h
    rw [hresponses]
    exact q.clientsOf_one ⟨.loadInventory, hid, hresponse⟩ hclient
  · rename_i hid
    refine hother (fun response hresponse p => ?_) fun p => by cases p <;> simp [hid, request]
    rw [(tasks_requestTradeExchange h).2 response hresponse]
    cases p <;> decide
  · rename_i hid
    refine hother (fun response hresponse p => ?_) fun p => by cases p <;> simp [hid, request]
    rw [(tasks_requestShopUpdate h).2 response hresponse]
    cases p <;> decide
  · rename_i hid
    obtain ⟨response, hresponses, hresponse, hclient⟩ := exists_response_shopBuy h
    rw [hresponses]
    exact q.clientsOf_one ⟨.shopBuy, hid, hresponse⟩ hclient
  · obtain rfl := Except.ok.inj h
    refine hother (by simp) fun p hid => ?_
    cases p <;> simp_all [request]

end Task

/-! ### One response -/

section Response

variable {env : Env} {σ τ : Server} (q : Query)

lemma answered_eq_nil {packets : List (ℕ × ServerPacket)}
    (h : ∀ p ∈ packets, q.isAnswer p.2 = false) : q.answered packets = [] := by
  rw [answered, List.map_eq_nil_iff, List.filter_eq_nil_iff]
  exact fun p hp => by simp [h p hp]

/-- The response that is taken is the first. -/
lemma clientsOf_takeResponseTask (σ : Server) :
    clientsOf q.response σ.mResponseTask = clientsOf q.response [σ.takeResponseTask.1] ++
      clientsOf q.response σ.takeResponseTask.2.mResponseTask := by
  rw [Server.takeResponseTask]
  cases htasks : σ.mResponseTask with
  | nil =>
      simp only
      rw [htasks, clientsOf_singleton, if_neg (by cases q <;> decide)]
      rfl
  | cons task rest => exact clientsOf_append _ [task] rest

/-- And so is the request. -/
lemma clientsOf_takeRequestTask (σ : Server) :
    clientsOf q.request σ.mRequestTask = clientsOf q.request [σ.takeRequestTask.1] ++
      clientsOf q.request σ.takeRequestTask.2.mRequestTask := by
  rw [Server.takeRequestTask]
  cases htasks : σ.mRequestTask with
  | nil =>
      simp only
      rw [htasks, clientsOf_singleton, if_neg (by cases q <;> decide)]
      rfl
  | cons task rest => exact clientsOf_append _ [task] rest

/-- An answer is sent by the handler of a response to a query, or by `ProcessLogin`. -/
lemma sender_of_isAnswer {packet : ServerPacket} {handler : Handler}
    (hanswer : q.isAnswer packet = true) (hsender : handler ∈ packet.senders) :
    handler ∈ [Handler.processLogin, .processLoginDBResult, .processInventoryDBResult,
      .processShopBuyDBResult] := by
  cases packet
  case loginResponse | inventoryInfo | shopBuyResponse =>
    simp only [ServerPacket.senders, List.mem_cons, List.not_mem_nil, or_false] at hsender ⊢
    tauto
  all_goals cases q <;> cases hanswer

/-- The handlers of the three responses send one answer. -/
lemma answered_of_handler {handler : Handler} {i n : ℕ} {p : View} {id : RedisTaskID}
    (hfind : findHandler id.code = some handler) (h : handler.run env i n p σ = .ok τ) :
    ∃ packets, τ.sent = σ.sent ++ packets ∧
      q.answered packets = if id = q.response then [i] else [] := by
  have hothers : id ≠ q.response → handler ∉ [Handler.processLogin, .processLoginDBResult,
      .processInventoryDBResult, .processShopBuyDBResult] → ∃ packets,
        τ.sent = σ.sent ++ packets ∧
        q.answered packets = if id = q.response then [i] else [] := fun hid hnone => by
    obtain ⟨packets, hsent, hown⟩ := (Handler.run_issues h).sent
    refine ⟨packets, hsent, ?_⟩
    rw [if_neg hid, q.answered_eq_nil fun p hp => ?_]
    exact Bool.eq_false_iff.mpr fun hanswer => hnone (q.sender_of_isAnswer hanswer (hown p hp))
  cases id with
  | responseLogin =>
      obtain rfl : Handler.processLoginDBResult = handler := Option.some.inj hfind
      obtain rfl := Except.ok.inj h
      refine ⟨[(i, .loginResponse (i % 2 ^ 16))], ?_, by cases q <;> rfl⟩
      rw [processLoginDBResult]
      split <;> rfl
  | responseLoadInventory =>
      obtain rfl : Handler.processInventoryDBResult = handler := Option.some.inj hfind
      obtain rfl := Except.ok.inj h
      exact ⟨[(i, _)], rfl, by cases q <;> rfl⟩
  | responseShopBuy =>
      obtain rfl : Handler.processShopBuyDBResult = handler := Option.some.inj hfind
      obtain rfl := Except.ok.inj h
      exact ⟨[(i, _)], rfl, by cases q <;> rfl⟩
  | responseNotice =>
      obtain rfl : Handler.processNoticeDBResult = handler := Option.some.inj hfind
      exact hothers (by cases q <;> decide) (by decide)
  | responseShopUpdate =>
      obtain rfl : Handler.processShopUpdateDBResult = handler := Option.some.inj hfind
      exact hothers (by cases q <;> decide) (by decide)
  | responseTradeExchange =>
      obtain rfl : Handler.processTradeDBResult = handler := Option.some.inj hfind
      exact hothers (by cases q <;> decide) (by decide)
  | _ => cases hfind

/-- **A response that is taken is answered by one packet**, to its slot. -/
theorem exists_answered_of_response (h : Server.dispatch env σ.responsePacket = .ok τ) :
    ∃ packets, τ.sent = σ.sent ++ packets ∧
      q.answered packets = clientsOf q.response [σ.takeResponseTask.1] := by
  rw [clientsOf_singleton, ← σ.queues_takeResponseTask.2.2.2.2]
  generalize hid : σ.takeResponseTask.1.taskID = id
  by_cases hvalid : id = .invalid
  · have hnone : σ.responsePacket = (none, σ.takeResponseTask.2) := by
      rw [Server.responsePacket]
      simp only [hid, hvalid, ne_eq, not_true_eq_false, if_false]
    rw [hnone] at h
    obtain rfl := Except.ok.inj h
    refine ⟨[], (List.append_nil _).symm, ?_⟩
    rw [hvalid, if_neg (by cases q <;> decide)]
    rfl
  cases hfind : findHandler id.code with
  | some handler =>
      exact q.answered_of_handler hfind (Server.dispatch_response hfind hvalid hid h)
  | none =>
      have hother : id ≠ q.response := fun heq => by
        rw [heq] at hfind
        cases q <;> cases hfind
      have hsome : σ.responsePacket.1 = some ⟨σ.takeResponseTask.1.userIndex, id.code,
          σ.takeResponseTask.1.dataSize, σ.takeResponseTask.1.pData⟩ := by
        rw [Server.responsePacket]
        simp only [hid, ne_eq, hvalid, not_false_eq_true, if_true]
      have hpacket : σ.responsePacket = (σ.responsePacket.1, σ.takeResponseTask.2) := rfl
      rw [hpacket, hsome, Server.dispatch, processRecvPacket, hfind] at h
      obtain rfl := Except.ok.inj h
      exact ⟨[], (List.append_nil _).symm, by rw [if_neg hother]; rfl⟩

end Response

/-! ### Runs -/

/-- The server with the slots for which the query has been pushed, and those that a response has
answered. -/
abbrev Logged := World × List ℕ × List ℕ

namespace Logged

variable (q : Query)

/-- The requests that a step pushes. -/
def pushed (w : World) (e : Event) (w' : World) : List ℕ :=
  clientsOf q.request (w'.server.mRequestTask.drop (w.rest e).mRequestTask.length)

/-- The slots that a step answers because of a response. -/
def answers (w : World) (e : Event) (w' : World) : List ℕ :=
  match e with
  | .response _ => q.answered (w'.server.sent.drop w.server.sent.length)
  | _ => []

/-- The history after a step. -/
def next (s : Logged) (e : Event) (w' : World) : List ℕ × List ℕ :=
  (s.2.1 ++ pushed q s.1 e w', s.2.2 ++ answers q s.1 e w')

def step : Logged → Event → Option Logged := Runs.withHistory World.step (next q)

def init (maxClient : ℕ) (memory : ℕ → View) (store : Store) : Logged :=
  (World.init maxClient memory store, [], [])

/-- The first slots asked for have been answered; the responses for the next ones wait, and then
come those whose requests wait. -/
def InOrder (s : Logged) : Prop :=
  s.2.1 = s.2.2 ++ clientsOf q.response s.1.server.mResponseTask ++
    clientsOf q.request s.1.server.mRequestTask

variable {q} {w w' : World} {e : Event} {s : Logged}

/-- A message that is heard is a notice. -/
lemma taskID_subscribeTask (env : Env) (message : Bytes) :
    (Server.subscribeTask env message).taskID = .responseNotice := rfl

/-- The requests that are pushed stand behind those that are left. -/
lemma clientsOf_pushed (h : w.step e = some w') :
    clientsOf q.request w'.server.mRequestTask =
      clientsOf q.request (w.rest e).mRequestTask ++ pushed q w e w' := by
  obtain ⟨requests, -, hrequests, -⟩ := World.exists_queues_of_step h
  rw [pushed, hrequests, List.drop_left, clientsOf_append]

/-- A step that takes nothing from the queues, and pushes no response to the query. -/
lemma exists_queues_of_rest (hrest : w.rest e = w.server)
    (hanswers : answers q w e w' = [])
    (hresponses : clientsOf q.response w'.server.mResponseTask =
      clientsOf q.response w.server.mResponseTask) :
    ∃ moved, clientsOf q.request w.server.mRequestTask =
        moved ++ clientsOf q.request (w.rest e).mRequestTask ∧
      clientsOf q.response w.server.mResponseTask ++ moved =
        answers q w e w' ++ clientsOf q.response w'.server.mResponseTask :=
  ⟨[], by rw [hrest, List.nil_append], by rw [hanswers, hresponses, List.append_nil,
    List.nil_append]⟩

/-- What a step takes from the requests it puts behind the responses, and what it takes from the
responses it answers. -/
lemma exists_queues (h : w.step e = some w') :
    ∃ moved, clientsOf q.request w.server.mRequestTask =
        moved ++ clientsOf q.request (w.rest e).mRequestTask ∧
      clientsOf q.response w.server.mResponseTask ++ moved =
        answers q w e w' ++ clientsOf q.response w'.server.mResponseTask := by
  cases e with
  | redisTask env =>
      obtain ⟨out, hout, rfl⟩ := World.exists_taskProcess h
      refine ⟨clientsOf q.request [w.server.takeRequestTask.1], q.clientsOf_takeRequestTask _, ?_⟩
      show _ = clientsOf q.response (w.server.takeRequestTask.2.mResponseTask ++ out.responses)
      rw [clientsOf_append, q.clients_taskProcess hout, w.server.queues_takeRequestTask.2.1]
  | response env =>
      have hdispatch := World.exists_dispatch h
      obtain ⟨packets, hsent, hanswered⟩ := q.exists_answered_of_response hdispatch
      obtain ⟨_, hpushes, -⟩ := Server.dispatch_pushes hdispatch
      refine ⟨[], congrArg (clientsOf _) w.server.queues_takeResponseTask.1.symm, ?_⟩
      have hleft : w'.server.mResponseTask = w.server.takeResponseTask.2.mResponseTask :=
        hpushes.mResponseTask
      rw [answers, hsent, List.drop_left, hanswered, List.append_nil, hleft]
      exact q.clientsOf_takeResponseTask _
  | subscribe env message =>
      obtain rfl := Option.some.inj h
      refine exists_queues_of_rest rfl rfl ?_
      show clientsOf q.response (w.server.mResponseTask ++ [_]) = _
      have hother : (Server.subscribeTask env message).taskID ≠ q.response := by
        rw [taskID_subscribeTask]
        cases q <;> decide
      rw [clientsOf_append, clientsOf_singleton, if_neg hother, List.append_nil]
  | clientPacket env =>
      obtain ⟨_, hpushes, -⟩ := Server.dispatch_pushes (World.exists_dispatch h)
      refine exists_queues_of_rest rfl rfl (congrArg (clientsOf _) ?_)
      exact hpushes.mResponseTask.trans w.server.queues_dequePacketData.2.1
  | systemPacket env =>
      obtain ⟨_, hpushes, -⟩ := Server.dispatch_pushes (World.exists_dispatch h)
      refine exists_queues_of_rest rfl rfl (congrArg (clientsOf _) ?_)
      exact hpushes.mResponseTask.trans w.server.queues_systemPacket.2.1
  | receive i pData =>
      obtain ⟨recv, -, rfl⟩ := World.exists_receive h
      exact exists_queues_of_rest rfl rfl rfl
  | connect i =>
      obtain rfl := Option.some.inj h
      exact exists_queues_of_rest rfl rfl rfl
  | close i =>
      obtain rfl := Option.some.inj h
      exact exists_queues_of_rest rfl rfl rfl
  | tick env =>
      obtain rfl := Option.some.inj h
      exact exists_queues_of_rest rfl rfl rfl

/-- **One step.** -/
lemma InOrder.step (hs : InOrder q s) {w' : World} (h : s.1.step e = some w') :
    InOrder q (w', next q s e w') := by
  obtain ⟨moved, hmoved, hanswered⟩ := exists_queues (q := q) h
  calc s.2.1 ++ pushed q s.1 e w'
      = s.2.2 ++ (clientsOf q.response s.1.server.mResponseTask ++ moved) ++
          (clientsOf q.request (s.1.rest e).mRequestTask ++ pushed q s.1 e w') := by
        rw [hs, hmoved]
        simp only [List.append_assoc]
    _ = s.2.2 ++ answers q s.1 e w' ++ clientsOf q.response w'.server.mResponseTask ++
          clientsOf q.request w'.server.mRequestTask := by
        rw [hanswered, clientsOf_pushed h, ← List.append_assoc s.2.2]

end Logged

/-- **Every request is answered, once and in turn.** In every state of every run, whatever clients
send and in whatever order the threads go on: the slots for which a login (a load, a purchase) has
been pushed are those that have been sent an answer because of a response, then those whose
responses wait, and then those whose requests wait, all in the order in which they were pushed. -/
theorem answered_inOrder (q : Query) (maxClient : ℕ) (memory : ℕ → View) (store : Store)
    (es : List Event) :
    Runs.Always (Logged.step q) (Logged.InOrder q) (Logged.init maxClient memory store) es :=
  Runs.always_of_step (fun s e s' hs h => by
    obtain ⟨w', hw', rfl⟩ := Option.map_eq_some_iff.mp h
    exact hs.step hw') es rfl

end Query

end CKGameServer
