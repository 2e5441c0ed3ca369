import CKGameServer.Shop.Broadcast

/-!
Notices (`SubscribeThread`, `ProcessNoticeDBResult`).

Every pass of the subscriber pushes a response, whether it has read a message or not, and every
response becomes a broadcast.

* `subscribe`: what `CRedisConnEx::subscribe` leaves in `message`, by the reply.
* `publishedText`: the text of a reply that is a message on `ch_notice`.
* `Server.noticeText_subscribeTask`: the text that comes through the structures on its way.
* `World.broadcast`, `World.sent_of_broadcast`: the broadcast of a step, and the packets it sends.
* `Notices.InStep`: what has been broadcast, and then what waits to be, are the messages received.
* `Notices.inStep_iff`: so it is throughout a run exactly if every pass reads a message whose text
  fits, and no client sends a response of its own.
* `Notices.empty_broadcast`: a failed read is broadcast.
-/

namespace CKGameServer

open Memory PacketManager

/-! ### The subscriber -/

/-- The loop of `CRedisConnEx::subscribe` over the elements of a reply, from the element `i` on,
each with its `str`. A string cannot be made of a null `str`. -/
def subscribeElements (i : ℕ) (message : Bytes) : List (Option Bytes) → Option Bytes
  | [] => some message
  | str :: elements =>
    if i = 1 then str.bind fun _ => subscribeElements (i + 1) message elements
    else if i = 2 then str.bind fun s => subscribeElements (i + 1) (cstr s) elements
    else subscribeElements (i + 1) message elements

/-- `CRedisConnEx::subscribe`: the `message` it leaves, by the elements of the reply. No reply is a
failure of `redisGetReply`. -/
def subscribe : Option (List (Option Bytes)) → Option Bytes
  | none => some []
  | some elements => subscribeElements 0 [] elements

/-- `message`. -/
def messageKind : Bytes := [109, 101, 115, 115, 97, 103, 101]

/-- `ch_notice`. -/
def noticeChannel : Bytes := [99, 104, 95, 110, 111, 116, 105, 99, 101]

/-- The text of a message published on `ch_notice`. An empty one counts as none. -/
def publishedText : Option (List (Option Bytes)) → Option Bytes
  | some [some kind, some channel, some text] =>
    if kind = messageKind ∧ channel = noticeChannel ∧ text ≠ [] then some text else none
  | _ => none

/-- The reply is a message with a text of up to 256 bytes, or ends the server. -/
def ReadsNotice (reply : Option (List (Option Bytes))) : Prop :=
  subscribe reply = none ∨
    ∃ text, publishedText reply = some text ∧ (0 : UInt8) ∉ text ∧ text.length ≤ maxChatMsgSize

/-- What the subscriber leaves in `message` holds no zero. -/
lemma zero_notMem_subscribe {reply : Option (List (Option Bytes))} {message : Bytes}
    (h : subscribe reply = some message) : (0 : UInt8) ∉ message := by
  have hloop : ∀ (elements : List (Option Bytes)) (i : ℕ) (m : Bytes), (0 : UInt8) ∉ m →
      subscribeElements i m elements = some message → (0 : UInt8) ∉ message := by
    intro elements
    induction elements with
    | nil =>
        intro i m hm h
        exact Option.some.inj h ▸ hm
    | cons str elements ih =>
        intro i m hm h
        rw [subscribeElements] at h
        split_ifs at h
        · obtain ⟨_, -, h⟩ := Option.bind_eq_some_iff.mp h
          exact ih (i + 1) m hm h
        · obtain ⟨s, -, h⟩ := Option.bind_eq_some_iff.mp h
          exact ih (i + 1) (cstr s) (zero_notMem_cstr s) h
        · exact ih (i + 1) m hm h
  cases reply with
  | none => exact Option.some.inj h ▸ List.not_mem_nil
  | some elements => exact hloop elements 0 [] List.not_mem_nil h

/-- Of a published message the subscriber reads the text. -/
lemma subscribe_of_published {reply : Option (List (Option Bytes))} {text : Bytes}
    (h : publishedText reply = some text) : subscribe reply = some (cstr text) := by
  unfold publishedText at h
  split at h
  · split_ifs at h
    obtain rfl := Option.some.inj h
    rfl
  · cases h

/-- What is read and cut is the text that was published, exactly if the text fits. -/
lemma readsNotice_iff {reply : Option (List (Option Bytes))} {message : Bytes}
    (h : subscribe reply = some message) :
    publishedText reply = some (message.take maxChatMsgSize) ↔ ReadsNotice reply := by
  constructor
  · intro hpublished
    refine .inr ⟨_, hpublished, fun hzero => ?_, List.length_take_le _ _⟩
    exact zero_notMem_subscribe h (List.mem_of_mem_take hzero)
  · rintro (hnone | ⟨text, hpublished, hzero, hlength⟩)
    · cases hnone.symm.trans h
    · obtain rfl := Option.some.inj (h.symm.trans (subscribe_of_published hpublished))
      rw [cstr_eq_self hzero, List.take_of_length_le hlength]
      exact hpublished

/-! ### The response -/

namespace Server

/-- The text of a notice, as `ProcessNoticeDBResult` copies it. -/
def noticeText (pPacket : View) : Bytes :=
  (pPacket.cString (maxUserIdLen + 1)).take maxChatMsgSize

/-- The packet with a text that `ProcessNoticeDBResult` sends to all users. -/
def noticePacket (text : Bytes) : ServerPacket :=
  .roomChatNotify (userIDArray (View.ofBytes gmUserID))
    ((View.ofBytes text).read 0 (maxChatMsgSize + 1))

/-- The texts of the notices that wait to be processed. -/
def waitingNotices (σ : Server) : List Bytes :=
  (σ.mResponseTask.filter fun task => task.taskID = .responseNotice).map fun task =>
    noticeText task.pData

/-- **The text comes through** the response, cut to 256 bytes. -/
lemma noticeText_subscribeTask (env : Env) {message : Bytes} (hzero : (0 : UInt8) ∉ message) :
    noticeText (subscribeTask env message).pData = message.take maxChatMsgSize := by
  have hcopied : ∀ k < maxChatMsgSize + 1,
      (subscribeTask env message).pData (maxUserIdLen + 1 + k) =
        View.ofCString message (env.heap 1) k := by
    intro k hk
    have hsize : maxUserIdLen + 1 + k < redisNoticeSize := Nat.add_lt_add_left hk _
    rw [subscribeTask, RedisTask.make_pData_lt hsize, redisNotice, View.append_apply_add]
  rw [noticeText, View.cString]
  by_cases hshort : message.length ≤ maxChatMsgSize
  · refine congrArg _ (View.cStringFrom_eq hzero (fun k hk => ?_) ?_ (hshort.trans (by decide)))
    · rw [hcopied k (by omega), View.ofCString, if_pos hk, List.getD_eq_getElem _ _ hk]
    · rw [hcopied _ (by omega), View.ofCString, if_neg (lt_irrefl _), if_pos rfl]
  · have hlength : (message.take maxChatMsgSize).length = maxChatMsgSize := by
      rw [List.length_take]
      omega
    have hbytes : ∀ k < maxChatMsgSize, View.ofBytes (message.take maxChatMsgSize) (0 + k) =
        (subscribeTask env message).pData (maxUserIdLen + 1 + k) := by
      intro k hk
      rw [hcopied k (by omega), View.ofCString, if_pos (by omega), Nat.zero_add, View.ofBytes,
        List.getD_eq_getElem _ _ (by omega), List.getD_eq_getElem _ _ (by omega),
        List.getElem_take]
    rw [← View.cStringFrom_take hbytes ?_ (by decide)]
    · exact View.cStringFrom_ofBytes (fun h => hzero (List.mem_of_mem_take h))
        (by rw [hlength]; decide)
    · rw [View.ofBytes, List.getD_eq_default _ _ (by omega)]

/-- Only the id of a notice leads to its handler. -/
lemma taskID_of_findHandler {taskID : RedisTaskID}
    (h : findHandler taskID.code = some .processNoticeDBResult) : taskID = .responseNotice := by
  revert h
  cases taskID <;> decide

end Server

namespace World

variable {w w' : World} {e : Event}

/-- The text of the notice that an event broadcasts. -/
def broadcast (w : World) (e : Event) : Option Bytes :=
  match w.call e with
  | some (.processNoticeDBResult, p) => some (Server.noticeText p.pPacket)
  | _ => none

lemma broadcast_eq_none_iff :
    w.broadcast e = none ↔ ∀ p, w.call e ≠ some (.processNoticeDBResult, p) := by
  rw [broadcast]
  split
  · rename_i p hcall
    exact iff_of_false (by simp) fun h => h p hcall
  · rename_i hcall
    exact iff_of_true rfl hcall

lemma exists_call_of_broadcast {text : Bytes} (h : w.broadcast e = some text) :
    ∃ p, w.call e = some (.processNoticeDBResult, p) ∧ text = Server.noticeText p.pPacket := by
  rw [broadcast] at h
  split at h
  · rename_i p hcall
    exact ⟨p, hcall, (Option.some.inj h).symm⟩
  · cases h

/-- **A broadcast** is sent to the members of all rooms, and nothing else is. -/
theorem sent_of_broadcast {text : Bytes} (hstep : w.step e = some w')
    (h : w.broadcast e = some text) :
    w'.server.sent = w.server.sent ++ ((List.finRange mMaxRoomCount).flatMap fun r =>
      (w.server.mRoomList r).mUserList).map fun u => (u, Server.noticePacket text) := by
  obtain ⟨p, hcall, rfl⟩ := exists_call_of_broadcast h
  obtain ⟨σ, hσ, ⟨hnone, -⟩ | ⟨handler, q, env, hcall', hrun⟩⟩ := step_cases hstep
  · cases hnone.symm.trans hcall
  · obtain ⟨rfl, rfl⟩ := Prod.mk.inj (Option.some.inj (hcall'.symm.trans hcall))
    rw [← congrArg Server.sent (Except.ok.inj hrun), processNoticeDBResult,
      RoomManager.sendToAllUser, Server.sendAll_sent, hσ.sent, List.map_flatMap]
    simp only [Room.toAllUser_false, hσ.mRoomList]
    rfl

/-- A response that is taken is broadcast if it is a notice. -/
lemma broadcast_response (env : Env) :
    (w.broadcast (.response env)).toList ++ (w.rest (.response env)).waitingNotices =
      w.server.waitingNotices := by
  rw [rest, Server.waitingNotices, Server.waitingNotices, w.server.queues_takeResponseTask.2.1]
  cases hqueue : w.server.mResponseTask with
  | nil =>
      have hnone : w.broadcast (.response env) = none := by
        rw [broadcast, call, packet, Server.responsePacket, Server.takeResponseTask, hqueue]
        rfl
      rw [hnone]
      rfl
  | cons task tasks =>
      have htake : w.server.takeResponseTask.1 = task := by rw [Server.takeResponseTask, hqueue]
      rw [List.drop_one, List.tail_cons]
      by_cases hid : task.taskID = .responseNotice
      · have hpacket : w.packet (.response env) = some
            { clientIndex := task.userIndex, packetId := task.taskID.code
              packetSize := task.dataSize, pPacket := task.pData } := by
          simp [packet, Server.responsePacket, Server.takeResponseTask, hqueue, hid]
        have hcall := call_eq_some_iff.mpr ⟨hpacket, by simp only [hid]; rfl⟩
        rw [broadcast, hcall, List.filter_cons_of_pos (by simpa using hid)]
        rfl
      · have hnone : w.broadcast (.response env) = none := by
          refine broadcast_eq_none_iff.mpr fun p hcall => hid ?_
          obtain ⟨hpacket, hfind⟩ := call_eq_some_iff.mp hcall
          rw [w.server.packetId_responsePacket hpacket, htake] at hfind
          exact Server.taskID_of_findHandler hfind
        rw [hnone, List.filter_cons_of_neg (by simpa using hid)]
        rfl

/-- Another event takes no response. -/
lemma waitingNotices_rest (he : ∀ env, e ≠ .response env) :
    (w.rest e).waitingNotices = w.server.waitingNotices := by
  cases e with
  | response env => exact absurd rfl (he env)
  | redisTask env => rw [Server.waitingNotices, rest, w.server.queues_takeRequestTask.2.1]; rfl
  | _ => rfl

end World

/-- The Redis thread pushes no notice. -/
lemma taskProcess_notice {env : RedisEnv} {db : Store} {task : RedisTask} {out : RedisOutcome}
    (h : taskProcess env db task = .ok out) :
    ∀ response ∈ out.responses, response.taskID ≠ .responseNotice := by
  rw [taskProcess] at h
  split at h
  · obtain rfl := Except.ok.inj h
    simp [requestLogin, RedisTask.make]
  · obtain rfl := Except.ok.inj h
    simp [requestNotice]
  · exact fun response hresponse => by simp [(tasks_requestLoadInventory h).2 response hresponse]
  · exact fun response hresponse => by simp [(tasks_requestTradeExchange h).2 response hresponse]
  · exact fun response hresponse => by simp [(tasks_requestShopUpdate h).2 response hresponse]
  · exact fun response hresponse => by simp [(tasks_requestShopBuy h).2 response hresponse]
  · obtain rfl := Except.ok.inj h
    simp

/-- The notices that wait after a step are those it did not take. -/
lemma World.waitingNotices_step {w w' : World} {e : Event} (h : w.step e = some w')
    (he : ∀ env message, e ≠ .subscribe env message) :
    w'.server.waitingNotices = (w.rest e).waitingNotices := by
  have hdispatch : ∀ {env : Env} {taken : Option RecvPacket × Server},
      Server.dispatch env taken = .ok w'.server →
      taken.2.mResponseTask = (w.rest e).mResponseTask →
      w'.server.waitingNotices = (w.rest e).waitingNotices := fun hd htaken => by
    obtain ⟨tasks, hpushes, -⟩ := Server.dispatch_pushes hd
    rw [Server.waitingNotices, hpushes.mResponseTask, htaken]
    rfl
  cases e with
  | receive i pData =>
      obtain ⟨recv, -, rfl⟩ := World.exists_receive h
      rfl
  | clientPacket env => exact hdispatch (exists_dispatch h) w.server.queues_dequePacketData.2.1
  | systemPacket env => exact hdispatch (exists_dispatch h) w.server.queues_systemPacket.2.1
  | response env => exact hdispatch (exists_dispatch h) rfl
  | redisTask env =>
      obtain ⟨out, hout, rfl⟩ := exists_taskProcess h
      have hnone : out.responses.filter (fun task => task.taskID = .responseNotice) = [] :=
        List.filter_eq_nil_iff.mpr fun response hresponse => by
          simpa using taskProcess_notice hout response hresponse
      simp only [Server.waitingNotices, commit, List.filter_append, hnone, List.append_nil]
      rfl
  | connect i => exact Option.some.inj h ▸ rfl
  | close i => exact Option.some.inj h ▸ rfl
  | tick env => exact Option.some.inj h ▸ rfl
  | subscribe env message => exact absurd rfl (he env message)

/-! ### Runs -/

/-- What happens next: the subscriber makes a pass of its loop, or any other thread moves. -/
inductive NoticeEvent where
  | subscribe (env : Env) (reply : Option (List (Option Bytes)))
  | other (e : Event) (h : ∀ env message, e ≠ .subscribe env message)

/-- The server, with the messages that its subscriber has received and the texts of the notices it
has broadcast. -/
structure Notices where
  world : World
  received : List Bytes := []
  broadcasts : List Bytes := []

namespace Notices

/-- One step. -/
def step (s : Notices) : NoticeEvent → Option Notices
  | .subscribe env reply =>
    (CKGameServer.subscribe reply).bind fun message =>
      (s.world.step (.subscribe env message)).map fun w =>
        { s with world := w, received := s.received ++ (publishedText reply).toList }
  | .other e _ =>
    (s.world.step e).map fun w =>
      { s with world := w, broadcasts := s.broadcasts ++ (s.world.broadcast e).toList }

/-- What has been broadcast, and then what waits to be, are the messages received, in order. -/
def InStep (s : Notices) : Prop :=
  s.broadcasts ++ s.world.server.waitingNotices = s.received

/-- A pass of the subscriber reads a message that fits. Only a response runs the handler of
notices. -/
def Announces (s : Notices) : NoticeEvent → Prop
  | .subscribe _ reply => ReadsNotice reply
  | .other e _ =>
    ∀ p, s.world.call e = some (.processNoticeDBResult, p) → ∃ env, e = .response env

variable {s s' : Notices} {e : Event}

/-- **A pass of the subscriber** keeps step exactly if it reads a message that fits. -/
lemma inStep_subscribe_iff (hs : s.InStep) (env : Env) (reply : Option (List (Option Bytes))) :
    (∀ s', s.step (.subscribe env reply) = some s' → s'.InStep) ↔ ReadsNotice reply := by
  rw [step]
  cases hread : CKGameServer.subscribe reply with
  | none => exact iff_of_true (fun s' h => by cases h) (.inl hread)
  | some message =>
      obtain ⟨w, hw, hwaiting⟩ : ∃ w, s.world.step (.subscribe env message) = some w ∧
          w.server.waitingNotices =
            s.world.server.waitingNotices ++ [message.take maxChatMsgSize] := by
        refine ⟨_, rfl, ?_⟩
        rw [← Server.noticeText_subscribeTask env (zero_notMem_subscribe hread),
          Server.waitingNotices, List.filter_append, List.map_append]
        rfl
      rw [Option.bind_some, hw, Option.map_some]
      simp only [Option.some.injEq, forall_eq']
      rw [← readsNotice_iff hread]
      show s.broadcasts ++ w.server.waitingNotices = s.received ++ _ ↔ _
      rw [hwaiting, ← List.append_assoc, hs, List.append_cancel_left_eq, eq_comm,
        Option.toList_eq_singleton_iff]

/-- **A step of another thread** keeps step exactly if only a response is broadcast. -/
lemma inStep_other_iff (hs : s.InStep) (h : ∀ env message, e ≠ .subscribe env message) :
    (∀ s', s.step (.other e h) = some s' → s'.InStep) ↔ s.Announces (.other e h) := by
  have hnext : ∀ w, s.world.step e = some w → w.server.waitingNotices =
      (s.world.rest e).waitingNotices := fun w hw => World.waitingNotices_step hw h
  have hwaits : ∀ w, s.world.step e = some w →
      (InStep { s with world := w, broadcasts := s.broadcasts ++ (s.world.broadcast e).toList } ↔
        (s.world.broadcast e).toList ++ (s.world.rest e).waitingNotices =
          s.world.server.waitingNotices) := fun w hw => by
    show s.broadcasts ++ _ ++ w.server.waitingNotices = s.received ↔ _
    rw [hnext w hw, List.append_assoc, ← hs, List.append_cancel_left_eq]
  rw [step, Announces]
  by_cases hresponse : ∃ env, e = .response env
  · obtain ⟨env, rfl⟩ := hresponse
    refine iff_of_true (fun s' hs' => ?_) fun p _ => ⟨env, rfl⟩
    obtain ⟨w, hw, rfl⟩ := Option.map_eq_some_iff.mp hs'
    exact (hwaits w hw).mpr (World.broadcast_response env)
  · rw [not_exists] at hresponse
    constructor
    · intro hkeeps p hcall
      obtain ⟨w, hw⟩ := World.exists_step_of_run hcall fun env σ _ => ⟨_, rfl⟩
      have hsame := (hwaits w hw).mp (hkeeps _ (by rw [hw, Option.map_some]))
      rw [World.waitingNotices_rest hresponse, World.broadcast, hcall] at hsame
      exact absurd (congrArg List.length hsame) (by simp)
    · intro honly s' hs'
      obtain ⟨w, hw, rfl⟩ := Option.map_eq_some_iff.mp hs'
      refine (hwaits w hw).mpr ?_
      rw [World.waitingNotices_rest hresponse, World.broadcast_eq_none_iff.mpr fun p hcall => ?_]
      · rfl
      · obtain ⟨env, he⟩ := honly p hcall
        exact hresponse env he

/-- The start of the server. -/
def init (maxClient : ℕ) (memory : ℕ → View) (store : Store) : Notices where
  world := World.init maxClient memory store

/-- **Notices are broadcast exactly once** throughout a run exactly if every pass of the subscriber
reads a message that fits, and only responses run the handler of notices. -/
theorem inStep_iff (maxClient : ℕ) (memory : ℕ → View) (store : Store) (es : List NoticeEvent) :
    Runs.Always step InStep (init maxClient memory store) es ↔
      Runs.Along step Announces (init maxClient memory store) es :=
  Runs.always_iff_along (I := fun _ => True) (fun _ _ _ _ _ => trivial)
    (fun s e _ hs => by
      cases e with
      | subscribe env reply => exact inStep_subscribe_iff hs env reply
      | other e h => exact inStep_other_iff hs h)
    es trivial rfl

/-- Where nothing waits, all messages received have been broadcast. -/
lemma InStep.broadcasts_eq (hs : s.InStep) (hnone : s.world.server.waitingNotices = []) :
    s.broadcasts = s.received := by
  rw [← hs, hnone, List.append_nil]

/-- **A failed read is broadcast.** -/
theorem empty_broadcast :
    ¬∀ (maxClient : ℕ) (memory : ℕ → View) (store : Store) (es : List NoticeEvent),
      Runs.Always step InStep (init maxClient memory store) es := by
  intro h
  have hall := h 3 (fun _ _ => 0) (fun _ => none)
    [.subscribe {} none, .other (.response {}) fun _ _ he => by cases he]
  have hsecond := ((hall.2 _ rfl).2 _ rfl).head
  have hlength := congrArg List.length hsecond
  exact absurd hlength (by decide)

end Notices

end CKGameServer
