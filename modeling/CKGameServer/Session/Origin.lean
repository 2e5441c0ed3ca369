import CKGameServer.Model.Client
import CKGameServer.Session.History

/-!
To which session a login response belongs (`ProcessLogin`, `ProcessLoginDBResult`,
`ProcessInventoryDBResult`).

* `BelongsToSession`: a response to a login touches a slot only while the connection that sent
  the request is open there.
* `InFlight`: every login under way belongs to a connection that is open, and its tasks are for
  the slot of that connection.
* `belongs_of_keepsSession`: so it is in every run in which no connection is closed, and no slot
  used again, while a login of the slot is under way, and only slot 0 logs in with success.
* `misdirected_responses`: two runs in which it is not.
-/

namespace CKGameServer

namespace World

namespace Traced

variable (s : Traced)

/-! ### Sessions -/

/-- The next response is a `RESPONSE_LOGIN`, or the inventory one led to. -/
def NextIsLogin : Prop :=
  s.1.server.takeResponseTask.1.taskID = .responseLogin ∨ (s.2.responses.head?.join).isSome

/-- From `s` to `s'` the state of slot `i` changes, or a packet is sent to it. -/
def Touches (s s' : Traced) (i : ℕ) : Prop :=
  s'.1.server.mUserObjPool i ≠ s.1.server.mUserObjPool i ∨
    ∃ q ∈ s'.1.server.sent.drop s.1.server.sent.length, q.1 = i

/-- A response to a login touches only the slot in which the connection that sent the request is
still open. -/
def BelongsToSession : Event → Prop
  | .response env => s.NextIsLogin → ∀ s', step s (.response env) = some s' →
      ∀ i, Touches s s' i → ∃ c, s.caller (.response env) = some c ∧ c.slot = i ∧ s.2.IsOpen c
  | _ => True

/-- A connection is opened and closed while no login of its slot is under way, a login request is
handled while the connection it came in is open, and a login that succeeds is one of slot 0. -/
def KeepsSession : Event → Prop
  | .connect i => s.2.NoLogin i
  | .close i => s.2.NoLogin i
  | .clientPacket env => ∀ p, s.1.server.clientPacket.1 = some p →
      p.packetId = PacketId.loginRequest.code →
      ∃ c, s.caller (.clientPacket env) = some c ∧ s.2.IsOpen c
  | .response _ => s.1.server.takeResponseTask.1.taskID = .responseLogin →
      loginResultAt s.1.server.takeResponseTask.1.pData = ErrorCode.none.code →
      s.1.server.takeResponseTask.1.userIndex = 0
  | _ => True

/-! ### Logins under way -/

end Traced

end World

/-- A request task and the connection it goes back to: a login, or the load of an inventory after
it, for the slot of the connection, which is open. -/
def History.RequestOf (h : History) (task : RedisTask) : Option Connection → Prop
  | none => task.taskID ≠ .requestLogin
  | some c => (task.taskID = .requestLogin ∨ task.taskID = .requestLoadInventory) ∧
      task.userIndex = c.slot ∧ h.IsOpen c

/-- The same for a response task. -/
def History.ResponseOf (h : History) (task : RedisTask) : Option Connection → Prop
  | none => task.taskID ≠ .responseLogin
  | some c => (task.taskID = .responseLogin ∨ task.taskID = .responseLoadInventory) ∧
      task.userIndex = c.slot ∧ h.IsOpen c

namespace World.Traced

/-- **The invariant**: every login under way belongs to a connection that is open, and its tasks
are for the slot of that connection. -/
structure InFlight (s : Traced) : Prop where
  requests : List.Forall₂ s.2.RequestOf s.1.server.mRequestTask s.2.requests
  responses : List.Forall₂ s.2.ResponseOf s.1.server.mResponseTask s.2.responses
  system : ∀ q ∈ s.1.server.mSystemPacketQueue, q.packetId ≠ PacketId.loginRequest.code

variable {s s' : Traced} {e : Event} {w' : World}

lemma requestOf_mono {h h' : History} {task : RedisTask} {o : Option Connection}
    (hopen : ∀ c, o = some c → h.IsOpen c → h'.IsOpen c) (hreq : h.RequestOf task o) :
    h'.RequestOf task o := by
  cases o with
  | none => exact hreq
  | some c => exact ⟨hreq.1, hreq.2.1, hopen c rfl hreq.2.2⟩

lemma responseOf_mono {h h' : History} {task : RedisTask} {o : Option Connection}
    (hopen : ∀ c, o = some c → h.IsOpen c → h'.IsOpen c) (hres : h.ResponseOf task o) :
    h'.ResponseOf task o := by
  cases o with
  | none => exact hres
  | some c => exact ⟨hres.1, hres.2.1, hopen c rfl hres.2.2⟩

/-- The request that is taken next, and the connection it goes back to. -/
lemma InFlight.nextRequest (hs : s.InFlight) :
    s.2.RequestOf s.1.server.takeRequestTask.1 s.2.requests.head?.join := by
  have hrequests := hs.requests
  rw [Server.takeRequestTask]
  cases hq : s.1.server.mRequestTask with
  | nil =>
      rw [hq, List.forall₂_nil_left_iff] at hrequests
      rw [hrequests]
      exact fun h => by cases h
  | cons task rest =>
      rw [hq, List.forall₂_cons_left_iff] at hrequests
      obtain ⟨o, os, hof, -, ho⟩ := hrequests
      rw [ho]
      exact hof

/-- The same for the response. -/
lemma InFlight.nextResponse (hs : s.InFlight) :
    s.2.ResponseOf s.1.server.takeResponseTask.1 s.2.responses.head?.join := by
  have hresponses := hs.responses
  rw [Server.takeResponseTask]
  cases hq : s.1.server.mResponseTask with
  | nil =>
      rw [hq, List.forall₂_nil_left_iff] at hresponses
      rw [hresponses]
      exact fun h => by cases h
  | cons task rest =>
      rw [hq, List.forall₂_cons_left_iff] at hresponses
      obtain ⟨o, os, hof, -, ho⟩ := hresponses
      rw [ho]
      exact hof

/-- The invariant after a step that appends to the queues what belongs there. -/
lemma InFlight.next (hs : s.InFlight) (requests responses : List RedisTask)
    (hopen : ∀ c, some c ∈ s.2.requests ++ s.2.responses → s.2.IsOpen c →
      (s.next e w').IsOpen c)
    (hrequests : w'.server.mRequestTask =
      s.1.server.mRequestTask.drop e.requestsTaken ++ requests)
    (hresponses : w'.server.mResponseTask =
      s.1.server.mResponseTask.drop e.responsesTaken ++ responses)
    (hnewRequests : ∀ task ∈ requests, (s.next e w').RequestOf task (s.origin e task))
    (hnewResponses : ∀ task ∈ responses, (s.next e w').ResponseOf task (s.caller e))
    (hsystem : ∀ q ∈ w'.server.mSystemPacketQueue, q.packetId ≠ PacketId.loginRequest.code) :
    InFlight (w', s.next e w') where
  requests := by
    have happended : (s.next e w').requests =
        s.2.requests.drop e.requestsTaken ++ requests.map (s.origin e) := by
      change s.2.requests.drop _ ++ (w'.server.mRequestTask.drop _).map _ = _
      rw [hrequests, List.drop_left]
    simp only [happended, hrequests]
    exact forall₂_taken_append _ hs.requests (fun task o ho => requestOf_mono fun c hc =>
      hopen c (List.mem_append_left _ (hc ▸ ho))) hnewRequests
  responses := by
    have happended : (s.next e w').responses =
        s.2.responses.drop e.responsesTaken ++ responses.map fun _ => s.caller e := by
      change s.2.responses.drop _ ++ (w'.server.mResponseTask.drop _).map _ = _
      rw [hresponses, List.drop_left]
    simp only [happended, hresponses]
    exact forall₂_taken_append _ hs.responses (fun task o ho => responseOf_mono fun c hc =>
      hopen c (List.mem_append_right _ (hc ▸ ho))) hnewResponses
  system := hsystem

/-! ### The step -/

/-- An event that opens and closes no connection leaves the open connections open. -/
lemma isOpen_next_of_quiet (he : ∀ i, e ≠ .connect i ∧ e ≠ .close i) (c : Connection) :
    (s.next e w').IsOpen c ↔ s.2.IsOpen c := by
  cases e with
  | connect i => exact absurd rfl (he i).1
  | close i => exact absurd rfl (he i).2
  | _ => rfl

lemma isOpen_connect {i : ℕ} {c : Connection} (hslot : c.slot ≠ i) (h : s.2.IsOpen c) :
    (s.next (.connect i) w').IsOpen c := by
  simpa [History.IsOpen, next, hslot] using h

lemma isOpen_close {i : ℕ} {c : Connection} (hslot : c.slot ≠ i) (h : s.2.IsOpen c) :
    (s.next (.close i) w').IsOpen c := by
  simpa [History.IsOpen, next, hslot] using h

/-- The invariant after an event that leaves the queues of tasks alone. -/
lemma InFlight.next_of_same (hs : s.InFlight)
    (hopen : ∀ c, some c ∈ s.2.requests ++ s.2.responses → s.2.IsOpen c →
      (s.next e w').IsOpen c)
    (htaken : e.requestsTaken = 0 ∧ e.responsesTaken = 0)
    (hrequests : w'.server.mRequestTask = s.1.server.mRequestTask)
    (hresponses : w'.server.mResponseTask = s.1.server.mResponseTask)
    (hsystem : ∀ q ∈ w'.server.mSystemPacketQueue, q.packetId ≠ PacketId.loginRequest.code) :
    InFlight (w', s.next e w') :=
  hs.next [] [] hopen (by simp [hrequests, htaken.1])
    (by simp [hresponses, htaken.2]) (by simp) (by simp) hsystem

/-- The invariant after a dispatch: the queues less what it took, and the tasks it pushed. -/
lemma InFlight.next_of_pushes (hs : s.InFlight) {σ : Server} {tasks : List RedisTask}
    (hopen : ∀ c, s.2.IsOpen c → (s.next e w').IsOpen c) (hpushes : σ.Pushes w'.server tasks)
    (hrequests : σ.mRequestTask = s.1.server.mRequestTask.drop e.requestsTaken)
    (hresponses : σ.mResponseTask = s.1.server.mResponseTask.drop e.responsesTaken)
    (hsystem : ∀ q ∈ σ.mSystemPacketQueue, q.packetId ≠ PacketId.loginRequest.code)
    (hnew : ∀ task ∈ tasks, (s.next e w').RequestOf task (s.origin e task)) :
    InFlight (w', s.next e w') := by
  refine hs.next tasks [] (fun c _ => hopen c) ?_ ?_ hnew (by simp) ?_
  · rw [hpushes.mRequestTask, hrequests]
  · rw [hpushes.mResponseTask, hresponses, List.append_nil]
  · rwa [hpushes.mSystemPacketQueue]

lemma inFlight_clientPacket {env : Env} (hs : s.InFlight)
    (hkeeps : s.KeepsSession (.clientPacket env))
    (h : World.step s.1 (.clientPacket env) = some w') :
    InFlight (w', s.next (.clientPacket env) w') := by
  obtain ⟨tasks, hpushes, hlogin⟩ := Server.dispatch_pushes (exists_dispatch h)
  obtain ⟨hrequests, hresponses, hsystem⟩ := s.1.server.queues_dequePacketData
  refine hs.next_of_pushes (fun _ => id) hpushes hrequests hresponses
    (fun q hq => hs.system q (hsystem ▸ hq)) fun task htask => ?_
  by_cases hid : task.taskID = .requestLogin
  · obtain ⟨q, hq, hpacket, huser⟩ := hlogin task htask hid
    obtain ⟨c, hcaller, hopen⟩ := hkeeps q hq hpacket
    have hslot : c.slot = q.clientIndex := by
      have hcaller' := hcaller
      rw [caller, show s.1.server.clientPacket.1 = some q from hq] at hcaller'
      obtain ⟨number, -, rfl⟩ := Option.map_eq_some_iff.mp hcaller'
      rfl
    rw [origin, if_pos hid, hcaller]
    exact ⟨.inl hid, huser.trans hslot.symm, hopen⟩
  · rw [origin, if_neg hid]
    exact hid

lemma inFlight_systemPacket {env : Env} (hs : s.InFlight)
    (h : World.step s.1 (.systemPacket env) = some w') :
    InFlight (w', s.next (.systemPacket env) w') := by
  obtain ⟨tasks, hpushes, hlogin⟩ := Server.dispatch_pushes (exists_dispatch h)
  obtain ⟨hrequests, hresponses, -, hmem, hpacket⟩ := s.1.server.queues_systemPacket
  refine hs.next_of_pushes (fun _ => id) hpushes hrequests hresponses
    (fun q hq => hs.system q (hmem q hq)) fun task htask hid => ?_
  obtain ⟨q, hq, hid, -⟩ := hlogin task htask hid
  obtain ⟨q', hq', heq⟩ := hpacket q hq
  exact hs.system q' hq' (heq ▸ hid)

lemma inFlight_response {env : Env} (hs : s.InFlight) (hkeeps : s.KeepsSession (.response env))
    (h : World.step s.1 (.response env) = some w') :
    InFlight (w', s.next (.response env) w') := by
  have hdispatch := exists_dispatch h
  obtain ⟨tasks, hpushes, hlogin⟩ := Server.dispatch_pushes hdispatch
  obtain ⟨hrequests, hresponses, hsystem, -, -⟩ := s.1.server.queues_takeResponseTask
  refine hs.next_of_pushes (fun _ => id) hpushes hrequests hresponses
    (fun q hq => hs.system q (hsystem ▸ hq)) fun t ht => ?_
  have hof := hs.nextResponse
  change History.RequestOf _ _ s.2.responses.head?.join
  cases ho : s.2.responses.head?.join with
  | none =>
      intro hid
      obtain ⟨q, hq, hid, -⟩ := hlogin t ht hid
      exact code_ne_loginRequest _ ((Server.packetId_responsePacket _ hq).symm.trans hid)
  | some c =>
      rw [ho] at hof
      obtain ⟨hid, hslot, hopen⟩ := hof
      have hpushed := hpushes.mRequestTask.trans (congrArg (· ++ tasks) hrequests)
      rcases hid with hid | hid
      · obtain ⟨-, tasks', hrequests', hnew⟩ := Server.dispatch_responseLogin hid hdispatch
        obtain rfl := List.append_cancel_left (hpushed.symm.trans hrequests')
        obtain ⟨hsuccess, hload, hzero⟩ := hnew t ht
        exact ⟨.inr hload, by rw [hzero, ← hslot, hkeeps hid hsuccess], hopen⟩
      · obtain ⟨-, hrequests'⟩ := Server.dispatch_responseLoadInventory hid hdispatch
        obtain rfl := List.self_eq_append_right.mp (hrequests'.symm.trans hpushed)
        cases ht

lemma inFlight_redisTask {env : RedisEnv} (hs : s.InFlight)
    (h : World.step s.1 (.redisTask env) = some w') :
    InFlight (w', s.next (.redisTask env) w') := by
  obtain ⟨out, hprocess, rfl⟩ := exists_taskProcess h
  obtain ⟨hrequests, hresponses, hsystem, -⟩ := s.1.server.queues_takeRequestTask
  have hof := hs.nextRequest
  have htasks : (∀ t ∈ out.requests, s.2.RequestOf t s.2.requests.head?.join) ∧
      ∀ t ∈ out.responses, s.2.ResponseOf t s.2.requests.head?.join := by
    cases ho : s.2.requests.head?.join with
    | none =>
        rw [ho] at hof
        obtain ⟨hnotLogin, hnotRequest⟩ := taskProcess_other hof hprocess
        exact ⟨hnotRequest, hnotLogin⟩
    | some c =>
        rw [ho] at hof
        obtain ⟨hid, hslot, hopen⟩ := hof
        obtain ⟨hnone, hlogin⟩ := taskProcess_login hid hprocess
        exact ⟨by simp [hnone], fun t ht =>
          ⟨(hlogin t ht).1, (hlogin t ht).2.trans hslot, hopen⟩⟩
  exact hs.next out.requests out.responses (fun c _ => id)
    (congrArg (· ++ out.requests) hrequests) (congrArg (· ++ out.responses) hresponses)
    htasks.1 htasks.2 (hsystem ▸ hs.system)

/-- **One step** under the condition keeps the invariant. -/
theorem inFlight_step (hs : s.InFlight) (hkeeps : s.KeepsSession e)
    (h : s.step e = some s') : s'.InFlight := by
  obtain ⟨w', hw', rfl⟩ := Option.map_eq_some_iff.mp h
  have hquiet : (∀ i, e ≠ .connect i ∧ e ≠ .close i) →
      ∀ c, some c ∈ s.2.requests ++ s.2.responses → s.2.IsOpen c → (s.next e w').IsOpen c :=
    fun he c _ => (isOpen_next_of_quiet he c).mpr
  cases e with
  | receive i pData =>
      obtain ⟨recv, -, rfl⟩ := World.exists_receive hw'
      exact hs.next_of_same (hquiet (by simp)) ⟨rfl, rfl⟩ rfl rfl hs.system
  | connect i =>
      obtain rfl := Option.some.inj hw'
      refine hs.next_of_same (fun c hc => isOpen_connect (hkeeps c hc)) ⟨rfl, rfl⟩ rfl rfl ?_
      simp only [Server.pushSystemPacket, List.mem_append, List.mem_singleton]
      rintro q (hq | rfl)
      · exact hs.system q hq
      · exact (by decide : PacketId.sysUserConnect.code ≠ PacketId.loginRequest.code)
  | close i =>
      obtain rfl := Option.some.inj hw'
      refine hs.next_of_same (fun c hc => isOpen_close (hkeeps c hc)) ⟨rfl, rfl⟩ rfl rfl ?_
      simp only [Server.pushSystemPacket, List.mem_append, List.mem_singleton]
      rintro q (hq | rfl)
      · exact hs.system q hq
      · exact (by decide : PacketId.sysUserDisconnect.code ≠ PacketId.loginRequest.code)
  | clientPacket env => exact inFlight_clientPacket hs hkeeps hw'
  | systemPacket env => exact inFlight_systemPacket hs hw'
  | response env => exact inFlight_response hs hkeeps hw'
  | tick env =>
      obtain rfl := Option.some.inj hw'
      exact hs.next [_] [] (hquiet (by simp)) rfl (List.append_nil _).symm
        (by simp [origin, caller, History.RequestOf, RedisTask.make]) (by simp) hs.system
  | redisTask env => exact inFlight_redisTask hs hw'
  | subscribe env message =>
      obtain rfl := Option.some.inj hw'
      exact hs.next [] [_] (hquiet (by simp)) (List.append_nil _).symm rfl (by simp)
        (by simp [caller, History.ResponseOf, Server.subscribeTask, RedisTask.make]) hs.system

lemma inFlight_init (maxClient : ℕ) (memory : ℕ → Memory.View) (store : Store) :
    (init maxClient memory store).InFlight :=
  ⟨.nil, .nil, by simp [init, World.init]⟩

/-! ### Responses -/

/-- Under the invariant a response to a login touches its own slot only, whose connection is
open. -/
lemma belongsToSession_of_inFlight (hs : s.InFlight) (e : Event) : s.BelongsToSession e := by
  cases e with
  | response env =>
      intro hnext s' h i htouches
      obtain ⟨w', hw', rfl⟩ := Option.map_eq_some_iff.mp h
      have hdispatch := exists_dispatch hw'
      have hof := hs.nextResponse
      have hlogin : ∃ c, s.2.responses.head?.join = some c := by
        cases ho : s.2.responses.head?.join with
        | none =>
            rw [ho] at hof
            refine (hnext.elim hof fun hsome => ?_).elim
            rw [ho] at hsome
            cases hsome
        | some c => exact ⟨c, rfl⟩
      obtain ⟨c, ho⟩ := hlogin
      rw [ho] at hof
      obtain ⟨hid, hslot, hopen⟩ := hof
      have honly : s.1.server.TouchesOnly w'.server c.slot := by
        rw [← hslot]
        exact hid.elim (fun hid => (Server.dispatch_responseLogin hid hdispatch).1)
          fun hid => (Server.dispatch_responseLoadInventory hid hdispatch).1
      refine ⟨c, ho, ?_, hopen⟩
      rcases htouches with huser | ⟨q, hq, hto⟩
      · by_contra hne
        exact huser (honly.mUserObjPool i (Ne.symm hne))
      · obtain ⟨packets, hsent, hslots⟩ := honly.sent
        simp only [hsent, List.drop_left] at hq
        rw [← hslots q hq, hto]
  | _ => trivial

/-- **Responses belong to their session** in every run whose steps meet the condition. -/
theorem belongs_of_keepsSession (maxClient : ℕ) (memory : ℕ → Memory.View) (store : Store)
    {es : List Event} (h : Runs.Along step KeepsSession (init maxClient memory store) es) :
    Runs.Along step BelongsToSession (init maxClient memory store) es :=
  Runs.along_of_along (P := InFlight) (fun _ e hs _ => belongsToSession_of_inFlight hs e)
    (fun _ _ _ hs hkeeps hstep => inFlight_step hs hkeeps hstep)
    (inFlight_init maxClient memory store) h

/-! ### Three runs -/

instance (s : Traced) : DecidablePred s.KeepsSession
  | .connect i => inferInstanceAs (Decidable (s.2.NoLogin i))
  | .close i => inferInstanceAs (Decidable (s.2.NoLogin i))
  | .clientPacket env => inferInstanceAs (Decidable (∀ p, p ∈ s.1.server.clientPacket.1 →
      p.packetId = PacketId.loginRequest.code →
      ∃ c, c ∈ s.caller (.clientPacket env) ∧ s.2.IsOpen c))
  | .response _ => inferInstanceAs (Decidable (_ → _ → _))
  | .receive _ _ => isTrue trivial
  | .systemPacket _ => isTrue trivial
  | .tick _ => isTrue trivial
  | .redisTask _ => isTrue trivial
  | .subscribe _ _ => isTrue trivial

/-- The start of a server whose database knows `a` and `c`. -/
def start : Traced := init 3 (fun _ _ => 0) twoUsers

/-- A client connects to a slot and logs in as `a`. -/
def loginRun (i : ℕ) : List Event :=
  [.connect i, .systemPacket {}] ++ Event.login i [97] [98]

/-- The responses to a login of slot 0 reach the connection that logs in. -/
theorem belongs_loginRun : Runs.Along step BelongsToSession start (loginRun 0) :=
  belongs_of_keepsSession 3 (fun _ _ => 0) twoUsers (by decide +kernel)

/-- The client of slot 0 asks to log in and goes, and before its answer is there the next one
comes. -/
def reusedSlot : List Event :=
  [.connect 0, .systemPacket {}] ++ Event.request 0 (loginRequestPacket [97] [98]) ++
    [.close 0, .connect 0, .systemPacket {}, .systemPacket {}, .redisTask default]

/-- A response that goes back to `c` and is sent elsewhere, or when `c` is closed. -/
lemma not_belongsToSession {env : Env} {c : Connection} {i : ℕ}
    (hcaller : s.caller (.response env) = some c) (h : s.step (.response env) = some s')
    (hsent : ∃ q ∈ s'.1.server.sent.drop s.1.server.sent.length, q.1 = i)
    (hwrong : c.slot ≠ i ∨ ¬s.2.IsOpen c) : ¬s.BelongsToSession (.response env) := by
  intro hbelongs
  have hnext : s.NextIsLogin := .inr (Option.isSome_of_mem hcaller)
  obtain ⟨c', hc', hslot, hopen⟩ := hbelongs hnext s' h i (.inr hsent)
  obtain rfl := Option.some.inj (hcaller.symm.trans hc')
  exact hwrong.elim (fun hne => hne hslot) fun hclosed => hclosed hopen

/-- The answer to the first client of a slot logs the second one in; and the inventory of slot 1
is sent to slot 0, where nobody is connected. -/
theorem misdirected_responses :
    ¬Runs.Along step BelongsToSession start (reusedSlot ++ [.response {}]) ∧
      ¬Runs.Along step BelongsToSession start (loginRun 1) := by
  constructor
  · intro h
    have hrun : ((Runs.run step start reusedSlot).bind fun s =>
        (s.step (.response {})).map fun s' =>
          (s.caller (.response {}), s.2.sessions 0,
            (s'.1.server.sent.drop s.1.server.sent.length).map Prod.fst,
            (s'.1.server.mUserObjPool 0).mCurDomainState)) =
        some (some ⟨0, 1⟩, 2, [0], .login) := by decide +kernel
    obtain ⟨s, hs, hmap⟩ := Option.bind_eq_some_iff.mp hrun
    obtain ⟨s', hs', heq⟩ := Option.map_eq_some_iff.mp hmap
    simp only [Prod.mk.injEq] at heq
    obtain ⟨hcaller, hsessions, hsent, -⟩ := heq
    refine not_belongsToSession (i := 0) hcaller hs' ?_ (.inr fun hopen => ?_) (h.of_run hs)
    · exact List.mem_map.mp (hsent ▸ List.mem_singleton_self 0)
    · exact absurd (hopen.2.symm.trans hsessions) (by decide)
  · intro h
    have hrun : ((Runs.run step start ((loginRun 1).dropLast)).bind fun s =>
        (s.step (.response {})).map fun s' =>
          (s.caller (.response {}),
            (s'.1.server.sent.drop s.1.server.sent.length).map Prod.fst)) =
        some (some ⟨1, 1⟩, [0]) := by decide +kernel
    obtain ⟨s, hs, hmap⟩ := Option.bind_eq_some_iff.mp hrun
    obtain ⟨s', hs', heq⟩ := Option.map_eq_some_iff.mp hmap
    simp only [Prod.mk.injEq] at heq
    obtain ⟨hcaller, hsent⟩ := heq
    have hlast : Runs.Along step BelongsToSession start
        ((loginRun 1).dropLast ++ .response {} :: []) := h
    refine not_belongsToSession (i := 0) hcaller hs' ?_ (.inl (by decide)) (hlast.of_run hs)
    exact List.mem_map.mp (hsent ▸ List.mem_singleton_self 0)

end World.Traced

end CKGameServer
