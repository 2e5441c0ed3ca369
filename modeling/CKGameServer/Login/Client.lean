import CKGameServer.Login.EndToEnd

/-!
What a login response tells the client (`MainMenuGUI.OnPacketReceived`, `ProcessLogin`,
`ProcessLoginDBResult`).

`LOGIN_RESPONSE_PACKET::Result` carries an error code where `ProcessLogin` refuses, and the index of
the user where the result of the Redis thread is processed, whatever that result is. The main menu
takes either for its own index and goes to the match.

* `GameClient`, `onPacketReceived`: what the main menu does with a packet.
* `LoginExchange`: a login request and the states in which the server handles it; `answers` is what
  the connection is sent for it.
* `LoginExchange.Agrees`: a client that an answer brings into the match is logged in at the index it
  is told, under the id it asked for, and had no ground for a refusal.
* `LoginExchange.agrees_iff`: exactly when that is so.
* `match_after_wrong_password`: a client with a wrong password goes to the match.
-/

namespace CKGameServer

open Memory PacketManager

/-! ### The client -/

/-- The scenes of the client. -/
inductive Scene where
  | mainMenu | matchScene
  deriving DecidableEq, Repr

/-- `LocalPlayerInfo`, and the scene the client is in. -/
structure GameClient where
  ID : ℤ := 0
  Name : Bytes := []
  scene : Scene := .mainMenu

/-- `MainMenuGUI.OnPacketReceived`. `inputName` is the text of the input field. -/
def onPacketReceived (inputName : Bytes) (packet : ServerPacket) (c : GameClient) : GameClient :=
  match packet with
  | .loginResponse result => { ID := result, Name := inputName, scene := .matchScene }
  | _ => c

/-! ### The exchange -/

/-- The user with the index is in state `LOGIN` under the id. -/
def LoggedInAs (σ : Server) (i : ℕ) (userID : Bytes) : Prop :=
  (σ.mUserObjPool i).mCurDomainState = .login ∧ (σ.mUserObjPool i).mUserID = userID

/-- A user with another index is connected under the id. -/
def ConnectedElsewhere (σ : Server) (i : ℕ) (userID : Bytes) : Prop :=
  ∃ j ≠ i, (σ.mUserObjPool j).mCurDomainState ≠ .none ∧ (σ.mUserObjPool j).mUserID = userID

/-- A login request, the server that processes it, the database the Redis thread asks for it, and
the server that processes the result. Between the three anything may have happened. -/
structure LoginExchange where
  clientIndex : ℕ
  packetSize : ℕ
  pPacket : View
  atRequest : Server
  db : Store
  atResult : Server
  env : Env := {}
  redis : RedisEnv := {}
  env' : Env := {}

namespace LoginExchange

variable (x : LoginExchange)

/-- The task `ProcessLogin` makes of the packet. -/
def task : RedisTask := loginTask x.env x.clientIndex x.pPacket

/-- The server after `ProcessLogin`. -/
def requested : Server := processLogin x.env x.clientIndex x.packetSize x.pPacket x.atRequest

/-- The responses of the Redis thread to the tasks that `ProcessLogin` has pushed. -/
def results : List RedisTask :=
  (x.requested.mRequestTask.drop x.atRequest.mRequestTask.length).flatMap fun task =>
    (requestLogin x.redis x.db task).responses

/-- The server after `ProcessLoginDBResult` on these. -/
def resulted : Server :=
  x.results.foldl (fun τ task => processLoginDBResult x.env' task.userIndex task.pData τ) x.atResult

/-- The packets the connection is sent, each with the state of the server behind it. -/
def answers : List (Server × ServerPacket) :=
  [(x.atRequest, x.requested), (x.atResult, x.resulted)].flatMap fun (σ, τ) =>
    ((τ.sent.drop σ.sent.length).filter fun q => q.1 = x.clientIndex).map fun q => (τ, q.2)

/-- `LOGIN_REQUEST_PACKET::userID`. -/
def userID : Bytes := requestedUserID x.pPacket

/-- The login is to be refused: the server is full, the user is connected already, or Redis does
not store the password for it. -/
def Refusable : Prop :=
  x.atRequest.mMaxUserCnt ≤ x.atRequest.mCurrentUserCnt ∨
    UserManager.findUserIndexByID x.atRequest x.userID ≠ -1 ∨
    ConnectedElsewhere x.atRequest x.clientIndex x.userID ∨
    storedPassword x.db x.userID ≠ some (requestedUserPW x.pPacket)

/-- Wherever an answer brings the client into the match, there was no ground for a refusal, and the
index the client takes for its own is that of its connection, whose user is logged in under the id
that was asked for. -/
def Agrees : Prop :=
  ∀ answer ∈ x.answers, ∀ inputName c,
    c.scene = .mainMenu → (onPacketReceived inputName answer.2 c).scene = .matchScene →
      ¬x.Refusable ∧ (onPacketReceived inputName answer.2 c).ID = x.clientIndex ∧
        LoggedInAs answer.1 x.clientIndex x.userID

/-- The id that was asked for is what the user has once the result is processed. By what the Redis
thread reads in its block: where it gets a value that is the password it copies the id, and what
does not fit into the array is cut; where the value is another, the array keeps what stood there;
where it gets none, the user stays as it is. -/
def IDReaches : Prop :=
  match if x.redis.replies 0 then storedPassword x.db (x.task.pData.cString 0) else none with
  | none => LoggedInAs x.atResult x.clientIndex x.userID
  | some value =>
    if cstr value = x.task.pData.cString (maxUserIdLen + 1) then
      x.userID.length ≤ maxUserIdLen + 1
    else (x.redis.stack.cString 0).take (maxUserIdLen + 1) = x.userID

/-! ### The answers -/

section Answers

variable {x}

lemma answers_of_size (h : x.packetSize ≠ loginRequestPacketSize) : x.answers = [] := by
  have hrequested : x.requested = x.atRequest := by
    rw [requested, processLogin, if_pos h.symm]
  have hresulted : x.resulted = x.atResult := by
    rw [resulted, results, hrequested, List.drop_length]
    rfl
  simp [answers, hrequested, hresulted]

/-- A refusal by `ProcessLogin` is answered with its error code. -/
lemma answers_of_refused (hsize : x.packetSize = loginRequestPacketSize)
    (hrefused : x.atRequest.mMaxUserCnt ≤ x.atRequest.mCurrentUserCnt ∨
      UserManager.findUserIndexByID x.atRequest x.userID ≠ -1) :
    ∃ code, x.answers = [(x.requested, .loginResponse code)] := by
  obtain ⟨code, hrequested⟩ : ∃ code,
      x.requested = x.atRequest.sendPacketFunc x.clientIndex (.loginResponse code) := by
    rw [requested, processLogin, if_neg (not_not.mpr hsize.symm)]
    by_cases hfull : x.atRequest.mMaxUserCnt ≤ x.atRequest.mCurrentUserCnt
    · exact ⟨_, if_pos hfull⟩
    · rw [if_neg hfull]
      exact ⟨_, if_neg (hrefused.resolve_left hfull)⟩
  have hresulted : x.resulted = x.atResult := by
    rw [resulted, results, hrequested]
    simp [Server.sendPacketFunc]
  refine ⟨code, ?_⟩
  rw [answers, hresulted]
  simp [hrequested, Server.sendPacketFunc]

variable (x) in
/-- The response of the Redis thread to the request. -/
def response : RedisTask :=
  RedisTask.make x.clientIndex .responseLogin redisLoginResSize
    (loginBody x.redis x.db x.task.pData) x.redis.heap

/-- A request that `ProcessLogin` passes on is answered with the index of the client. -/
lemma answers_of_passed (hsize : x.packetSize = loginRequestPacketSize)
    (hfull : ¬x.atRequest.mMaxUserCnt ≤ x.atRequest.mCurrentUserCnt)
    (hfree : UserManager.findUserIndexByID x.atRequest x.userID = -1) :
    x.answers = [(processLoginDBResult x.env' x.clientIndex x.response.pData x.atResult,
      .loginResponse (x.clientIndex % 2 ^ 16))] := by
  have hrequested : x.requested = x.atRequest.pushTask x.task := by
    rw [requested, processLogin, if_neg (not_not.mpr hsize.symm), if_neg hfull]
    exact if_pos hfree
  have hresulted : x.resulted =
      processLoginDBResult x.env' x.clientIndex x.response.pData x.atResult := by
    rw [resulted, results, hrequested]
    simp only [Server.pushTask_mRequestTask, List.drop_left, List.flatMap_cons, List.flatMap_nil,
      List.append_nil, requestLogin, List.foldl_cons, List.foldl_nil]
    rfl
  have hsent : (processLoginDBResult x.env' x.clientIndex x.response.pData x.atResult).sent =
      x.atResult.sent ++ [(x.clientIndex, .loginResponse (x.clientIndex % 2 ^ 16))] := by
    rw [processLoginDBResult]
    split <;> rfl
  rw [answers, hresulted]
  simp [hrequested, hsent]

/-- The first bytes of the response, as `ProcessLoginDBResult` reads its `UserID`. -/
lemma cString_response (v : View) (off : ℕ) (body : View)
    (h : ∀ k < maxUserIdLen + 1, body k = v (off + k)) (userIndex : ℕ) (heap : View) :
    (RedisTask.make userIndex .responseLogin redisLoginResSize
      (redisLoginRes body .none) heap).pData.cString 0 =
      (v.cString off).take (maxUserIdLen + 1) := by
  refine View.cStringFrom_take (fun k hk => ?_) ?_ (by decide)
  · rw [Nat.zero_add, RedisTask.make_pData_lt (hk.trans (by decide)), redisLoginRes,
      View.append_apply_lt hk, h k hk]
  · rw [Nat.zero_add, RedisTask.make_pData_lt (by decide), redisLoginRes,
      ← Nat.add_zero (maxUserIdLen + 1), View.append_apply_add]
    rfl

/-- What the Redis thread answers, by the value it gets. -/
lemma loginBody_eq (redis : RedisEnv) (db : Store) (pRequest : View) :
    loginBody redis db pRequest =
      match if redis.replies 0 then storedPassword db (pRequest.cString 0) else none with
      | none => redisLoginRes redis.stack .loginUserInvalidPw
      | some value =>
        redisLoginRes
          (if cstr value = pRequest.cString (maxUserIdLen + 1) then
            copyUserIDChars pRequest redis.stack
          else redis.stack) .none := by
  cases hreply : redis.replies 0 with
  | true => exact loginBody_cases redis hreply db pRequest
  | false => simp [loginBody, Store.get, hreply]

/-- Once the result is processed the user is logged in under the id exactly if the id reaches it. -/
lemma loggedInAs_resulted_iff :
    LoggedInAs (processLoginDBResult x.env' x.clientIndex x.response.pData x.atResult)
      x.clientIndex x.userID ↔ x.IDReaches := by
  rw [LoggedInAs, processLoginDBResult_toActor, response, loginBody_eq, IDReaches]
  cases if x.redis.replies 0 then storedPassword x.db (x.task.pData.cString 0) else none with
  | none =>
      simp only [loginResultAt_make]
      exact Iff.rfl
  | some value =>
      simp only [loginResultAt_make, if_true]
      split
      · have hid := cString_response x.pPacket loginUserID
          (copyUserIDChars x.task.pData x.redis.stack)
          (fun k hk => by
            rw [copyUserIDChars, View.append_apply_lt hk]
            exact loginTask_userID x.env x.clientIndex hk)
          x.clientIndex x.redis.heap
        rw [hid]
        exact (and_iff_right rfl).trans (List.take_eq_self_iff _)
      · have hid := cString_response x.redis.stack 0 x.redis.stack
          (fun k _ => by rw [Nat.zero_add]) x.clientIndex x.redis.heap
        rw [hid]
        exact and_iff_right rfl

/-- Where both strings of the packet end in their arrays and Redis stores the password, the id
reaches the user if Redis answers, and if it does not, where the user has it already. -/
lemma idReaches_iff (hID : x.pPacket.NulTerminated loginUserID (maxUserIdLen + 1))
    (hPW : x.pPacket.NulTerminated loginUserPW (maxUserPwLen + 1))
    (hstored : storedPassword x.db x.userID = some (requestedUserPW x.pPacket)) :
    x.IDReaches ↔ x.redis.replies 0 = true ∨ LoggedInAs x.atResult x.clientIndex x.userID := by
  have hlength : x.userID.length ≤ maxUserIdLen + 1 :=
    (View.cString_length_lt hID (by decide)).le
  rw [IDReaches, task, requestedUserID_loginTask _ _ hID, requestedUserPW_loginTask _ _ hPW]
  cases x.redis.replies 0 with
  | false => simp
  | true =>
      rw [if_pos rfl, show storedPassword x.db (requestedUserID x.pPacket) =
        some (requestedUserPW x.pPacket) from hstored]
      simp only
      rw [requestedUserPW, if_pos (cstr_cString _ _)]
      exact iff_of_true hlength (.inl trivial)

end Answers

/-- **Client and server agree on a login exactly if** there is no answer, the packet having another
size than a login request, or there is no ground for a refusal, the index of the client fits into
the 16 bits of the result, and the id reaches the user. -/
theorem agrees_iff (x : LoginExchange) :
    x.Agrees ↔ x.packetSize ≠ loginRequestPacketSize ∨
      ¬x.Refusable ∧ x.clientIndex < 2 ^ 16 ∧ x.IDReaches := by
  by_cases hsize : x.packetSize = loginRequestPacketSize
  · rw [or_iff_right (not_not.mpr hsize)]
    by_cases hrefused : x.atRequest.mMaxUserCnt ≤ x.atRequest.mCurrentUserCnt ∨
        UserManager.findUserIndexByID x.atRequest x.userID ≠ -1
    · -- the client takes the error code for its index
      have hrefusable : x.Refusable := hrefused.imp_right .inl
      obtain ⟨code, hanswers⟩ := answers_of_refused hsize hrefused
      refine iff_of_false (fun h => ?_) fun h => h.1 hrefusable
      rw [Agrees, hanswers] at h
      exact (h _ (List.mem_singleton.mpr rfl) [] {} rfl rfl).1 hrefusable
    · rw [not_or, not_not] at hrefused
      have hindex :
      ((x.clientIndex % 2 ^ 16 : ℕ) : ℤ) = x.clientIndex ↔ x.clientIndex < 2 ^ 16 := by
        omega
      rw [Agrees, answers_of_passed hsize hrefused.1 hrefused.2, ← loggedInAs_resulted_iff,
        ← hindex]
      constructor
      · intro h
        exact h _ (List.mem_singleton.mpr rfl) [] {} rfl rfl
      · intro h answer hmem inputName c _ _
        obtain rfl := List.mem_singleton.mp hmem
        exact h
  · rw [Agrees, answers_of_size hsize]
    exact iff_of_true (fun answer h => absurd h List.not_mem_nil) (.inl hsize)

/-- A client with a wrong password goes to the match, as the user with the index 0. -/
theorem match_after_wrong_password : ¬∀ x : LoginExchange, x.Agrees := by
  intro h
  have hagrees := (agrees_iff
    { clientIndex := 0, packetSize := loginRequestPacketSize, pPacket := letterRequest 99
      atRequest := letterWorld.server, db := letterWorld.store
      atResult := letterWorld.server }).mp (h _)
  rcases hagrees with hsize | ⟨hnot, -⟩
  · exact hsize rfl
  · refine hnot (.inr (.inr (.inr ?_)))
    show storedPassword letterWorld.store (requestedUserID (letterRequest 99)) ≠ _
    decide

end LoginExchange

end CKGameServer
