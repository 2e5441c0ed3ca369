import CKGameServer.Model.GameServer

/-!
A login from the request to its result (`ProcessLogin`, the `REQUEST_LOGIN` branch of the Redis
thread, `ProcessLoginDBResult`).

* `requestedUserID_loginTask`, `requestedUserPW_loginTask`: the Redis thread reads the id and
  the password of the packet.
* `loginBody_cases`: the three answers it can give. Where the stored value differs from the
  password, the result says `NONE` and the user id is left uninitialised.
* `loginRound_correct_iff`: with Redis answering, the login is right exactly if the user is
  unknown or the password matches.
-/

namespace CKGameServer

open Memory PacketManager

/-! ### The three functions in a row -/

/-- `ProcessLogin`, the Redis thread on the tasks it pushed, and `ProcessLoginDBResult` on the
responses to them. -/
def loginRound (env : Env) (redis : RedisEnv) (env' : Env) (db : Store)
    (clientIndex packetSize : ℕ) (pPacket : View) (σ : Server) : Server :=
  let τ := processLogin env clientIndex packetSize pPacket σ
  let tasks := τ.mRequestTask.drop σ.mRequestTask.length
  let responses := tasks.flatMap fun task => (requestLogin redis db task).responses
  responses.foldl (fun τ task => processLoginDBResult env' task.userIndex task.pData τ) τ

/-- The password Redis stores for a user: a string under the user id. -/
def storedPassword (db : Store) (userID : Bytes) : Option Bytes :=
  match db userID with
  | some (.str value) => some value
  | _ => none

/-- What a login has to lead to: the state `LOGIN` under the requested id if the password is the
stored one, and otherwise the state `NONE` and the id as it was. -/
def LoginCorrect (db : Store) (userID userPW : Bytes) (before after : Actor) : Prop :=
  if storedPassword db userID = some userPW then
    after.mCurDomainState = .login ∧ after.mUserID = userID
  else after.mCurDomainState = .none ∧ after.mUserID = before.mUserID

/-- `LOGIN_REQUEST_PACKET::userID`. -/
def requestedUserID (pPacket : View) : Bytes := pPacket.cString loginUserID

/-- `LOGIN_REQUEST_PACKET::userPW`. -/
def requestedUserPW (pPacket : View) : Bytes := pPacket.cString loginUserPW

/-- A login request that `ProcessLogin` passes on: a packet of the right size with two strings,
from a user in state `NONE`, for an id not in use, on a server that is not full. -/
structure LoginRequest (clientIndex packetSize : ℕ) (pPacket : View) (σ : Server) : Prop where
  size : packetSize = loginRequestPacketSize
  userID : pPacket.NulTerminated loginUserID (maxUserIdLen + 1)
  userPW : pPacket.NulTerminated loginUserPW (maxUserPwLen + 1)
  state : (σ.mUserObjPool clientIndex).mCurDomainState = .none
  notFull : σ.mCurrentUserCnt < σ.mMaxUserCnt
  notInUse : UserManager.findUserIndexByID σ (requestedUserID pPacket) = -1

/-! ### The payloads -/

section Payloads

variable (env : Env) (clientIndex : ℕ) {pPacket : View}

lemma loginTask_userID {k : ℕ} (hk : k < maxUserIdLen + 1) :
    (loginTask env clientIndex pPacket).pData k = pPacket (loginUserID + k) := by
  have hsize : k < redisLoginReqSize := hk.trans (by decide)
  rw [loginTask, RedisTask.make_pData_lt hsize, redisLoginReq, View.append_apply_lt hk,
    View.shift_apply]

lemma loginTask_userPW {k : ℕ} (hk : k < maxUserPwLen + 1) :
    (loginTask env clientIndex pPacket).pData (maxUserIdLen + 1 + k) =
      pPacket (loginUserPW + k) := by
  have hsize : maxUserIdLen + 1 + k < redisLoginReqSize := Nat.add_lt_add_left hk _
  rw [loginTask, RedisTask.make_pData_lt hsize, redisLoginReq, View.append_apply_add,
    View.shift_apply]

/-- The task carries the user id of the packet. -/
lemma requestedUserID_loginTask
    (h : pPacket.NulTerminated loginUserID (maxUserIdLen + 1)) :
    (loginTask env clientIndex pPacket).pData.cString 0 = requestedUserID pPacket := by
  refine (View.cString_congr (fun k hk => ?_) h (by decide)).symm
  rw [Nat.zero_add, loginTask_userID _ _ hk]

/-- The task carries the password of the packet. -/
lemma requestedUserPW_loginTask
    (h : pPacket.NulTerminated loginUserPW (maxUserPwLen + 1)) :
    (loginTask env clientIndex pPacket).pData.cString (maxUserIdLen + 1) =
      requestedUserPW pPacket :=
  (View.cString_congr (fun _ hk => (loginTask_userPW _ _ hk).symm) h (by decide)).symm

variable (userIndex : ℕ) (userID stack heap : View) (result : ErrorCode)

/-- The result of the response is the one that was filled in. -/
lemma loginResultAt_make :
    loginResultAt (RedisTask.make userIndex .responseLogin redisLoginResSize
      (redisLoginRes userID result) heap).pData = result.code := by
  have hcode : result.code < 256 ^ 2 := by cases result <;> decide
  rw [← View.natLE_ofNatLE hcode]
  refine View.natLE_congr fun k hk => ?_
  have hsize : maxUserIdLen + 1 + k < redisLoginResSize := Nat.add_lt_add_left hk _
  rw [RedisTask.make_pData_lt hsize, redisLoginRes, View.append_apply_add, Nat.zero_add]

/-- The user id of the response is the one that was copied in. -/
lemma cString_make_loginRes (h : userID.NulTerminated 0 (maxUserIdLen + 1)) :
    (RedisTask.make userIndex .responseLogin redisLoginResSize
      (redisLoginRes (copyUserIDChars userID stack) result) heap).pData.cString 0 =
      userID.cString 0 := by
  refine (View.cString_congr (fun k hk => ?_) h (by decide)).symm
  have hsize : k < redisLoginResSize := hk.trans (by decide)
  rw [Nat.zero_add, RedisTask.make_pData_lt hsize, redisLoginRes, copyUserIDChars,
    View.append_apply_lt hk, View.append_apply_lt hk]

end Payloads

/-! ### The Redis thread -/

lemma cstr_cString (p : View) (off : ℕ) : cstr (p.cString off) = p.cString off :=
  cstr_eq_self (View.zero_notMem_cString off)

/-- The reply to `GET` for a user id. -/
lemma get_cString (db : Store) (p : View) (off : ℕ) :
    db.get true (p.cString off) = (storedPassword db (p.cString off)).map cstr := by
  rw [Store.get, if_pos rfl, cstr_cString, storedPassword]
  split <;> simp_all

/-- The answers of the Redis thread, by what is stored for the user. -/
lemma loginBody_cases (redis : RedisEnv) (hreply : redis.replies 0 = true) (db : Store)
    (pRequest : View) :
    loginBody redis db pRequest =
      match storedPassword db (pRequest.cString 0) with
      | none => redisLoginRes redis.stack .loginUserInvalidPw
      | some value =>
        redisLoginRes
          (if cstr value = pRequest.cString (maxUserIdLen + 1) then
            copyUserIDChars pRequest redis.stack
          else redis.stack) .none := by
  rw [loginBody, hreply, get_cString]
  cases storedPassword db (pRequest.cString 0) with
  | none => rfl
  | some value =>
      simp only [Option.map_some]
      split <;> rfl

/-! ### The whole round -/

section Round

variable {env env' : Env} {redis : RedisEnv} {db : Store} {clientIndex packetSize : ℕ}
  {pPacket : View} {σ : Server}

/-- The user after `ProcessLoginDBResult`. -/
lemma processLoginDBResult_toActor (env : Env) (clientIndex : ℕ) (pPacket : View) (σ : Server) :
    ((processLoginDBResult env clientIndex pPacket σ).mUserObjPool clientIndex).toActor =
      if loginResultAt pPacket = ErrorCode.none.code then
        (σ.mUserObjPool clientIndex).toActor.setLogin (pPacket.cString 0)
      else (σ.mUserObjPool clientIndex).toActor := by
  rw [processLoginDBResult]
  split <;> simp [Server.sendPacketFunc]

/-- `ProcessLogin` passes the request on. -/
lemma processLogin_of_loginRequest (h : LoginRequest clientIndex packetSize pPacket σ) :
    processLogin env clientIndex packetSize pPacket σ =
      σ.pushTask (loginTask env clientIndex pPacket) := by
  have hfree : UserManager.findUserIndexByID σ (pPacket.cString loginUserID) = -1 := h.notInUse
  rw [processLogin, if_neg (not_not.mpr h.size.symm), if_neg (not_le.mpr h.notFull), if_pos hfree]

/-- The round in terms of the one response it leads to. -/
lemma loginRound_toActor (h : LoginRequest clientIndex packetSize pPacket σ) :
    ((loginRound env redis env' db clientIndex packetSize pPacket σ).mUserObjPool
        clientIndex).toActor =
      let response := (RedisTask.make clientIndex .responseLogin redisLoginResSize
        (loginBody redis db (loginTask env clientIndex pPacket).pData) redis.heap).pData
      if loginResultAt response = ErrorCode.none.code then
        (σ.mUserObjPool clientIndex).toActor.setLogin (response.cString 0)
      else (σ.mUserObjPool clientIndex).toActor := by
  rw [loginRound, processLogin_of_loginRequest h]
  simp only [Server.pushTask_mRequestTask, List.drop_left, requestLogin, List.flatMap_cons,
    List.flatMap_nil, List.append_nil, List.foldl_cons, List.foldl_nil]
  exact processLoginDBResult_toActor _ _ _ _

/-- An unknown user is refused. -/
lemma loginRound_unknown (h : LoginRequest clientIndex packetSize pPacket σ)
    (hreply : redis.replies 0 = true)
    (hstored : storedPassword db (requestedUserID pPacket) = none) :
    ((loginRound env redis env' db clientIndex packetSize pPacket σ).mUserObjPool
        clientIndex).toActor = (σ.mUserObjPool clientIndex).toActor := by
  rw [loginRound_toActor h, loginBody_cases redis hreply, requestedUserID_loginTask _ _ h.userID,
    hstored]
  simp only [loginResultAt_make]
  exact if_neg (by decide)

/-- Where Redis does not answer, the user is refused. -/
lemma loginRound_unanswered (h : LoginRequest clientIndex packetSize pPacket σ)
    (hreply : redis.replies 0 = false) :
    ((loginRound env redis env' db clientIndex packetSize pPacket σ).mUserObjPool
        clientIndex).toActor = (σ.mUserObjPool clientIndex).toActor := by
  rw [loginRound_toActor h, loginBody, hreply, Store.get]
  simp only [Bool.false_eq_true, if_false, loginResultAt_make]
  exact if_neg (by decide)

variable (env env' redis) in
/-- A user with a stored password is logged in, whatever password it offers. -/
lemma loginRound_known (h : LoginRequest clientIndex packetSize pPacket σ)
    (hreply : redis.replies 0 = true) {value : Bytes}
    (hstored : storedPassword db (requestedUserID pPacket) = some value) :
    ((loginRound env redis env' db clientIndex packetSize pPacket σ).mUserObjPool
        clientIndex).mCurDomainState = .login := by
  rw [loginRound_toActor h, loginBody_cases redis hreply, requestedUserID_loginTask _ _ h.userID,
    hstored]
  simp only [loginResultAt_make, if_true]
  rfl

/-- With the right password it is logged in under the requested id. -/
lemma loginRound_matching (h : LoginRequest clientIndex packetSize pPacket σ)
    (hreply : redis.replies 0 = true)
    (hstored : storedPassword db (requestedUserID pPacket) = some (requestedUserPW pPacket)) :
    ((loginRound env redis env' db clientIndex packetSize pPacket σ).mUserObjPool
        clientIndex).mUserID = requestedUserID pPacket := by
  have hnul : (loginTask env clientIndex pPacket).pData.NulTerminated 0 (maxUserIdLen + 1) :=
    h.userID.congr fun k hk => by rw [Nat.zero_add, loginTask_userID _ _ hk]
  have hpw : cstr (requestedUserPW pPacket) = requestedUserPW pPacket := cstr_cString _ _
  rw [loginRound_toActor h, loginBody_cases redis hreply, requestedUserID_loginTask _ _ h.userID,
    requestedUserPW_loginTask _ _ h.userPW, hstored]
  simp only [loginResultAt_make, if_true]
  rw [if_pos hpw]
  exact (cString_make_loginRes _ _ _ _ _ hnul).trans
    (requestedUserID_loginTask _ _ h.userID)

/-- **A login is right exactly if** Redis holds no password for the user or holds the one the
request offers; where Redis does not answer, exactly if it does not hold the one offered. -/
theorem loginRound_correct_iff (h : LoginRequest clientIndex packetSize pPacket σ) :
    LoginCorrect db (requestedUserID pPacket) (requestedUserPW pPacket)
        (σ.mUserObjPool clientIndex).toActor
        ((loginRound env redis env' db clientIndex packetSize pPacket σ).mUserObjPool
          clientIndex).toActor ↔
      if redis.replies 0 then
        storedPassword db (requestedUserID pPacket) = none ∨
          storedPassword db (requestedUserID pPacket) = some (requestedUserPW pPacket)
      else storedPassword db (requestedUserID pPacket) ≠ some (requestedUserPW pPacket) := by
  rw [LoginCorrect]
  by_cases hreply : redis.replies 0 = true
  · rw [if_pos hreply]
    cases hstored : storedPassword db (requestedUserID pPacket) with
    | none =>
        rw [if_neg (by simp), loginRound_unknown h hreply hstored]
        exact iff_of_true ⟨h.state, rfl⟩ (.inl rfl)
    | some value =>
        have hknown := loginRound_known env env' redis h hreply hstored
        split
        · rename_i heq
          obtain rfl := Option.some.inj heq
          exact iff_of_true ⟨hknown, loginRound_matching h hreply hstored⟩ (.inr rfl)
        · rename_i hne
          rw [hknown]
          exact iff_of_false (fun hcontra => by cases hcontra.1) (by simpa using hne)
  · rw [if_neg hreply, loginRound_unanswered h (by simpa using hreply)]
    split
    · rename_i heq
      rw [h.state]
      exact iff_of_false (fun hcontra => by cases hcontra.1) (not_not.mpr heq)
    · rename_i hne
      exact iff_of_true ⟨h.state, rfl⟩ hne

end Round

/-! ### A user `a` with the password `b` -/

/-- A login request of `a` with the password in one letter. -/
def letterRequest (userPW : UInt8) : View :=
  View.ofBytes (List.replicate packetHeaderLength 0 ++ 97 :: List.replicate maxUserIdLen 0 ++
    [userPW])

/-- The server when it starts, and a database that knows `a`. -/
def letterWorld : World :=
  World.init 3 (fun _ _ => 0) fun key => if key = [97] then some (.str [98]) else none

lemma letterRequest_isLoginRequest (userPW : UInt8) :
    LoginRequest 0 loginRequestPacketSize (letterRequest userPW) letterWorld.server where
  size := rfl
  userID := ⟨1, by decide, rfl⟩
  userPW := ⟨1, by decide, rfl⟩
  state := rfl
  notFull := by decide
  notInUse := rfl

/-- With its password `a` is logged in as it should be. -/
theorem loginRound_correct_letter :
    LoginCorrect letterWorld.store [97] [98] {}
      ((loginRound {} {} {} letterWorld.store 0 loginRequestPacketSize (letterRequest 98)
        letterWorld.server).mUserObjPool 0).toActor :=
  (loginRound_correct_iff (letterRequest_isLoginRequest 98)).mpr (.inr rfl)

/-- With another password it is logged in all the same. -/
theorem loginRound_wrong_password :
    ¬∀ (env : Env) (redis : RedisEnv) (env' : Env) (db : Store) (clientIndex packetSize : ℕ)
      (pPacket : View) (σ : Server), LoginRequest clientIndex packetSize pPacket σ →
      LoginCorrect db (requestedUserID pPacket) (requestedUserPW pPacket)
        (σ.mUserObjPool clientIndex).toActor
        ((loginRound env redis env' db clientIndex packetSize pPacket σ).mUserObjPool
          clientIndex).toActor := by
  intro hall
  have hrequest := letterRequest_isLoginRequest 99
  have hcorrect := hall {} {} {} letterWorld.store _ _ _ _ hrequest
  have hstored : storedPassword letterWorld.store (requestedUserID (letterRequest 99)) =
      some [98] :=
    rfl
  have hknown := loginRound_known {} {} {} hrequest rfl hstored
  have hpw : requestedUserPW (letterRequest 99) = [99] := rfl
  rw [LoginCorrect, if_neg (by rw [hpw]; decide), hknown] at hcorrect
  cases hcorrect.1

end CKGameServer
