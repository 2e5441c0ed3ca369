import CKGameServer.Lobby.DoubleLogin

/-!
The counter of the users (`UserManager::GetCurrentUserCnt`) and the check of `ProcessLogin`.

`IncreaseUserCnt` and `DecreaseUserCnt` are never called, so the counter stays at zero.

* `Server.userCount`: the number of users in state `LOGIN` or `ROOM`.
* `Server.AnswersFull`: what `ProcessLogin` answers to a server that is full.
* `Server.Counted`: the counter is that number, and `ProcessLogin` answers so exactly where it has
  reached `GetMaxUserCnt()`.
* `World.sameCounters_step`: no step changes a counter.
* `World.counted_iff`: the runs in which the counter is right are those in which nobody logs in.
* `World.full_server_takes_login`: a server for one user takes a second login.
-/

namespace CKGameServer

open Memory

/-! ### The counter -/

namespace Server

/-- The number of users in state `LOGIN` or `ROOM`. -/
def userCount (σ : Server) : ℕ :=
  (List.range σ.mMaxUserCnt.toNat).countP fun u => (σ.mUserObjPool u).mCurDomainState ≠ .none

/-- To a login request of user `i`, `ProcessLogin` answers `LOGIN_USER_USED_ALL_OBJ`. -/
def AnswersFull (env : Env) (i : ℕ) (p : View) (σ : Server) : Prop :=
  (PacketManager.processLogin env i loginRequestPacketSize p σ).sent =
    σ.sent ++ [(i, .loginResponse ErrorCode.loginUserUsedAllObj.code)]

/-- `GetCurrentUserCnt()` is the number of users in state `LOGIN` or `ROOM`, and `ProcessLogin`
refuses a login for lack of room exactly where that number has reached `GetMaxUserCnt()`. -/
def Counted (σ : Server) : Prop :=
  σ.mCurrentUserCnt = σ.userCount ∧
    ∀ env i p, σ.AnswersFull env i p ↔ σ.mMaxUserCnt ≤ σ.userCount

variable {σ τ : Server}

/-- `ProcessLogin` goes by the counter. -/
lemma answersFull_iff (env : Env) (i : ℕ) (p : View) :
    σ.AnswersFull env i p ↔ σ.mMaxUserCnt ≤ σ.mCurrentUserCnt := by
  have hcode : ErrorCode.loginUserAlready.code ≠ ErrorCode.loginUserUsedAllObj.code := by decide
  rw [AnswersFull, PacketManager.processLogin, if_neg (not_not.mpr rfl)]
  by_cases hfull : σ.mMaxUserCnt ≤ σ.mCurrentUserCnt
  · rw [if_pos hfull]
    exact iff_of_true rfl hfull
  · rw [if_neg hfull]
    refine iff_of_false (fun hsent => ?_) hfull
    split at hsent
    · exact absurd (congrArg List.length hsent) (by simp)
    · simp only [sendPacketFunc, sendAll_sent, List.append_cancel_left_eq, List.cons.injEq,
        Prod.mk.injEq, true_and, and_true, ServerPacket.loginResponse.injEq] at hsent
      exact hcode hsent

/-- The answers follow where the counter is right. -/
lemma counted_iff_eq : σ.Counted ↔ σ.mCurrentUserCnt = σ.userCount := by
  refine ⟨And.left, fun h => ⟨h, fun env i p => ?_⟩⟩
  rw [answersFull_iff, h]

/-- The counters of two states are the same. -/
def SameCounters (σ τ : Server) : Prop :=
  τ.mMaxUserCnt = σ.mMaxUserCnt ∧ τ.mCurrentUserCnt = σ.mCurrentUserCnt

lemma SameCounters.trans {υ : Server} (h : σ.SameCounters τ) (h' : τ.SameCounters υ) :
    σ.SameCounters υ := ⟨h'.1.trans h.1, h'.2.trans h.2⟩

/-- No handler changes a counter. -/
lemma sameCounters_run {handler : Handler} {env : Env} {i n : ℕ} {p : View}
    (h : handler.run env i n p σ = .ok τ) : σ.SameCounters τ :=
  Handler.run_induction (P := σ.SameCounters)
    (fun _ _ heffect hσ => by cases heffect <;> exact hσ) h ⟨rfl, rfl⟩

lemma sameCounters_dispatch {env : Env} {p : Option RecvPacket} (h : dispatch env (p, σ) = .ok τ) :
    σ.SameCounters τ := by
  rcases dispatch_cases h with ⟨-, rfl⟩ | ⟨handler, q, -, hrun⟩
  · exact ⟨rfl, rfl⟩
  · exact sameCounters_run hrun

lemma sameCounters_dequePacketData (σ : Server) : σ.SameCounters σ.dequePacketData.2 := by
  rw [dequePacketData]
  split <;> exact ⟨rfl, rfl⟩

lemma sameCounters_dequeSystemPacketData (σ : Server) :
    σ.SameCounters σ.dequeSystemPacketData.2 := by
  rw [dequeSystemPacketData]
  split <;> exact ⟨rfl, rfl⟩

lemma sameCounters_takeResponseTask (σ : Server) : σ.SameCounters σ.takeResponseTask.2 := by
  rw [takeResponseTask]
  split <;> exact ⟨rfl, rfl⟩

lemma sameCounters_takeRequestTask (σ : Server) : σ.SameCounters σ.takeRequestTask.2 := by
  rw [takeRequestTask]
  split <;> exact ⟨rfl, rfl⟩

end Server

/-! ### Nobody below the limit -/

namespace Lobby

/-- No user of the pool is logged in. -/
def Deserted (n : ℕ) (L : Lobby) : Prop := ∀ u < n, ¬L.Active u

/-- No user of the pool becomes active. -/
def StaysOut (n : ℕ) (L : Lobby) : Op → Prop
  | .login u _ => n ≤ u
  | .enter u r => L.HasPlace r → n ≤ u
  | _ => True

variable {n : ℕ} {L : Lobby}

lemma deserted_setSession_iff (h : L.Deserted n) {u : ℕ} {s : Session} :
    (L.setSession u s).Deserted n ↔ (s.state ≠ .none → n ≤ u) := by
  constructor
  · intro h' hs
    by_contra hu
    exact h' u (by omega) (by simpa [Active] using hs)
  · intro hu v hv hactive
    by_cases hvu : v = u
    · subst hvu
      exact absurd (hu (by simpa [Active] using hactive)) (by omega)
    · exact h v hv (by simpa [Active, hvu] using hactive)

lemma Deserted.leaveRoom (hrooms : L.WellRoomed) (h : L.Deserted n) (u : ℕ) :
    (L.leaveRoom u).Deserted n := by
  cases hr : (L.session u).room with
  | none => rwa [leaveRoom_of_none hr]
  | some r =>
      rw [leaveRoom_of_some hr]
      refine (deserted_setSession_iff h (u := u) (s := { L.session u with state := .login })).mpr
        fun _ => ?_
      by_contra hu
      have hnone : (L.session u).state = .none := not_not.mp (h u (by omega))
      rw [(hrooms u).1 hnone] at hr
      cases hr

/-- **Which operations leave the pool deserted.** -/
theorem deserted_apply_iff (hrooms : L.WellRoomed) (h : L.Deserted n) (op : Op) :
    (L.apply op).Deserted n ↔ L.StaysOut n op := by
  have hclear : ∀ {L : Lobby} {u : ℕ}, L.Deserted n → (L.setSession u {}).Deserted n :=
    fun h => (deserted_setSession_iff h).mpr fun hs => absurd rfl hs
  cases op with
  | connect u => exact iff_of_true (hclear h) trivial
  | login u userID =>
      exact (deserted_setSession_iff h).trans ⟨fun hout => hout (by simp), fun hout _ => hout⟩
  | enter u r =>
      rw [Lobby.apply, StaysOut]
      split
      · rename_i hplace
        have hset := deserted_setSession_iff h (u := u)
          (s := { L.session u with state := .room, room := some r })
        exact hset.trans ⟨fun hout _ => hout (by simp), fun hout _ => hout hplace⟩
      · rename_i hfull
        exact iff_of_true h fun hplace => absurd hplace hfull
  | leave u => exact iff_of_true (h.leaveRoom hrooms u) trivial
  | disconnect u =>
      exact iff_of_true
        (apply_disconnect_keeps (h.leaveRoom hrooms u) (fun _ hM => hclear hM) h) trivial

end Lobby

/-! ### Runs -/

namespace World

variable {w w' : World}

/-- **No step changes a counter.** -/
lemma sameCounters_step {e : Event} (h : w.step e = some w') :
    w.server.SameCounters w'.server := by
  have hdispatch : ∀ {env : Env} {p : Option RecvPacket} {σ : Server}, w.server.SameCounters σ →
      (Server.dispatch env (p, σ)).toOption.map (fun τ => { w with server := τ }) = some w' →
      w.server.SameCounters w'.server := by
    intro env p σ hσ hstep
    cases hd : Server.dispatch env (p, σ) with
    | error f => rw [hd] at hstep; cases hstep
    | ok τ =>
        rw [hd] at hstep
        obtain rfl := Option.some.inj hstep
        exact hσ.trans (Server.sameCounters_dispatch hd)
  cases e with
  | receive i pData =>
      obtain ⟨recv, -, rfl⟩ := World.exists_receive h
      exact ⟨rfl, rfl⟩
  | clientPacket env => exact hdispatch w.server.sameCounters_dequePacketData h
  | systemPacket env => exact hdispatch w.server.sameCounters_dequeSystemPacketData h
  | response env => exact hdispatch w.server.sameCounters_takeResponseTask h
  | redisTask env =>
      obtain ⟨out, -, rfl⟩ := Option.map_eq_some_iff.mp h
      exact w.server.sameCounters_takeRequestTask
  | connect i => exact Option.some.inj h ▸ ⟨rfl, rfl⟩
  | close i => exact Option.some.inj h ▸ ⟨rfl, rfl⟩
  | tick env => exact Option.some.inj h ▸ ⟨rfl, rfl⟩
  | subscribe env message => exact Option.some.inj h ▸ ⟨rfl, rfl⟩

/-- Where the counter stands at zero, it is right exactly if the pool is deserted. -/
lemma counted_iff_deserted {σ : Server} {maxClient : ℕ} (hmax : σ.mMaxUserCnt = maxClient)
    (hcur : σ.mCurrentUserCnt = 0) : σ.Counted ↔ σ.lobby.Deserted maxClient := by
  rw [Server.counted_iff_eq, hcur, Server.userCount, hmax, Int.toNat_natCast, eq_comm,
    Int.natCast_eq_zero, List.countP_eq_zero]
  constructor
  · intro h u hu hactive
    exact h u (List.mem_range.mpr hu) (decide_eq_true hactive)
  · intro h u hu hactive
    have hstate : (σ.mUserObjPool u).mCurDomainState ≠ .none := of_decide_eq_true hactive
    exact h u (List.mem_range.mp hu) hstate

/-- **The counter is right** in every state of a run exactly if no login result that succeeds is
processed for a user of the pool, and none of them enters a room that has a place. -/
theorem counted_iff (maxClient : ℕ) (memory : ℕ → View) (store : Store) (es : List Event) :
    Runs.Always step (fun w => w.server.Counted) (init maxClient memory store) es ↔
      Runs.Along step (fun w e => ∀ op, w.op e = some op → w.server.lobby.StaysOut maxClient op)
        (init maxClient memory store) es := by
  have hcounters : Runs.Always step
      (fun w => w.server.mMaxUserCnt = maxClient ∧ w.server.mCurrentUserCnt = 0)
      (init maxClient memory store) es := by
    refine Runs.always_of_step (fun w e w' hw h => ?_) es ⟨rfl, rfl⟩
    obtain ⟨hmax, hcur⟩ := sameCounters_step h
    exact ⟨hmax.trans hw.1, hcur.trans hw.2⟩
  rw [Runs.always_congr (fun w hw => counted_iff_deserted hw.1 hw.2) hcounters]
  exact always_lobby_iff (I := Lobby.WellRoomed) (P := Lobby.Deserted maxClient)
    (fun _ op h => h.apply op) (fun _ op hrooms h => Lobby.deserted_apply_iff hrooms h op) es
    Lobby.wellRoomed_empty fun _ _ hactive => hactive rfl

/-- The one user a server is for logs in. -/
def loginOnce : List Event := [.connect 0, .systemPacket {}] ++ Event.login 0 [97] [98]

/-- **A full server takes logins**: with one user of one logged in the counter is still zero. -/
theorem full_server_takes_login :
    ¬∀ (maxClient : ℕ) (memory : ℕ → View) (store : Store) (es : List Event),
      Runs.Always step (fun w => w.server.Counted) (init maxClient memory store) es := by
  intro h
  have hrun : (Runs.run step (init 1 (fun _ _ => 0) twoUsers) loginOnce).map
      (fun w => (w.server.mCurrentUserCnt, w.server.userCount)) = some (0, 1) := by decide +kernel
  obtain ⟨w, hw, hmap⟩ := Option.map_eq_some_iff.mp hrun
  obtain ⟨hcur, hcount⟩ := Prod.mk.inj hmap
  have hcounted := ((h 1 (fun _ _ => 0) twoUsers loginOnce).of_run hw).1
  rw [hcur, hcount] at hcounted
  cases hcounted

end World

end CKGameServer
