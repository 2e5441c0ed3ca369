import CKGameServer.Lobby.Refinement
import CKGameServer.Model.Client

/-!
One user for each id (`ProcessLogin`, `ProcessLoginDBResult`, `UserManager`).

`ProcessLogin` refuses an id that `mUserIDDictionary` holds, but nothing ever puts one there.

* `Lobby.NoDoubleLogin`: two users who are logged in or in a room have different ids.
* `Lobby.noDoubleLogin_apply_iff`: which operations keep that.
* `World.noDoubleLogin_iff`: over a run of the system ids are unique exactly if every login that
  succeeds, and every room entered without a login, comes with an id nobody else holds.
* `World.dictionaryEmpty_always`: the dictionary of `ProcessLogin` stays empty.
* `World.double_login`: two clients log in under one id, one after the other.
-/

namespace CKGameServer

namespace Lobby

/-- The user is logged in, in a room or not. -/
def Active (L : Lobby) (u : ℕ) : Prop := (L.session u).state ≠ .none

/-- No user other than `u` holds the id. -/
def FreeFor (L : Lobby) (u : ℕ) (userID : Memory.Bytes) : Prop :=
  ∀ v, v ≠ u → L.Active v → (L.session v).userID ≠ userID

/-- Users who are logged in have different ids. -/
def NoDoubleLogin (L : Lobby) : Prop :=
  ∀ u v, u ≠ v → L.Active u → L.Active v → (L.session u).userID ≠ (L.session v).userID

/-- A user who becomes active does so under an id nobody else holds. -/
def TakesFreeID (L : Lobby) : Op → Prop
  | .login u userID => L.FreeFor u userID
  | .enter u r => L.HasPlace r → ¬L.Active u → L.FreeFor u (L.session u).userID
  | _ => True

variable {L : Lobby}

/-- A new record keeps the ids unique exactly if it is inactive or its id is free. -/
lemma noDoubleLogin_setSession_iff (h : L.NoDoubleLogin) {u : ℕ} {s : Session} :
    (L.setSession u s).NoDoubleLogin ↔ (s.state ≠ .none → L.FreeFor u s.userID) := by
  constructor
  · intro h' hs v hv hactive
    have := h' v u hv (by simpa [Active, hv] using hactive) (by simpa [Active] using hs)
    simpa [hv] using this
  · intro hfree v w hvw hv hw
    by_cases hvu : v = u
    · subst hvu
      have hs : s.state ≠ .none := by simpa [Active] using hv
      have hw' : L.Active w := by simpa [Active, Ne.symm hvw] using hw
      simpa [Ne.symm hvw] using (hfree hs w (Ne.symm hvw) hw').symm
    · have hv' : L.Active v := by simpa [Active, hvu] using hv
      by_cases hwu : w = u
      · subst hwu
        have hs : s.state ≠ .none := by simpa [Active] using hw
        simpa [hvu] using hfree hs v hvu hv'
      · have hw' : L.Active w := by simpa [Active, hwu] using hw
        simpa [hvu, hwu] using h v w hvw hv' hw'

/-- An active user's own id is free for it. -/
lemma NoDoubleLogin.freeFor (h : L.NoDoubleLogin) {u : ℕ} (hu : L.Active u) :
    L.FreeFor u (L.session u).userID := fun v hv hactive => h v u hv hactive hu

lemma noDoubleLogin_addTo_iff (h : L.NoDoubleLogin) {u : ℕ} {r : RoomIndex} :
    (L.addTo u r).NoDoubleLogin ↔ (¬L.Active u → L.FreeFor u (L.session u).userID) := by
  have hset := noDoubleLogin_setSession_iff h (u := u)
    (s := { L.session u with state := .room, room := some r })
  refine hset.trans ⟨fun hfree _ => hfree (by simp), fun hfree _ => ?_⟩
  by_cases hu : L.Active u
  · exact h.freeFor hu
  · exact hfree hu

lemma NoDoubleLogin.removeFrom (h : L.NoDoubleLogin) {u : ℕ} (hu : L.Active u) (r : RoomIndex) :
    (L.removeFrom u r).NoDoubleLogin :=
  (noDoubleLogin_setSession_iff h (u := u) (s := { L.session u with state := .login })).mpr
    fun _ => h.freeFor hu

lemma NoDoubleLogin.leaveRoom (hrooms : L.WellRoomed) (h : L.NoDoubleLogin) (u : ℕ) :
    (L.leaveRoom u).NoDoubleLogin := by
  cases hr : (L.session u).room with
  | none => rwa [leaveRoom_of_none hr]
  | some r =>
      rw [leaveRoom_of_some hr]
      refine h.removeFrom (fun hnone => ?_) r
      rw [(hrooms u).1 hnone] at hr
      cases hr

/-- **Which operations keep the ids unique.** -/
theorem noDoubleLogin_apply_iff (hrooms : L.WellRoomed) (h : L.NoDoubleLogin) (op : Op) :
    (L.apply op).NoDoubleLogin ↔ L.TakesFreeID op := by
  have hclear : ∀ {L : Lobby} {u : ℕ}, L.NoDoubleLogin → (L.setSession u {}).NoDoubleLogin :=
    fun h => (noDoubleLogin_setSession_iff h).mpr fun hs => absurd rfl hs
  cases op with
  | connect u => exact iff_of_true (hclear h) trivial
  | login u userID =>
      exact (noDoubleLogin_setSession_iff h).trans
        ⟨fun hfree => hfree (by simp), fun hfree _ => hfree⟩
  | enter u r =>
      rw [Lobby.apply, TakesFreeID]
      split
      · rename_i hplace
        rw [noDoubleLogin_addTo_iff h]
        exact ⟨fun hu _ => hu, fun hu => hu hplace⟩
      · rename_i hfull
        exact iff_of_true h fun hplace => absurd hplace hfull
  | leave u => exact iff_of_true (h.leaveRoom hrooms u) trivial
  | disconnect u =>
      exact iff_of_true
        (apply_disconnect_keeps (h.leaveRoom hrooms u) (fun _ hM => hclear hM) h) trivial

end Lobby

namespace World

/-- Two users in state `LOGIN` or `ROOM` have different ids. -/
def NoDoubleLogin (w : World) : Prop :=
  ∀ u v, u ≠ v → (w.server.mUserObjPool u).mCurDomainState ≠ .none →
    (w.server.mUserObjPool v).mCurDomainState ≠ .none →
    (w.server.mUserObjPool u).mUserID ≠ (w.server.mUserObjPool v).mUserID

/-- **No double login.** In any run from the start of the server the ids of the users in state
`LOGIN` or `ROOM` are unique in every state exactly if every login result that succeeds, and
every room entered from state `NONE`, comes with an id that no other such user holds. -/
theorem noDoubleLogin_iff (maxClient : ℕ) (memory : ℕ → Memory.View) (store : Store)
    (es : List Event) :
    Runs.Always step NoDoubleLogin (init maxClient memory store) es ↔
      Runs.Along step (fun w e => ∀ op, w.op e = some op → w.server.lobby.TakesFreeID op)
        (init maxClient memory store) es :=
  always_lobby_iff (I := Lobby.WellRoomed) (P := Lobby.NoDoubleLogin)
    (fun _ op h => h.apply op) (fun _ op hrooms h => Lobby.noDoubleLogin_apply_iff hrooms h op) es
    Lobby.wellRoomed_empty fun _ _ _ hu => absurd rfl hu

/-! ### The dictionary of `ProcessLogin` -/

/-- No handler puts an id into an empty dictionary. -/
lemma dictionary_run {handler : Handler} {env : Env} {i n : ℕ} {p : Memory.View} {σ τ : Server}
    (hσ : σ.mUserIDDictionary = []) (h : handler.run env i n p σ = .ok τ) :
    τ.mUserIDDictionary = [] :=
  Handler.run_induction (P := fun σ => σ.mUserIDDictionary = [])
    (fun σ τ heffect hσ => by cases heffect <;> simp [hσ]) h hσ

/-- **The check for a user already connected finds nobody, ever**: the dictionary it looks into
stays empty, because `AddUser` is never called. -/
theorem dictionaryEmpty_always (maxClient : ℕ) (memory : ℕ → Memory.View) (store : Store)
    (es : List Event) :
    Runs.Always step (fun w => w.server.mUserIDDictionary = []) (init maxClient memory store)
      es := by
  refine Runs.always_of_step (fun w e w' hw h => ?_) es rfl
  obtain ⟨σ, hσ, ⟨-, hsame⟩ | ⟨handler, p, env, -, hrun⟩⟩ := step_cases h
  · rw [hsame.mUserIDDictionary, hσ.mUserIDDictionary, hw]
  · exact dictionary_run (hσ.mUserIDDictionary.trans hw) hrun

/-! ### Two clients -/

/-- Two clients log in as `a`, one after the other. The inventory of the second is not loaded yet. -/
def loginTwice : List Event :=
  [.connect 0, .systemPacket {}, .connect 1, .systemPacket {}] ++ Event.login 0 [97] [98] ++
    Event.request 1 (loginRequestPacket [97] [98]) ++ [.redisTask default, .response {}]

/-- The check for a user already connected lets the second one through. -/
theorem double_login :
    ¬∀ (maxClient : ℕ) (memory : ℕ → Memory.View) (store : Store) (es : List Event),
      Runs.Always step NoDoubleLogin (init maxClient memory store) es := by
  intro h
  have hrun : (Runs.run step (init 3 (fun _ _ => 0) twoUsers) loginTwice).map
      (fun w => (w.server.lobby.session 0, w.server.lobby.session 1)) =
      some (⟨[97], .login, none⟩, ⟨[97], .login, none⟩) := by decide +kernel
  obtain ⟨w, hw, hmap⟩ := Option.map_eq_some_iff.mp hrun
  obtain ⟨h0, h1⟩ := Prod.mk.inj hmap
  have hne := (h 3 (fun _ _ => 0) twoUsers loginTwice).of_run hw 0 1 (by decide)
  exact hne (fun hs => by cases (congrArg Session.state h0).symm.trans hs)
    (fun hs => by cases (congrArg Session.state h1).symm.trans hs)
    ((congrArg Session.userID h0).trans (congrArg Session.userID h1).symm)

end World

end CKGameServer
