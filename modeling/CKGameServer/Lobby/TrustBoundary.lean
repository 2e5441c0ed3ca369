import CKGameServer.Lobby.Refinement
import CKGameServer.Model.Client

/-!
What a client's bytes can make the server do (`ProcessPacket`, `ProcessRecvPacket`, `Init`).

System packets, client packets and the responses of the Redis thread share one dictionary of
handlers. For a client packet `ProcessPacket` asks that its id be above `SYS_END`, and the ids of
the responses are.

* `Handler.isClientRequest`: the handlers that are meant for clients.
* `Handler.run_quiet`: those leave every inventory as it is and send no `SHOP_INFO`.
* `World.TrustedStep`: a step on a client's bytes runs such a handler, and changes no user's
  login, no inventory and no shop broadcast.
* `World.trusted_iff`: every step of a run is trusted exactly if no client packet has the id of a
  response, and nobody enters a room without a login.
* `World.forged_login_result`: a client sends itself a `RESPONSE_LOGIN`.
-/

namespace CKGameServer

open Memory

/-- The handlers of client requests: neither those of the system packets nor those of the
responses of the Redis thread. -/
def Handler.isClientRequest : Handler → Bool
  | processUserConnect | processUserDisConnect => false
  | processLoginDBResult | processNoticeDBResult | processInventoryDBResult => false
  | processTradeDBResult | processShopUpdateDBResult | processShopBuyDBResult => false
  | _ => true

/-- The ids under which the handlers of responses are registered. -/
def responseIds : List ℕ :=
  [RedisTaskID.responseLogin, .responseNotice, .responseLoadInventory, .responseShopUpdate,
    .responseShopBuy, .responseTradeExchange].map RedisTaskID.code

/-! ### Inventories and shop packets -/

/-- From `σ` to `τ` no inventory changes and no `SHOP_INFO` is sent. -/
def Server.Quiet (σ τ : Server) : Prop :=
  (∀ i, (τ.mUserObjPool i).mInventory = (σ.mUserObjPool i).mInventory) ∧
    ∃ packets, τ.sent = σ.sent ++ packets ∧ ∀ q ∈ packets, ¬q.2.IsShopInfo

namespace Server

lemma Quiet.refl (σ : Server) : σ.Quiet σ := ⟨fun _ => rfl, [], by simp, by simp⟩

lemma Quiet.trans {σ τ υ : Server} (h : σ.Quiet τ) (h' : τ.Quiet υ) : σ.Quiet υ := by
  obtain ⟨hinv, ps, hps, hshop⟩ := h
  obtain ⟨hinv', ps', hps', hshop'⟩ := h'
  refine ⟨fun i => (hinv' i).trans (hinv i), ps ++ ps', ?_, fun q hq => ?_⟩
  · rw [hps', hps, List.append_assoc]
  · rcases List.mem_append.mp hq with hq | hq
    · exact hshop q hq
    · exact hshop' q hq

lemma SameUsers.quiet {σ τ : Server} (h : σ.SameUsers τ) : σ.Quiet τ :=
  ⟨h.mInventory, [], by simp [h.sent], by simp⟩

/-- A change by a handler of client requests. -/
lemma quiet_of_effect {handler : Handler} {i : ℕ} {σ τ : Server}
    (hclient : handler.isClientRequest = true) (h : handler.Effect i σ τ) : σ.Quiet τ := by
  cases h with
  | actor f =>
      refine ⟨fun j => ?_, [], by simp, by simp⟩
      by_cases hj : j = i
      · subst hj; simp
      · simp [hj]
  | clear h => rcases h with rfl | rfl <;> cases hclient
  | inventory inven h => subst h; cases hclient
  | dictionary keep => exact ⟨fun _ => rfl, [], by simp, by simp⟩
  | room r f => exact ⟨fun _ => rfl, [], by simp, by simp⟩
  | send packets h =>
      refine ⟨fun _ => rfl, packets, rfl, fun q hq hshop => ?_⟩
      obtain rfl := h q hq hshop
      cases hclient
  | push task h => exact ⟨fun _ => rfl, [], by simp, by simp⟩

end Server

/-- **The handlers of client requests** leave every inventory as it is and send no `SHOP_INFO`. -/
theorem Handler.run_quiet {handler : Handler} {env : Env} {i n : ℕ} {p : View} {σ τ : Server}
    (hclient : handler.isClientRequest = true) (h : handler.run env i n p σ = .ok τ) :
    σ.Quiet τ :=
  Handler.run_induction (P := σ.Quiet)
    (fun _ _ heffect hquiet => hquiet.trans (Server.quiet_of_effect hclient heffect)) h (.refl σ)

/-! ### The dispatch -/

/-- A client packet above `SYS_END` whose id is not one of a response reaches a handler of
client requests, if any. -/
lemma isClientRequest_of_findHandler {packetId : ℕ} {handler : Handler}
    (h : findHandler packetId = some handler) (hsys : PacketId.sysEnd.code < packetId)
    (hid : packetId ∉ responseIds) : handler.isClientRequest = true := by
  have hall : ∀ e ∈ mRecvFuntionDictionary, PacketId.sysEnd.code < e.1 → e.1 ∉ responseIds →
      e.2.isClientRequest = true := by decide
  exact hall _ (mem_of_findHandler h) hsys hid

/-- The id of a response reaches the handler of that response. -/
lemma findHandler_responseIds {packetId : ℕ} (hid : packetId ∈ responseIds) :
    ∃ handler, findHandler packetId = some handler ∧ handler.isClientRequest = false := by
  have hall : ∀ id ∈ responseIds, (findHandler id).map Handler.isClientRequest = some false := by
    decide
  obtain ⟨handler, hfind, hclient⟩ := Option.map_eq_some_iff.mp (hall packetId hid)
  exact ⟨handler, hfind, hclient⟩

namespace World

/-- What a step on a client's bytes may do: it runs a handler of client requests, or none; it
leaves every user logged in or not, as it was and under its id; it leaves every inventory as it
is; and it sends no `SHOP_INFO`. -/
structure ClientStepTrusted (w : World) (e : Event) : Prop where
  handler : ∀ handler p, w.call e = some (handler, p) → handler.isClientRequest = true
  login : ∀ w', w.step e = some w' → ∀ i,
    ((w'.server.mUserObjPool i).mCurDomainState = .none ↔
      (w.server.mUserObjPool i).mCurDomainState = .none) ∧
    (w'.server.mUserObjPool i).mUserID = (w.server.mUserObjPool i).mUserID
  quiet : ∀ w', w.step e = some w' → w.server.Quiet w'.server

/-- The trust boundary: every step on a client's bytes is a trusted one. -/
def TrustedStep (w : World) : Event → Prop
  | .clientPacket env => w.ClientStepTrusted (.clientPacket env)
  | _ => True

/-- The client packet that is dispatched, if one is, does not have the id of a response, and is
not a request of a user in state `NONE` to enter a room that has a place. -/
def AllowedStep (w : World) : Event → Prop
  | .clientPacket env => ∀ p, w.packet (.clientPacket env) = some p →
      p.packetId ∉ responseIds ∧
      (p.packetId = PacketId.roomEnterRequest.code → ∀ r,
        RoomManager.getRoomByNumber (PacketManager.enterRoomNumber p.pPacket) = some r →
        w.server.lobby.HasPlace r →
        (w.server.mUserObjPool p.clientIndex).mCurDomainState ≠ .none)
  | _ => True

/-- Only packets above `SYS_END` are dispatched for a client. -/
lemma sysEnd_lt_of_packet {w : World} {env : Env} {p : RecvPacket}
    (h : w.packet (.clientPacket env) = some p) : PacketId.sysEnd.code < p.packetId := by
  have hpacket : w.server.clientPacket.1 = some p := h
  rw [Server.clientPacket] at hpacket
  simp only at hpacket
  split at hpacket
  · rename_i hsys
    rw [← Option.some.inj hpacket]
    exact hsys
  · cases hpacket

end World

namespace Lobby

/-- An operation that leaves everybody logged in or not, as they were and under their ids. -/
def KeepsLogins (L L' : Lobby) : Prop :=
  ∀ u, ((L'.session u).state = .none ↔ (L.session u).state = .none) ∧
    (L'.session u).userID = (L.session u).userID

variable {L : Lobby}

lemma KeepsLogins.refl (L : Lobby) : L.KeepsLogins L := fun _ => ⟨Iff.rfl, rfl⟩

lemma keepsLogins_leaveRoom (hrooms : L.WellRoomed) (u : ℕ) : L.KeepsLogins (L.leaveRoom u) := by
  cases hr : (L.session u).room with
  | none => rw [leaveRoom_of_none hr]; exact .refl L
  | some r =>
      rw [leaveRoom_of_some hr]
      intro v
      by_cases hv : v = u
      · subst hv
        have hactive : (L.session v).state ≠ .none := fun hnone => by
          rw [(hrooms v).1 hnone] at hr
          cases hr
        simp [hactive]
      · simp [hv]

/-- Entering a room keeps the logins unless it is done without one. -/
lemma keepsLogins_enter_iff {u : ℕ} {r : RoomIndex} :
    L.KeepsLogins (L.apply (.enter u r)) ↔ (L.HasPlace r → (L.session u).state ≠ .none) := by
  rw [Lobby.apply]
  split
  · rename_i hplace
    constructor
    · intro h _ hnone
      have := (h u).1.mpr hnone
      simp at this
    · intro h v
      by_cases hv : v = u
      · subst hv
        simp [h hplace]
      · simp [hv]
  · rename_i hfull
    exact iff_of_true (.refl L) fun hplace => absurd hplace hfull

end Lobby

namespace World

section AllowedStep

variable {w w' : World} {env : Env}

/-- An allowed step on a client's bytes runs a handler of client requests. -/
lemma AllowedStep.isClientRequest (h : w.AllowedStep (.clientPacket env)) {handler : Handler}
    {p : RecvPacket} (hcall : w.call (.clientPacket env) = some (handler, p)) :
    handler.isClientRequest = true := by
  obtain ⟨hpacket, hfind⟩ := call_eq_some_iff.mp hcall
  exact isClientRequest_of_findHandler hfind (sysEnd_lt_of_packet hpacket) (h p hpacket).1

/-- An allowed step on a client's bytes leaves everybody logged in or not: of the handlers it may
run only those of the rooms change a session. -/
lemma AllowedStep.keepsLogins (h : w.AllowedStep (.clientPacket env))
    (hrooms : w.server.lobby.WellRoomed) (hstep : w.step (.clientPacket env) = some w') :
    w.server.lobby.KeepsLogins w'.server.lobby := by
  rw [step_lobby hstep]
  cases hcall : w.call (.clientPacket env) with
  | none => rw [op, hcall]; exact .refl _
  | some c =>
      obtain ⟨handler, p⟩ := c
      have hclient := h.isClientRequest hcall
      obtain ⟨hpacket, hfind⟩ := call_eq_some_iff.mp hcall
      rw [op, hcall]
      cases handler with
      | processEnterRoom =>
          simp only [Option.bind_some, Handler.op]
          cases hr : RoomManager.getRoomByNumber (PacketManager.enterRoomNumber p.pPacket) with
          | none => exact .refl _
          | some r =>
              exact Lobby.keepsLogins_enter_iff.mpr fun hplace =>
                (h p hpacket).2 (findHandler_injective hfind rfl) r hr hplace
      | processLeaveRoom => exact Lobby.keepsLogins_leaveRoom hrooms _
      | processUserConnect => cases hclient
      | processUserDisConnect => cases hclient
      | processLoginDBResult => cases hclient
      | _ => exact .refl _

/-- An allowed step on a client's bytes changes no inventory and no shop broadcast. -/
lemma AllowedStep.quiet (h : w.AllowedStep (.clientPacket env))
    (hstep : w.step (.clientPacket env) = some w') : w.server.Quiet w'.server := by
  obtain ⟨σ, hσ, ⟨-, hsame⟩ | ⟨handler, p, env', hcall, hrun⟩⟩ := step_cases hstep
  · exact hσ.quiet.trans hsame.quiet
  · exact hσ.quiet.trans (Handler.run_quiet (h.isClientRequest hcall) hrun)

/-- In a trusted step the packet does not have the id of a response. -/
lemma ClientStepTrusted.not_response (h : w.ClientStepTrusted (.clientPacket env))
    {p : RecvPacket} (hp : w.packet (.clientPacket env) = some p) :
    p.packetId ∉ responseIds := fun hid => by
  obtain ⟨handler, hfind, hclient⟩ := findHandler_responseIds hid
  have htrusted := h.handler handler p (call_eq_some_iff.mpr ⟨hp, hfind⟩)
  cases htrusted.symm.trans hclient

/-- In a trusted step nobody enters a room from the state `NONE`. -/
lemma ClientStepTrusted.enters (h : w.ClientStepTrusted (.clientPacket env)) {p : RecvPacket}
    (hp : w.packet (.clientPacket env) = some p)
    (hid : p.packetId = PacketId.roomEnterRequest.code) {r : RoomIndex}
    (hr : RoomManager.getRoomByNumber (PacketManager.enterRoomNumber p.pPacket) = some r)
    (hplace : w.server.lobby.HasPlace r) :
    (w.server.mUserObjPool p.clientIndex).mCurDomainState ≠ .none := by
  have hfind : findHandler p.packetId = some .processEnterRoom := by rw [hid]; rfl
  have hop : w.op (.clientPacket env) = some (.enter p.clientIndex r) := by
    rw [op, call_eq_some_iff.mpr ⟨hp, hfind⟩]
    simp [Handler.op, hr]
  obtain ⟨w', hstep⟩ := exists_step_of_op hop
  have hkeeps : w.server.lobby.KeepsLogins w'.server.lobby := h.login w' hstep
  rw [step_lobby hstep, hop] at hkeeps
  exact Lobby.keepsLogins_enter_iff.mp hkeeps hplace

end AllowedStep

/-- **One step**: it is trusted exactly if it is allowed. -/
theorem trustedStep_iff {w : World} (hrooms : w.server.lobby.WellRoomed) (e : Event) :
    w.TrustedStep e ↔ w.AllowedStep e := by
  cases e with
  | clientPacket env =>
      constructor
      · intro h p hp
        exact ⟨ClientStepTrusted.not_response h hp, fun hid r hr hplace =>
          ClientStepTrusted.enters h hp hid hr hplace⟩
      · intro h
        exact ⟨fun _ _ hcall => h.isClientRequest hcall, fun _ hstep => h.keepsLogins hrooms hstep,
          fun _ hstep => h.quiet hstep⟩
  | _ => exact Iff.rfl

/-- **The trust boundary.** In any run from the start of the server every step on a client's
bytes is trusted exactly if no client packet that is dispatched has the id of a response, and
none enters a room for a user in state `NONE`. -/
theorem trusted_iff (maxClient : ℕ) (memory : ℕ → View) (store : Store) (es : List Event) :
    Runs.Along step TrustedStep (init maxClient memory store) es ↔
      Runs.Along step AllowedStep (init maxClient memory store) es :=
  Runs.along_iff_along (P := fun w => w.server.lobby.WellRoomed)
    (fun _ e hrooms => trustedStep_iff hrooms e)
    (fun _ _ _ hrooms _ hstep => by
      rw [step_lobby hstep]
      exact hrooms.applyOption _)
    es Lobby.wellRoomed_empty

/-- A packet with the id of `RESPONSE_LOGIN`, read as a result `NONE`. -/
def forgedLoginResult : Bytes :=
  packetBytes RedisTaskID.responseLogin.code (List.replicate redisLoginResSize 0)

/-- The server runs the handler of a login result on bytes that a client sent. -/
theorem forged_login_result :
    ¬∀ (maxClient : ℕ) (memory : ℕ → View) (store : Store) (es : List Event),
      Runs.Along step TrustedStep (init maxClient memory store) es := by
  intro h
  have hrun : (Runs.run step (init 3 (fun _ _ => 0) fun _ => none)
      [.connect 0, .systemPacket {}, .receive 0 (chunk forgedLoginResult)]).bind
      (fun w => (w.call (.clientPacket {})).map Prod.fst) = some .processLoginDBResult := by
    decide +kernel
  obtain ⟨w, hw, hcall⟩ := Option.bind_eq_some_iff.mp hrun
  obtain ⟨⟨handler, p⟩, hcall, rfl⟩ := Option.map_eq_some_iff.mp hcall
  have htrusted := (h 3 (fun _ _ => 0) (fun _ => none)
    ([.connect 0, .systemPacket {}, .receive 0 (chunk forgedLoginResult)] ++
      Event.clientPacket {} :: [])).of_run hw
  have hclient := htrusted.handler _ _ hcall
  cases hclient

end World

end CKGameServer
