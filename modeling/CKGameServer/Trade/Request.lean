import CKGameServer.Network.SendMsg

/-!
Whom a request to trade reaches (`ProcessTradeRequest`, `SendMsg`, `GetClientInfo`).

The client names the target with 64 bits. It is cut to 32 where it is passed to `SendPacketFunc`,
and `GetClientInfo` indexes `mClientInfos` with what is left; nobody looks at the target.

* `GameServer.ValidTarget`: a slot with the index that the request names, connected, of a user who
  has logged in, and not the one of the requester.
* `World.step_tradeRequest`: the one packet that the handler sends.
* `GameServer.NotifiesValidTarget`: a request sends nothing, or one notification to a valid target,
  and stays in `mClientInfos`.
* `GameServer.notifiesValidTarget_iff`: so it is throughout a run exactly if every request names a
  valid target. `GameServer.not_notifiesValidTarget`: a request can name a slot that does not exist.
-/

namespace CKGameServer

open Memory

/-- `TRADE_REQUEST_PACKET::targetUUID`. -/
def tradeTargetUUID (pPacket : View) : ℤ := int64At pPacket packetHeaderLength

namespace GameServer

/-- Slot `t` has the index `targetUUID`, is connected, has a user who has logged in, and is not
that of client `i`. -/
structure ValidTarget (g : GameServer) (i : ℕ) (targetUUID : ℤ) (t : ℕ) : Prop where
  index : (t : ℤ) = targetUUID
  connected : ∃ h : t < g.mClientInfos.length, (g.mClientInfos.get ⟨t, h⟩).mIsConnect = true
  loggedIn : (g.m_pPacketManager.server.mUserObjPool t).mCurDomainState ≠ .none
  other : t ≠ i

/-- **A request to trade reaches a valid target only**: it stays in `mClientInfos`, and sends either
nothing or one `TRADE_REQUEST_NTF` to a valid target. -/
def NotifiesValidTarget (wire : ServerPacket → Bytes) (g : GameServer) (e : GameEvent) : Prop :=
  ∀ q, g.call e = some (.processTradeRequest, q) →
    ∃ g', g.step wire e = some g' ∧
      (g.Sends wire g' [] ∨
        ∃ t reqName, g.Sends wire g' [(t, .tradeRequestNtf q.clientIndex reqName)] ∧
          g.ValidTarget q.clientIndex (tradeTargetUUID q.pPacket) t)

/-- A request to trade names a valid target. -/
def NamesValidTarget (g : GameServer) (e : GameEvent) : Prop :=
  ∀ q, g.call e = some (.processTradeRequest, q) →
    ∃ t, g.ValidTarget q.clientIndex (tradeTargetUUID q.pPacket) t

end GameServer

/-! ### The handler -/

/-- Only a packet runs a handler, and no callback brings one to the process thread. -/
lemma World.not_isCallback_of_call {w : World} {e : Event} {handler : Handler} {q : RecvPacket}
    (h : w.call e = some (handler, q)) : ¬e.IsCallback := by
  intro he
  cases e with
  | receive i pData => cases h
  | connect i => cases h
  | close i => cases h
  | _ => exact he

/-- **`ProcessTradeRequest` sends one packet**, to the index that is left of the target. -/
lemma World.step_tradeRequest {w : World} {e : Event} {q : RecvPacket}
    (h : w.call e = some (.processTradeRequest, q)) :
    ∃ w' reqName, w.step e = some w' ∧ w'.server.sent = w.server.sent ++
      [((tradeTargetUUID q.pPacket % 2 ^ 32).toNat, .tradeRequestNtf q.clientIndex reqName)] := by
  obtain ⟨w', hstep⟩ := exists_step_of_run h fun _ _ _ => ⟨_, rfl⟩
  obtain ⟨σ, hσ, ⟨hnone, -⟩ | ⟨handler, p, env, hcall, hrun⟩⟩ := step_cases hstep
  · rw [h] at hnone
    cases hnone
  · rw [h] at hcall
    obtain ⟨rfl, rfl⟩ := Prod.mk.inj (Option.some.inj hcall)
    refine ⟨w', userIDArray (strncpyUserID (σ.mUserObjPool q.clientIndex).mUserID (env.stack 0)),
      hstep, ?_⟩
    rw [← Except.ok.inj hrun, ← hσ.sent]
    rfl

namespace GameServer

variable {wire : ServerPacket → Bytes} {g g' : GameServer} {e : Event} {wsaSend : ℕ → Bool}
  {q : RecvPacket}

/-- A request to trade stays in `mClientInfos` exactly if what is left of its target is the index
of a slot. -/
lemma step_tradeRequest_iff (h : g.m_pPacketManager.call e = some (.processTradeRequest, q)) :
    (∃ g', g.step wire (.packetManager e wsaSend) = some g') ↔
      (tradeTargetUUID q.pPacket % 2 ^ 32).toNat < g.mClientInfos.length := by
  obtain ⟨w, reqName, hw, hsent⟩ := World.step_tradeRequest h
  rw [step_packetManager_iff (World.not_isCallback_of_call h) hw hsent, List.forall_mem_singleton]

/-- The packet of a request to trade, where it stays in `mClientInfos`. -/
lemma sends_tradeRequest (h : g.m_pPacketManager.call e = some (.processTradeRequest, q))
    (hstep : g.step wire (.packetManager e wsaSend) = some g') :
    ∃ reqName, g.Sends wire g'
      [((tradeTargetUUID q.pPacket % 2 ^ 32).toNat, .tradeRequestNtf q.clientIndex reqName)] := by
  obtain ⟨w, reqName, hw, hsent⟩ := World.step_tradeRequest h
  obtain ⟨-, hw', -, packets, hsends⟩ := step_packetManager_spec hstep
  obtain rfl := Option.some.inj (hw.symm.trans hw')
  have hpackets := List.append_cancel_left (hsends.sent.symm.trans hsent)
  exact ⟨reqName, hpackets ▸ hsends⟩

/-- A target that is the index of a slot is not cut. -/
lemma ValidTarget.toNat_mod {i t : ℕ} {targetUUID : ℤ} (h : g.ValidTarget i targetUUID t)
    (hlength : g.mClientInfos.length < 2 ^ 32) : (targetUUID % 2 ^ 32).toNat = t := by
  obtain ⟨ht, -⟩ := h.connected
  rw [← h.index]
  omega

/-- A request reaches a valid target only exactly if it names one. -/
lemma notifies_iff_names (hlength : g.mClientInfos.length < 2 ^ 32) (e : GameEvent) :
    g.NotifiesValidTarget wire e ↔ g.NamesValidTarget e := by
  refine forall_congr' fun q => imp_congr_right fun hcall => ?_
  cases e with
  | packetManager e wsaSend =>
      have hcall' : g.m_pPacketManager.call e = some (.processTradeRequest, q) := hcall
      constructor
      · rintro ⟨g', hstep, hnothing | ⟨t, -, -, hvalid⟩⟩
        · obtain ⟨reqName, hsends⟩ := sends_tradeRequest hcall' hstep
          have hsent := List.append_cancel_left (hnothing.sent.symm.trans hsends.sent)
          exact absurd hsent (List.cons_ne_nil _ _).symm
        · exact ⟨t, hvalid⟩
      · rintro ⟨t, hvalid⟩
        obtain ⟨ht, -⟩ := hvalid.connected
        have hcut := hvalid.toNat_mod hlength
        obtain ⟨g', hstep⟩ : ∃ g', g.step wire (.packetManager e wsaSend) = some g' :=
          (step_tradeRequest_iff hcall').mpr (hcut.trans_lt ht)
        obtain ⟨reqName, hsends⟩ := sends_tradeRequest hcall' hstep
        rw [hcut] at hsends
        exact ⟨g', hstep, .inr ⟨t, reqName, hsends, hvalid⟩⟩
  | slot i e => cases hcall
  | recv i pData => cases hcall

/-- Requests to trade over a run, from a server with fewer slots than there are indices. -/
lemma along_notifies_iff (hlength : g.mClientInfos.length < 2 ^ 32) (es : List GameEvent) :
    Runs.Along (step wire) (NotifiesValidTarget wire) g es ↔
      Runs.Along (step wire) NamesValidTarget g es :=
  Runs.along_iff_along (P := fun g => g.mClientInfos.length < 2 ^ 32)
    (fun _ e hlength => notifies_iff_names hlength e)
    (fun _ _ _ hlength _ h => (length_step h).trans_lt hlength) es hlength

lemma length_run (maxClient : UInt32) (memory : ℕ → View) (store : Store) :
    (run maxClient memory store).mClientInfos.length < 2 ^ 32 := by
  rw [run, List.length_replicate]
  exact maxClient.toNat_lt

/-- **Whom requests to trade reach.** From the start of the server on, in any order of what the
slots and the threads do, every request reaches a valid target only, exactly if every request names
one. -/
theorem notifiesValidTarget_iff (wire : ServerPacket → Bytes) (maxClient : UInt32)
    (memory : ℕ → View) (store : Store) (es : List GameEvent) :
    Runs.Along (step wire) (NotifiesValidTarget wire) (run maxClient memory store) es ↔
      Runs.Along (step wire) NamesValidTarget (run maxClient memory store) es :=
  along_notifies_iff (length_run maxClient memory store) es

/-- A `TRADE_REQUEST` with the target 7. -/
def tradeRequestSeven : Chunk := ⟨[13, 0, 54, 1, 0, 7, 0, 0, 0, 0, 0, 0, 0], by decide⟩

/-- A client connects to the first slot, and the request comes in. -/
def connectAndRequest : List GameEvent :=
  [.slot 0 (.accepterThread true true 4), .slot 0 (.acceptCompletion true 4),
    .packetManager (.systemPacket ⟨fun _ _ => 0, fun _ _ => 0⟩) fun _ => true,
    .recv 0 tradeRequestSeven]

/-- Of one slot `GetClientInfo` is asked for the eighth. -/
theorem not_notifiesValidTarget :
    ¬∀ (wire : ServerPacket → Bytes) (maxClient : UInt32) (memory : ℕ → View) (store : Store)
      (es : List GameEvent),
      Runs.Along (step wire) (NotifiesValidTarget wire) (run maxClient memory store) es := by
  intro h
  have halong := h (fun _ => []) 1 (fun _ _ => 0) (fun _ => none) (connectAndRequest ++
    [.packetManager (.clientPacket ⟨fun _ _ => 0, fun _ _ => 0⟩) fun _ => true])
  rw [along_notifies_iff (length_run _ _ _)] at halong
  obtain ⟨g, q, hrun, hlength, hcall, htarget⟩ : ∃ g q, Runs.run (step fun _ => [])
      (run 1 (fun _ _ => 0) fun _ => none) connectAndRequest = some g ∧
      g.mClientInfos.length = 1 ∧
      g.call (.packetManager (.clientPacket ⟨fun _ _ => 0, fun _ _ => 0⟩) fun _ => true) =
        some (.processTradeRequest, q) ∧ tradeTargetUUID q.pPacket = 7 :=
    ⟨_, _, rfl, rfl, rfl, by decide +kernel⟩
  obtain ⟨t, hvalid⟩ := halong.of_run hrun q hcall
  obtain ⟨ht, -⟩ := hvalid.connected
  have hindex := hvalid.index
  omega

end GameServer

end CKGameServer
