import CKGameServer.Library.Outbox
import CKGameServer.Model.Run
import CKGameServer.Network.SendOrder
import CKGameServer.Packets.Senders

/-!
The packets of the packet manager and the slots (`GameServer::Run`, `IOCPServer::SendMsg`).

* `GameServer.messages`: the messages that wait at a slot.
* `GameServer.sendPackets_spec`: the calls of `SendPacketFunc` bring each slot the packets that go
  to it; `GameServer.exists_sendPackets_iff`: they stay in `mClientInfos` exactly if every packet
  goes to a slot.
* `GameServer.run_step`: what the packet manager does in a step of the server is a run of the
  packet manager, so what holds of its runs holds in the whole system.
* `GameServer.length_mClientInfos`: the slots are those of `CreateClient`.
* `GameServer.sentToSlots`: in every state of a run all packets have gone to slots.
-/

namespace CKGameServer

open Memory

namespace GameServer

/-- The messages that wait at a slot. -/
def messages (g : GameServer) (i : ℕ) : List Bytes := (g.getClientInfo i).elim [] Slot.queued

variable {wire : ServerPacket → Bytes} {g g' : GameServer} {e : GameEvent} {i : ℕ}

/-! ### `SendMsg` -/

lemma exists_getClientInfo_iff :
    (∃ s, g.getClientInfo i = some s) ↔ i < g.mClientInfos.length :=
  ⟨fun ⟨_, hs⟩ => (List.getElem?_eq_some_iff.mp hs).1, fun h => ⟨_, List.getElem?_eq_getElem h⟩⟩

/-- A message is pushed behind those of its slot. -/
lemma queued_sendMsg (s : Slot) (pData : Bytes) (wsaSend : Bool) :
    (s.sendMsg pData wsaSend).queued = s.queued ++ [pData] := by
  rw [Slot.queued, s.sendMsg_toClientInfo, Slot.push_mSendDataqueue, List.map_append]
  rfl

/-- `SendMsg` brings its slot the message, and the others nothing. -/
lemma sendMsg_spec {pData : Bytes} {wsaSend : Bool} (h : g.sendMsg i pData wsaSend = some g') :
    i < g.mClientInfos.length ∧ g'.mClientInfos.length = g.mClientInfos.length ∧
      g'.m_pPacketManager = g.m_pPacketManager ∧
      ∀ j, g'.messages j = g.messages j ++ if i = j then [pData] else [] := by
  obtain ⟨s, hs, rfl⟩ := Option.map_eq_some_iff.mp h
  have hi : i < g.mClientInfos.length := exists_getClientInfo_iff.mp ⟨s, hs⟩
  refine ⟨hi, List.length_set, rfl, fun j => ?_⟩
  rw [messages, messages, getClientInfo, getClientInfo]
  by_cases hj : i = j
  · subst hj
    rw [getClientInfo] at hs
    rw [List.getElem?_set_self hi, hs, if_pos rfl]
    exact queued_sendMsg s pData wsaSend
  · rw [List.getElem?_set_ne hj, if_neg hj, List.append_nil]

/-! ### `SendPacketFunc` -/

/-- **The calls of `SendPacketFunc`** bring each slot the packets that go to it, in order. -/
lemma sendPackets_spec {packets : List (ℕ × ServerPacket)} {wsaSend : ℕ → Bool}
    (h : g.sendPackets wire packets wsaSend = some g') :
    (∀ p ∈ packets, p.1 < g.mClientInfos.length) ∧
      g'.mClientInfos.length = g.mClientInfos.length ∧
      g'.m_pPacketManager = g.m_pPacketManager ∧
      ∀ j, g'.messages j = g.messages j ++ (Outbox.sentTo j packets).map wire := by
  induction packets generalizing g wsaSend with
  | nil =>
      obtain rfl := Option.some.inj h
      exact ⟨by simp, rfl, rfl, fun j => (List.append_nil _).symm⟩
  | cons p packets ih =>
      obtain ⟨g₁, hsend, hrest⟩ := Option.bind_eq_some_iff.mp h
      obtain ⟨hlt, hlength, hpacketManager, hmessages⟩ := sendMsg_spec hsend
      obtain ⟨hlts, hlength', hpacketManager', hmessages'⟩ := ih hrest
      rw [hlength] at hlts hlength'
      refine ⟨?_, hlength', hpacketManager'.trans hpacketManager, fun j => ?_⟩
      · rintro q (_ | ⟨_, hq⟩)
        · exact hlt
        · exact hlts q hq
      · rw [hmessages' j, hmessages j, List.append_assoc]
        congr 1
        by_cases hj : p.1 = j
        · simp [Outbox.sentTo, hj]
        · simp [Outbox.sentTo, hj]

/-- The calls stay in `mClientInfos` exactly if every packet goes to a slot. -/
lemma exists_sendPackets_iff {packets : List (ℕ × ServerPacket)} {wsaSend : ℕ → Bool} :
    (∃ g', g.sendPackets wire packets wsaSend = some g') ↔
      ∀ p ∈ packets, p.1 < g.mClientInfos.length := by
  constructor
  · rintro ⟨g', h⟩
    exact (sendPackets_spec h).1
  · intro h
    induction packets generalizing g wsaSend with
    | nil => exact ⟨g, rfl⟩
    | cons p packets ih =>
        obtain ⟨s, hs⟩ := exists_getClientInfo_iff.mpr (h p List.mem_cons_self)
        have hsend : ∃ g₁, g.sendMsg p.1 (wire p.2) (wsaSend 0) = some g₁ :=
          ⟨_, by rw [sendMsg, hs, Option.map_some]⟩
        obtain ⟨g₁, hsend⟩ := hsend
        obtain ⟨-, hlength, -, -⟩ := sendMsg_spec hsend
        have hlts : ∀ q ∈ packets, q.1 < g₁.mClientInfos.length := fun q hq => by
          rw [hlength]
          exact h q (List.mem_cons_of_mem p hq)
        obtain ⟨g', hrest⟩ : ∃ g', g₁.sendPackets wire packets (fun k => wsaSend (k + 1)) =
            some g' := ih hlts
        exact ⟨g', Option.bind_eq_some_iff.mpr ⟨g₁, hsend, hrest⟩⟩

/-- From `g` to `g'` the server sends the packets: the packet manager hands them to
`SendPacketFunc`, and each of them is pushed behind the messages of its slot. -/
structure Sends (wire : ServerPacket → Bytes) (g g' : GameServer)
    (packets : List (ℕ × ServerPacket)) : Prop where
  sent : g'.m_pPacketManager.server.sent = g.m_pPacketManager.server.sent ++ packets
  toSlots : ∀ p ∈ packets, p.1 < g.mClientInfos.length
  messages : ∀ j, g'.messages j = g.messages j ++ (Outbox.sentTo j packets).map wire

/-! ### One step -/

/-- The packets that go out on the way to `w`. -/
lemma packetsTo_of_sent {w : World} {packets : List (ℕ × ServerPacket)}
    (h : w.server.sent = g.m_pPacketManager.server.sent ++ packets) : g.packetsTo w = packets := by
  rw [packetsTo, h, List.drop_left]

/-- **A step of the packet manager** is taken where the packets that its handler sends go to
slots. -/
lemma step_packetManager_iff {w : World} {e : Event} {wsaSend : ℕ → Bool}
    {packets : List (ℕ × ServerPacket)} (he : ¬e.IsCallback)
    (hw : g.m_pPacketManager.step e = some w)
    (hsent : w.server.sent = g.m_pPacketManager.server.sent ++ packets) :
    (∃ g', g.step wire (.packetManager e wsaSend) = some g') ↔
      ∀ p ∈ packets, p.1 < g.mClientInfos.length := by
  rw [step, if_neg he, hw, Option.bind_some, packetsTo_of_sent hsent]
  exact exists_sendPackets_iff

lemma step_packetManager_spec {e : Event} {wsaSend : ℕ → Bool}
    (h : g.step wire (.packetManager e wsaSend) = some g') :
    ¬e.IsCallback ∧ g.m_pPacketManager.step e = some g'.m_pPacketManager ∧
      g'.mClientInfos.length = g.mClientInfos.length ∧ ∃ packets, g.Sends wire g' packets := by
  rw [step] at h
  split at h
  · cases h
  · rename_i he
    obtain ⟨w, hw, hsend⟩ := Option.bind_eq_some_iff.mp h
    obtain ⟨packets, hsent, -⟩ := World.exists_sent_of_step hw
    rw [packetsTo_of_sent hsent] at hsend
    obtain ⟨hlts, hlength, hpacketManager, hmessages⟩ := sendPackets_spec hsend
    refine ⟨he, by rw [hpacketManager]; exact hw, hlength, packets, ?_, hlts, hmessages⟩
    rw [hpacketManager]
    exact hsent

/-- What the packet manager does in a step is a run of it. -/
theorem run_step (h : g.step wire e = some g') :
    Runs.run World.step g.m_pPacketManager (g.events e) = some g'.m_pPacketManager := by
  cases e with
  | packetManager e wsaSend =>
      obtain ⟨-, hstep, -, -⟩ := step_packetManager_spec h
      rw [events, Runs.run_cons, hstep, Option.bind_some, Runs.run_nil]
  | slot i e =>
      rw [step] at h
      split at h
      · cases h
      · obtain ⟨s, hs, hstep⟩ := Option.bind_eq_some_iff.mp h
        obtain ⟨s', -, hrun⟩ := Option.bind_eq_some_iff.mp hstep
        obtain ⟨w, hw, rfl⟩ := Option.map_eq_some_iff.mp hrun
        rw [events, hs, Option.bind_some]
        exact hw
  | recv i pData =>
      obtain ⟨s, -, hrecv⟩ := Option.bind_eq_some_iff.mp h
      obtain ⟨w, hw, rfl⟩ := Option.map_eq_some_iff.mp hrecv
      rw [events, Runs.run_cons, hw, Option.bind_some, Runs.run_nil]

/-- A step leaves the number of the slots. -/
lemma length_step (h : g.step wire e = some g') :
    g'.mClientInfos.length = g.mClientInfos.length := by
  cases e with
  | packetManager e wsaSend => exact (step_packetManager_spec h).2.2.1
  | slot i e =>
      rw [step] at h
      split at h
      · cases h
      · obtain ⟨s, -, hstep⟩ := Option.bind_eq_some_iff.mp h
        obtain ⟨s', -, hrun⟩ := Option.bind_eq_some_iff.mp hstep
        obtain ⟨w, -, rfl⟩ := Option.map_eq_some_iff.mp hrun
        exact List.length_set
  | recv i pData =>
      obtain ⟨s, -, hrecv⟩ := Option.bind_eq_some_iff.mp h
      obtain ⟨w, -, rfl⟩ := Option.map_eq_some_iff.mp hrecv
      rfl

/-- The callbacks of the slots send nothing. -/
lemma sent_of_isCallback {w w' : World} {e : Event} (he : e.IsCallback)
    (h : w.step e = some w') : w'.server.sent = w.server.sent := by
  obtain ⟨packets, hsent, hown⟩ := World.exists_sent_of_step h
  have hcall : w.call e = none := by
    cases e <;> first | rfl | exact absurd he id
  have hnil : packets = [] := List.eq_nil_iff_forall_not_mem.mpr fun q hq => by
    obtain ⟨p, handler, hsome, -⟩ := hown q hq
    rw [hcall] at hsome
    cases hsome
  rw [hsent, hnil, List.append_nil]

/-- What a slot reports is a callback. -/
lemma isCallback_of_callback {s : Slot} {e : NetEvent} {d : Event}
    (h : s.callback i e = some d) : d.IsCallback := by
  cases e with
  | acceptCompletion wsaRecv curTimeSec =>
      obtain rfl := Option.some.inj h
      split <;> trivial
  | sendCompletion k bSuccess dwIoSize wsaSend curTimeSec =>
      rw [Slot.callback] at h
      split at h
      · exact Option.some.inj h ▸ trivial
      · cases h
  | recvFailed curTimeSec =>
      rw [Slot.callback] at h
      split at h
      · exact Option.some.inj h ▸ trivial
      · cases h
  | accepterThread wsaSocket acceptEx curTimeSec => cases h
  | sendMsg pMsg wsaSend => cases h

/-- Every packet of a step goes to a slot. -/
lemma sent_step (h : g.step wire e = some g') :
    ∃ packets, g'.m_pPacketManager.server.sent = g.m_pPacketManager.server.sent ++ packets ∧
      ∀ p ∈ packets, p.1 < g.mClientInfos.length := by
  have hrun := run_step h
  cases e with
  | packetManager e wsaSend =>
      obtain ⟨-, -, -, packets, hsends⟩ := step_packetManager_spec h
      exact ⟨packets, hsends.sent, hsends.toSlots⟩
  | slot i e =>
      refine ⟨[], ?_, by simp⟩
      rw [events] at hrun
      rw [List.append_nil]
      cases hcallback : (g.getClientInfo i).bind fun s => s.callback i e with
      | none =>
          rw [hcallback] at hrun
          exact congrArg (fun w => w.server.sent) (Option.some.inj hrun).symm
      | some d =>
          rw [hcallback] at hrun
          obtain ⟨w, hw, hnil⟩ := Option.bind_eq_some_iff.mp hrun
          obtain ⟨s, -, hd⟩ := Option.bind_eq_some_iff.mp hcallback
          obtain rfl := Option.some.inj hnil
          exact sent_of_isCallback (isCallback_of_callback hd) hw
  | recv i pData =>
      refine ⟨[], ?_, by simp⟩
      obtain ⟨w, hw, hnil⟩ := Option.bind_eq_some_iff.mp hrun
      obtain rfl := Option.some.inj hnil
      rw [List.append_nil]
      exact sent_of_isCallback (e := .receive i pData) trivial hw

/-! ### Runs -/

/-- All packets that have been sent went to slots. -/
def SentToSlots (g : GameServer) : Prop :=
  ∀ p ∈ g.m_pPacketManager.server.sent, p.1 < g.mClientInfos.length

lemma SentToSlots.step (hg : g.SentToSlots) (h : g.step wire e = some g') : g'.SentToSlots := by
  obtain ⟨packets, hsent, hlts⟩ := sent_step h
  intro p hp
  rw [length_step h]
  rw [hsent] at hp
  exact (List.mem_append.mp hp).elim (hg p) (hlts p)

variable (wire) (maxClient : UInt32) (memory : ℕ → View) (store : Store)

/-- **Packets go to slots.** In every state of a run all packets sent have gone to slots: where a
handler names another, the run ends. -/
theorem sentToSlots (es : List GameEvent) :
    Runs.Always (step wire) SentToSlots (run maxClient memory store) es :=
  Runs.always_of_step (fun _ _ _ hg h => hg.step h) es fun _ hp => by cases hp

/-- The slots are those that `CreateClient` has made. -/
theorem length_mClientInfos (es : List GameEvent) :
    Runs.Always (step wire) (fun g => g.mClientInfos.length = maxClient.toNat)
      (run maxClient memory store) es :=
  Runs.always_of_step (fun _ _ _ hg h => (length_step h).trans hg) es List.length_replicate

variable {maxClient memory store}

/-- **The packet manager inside the server runs as it does alone.** -/
theorem exists_run_packetManager {es : List GameEvent}
    (h : Runs.run (step wire) (run maxClient memory store) es = some g) :
    ∃ ds, Runs.run World.step (World.init maxClient.toNat memory store) ds =
      some g.m_pPacketManager :=
  Runs.exists_run_of_steps m_pPacketManager (fun _ _ _ h => ⟨_, run_step h⟩) h

end GameServer

end CKGameServer
