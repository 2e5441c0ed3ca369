import CKGameServer.Buffer.ClientReader
import CKGameServer.Model.Client
import CKGameServer.Network.SendMsg
import CKGameServer.Network.SendQueue

/-!
What the server hands to its sockets (`SendMsg`, `SendCompleted`, `SendIO`, `CloseSocket`,
`AccepterThread`), and what the client makes of it (`ReadTcpDataThread`).

* `Slot.newSends`: the buffers that a step of a slot hands to `WSASend`, with their sockets.
* `Slot.HandsOver`: the buffers handed over are the first messages, in order; the others wait.
  `HandsOver.step`: every step keeps it, whatever fails.
* `GameServer.Watched`: the server with all buffers handed over; `GameServer.handed_inOrder`: for
  every slot they are the first packets that the packet manager has sent to it.
* `GameServer.posted_inOrder`: what a client posts is a contiguous part of the packets sent to its
  slot.
-/

namespace CKGameServer

open Memory

/-! ### One slot -/

/-- A buffer with its socket. -/
def PendingSend.buffer (p : PendingSend) : ℕ × Bytes := (p.socket, p.overlapped.m_wsaBuf)

namespace Slot

/-- How many of the sends under way are left when a step begins. -/
def stillPending (s : Slot) : NetEvent → ℕ
  | .sendCompletion .. => s.pendingSends.length - 1
  | _ => s.pendingSends.length

/-- What a step hands to `WSASend`: the sends that are new behind those left. -/
def newSends (s : Slot) (e : NetEvent) (s' : Slot) : List (ℕ × Bytes) :=
  (s'.pendingSends.drop (s.stillPending e)).map PendingSend.buffer

/-- The sockets of a slot are numbered in the order in which they are made, and the buffers go to
the one that is there. -/
structure SocketsInOrder (s : Slot) (handed : List (ℕ × Bytes)) : Prop where
  sorted : handed.Pairwise fun p q => p.1 ≤ q.1
  past : ∀ p ∈ handed, p.1 < s.sockets
  current : ∀ k ∈ s.mSocket, k < s.sockets ∧ ∀ p ∈ handed, p.1 ≤ k

/-- The slot has handed over the first of the messages. The others wait, behind the front of the
queue if that has been handed over. -/
structure HandsOver (s : Slot) (handed : List (ℕ × Bytes)) (messages : List Bytes) : Prop where
  front : Traced.FrontPending s
  waiting : ∃ waiting, handed.map Prod.snd ++ waiting = messages ∧
    (s.queued = waiting ∧ s.pendingSends = [] ∨ s.queued.tail = waiting ∧ s.queued ≠ [])
  sockets : s.SocketsInOrder handed

variable {s s' : Slot} {handed : List (ℕ × Bytes)} {messages : List Bytes}

/-! #### Sockets -/

lemma SocketsInOrder.of_eq (h : s.SocketsInOrder handed) (hsockets : s'.sockets = s.sockets)
    (hsocket : ∀ k ∈ s'.mSocket, s.mSocket = some k) : s'.SocketsInOrder handed where
  sorted := h.sorted
  past := hsockets ▸ h.past
  current k hk := hsockets ▸ h.current k (hsocket k hk)

/-- A new socket. -/
lemma SocketsInOrder.of_new (h : s.SocketsInOrder handed) (hsockets : s'.sockets = s.sockets + 1)
    (hsocket : s'.mSocket = some s.sockets) : s'.SocketsInOrder handed where
  sorted := h.sorted
  past p hp := by
    have := h.past p hp
    omega
  current k hk := by
    obtain rfl := Option.some.inj (hsocket.symm.trans hk)
    exact ⟨by omega, fun p hp => (h.past p hp).le⟩

/-- A buffer for the socket that is there. -/
lemma SocketsInOrder.append (h : s.SocketsInOrder handed) {p : ℕ × Bytes}
    (hp : s.mSocket = some p.1) : s.SocketsInOrder (handed ++ [p]) where
  sorted := List.pairwise_append.mpr ⟨h.sorted, List.pairwise_singleton _ _, fun q hq r hr => by
    rw [List.mem_singleton.mp hr]
    exact (h.current p.1 hp).2 q hq⟩
  past q hq := by
    rcases List.mem_append.mp hq with hq | hq
    · exact h.past q hq
    · rw [List.mem_singleton.mp hq]
      exact (h.current p.1 hp).1
  current k hk := by
    obtain rfl : p.1 = k := Option.some.inj (hp.symm.trans hk)
    refine ⟨(h.current _ hk).1, fun q hq => ?_⟩
    rcases List.mem_append.mp hq with hq | hq
    · exact (h.current _ hk).2 q hq
    · rw [List.mem_singleton.mp hq]

/-! #### The functions -/

@[simp] lemma sendIo_sockets (s : Slot) (wsaSend : Bool) :
    (s.sendIo wsaSend).sockets = s.sockets := by
  rw [sendIo]
  split
  · split <;> rfl
  · rfl

/-- `SendIO` where nothing is under way. -/
lemma pendingSends_sendIo (h : s.pendingSends = []) (wsaSend : Bool) :
    (s.sendIo wsaSend).pendingSends = [] ∨ ∃ socket front rest, s.mSocket = some socket ∧
      s.mSendDataqueue = front :: rest ∧
      (s.sendIo wsaSend).pendingSends = [⟨socket, front⟩] := by
  rw [sendIo]
  split
  · rename_i front rest socket hqueue hsocket
    split
    · exact .inr ⟨socket, front, rest, hsocket, hqueue, by rw [h, List.nil_append]⟩
    · exact .inl h
  · exact .inl h

/-- Nothing is under way, and nothing that waits has been handed over. -/
structure Idle (s : Slot) (handed : List (ℕ × Bytes)) (messages : List Bytes) : Prop where
  pending : s.pendingSends = []
  waiting : handed.map Prod.snd ++ s.queued = messages
  sockets : s.SocketsInOrder handed

lemma Idle.handsOver (h : s.Idle handed messages) : s.HandsOver handed messages :=
  ⟨.inl h.pending, ⟨s.queued, h.waiting, .inl ⟨rfl, h.pending⟩⟩, h.sockets⟩

/-- `SendIO` hands over the front, or nothing. -/
lemma Idle.sendIo (h : s.Idle handed messages) (wsaSend : Bool) :
    (s.sendIo wsaSend).HandsOver
      (handed ++ (s.sendIo wsaSend).pendingSends.map PendingSend.buffer) messages := by
  have hqueued : (s.sendIo wsaSend).queued = s.queued :=
    congrArg (fun c : ClientInfo => c.mSendDataqueue.map OverlappedEx.m_wsaBuf)
      (s.sendIo_toClientInfo wsaSend)
  have hsocket : (s.sendIo wsaSend).mSocket = s.mSocket :=
    congrArg ClientInfo.mSocket (s.sendIo_toClientInfo wsaSend)
  have hsockets : (s.sendIo wsaSend).SocketsInOrder handed :=
    h.sockets.of_eq (sendIo_sockets s wsaSend) fun k hk => hsocket.symm.trans hk
  refine ⟨Traced.frontPending_sendIo h.pending wsaSend, ?_, ?_⟩
  · rcases pendingSends_sendIo h.pending wsaSend with hnone | ⟨socket, front, rest, -, hqueue, hnew⟩
    · refine ⟨s.queued, ?_, .inl ⟨hqueued, hnone⟩⟩
      rw [hnone, List.map_nil, List.append_nil, h.waiting]
    · have hfront : s.queued = front.m_wsaBuf :: rest.map OverlappedEx.m_wsaBuf := by
        rw [queued, hqueue, List.map_cons]
      refine ⟨s.queued.tail, ?_, .inr ⟨congrArg List.tail hqueued, ?_⟩⟩
      · rw [hnew, List.map_append, List.append_assoc, ← h.waiting, hfront]
        rfl
      · rw [hqueued, hfront]
        exact List.cons_ne_nil _ _
  · rcases pendingSends_sendIo h.pending wsaSend with hnone | ⟨socket, front, rest, hcur, -, hnew⟩
    · rw [hnone, List.map_nil, List.append_nil]
      exact hsockets
    · rw [hnew]
      exact hsockets.append (hsocket.trans hcur)

/-- A step that leaves the queue and the sends as they are. -/
lemma HandsOver.of_same (h : s.HandsOver handed messages)
    (hqueue : s'.mSendDataqueue = s.mSendDataqueue) (hpending : s'.pendingSends = s.pendingSends)
    (hsockets : s'.SocketsInOrder handed) : s'.HandsOver handed messages where
  front := by
    have hfront := h.front
    rwa [Traced.FrontPending, ← hqueue, ← hpending] at hfront
  waiting := by
    obtain ⟨waiting, hsplit, hwaiting⟩ := h.waiting
    refine ⟨waiting, hsplit, ?_⟩
    rwa [queued, hqueue, hpending]
  sockets := hsockets

lemma HandsOver.closeSocket (h : s.HandsOver handed messages) (curTimeSec : ℕ) :
    (s.closeSocket curTimeSec).HandsOver handed messages := by
  rw [Slot.closeSocket]
  split
  · exact h.of_same rfl rfl (h.sockets.of_eq rfl fun k hk => by cases hk)
  · exact h

lemma HandsOver.postAccept (h : s.HandsOver handed messages) (wsaSocket acceptEx : Bool) :
    (s.postAccept wsaSocket acceptEx).HandsOver handed messages := by
  rw [Slot.postAccept]
  split
  · exact h.of_same rfl rfl (h.sockets.of_new rfl rfl)
  · exact h.of_same rfl rfl (h.sockets.of_eq rfl fun k hk => by cases hk)

lemma queued_push (s : Slot) (pMsg : Bytes) : (s.push pMsg).queued = s.queued ++ [pMsg] := by
  rw [queued, push_mSendDataqueue, List.map_append]
  rfl

/-- A message to an empty queue is handed over at once, or waits. Behind others it waits. -/
lemma HandsOver.sendMsg (h : s.HandsOver handed messages) (pMsg : Bytes) (wsaSend : Bool) :
    s.pendingSends <+: (s.sendMsg pMsg wsaSend).pendingSends ∧
      (s.sendMsg pMsg wsaSend).HandsOver
        (handed ++ ((s.sendMsg pMsg wsaSend).pendingSends.drop s.pendingSends.length).map
          PendingSend.buffer) (messages ++ [pMsg]) := by
  obtain ⟨waiting, hsplit, hwaiting⟩ := h.waiting
  have hsockets : (s.push pMsg).SocketsInOrder handed := h.sockets.of_eq rfl fun k hk => hk
  by_cases hqueue : s.mSendDataqueue = []
  · have hpending := h.front.nil hqueue
    have hempty : s.queued = [] := by rw [queued, hqueue, List.map_nil]
    have hidle : (s.push pMsg).Idle handed (messages ++ [pMsg]) := by
      refine ⟨hpending, ?_, hsockets⟩
      obtain ⟨hqueued, -⟩ := hwaiting.resolve_right fun hne => hne.2 hempty
      rw [queued_push, hqueued, ← List.append_assoc, hsplit]
    rw [sendMsg_of_nil s hqueue, hpending, List.length_nil, List.drop_zero]
    exact ⟨List.nil_prefix, hidle.sendIo wsaSend⟩
  · have hsame : (s.push pMsg).pendingSends = s.pendingSends := rfl
    rw [sendMsg_of_ne_nil s hqueue, hsame, List.drop_length, List.map_nil, List.append_nil]
    refine ⟨List.prefix_rfl, ?_, ⟨waiting ++ [pMsg], by rw [← List.append_assoc, hsplit], ?_⟩,
      hsockets⟩
    · have hfront := h.front.sendMsg pMsg wsaSend
      rwa [sendMsg_of_ne_nil s hqueue] at hfront
    · rw [queued_push, hsame]
      refine hwaiting.imp (fun hw => ⟨by rw [hw.1], hw.2⟩) fun hw => ⟨?_, by simp⟩
      rw [List.tail_append_of_ne_nil hw.2, hw.1]

/-- The front goes when its send is done, and the next is handed over; where the send has failed, it
stays. -/
lemma HandsOver.sendCompletion (h : s.HandsOver handed messages) {k dwIoSize curTimeSec : ℕ}
    {bSuccess wsaSend : Bool}
    (hstep : s.step (.sendCompletion k bSuccess dwIoSize wsaSend curTimeSec) = some s') :
    s'.HandsOver (handed ++ s'.pendingSends.map PendingSend.buffer) messages := by
  obtain ⟨waiting, hsplit, hwaiting⟩ := h.waiting
  obtain ⟨hk, hcases⟩ := Traced.sendCompletion_cases h.front hstep
  -- The front has been handed over: its send was under way.
  have hhanded : s.queued.tail = waiting ∧ s.queued ≠ [] := hwaiting.resolve_left fun hnone => by
    rw [hnone.2] at hk
    exact absurd hk (Nat.not_lt_zero k)
  rcases hcases with ⟨-, rfl⟩ | ⟨-, rfl⟩
  · have hleft : ({ s with pendingSends := [] } : Slot).HandsOver handed messages :=
      ⟨.inl rfl, ⟨waiting, hsplit, .inr hhanded⟩, h.sockets.of_eq rfl fun k hk => hk⟩
    have hnone : (({ s with pendingSends := [] } : Slot).closeSocket curTimeSec).pendingSends =
        [] := by
      rw [Slot.closeSocket]
      split <;> rfl
    rw [hnone, List.map_nil, List.append_nil]
    exact hleft.closeSocket curTimeSec
  · have hidle : ({ s with pendingSends := [] } : Slot).pop.Idle handed messages := by
      refine ⟨rfl, ?_, h.sockets.of_eq rfl fun k hk => hk⟩
      rw [← hsplit, ← hhanded.1, queued, queued, ← List.map_tail]
      rfl
    split
    · have hnone : ({ s with pendingSends := [] } : Slot).pop.pendingSends = [] := rfl
      rw [hnone, List.map_nil, List.append_nil]
      exact hidle.handsOver
    · exact hidle.sendIo wsaSend

/-- **One step of a slot**, whatever fails. -/
theorem HandsOver.step (h : s.HandsOver handed messages) {e : NetEvent} (he : ¬e.IsSendMsg)
    (hstep : s.step e = some s') : s'.HandsOver (handed ++ s.newSends e s') messages := by
  have hsame : s'.pendingSends = s.pendingSends → s.stillPending e = s.pendingSends.length →
      s'.HandsOver handed messages → s'.HandsOver (handed ++ s.newSends e s') messages :=
    fun hpending hlength h => by
      rwa [newSends, hpending, hlength, List.drop_length, List.map_nil, List.append_nil]
  have hclosed : ∀ (t : Slot) curTimeSec, (t.closeSocket curTimeSec).pendingSends =
      t.pendingSends := fun t curTimeSec => by
    rw [Slot.closeSocket]
    split <;> rfl
  cases e with
  | sendMsg pMsg wsaSend => exact absurd trivial he
  | recvFailed curTimeSec =>
      obtain rfl := Option.some.inj hstep
      exact hsame (hclosed s curTimeSec) rfl (h.closeSocket curTimeSec)
  | accepterThread wsaSocket acceptEx curTimeSec =>
      have heq := Option.some.inj hstep
      by_cases hmay : s.MayAccept curTimeSec
      · rw [if_pos hmay] at heq
        refine hsame ?_ rfl (heq ▸ h.postAccept wsaSocket acceptEx)
        rw [← heq, Slot.postAccept]
        split <;> rfl
      · rw [if_neg hmay] at heq
        exact hsame (congrArg Slot.pendingSends heq.symm) rfl (heq ▸ h)
  | acceptCompletion wsaRecv curTimeSec =>
      have hconnected : ({ s with pendingAccept := false, mIsConnect := true } : Slot).HandsOver
          handed messages := h.of_same rfl rfl (h.sockets.of_eq rfl fun k hk => hk)
      obtain ⟨-, ⟨-, rfl⟩ | ⟨-, rfl⟩⟩ := Traced.acceptCompletion_cases hstep
      · exact hsame rfl rfl hconnected
      · exact hsame (hclosed _ curTimeSec) rfl (hconnected.closeSocket curTimeSec)
  | sendCompletion k bSuccess dwIoSize wsaSend curTimeSec =>
      have hlength : s.stillPending (.sendCompletion k bSuccess dwIoSize wsaSend curTimeSec) = 0 := by
        have hone : s.pendingSends.length ≤ 1 := by
          rcases h.front with hnone | ⟨socket, front, rest, hpending, -⟩
          · simp [hnone]
          · simp [hpending]
        exact Nat.sub_eq_zero_of_le hone
      rw [newSends, hlength, List.drop_zero]
      exact h.sendCompletion hstep

end Slot

/-! ### The server -/

namespace GameServer

variable {wire : ServerPacket → Bytes} {g g' : GameServer} {e : GameEvent} {i : ℕ}

/-- The sends under way at a slot. -/
def pendingSends (g : GameServer) (i : ℕ) : List PendingSend :=
  (g.getClientInfo i).elim [] Slot.pendingSends

/-- How many of them are left when a step begins. -/
def stillPending (g : GameServer) (i : ℕ) : GameEvent → ℕ
  | .slot j e =>
    if j = i then (g.getClientInfo i).elim 0 fun s => s.stillPending e
    else (g.pendingSends i).length
  | _ => (g.pendingSends i).length

/-- What a step hands to `WSASend` for a slot. -/
def newSends (g : GameServer) (e : GameEvent) (g' : GameServer) (i : ℕ) : List (ℕ × Bytes) :=
  ((g'.pendingSends i).drop (g.stillPending i e)).map PendingSend.buffer

/-- The server with the buffers that each slot has handed over. -/
abbrev Watched := GameServer × (ℕ → List (ℕ × Bytes))

namespace Watched

/-- The buffers after a step. -/
def next (s : Watched) (e : GameEvent) (g' : GameServer) : ℕ → List (ℕ × Bytes) :=
  fun i => s.2 i ++ s.1.newSends e g' i

/-- A step of the server, watched. -/
def step (wire : ServerPacket → Bytes) : Watched → GameEvent → Option Watched :=
  Runs.withHistory (GameServer.step wire) next

/-- The server at its start. -/
def init (maxClient : UInt32) (memory : ℕ → View) (store : Store) : Watched :=
  (run maxClient memory store, fun _ => [])

end Watched

/-- The packets sent to a slot, as bytes. -/
def sentTo (wire : ServerPacket → Bytes) (g : GameServer) (i : ℕ) : List Bytes :=
  (Outbox.sentTo i g.m_pPacketManager.server.sent).map wire

/-- Every slot has handed over the first packets sent to it. -/
def HandsOver (wire : ServerPacket → Bytes) (g : GameServer) (handed : ℕ → List (ℕ × Bytes)) :
    Prop :=
  ∀ i s, g.getClientInfo i = some s → s.HandsOver (handed i) (g.sentTo wire i)

variable {handed : ℕ → List (ℕ × Bytes)}

lemma pendingSends_of_getClientInfo {s : Slot} (h : g.getClientInfo i = some s) :
    g.pendingSends i = s.pendingSends := by rw [pendingSends, h, Option.elim_some]

/-- A call of `SendPacketFunc` on the slots. -/
lemma exists_of_sendMsg {pData : Bytes} {wsaSend : Bool} {t : Slot} {j : ℕ}
    (h : g.sendMsg i pData wsaSend = some g') (ht : g'.getClientInfo j = some t) :
    ∃ s, g.getClientInfo j = some s ∧ t = if i = j then s.sendMsg pData wsaSend else s := by
  obtain ⟨s, hs, rfl⟩ := Option.map_eq_some_iff.mp h
  rw [getClientInfo] at ht hs ⊢
  by_cases hij : i = j
  · subst hij
    rw [List.getElem?_set_self (List.getElem?_eq_some_iff.mp hs).1] at ht
    exact ⟨s, hs, by rw [if_pos rfl, Option.some.inj ht]⟩
  · rw [List.getElem?_set_ne hij] at ht
    exact ⟨t, ht, by rw [if_neg hij]⟩

/-- What is added behind a list, and then behind that. -/
lemma drop_append_drop {α : Type} {l l₁ l₂ : List α} (h : l <+: l₁) (h' : l₁ <+: l₂) :
    l₁.drop l.length ++ l₂.drop l₁.length = l₂.drop l.length := by
  obtain ⟨x, rfl⟩ := h
  obtain ⟨y, rfl⟩ := h'
  rw [List.drop_left, List.drop_left, List.append_assoc, List.drop_left]

/-- The messages of a slot after one call of `SendPacketFunc`. -/
lemma sentTo_cons (i : ℕ) (p : ℕ × ServerPacket) (packets : List (ℕ × ServerPacket)) :
    (Outbox.sentTo i (p :: packets)).map wire =
      (if p.1 = i then [wire p.2] else []) ++ (Outbox.sentTo i packets).map wire := by
  by_cases hp : p.1 = i <;> simp [Outbox.sentTo, hp]

/-- **The calls of `SendPacketFunc`** of one handler. -/
lemma handsOver_sendPackets {packets : List (ℕ × ServerPacket)} {wsaSend : ℕ → Bool}
    {messages handed : List _} {t : Slot}
    (h : ∀ s, g.getClientInfo i = some s → s.HandsOver handed messages)
    (hsend : g.sendPackets wire packets wsaSend = some g') (ht : g'.getClientInfo i = some t) :
    g.pendingSends i <+: t.pendingSends ∧
      t.HandsOver (handed ++ (t.pendingSends.drop (g.pendingSends i).length).map PendingSend.buffer)
        (messages ++ (Outbox.sentTo i packets).map wire) := by
  induction packets generalizing g wsaSend handed messages with
  | nil =>
      obtain rfl := Option.some.inj hsend
      rw [pendingSends_of_getClientInfo ht, List.drop_length, List.map_nil, List.append_nil,
        Outbox.sentTo_nil, List.map_nil, List.append_nil]
      exact ⟨List.prefix_rfl, h t ht⟩
  | cons p packets ih =>
      obtain ⟨g₁, hfirst, hrest⟩ := Option.bind_eq_some_iff.mp hsend
      obtain ⟨t₁, ht₁⟩ : ∃ t₁, g₁.getClientInfo i = some t₁ := exists_getClientInfo_iff.mpr (by
        rw [← (sendPackets_spec hrest).2.1]
        exact exists_getClientInfo_iff.mp ⟨t, ht⟩)
      obtain ⟨s, hs, hnext⟩ := exists_of_sendMsg hfirst ht₁
      have hpending := pendingSends_of_getClientInfo hs
      have hpending₁ := pendingSends_of_getClientInfo ht₁
      have hone : s.pendingSends <+: t₁.pendingSends ∧ t₁.HandsOver
          (handed ++ (t₁.pendingSends.drop s.pendingSends.length).map PendingSend.buffer)
          (messages ++ if p.1 = i then [wire p.2] else []) := by
        by_cases hp : p.1 = i
        · rw [if_pos hp] at hnext ⊢
          rw [hnext]
          exact (h s hs).sendMsg _ _
        · rw [if_neg hp] at hnext ⊢
          rw [hnext, List.drop_length, List.map_nil, List.append_nil, List.append_nil]
          exact ⟨List.prefix_rfl, h s hs⟩
      obtain ⟨hkept, hlast⟩ := ih (fun t' ht' => by
        obtain rfl := Option.some.inj (ht₁.symm.trans ht')
        exact hone.2) hrest
      rw [hpending₁] at hkept hlast
      rw [hpending, sentTo_cons]
      refine ⟨hone.1.trans hkept, ?_⟩
      rwa [List.append_assoc, ← List.map_append, drop_append_drop hone.1 hkept,
        List.append_assoc] at hlast

/-- The callbacks of the slots send nothing. -/
lemma sent_of_callbacks {w w' : World} {ds : List Event} (hds : ∀ d ∈ ds, d.IsCallback)
    (h : Runs.run World.step w ds = some w') : w'.server.sent = w.server.sent := by
  induction ds generalizing w with
  | nil =>
      obtain rfl := Option.some.inj h
      rfl
  | cons d ds ih =>
      obtain ⟨w₁, hw₁, hrest⟩ := Option.bind_eq_some_iff.mp h
      rw [ih (fun d hd => hds d (List.mem_cons_of_mem _ hd)) hrest,
        sent_of_isCallback (hds d List.mem_cons_self) hw₁]

/-- **One step** of the server. -/
theorem HandsOver.step (hg : g.HandsOver wire handed) (h : g.step wire e = some g') :
    g'.HandsOver wire fun i => handed i ++ g.newSends e g' i := by
  intro i t ht
  show t.HandsOver (handed i ++ g.newSends e g' i) (g'.sentTo wire i)
  have hpending := pendingSends_of_getClientInfo ht
  cases e with
  | packetManager e wsaSend =>
      rw [GameServer.step] at h
      split at h
      · cases h
      · obtain ⟨w, hw, hsend⟩ := Option.bind_eq_some_iff.mp h
        obtain ⟨packets, hsent, -⟩ := World.exists_sent_of_step hw
        rw [packetsTo_of_sent hsent] at hsend
        obtain ⟨-, -, hpacketManager, -⟩ := sendPackets_spec hsend
        have hstart : ∀ s, ({ g with m_pPacketManager := w } : GameServer).getClientInfo i = some s →
            s.HandsOver (handed i) (g.sentTo wire i) := hg i
        obtain ⟨-, hlast⟩ := handsOver_sendPackets hstart hsend ht
        rw [newSends, hpending, sentTo, hpacketManager]
        show t.HandsOver _ ((Outbox.sentTo i w.server.sent).map wire)
        rw [hsent, Outbox.sentTo_append, List.map_append]
        exact hlast
  | slot j e =>
      rw [GameServer.step] at h
      split at h
      · cases h
      · rename_i he
        obtain ⟨s, hs, hstep⟩ := Option.bind_eq_some_iff.mp h
        obtain ⟨s', hs', hrun⟩ := Option.bind_eq_some_iff.mp hstep
        obtain ⟨w, hw, rfl⟩ := Option.map_eq_some_iff.mp hrun
        have hsent : w.server.sent = g.m_pPacketManager.server.sent :=
          sent_of_callbacks (fun d hd => isCallback_of_callback (Option.mem_toList.mp hd)) hw
        rw [newSends, hpending, stillPending]
        show t.HandsOver _ ((Outbox.sentTo i w.server.sent).map wire)
        rw [hsent]
        rw [getClientInfo] at ht hs
        by_cases hji : j = i
        · subst hji
          rw [List.getElem?_set_self (List.getElem?_eq_some_iff.mp hs).1] at ht
          obtain rfl := Option.some.inj ht
          rw [if_pos rfl, getClientInfo, hs, Option.elim_some]
          exact (hg j s hs).step he hs'
        · rw [List.getElem?_set_ne hji] at ht
          rw [if_neg hji, pendingSends_of_getClientInfo (g := g) ht, List.drop_length,
            List.map_nil, List.append_nil]
          exact hg i t ht
  | recv j pData =>
      obtain ⟨s, -, hrecv⟩ := Option.bind_eq_some_iff.mp h
      obtain ⟨w, hw, rfl⟩ := Option.map_eq_some_iff.mp hrecv
      have hsent : w.server.sent = g.m_pPacketManager.server.sent :=
        sent_of_isCallback (e := .receive j pData) trivial hw
      have hstill : g.stillPending i (.recv j pData) = (g.pendingSends i).length := rfl
      rw [newSends, hpending, hstill, pendingSends_of_getClientInfo (g := g) ht, List.drop_length,
        List.map_nil, List.append_nil]
      show t.HandsOver _ ((Outbox.sentTo i w.server.sent).map wire)
      rw [hsent]
      exact hg i t ht

lemma handsOver_init (maxClient : UInt32) (memory : ℕ → View) (store : Store) :
    (run maxClient memory store).HandsOver wire fun _ => [] := by
  intro i s hs
  obtain rfl : s = {} := by
    have hmem := List.mem_of_getElem? hs
    exact List.eq_of_mem_replicate hmem
  exact ⟨.inl rfl, ⟨[], rfl, .inl ⟨rfl, rfl⟩⟩, .nil, by simp, fun k hk => by cases hk⟩

/-- What the watched server has handed over is as it should be, in every state of a run. -/
lemma always_handsOver (maxClient : UInt32) (memory : ℕ → View) (store : Store)
    (es : List GameEvent) :
    Runs.Always (Watched.step wire) (fun s => s.1.HandsOver wire s.2)
      (Watched.init maxClient memory store) es :=
  Runs.always_of_step (fun s e s' hs h => by
    obtain ⟨g', hg', rfl⟩ := Option.map_eq_some_iff.mp h
    exact hs.step hg') es (handsOver_init maxClient memory store)

/-- **Packets go out in order, and none is lost or sent twice.** In every state of a run of the
server, whatever sends and sockets fail and whenever slots are closed and connected again: the
buffers that a slot has handed to `WSASend` are the first packets that the packet manager has sent
to it, in order, and the others wait in its queue, behind the front if that has been handed over. -/
theorem handed_inOrder (maxClient : UInt32) (memory : ℕ → View) (store : Store)
    (es : List GameEvent) :
    Runs.Always (Watched.step wire)
      (fun s => ∀ i slot, s.1.getClientInfo i = some slot → ∃ waiting,
        (s.2 i).map Prod.snd ++ waiting = s.1.sentTo wire i ∧
          (slot.queued = waiting ∨ slot.queued.tail = waiting ∧ slot.queued ≠ []))
      (Watched.init maxClient memory store) es :=
  (always_handsOver maxClient memory store es).mono fun s hs i slot hslot => by
    obtain ⟨waiting, hsplit, hwaiting⟩ := (hs i slot hslot).waiting
    exact ⟨waiting, hsplit, hwaiting.imp_left And.left⟩

/-! ### The client -/

/-- The bytes that a slot hands to a socket. -/
def Watched.stream (s : Watched) (i socket : ℕ) : Bytes :=
  ((s.2 i).filter fun p => p.1 = socket).flatMap Prod.snd

/-- The buffers for one socket are those of packets sent one after the other. -/
lemma exists_of_socket {s : Watched} {slot : Slot} (hs : s.1.HandsOver wire s.2)
    (hslot : s.1.getClientInfo i = some slot) (socket : ℕ) :
    ∃ before mine after, Outbox.sentTo i s.1.m_pPacketManager.server.sent = before ++ mine ++ after ∧
      s.stream i socket = (mine.map wire).flatten := by
  obtain ⟨waiting, hsplit, -⟩ := (hs i slot hslot).waiting
  have hsorted := (hs i slot hslot).sockets.sorted
  rw [Outbox.eq_filter_append_filter hsorted socket, List.map_append, List.map_append,
    List.append_assoc] at hsplit
  obtain ⟨front, after, heq, hfront, -⟩ := List.map_eq_append_iff.mp hsplit.symm
  obtain ⟨before, mine, rfl, -, hmine⟩ := List.map_eq_append_iff.mp hfront
  refine ⟨before, mine, after, heq, ?_⟩
  rw [hmine, Watched.stream, List.flatMap_def]

open NetworkClient in
/-- **Clients read what handlers send.** Take a run of the server, a slot and one of its sockets, and
any way in which `Receive` splits what has been handed to this socket. What the thread of the client
posts are packets that handlers have sent to the slot one after the other, in order and each once;
with the last byte they are all that were handed over. -/
theorem posted_inOrder (hwire : ∀ packet, IsServerPacket (wire packet)) {maxClient : UInt32}
    {memory : ℕ → View} {store : Store} {es : List GameEvent} {s : Watched}
    (hrun : Runs.run (Watched.step wire) (Watched.init maxClient memory store) es = some s)
    {slot : Slot} (hslot : s.1.getClientInfo i = some slot) (socket : ℕ) {ks : List ℕ}
    (hks : Runs.Along NetworkClient.Connection.step Connection.Delivers
      (Connection.start (s.stream i socket)) ks) :
    ∃ c before mine after,
      Runs.run NetworkClient.Connection.step (Connection.start (s.stream i socket)) ks = some c ∧
      c.socket = true ∧
      Outbox.sentTo i s.1.m_pPacketManager.server.sent = before ++ mine ++ after ∧
      c.posted = mine.map (Packet.ofBytes ∘ wire) ∧
      (mine.map wire).flatten <+: s.stream i socket ∧
      (ks.sum = (s.stream i socket).length → (mine.map wire).flatten = s.stream i socket) := by
  have hs : s.1.HandsOver wire s.2 := (always_handsOver maxClient memory store es).of_run hrun
  obtain ⟨before, mine, after, hsent, hstream⟩ := exists_of_socket hs hslot socket
  have hpackets : ∀ p ∈ mine.map wire, IsServerPacket p := fun p hp => by
    obtain ⟨packet, -, rfl⟩ := List.mem_map.mp hp
    exact hwire packet
  rw [hstream] at hks ⊢
  obtain ⟨c, hc, hinvariant, hrest⟩ := (Connection.invariant_start _ hpackets).run hpackets hks
  have hreads := hinvariant.readsPackets hpackets
  obtain ⟨first, rest, part, hsplit, hreading, -⟩ := hreads.reading
  obtain ⟨mine₁, mine₂, rfl, rfl, rfl⟩ := List.map_eq_append_iff.mp hsplit
  refine ⟨c, before, mine₁, mine₂ ++ after, hc, hreads.socket, ?_, ?_, ?_, fun hsum => ?_⟩
  · rw [hsent]
    simp only [List.append_assoc]
  · rw [hreading.posted, List.map_map]
  · rw [List.map_append, List.flatten_append]
    exact List.prefix_append _ _
  · have hempty : c.stream = [] := by
      rw [hrest, hsum]
      exact List.drop_length
    have hall := hreads.posted_eq hempty
    rw [hreading.posted] at hall
    have hlength := congrArg List.length hall
    rw [List.length_map, List.length_map, List.length_map, List.length_map, List.length_append]
      at hlength
    have hnone : mine₂ = [] := List.eq_nil_of_length_eq_zero (by omega)
    rw [hnone, List.append_nil]

/-- `ROOM_LEAVE_RESPONSE_PACKET` in memory. -/
def leaveWire : ServerPacket → Bytes
  | .roomLeaveResponse result => packetBytes 216 (bytesLE result.code 2)
  | _ => packetBytes 0 [0]

lemma isServerPacket_leaveWire (packet : ServerPacket) :
    NetworkClient.IsServerPacket (leaveWire packet) := by
  cases packet with
  | roomLeaveResponse result => cases result <;> decide
  | _ => exact (by decide : NetworkClient.IsServerPacket (packetBytes 0 [0]))

/-- A client connects and asks to leave. -/
def leaveAtOnce : List GameEvent :=
  [.slot 0 (.accepterThread true true 4), .slot 0 (.acceptCompletion true 4),
    .packetManager (.systemPacket {}) fun _ => true, .recv 0 (chunk roomLeaveRequestPacket),
    .packetManager (.clientPacket {}) fun _ => true]

/-- The response, in three pieces. -/
theorem posted_leaveResponse :
    ∃ s, Runs.run (Watched.step leaveWire) (Watched.init 1 (fun _ _ => 0) fun _ => none)
        leaveAtOnce = some s ∧
      ∃ c, Runs.run NetworkClient.Connection.step
          (NetworkClient.Connection.start (s.stream 0 0)) [3, 2, 2] = some c ∧
        c.posted = [NetworkClient.Packet.ofBytes [7, 0, 216, 0, 0, 61, 0]] := by
  have hrun : (Runs.run (Watched.step leaveWire) (Watched.init 1 (fun _ _ => 0) fun _ => none)
      leaveAtOnce).map (fun s => (s.stream 0 0, (s.1.getClientInfo 0).isSome,
        (Outbox.sentTo 0 s.1.m_pPacketManager.server.sent).length)) =
      some ([7, 0, 216, 0, 0, 61, 0], true, 1) := by decide +kernel
  obtain ⟨s, hs, hstate⟩ := Option.map_eq_some_iff.mp hrun
  simp only [Prod.mk.injEq] at hstate
  obtain ⟨hstream, hsome, hone⟩ := hstate
  obtain ⟨slot, hslot⟩ := Option.isSome_iff_exists.mp hsome
  have hks : Runs.Along NetworkClient.Connection.step NetworkClient.Connection.Delivers
      (NetworkClient.Connection.start (s.stream 0 0)) [3, 2, 2] := by
    rw [hstream]
    decide
  obtain ⟨c, before, mine, after, hc, -, hsent, hposted, -, hall⟩ :=
    posted_inOrder isServerPacket_leaveWire hs hslot 0 hks
  refine ⟨s, hs, c, hc, ?_⟩
  have hbytes := hall (by rw [hstream]; rfl)
  rw [hstream] at hbytes
  rw [hsent, List.length_append, List.length_append] at hone
  match mine with
  | [] => cases hbytes
  | [packet] =>
      rw [List.map_singleton, List.flatten_singleton] at hbytes
      rw [hposted, List.map_singleton, Function.comp_apply, hbytes]
  | _ :: _ :: _ => exact absurd hone (by simp only [List.length_cons]; omega)

end GameServer

end CKGameServer
