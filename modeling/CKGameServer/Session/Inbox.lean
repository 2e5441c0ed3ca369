import CKGameServer.Buffer.FrameQueue
import CKGameServer.Lobby.TrustBoundary
import CKGameServer.Session.Tasks

/-!
The packets of one client in a run of the whole server.

* `World.inboxCall`: the call on the receive buffer of a user that an event makes, if it makes one.
* `World.Spares`: no connection of the user begins or ends with the event.
* `Handler.run_recv`: a handler empties the buffer of its own user at most, and only where a
  connection begins or ends.
* `World.run_inboxCall`: the buffer of a user changes by these calls only.
* `World.dispatched`: the packet of a user that an event hands to `ProcessRecvPacket`.
* `World.dispatched_inOrder`: in any run between two connections, whatever the other clients and the
  other threads do, the packets of the stream that are dispatched are its first packets, in order.
-/

namespace CKGameServer

open Memory

/-! ### Handlers and receive buffers -/

/-- **What a handler does to a receive buffer.** -/
theorem Handler.run_recv {handler : Handler} {env : Env} {j n : ℕ} {p : View} {σ τ : Server} {i : ℕ}
    (h : handler.run env j n p σ = .ok τ)
    (hi : j = i → handler ≠ processUserConnect ∧ handler ≠ processUserDisConnect) :
    (τ.mUserObjPool i).recv = (σ.mUserObjPool i).recv := by
  refine Handler.run_induction (P := fun τ => (τ.mUserObjPool i).recv = (σ.mUserObjPool i).recv)
    (fun τ υ heffect hτ => ?_) h rfl
  have hmod : ∀ f : User → User, (∀ u, (f u).recv = u.recv) →
      ((τ.modUser j f).mUserObjPool i).recv = (σ.mUserObjPool i).recv := fun f hf => by
    by_cases hij : i = j
    · subst hij
      rw [Server.modUser_mUserObjPool, Function.update_self, hf, hτ]
    · rw [Server.modUser_mUserObjPool, Function.update_of_ne hij, hτ]
  cases heffect with
  | actor f => exact hmod _ fun _ => rfl
  | clear hclear =>
      by_cases hij : i = j
      · obtain ⟨hconnect, hdisconnect⟩ := hi hij.symm
        exact absurd hclear (not_or.mpr ⟨hconnect, hdisconnect⟩)
      · rw [Server.modUser_mUserObjPool, Function.update_of_ne hij, hτ]
  | inventory inven _ => exact hmod _ fun _ => rfl
  | dictionary keep => exact hτ
  | room r f => exact hτ
  | send packets _ => exact hτ
  | push task _ => exact hτ

/-- A packet with another id does not begin or end a connection. -/
lemma ne_system_of_findHandler {packetId : ℕ} {handler : Handler}
    (hfind : findHandler packetId = some handler) (hconnect : packetId ≠ PacketId.sysUserConnect.code)
    (hdisconnect : packetId ≠ PacketId.sysUserDisconnect.code) :
    handler ≠ .processUserConnect ∧ handler ≠ .processUserDisConnect := by
  constructor
  · rintro rfl
    exact hconnect (findHandler_injective hfind rfl)
  · rintro rfl
    exact hdisconnect (findHandler_injective hfind rfl)

/-- No response has the id of a system packet. -/
lemma code_ne_system (id : RedisTaskID) :
    id.code ≠ PacketId.sysUserConnect.code ∧ id.code ≠ PacketId.sysUserDisconnect.code := by
  cases id <;> decide

namespace Server

variable {env : Env} {taken : Option RecvPacket × Server} {τ : Server} {i : ℕ}

/-- A dispatch leaves the buffer of a user alone, if it begins or ends no connection of it. -/
lemma dispatch_recv (h : dispatch env taken = .ok τ)
    (hp : ∀ q, taken.1 = some q → q.clientIndex = i →
      q.packetId ≠ PacketId.sysUserConnect.code ∧ q.packetId ≠ PacketId.sysUserDisconnect.code) :
    (τ.mUserObjPool i).recv = (taken.2.mUserObjPool i).recv := by
  obtain ⟨p, σ⟩ := taken
  rcases dispatch_cases h with ⟨-, rfl⟩ | ⟨handler, q, hsome, hrun⟩
  · rfl
  · obtain ⟨q', rfl, hhandler⟩ := Option.bind_eq_some_iff.mp hsome
    obtain ⟨handler', hfind, heq⟩ := Option.map_eq_some_iff.mp hhandler
    obtain ⟨rfl, rfl⟩ := Prod.mk.inj heq
    exact Handler.run_recv hrun fun hi =>
      ne_system_of_findHandler hfind (hp q' rfl hi).1 (hp q' rfl hi).2

end Server

namespace World

/-! ### One user -/

/-- The bytes an event brings for a user. -/
def arrived (i : ℕ) : Event → Bytes
  | .receive j pData => if j = i then pData.val else []
  | _ => []

/-- The call on the buffer of a user. -/
def inboxCall (i : ℕ) (w : World) : Event → Option RecvBuffer.Call
  | .receive j pData => if j = i then some (.setPacketData pData) else none
  | .clientPacket _ =>
    if w.server.mInComingPacketUserIndex.head? = some i then some .getPacket else none
  | _ => none

/-- No connection of the user begins or ends. -/
def Spares (i : ℕ) (w : World) : Event → Prop
  | .systemPacket _ => ∀ q ∈ w.server.mSystemPacketQueue.head?, q.clientIndex ≠ i
  | _ => True

/-- The packet of a user that an event hands to `ProcessRecvPacket`. -/
def dispatched (i : ℕ) (w : World) : Event → Option ReceivedPacket
  | .clientPacket env =>
    (w.packet (.clientPacket env)).bind fun p =>
      if p.clientIndex = i then some ⟨p.packetId, p.packetSize, p.pPacket.read 0 p.packetSize⟩
      else none
  | _ => none

/-- `ProcessPacket` passes on what is not a system packet. -/
def passes (packet : ReceivedPacket) : Bool := decide (PacketId.sysEnd.code < packet.packetId)

section Step

variable {w w' : World} {e : Event} {i : ℕ} {env : Env}

/-- The packet of a user that is taken from the queue. -/
lemma dequePacketData_of_head (h : w.server.mInComingPacketUserIndex.head? = some i) :
    w.server.dequePacketData.1 =
        { (w.server.mUserObjPool i).recv.getPacket.1 with clientIndex := i } ∧
      (w.server.dequePacketData.2.mUserObjPool i).recv =
        (w.server.mUserObjPool i).recv.getPacket.2 := by
  rw [Server.dequePacketData]
  cases hq : w.server.mInComingPacketUserIndex with
  | nil => rw [hq] at h; cases h
  | cons j rest =>
      rw [hq] at h
      obtain rfl := Option.some.inj h
      exact ⟨rfl, by simp⟩

/-- The packet that is taken is of another user, or there is none. -/
lemma dequePacketData_of_head_ne (h : w.server.mInComingPacketUserIndex.head? ≠ some i) :
    (w.server.dequePacketData.1.packetId = 0 ∨ w.server.dequePacketData.1.clientIndex ≠ i) ∧
      (w.server.dequePacketData.2.mUserObjPool i).recv = (w.server.mUserObjPool i).recv := by
  rw [Server.dequePacketData]
  cases hq : w.server.mInComingPacketUserIndex with
  | nil => exact ⟨.inl rfl, rfl⟩
  | cons j rest =>
      have hji : j ≠ i := fun hji => h (by rw [hq, hji]; rfl)
      refine ⟨.inr hji, ?_⟩
      simp [hji.symm]

/-- The dispatch of a client packet leaves a buffer as `DequePacketData` does. -/
lemma recv_clientPacket (h : w.step (.clientPacket env) = some w') :
    (w'.server.mUserObjPool i).recv = (w.server.dequePacketData.2.mUserObjPool i).recv := by
  refine Server.dispatch_recv (exists_dispatch h) fun q hq _ => ?_
  have hpacket : w.packet (.clientPacket env) = some q := hq
  have hsys : PacketId.sysEnd.code < q.packetId := sysEnd_lt_of_packet hpacket
  have hconnect : PacketId.sysUserConnect.code ≤ PacketId.sysEnd.code := by decide
  have hdisconnect : PacketId.sysUserDisconnect.code ≤ PacketId.sysEnd.code := by decide
  exact ⟨by omega, by omega⟩

/-- A response leaves the buffers alone. -/
lemma recv_response (h : w.step (.response env) = some w') :
    (w'.server.mUserObjPool i).recv = (w.server.mUserObjPool i).recv := by
  have hpool := w.server.queues_takeResponseTask.2.2.2.1
  have hkept : (w.server.responsePacket.2.mUserObjPool i).recv = (w.server.mUserObjPool i).recv :=
    congrArg (fun pool => User.recv (pool i)) hpool
  refine (Server.dispatch_recv (exists_dispatch h) fun q hq _ => ?_).trans hkept
  rw [w.server.packetId_responsePacket hq]
  exact code_ne_system _

/-- The end or the beginning of another connection leaves the buffer alone. -/
lemma recv_systemPacket (h : w.step (.systemPacket env) = some w')
    (hspares : w.Spares i (.systemPacket env)) :
    (w'.server.mUserObjPool i).recv = (w.server.mUserObjPool i).recv := by
  have hpool := w.server.queues_systemPacket.2.2.1
  have hkept : (w.server.systemPacket.2.mUserObjPool i).recv = (w.server.mUserObjPool i).recv := by
    rw [hpool]
  refine (Server.dispatch_recv (exists_dispatch h) fun q hq hi => ?_).trans hkept
  cases hqueue : w.server.mSystemPacketQueue with
  | nil => simp [Server.systemPacket, Server.dequeSystemPacketData, hqueue] at hq
  | cons packet rest =>
      have hclient : q.clientIndex = packet.clientIndex := by
        simp only [Server.systemPacket, Server.dequeSystemPacketData, hqueue] at hq
        split at hq
        · rw [← Option.some.inj hq]
          rfl
        · cases hq
      exact absurd (hclient.symm.trans hi) (hspares packet (by rw [hqueue]; rfl))

/-- **A step on the buffer of one user** is the call on it, if it is one. -/
theorem run_inboxCall (h : w.step e = some w') (hspares : w.Spares i e) :
    Runs.run RecvBuffer.call (w.server.mUserObjPool i).recv (w.inboxCall i e).toList =
      some (w'.server.mUserObjPool i).recv := by
  cases e with
  | receive j pData =>
      obtain ⟨recv, hrecv, rfl⟩ := exists_receive h
      rw [inboxCall]
      by_cases hji : j = i
      · subst hji
        rw [if_pos rfl]
        simpa [RecvBuffer.call] using hrecv
      · simp [hji, Ne.symm hji]
  | clientPacket env =>
      rw [recv_clientPacket h, inboxCall]
      by_cases hhead : w.server.mInComingPacketUserIndex.head? = some i
      · rw [if_pos hhead, (dequePacketData_of_head hhead).2]
        rfl
      · rw [if_neg hhead, (dequePacketData_of_head_ne hhead).2]
        rfl
  | systemPacket env => exact congrArg some (recv_systemPacket h hspares).symm
  | response env => exact congrArg some (recv_response h).symm
  | redisTask env =>
      obtain ⟨out, -, rfl⟩ := exists_taskProcess h
      have hpool := w.server.queues_takeRequestTask.2.2.2
      show some _ = some (w.server.takeRequestTask.2.mUserObjPool i).recv
      rw [hpool]
  | connect j => exact Option.some.inj h ▸ rfl
  | close j => exact Option.some.inj h ▸ rfl
  | tick env => exact Option.some.inj h ▸ rfl
  | subscribe env message => exact Option.some.inj h ▸ rfl

/-- What is dispatched for a user whose turn it is. -/
lemma dispatched_of_head (env : Env) (h : w.server.mInComingPacketUserIndex.head? = some i) :
    w.dispatched i (.clientPacket env) = (w.server.mUserObjPool i).recv.received.filter passes := by
  obtain ⟨hpacket, hrecv⟩ := dequePacketData_of_head h
  rw [dispatched, packet, Server.clientPacket]
  simp only [hpacket, Server.recvPacket, Server.packetView, hrecv]
  by_cases hframe : RecvBuffer.packetFraming.BeginsFrame (w.server.mUserObjPool i).recv.unread
  · rw [RecvBuffer.received, RecvBuffer.getPacket_of_beginsFrame hframe]
    by_cases hsys : PacketId.sysEnd.code <
        packetIdAt (w.server.mUserObjPool i).recv.packetPtr 0
    · simp [hsys, passes, Option.filter_some, View.read_shift]
    · simp [hsys, passes, Option.filter_some]
  · rw [RecvBuffer.received, RecvBuffer.getPacket_of_not_beginsFrame hframe]
    rfl

/-- Nothing is dispatched for the others. -/
lemma dispatched_of_head_ne (env : Env) (h : w.server.mInComingPacketUserIndex.head? ≠ some i) :
    w.dispatched i (.clientPacket env) = none := by
  obtain ⟨hpacket, -⟩ := dequePacketData_of_head_ne h
  rw [dispatched, packet, Server.clientPacket]
  rcases hpacket with hnone | hne
  · simp [hnone]
  · by_cases hsys : PacketId.sysEnd.code < w.server.dequePacketData.1.packetId
    · simp [hsys, Server.recvPacket, hne]
    · simp [hsys]

/-- **What is dispatched** is what `GetPacket` answers, but for system packets. -/
lemma dispatched_eq (i : ℕ) (w : World) (e : Event) :
    w.dispatched i e = ((w.inboxCall i e).bind (w.server.mUserObjPool i).recv.output).bind
      (Option.guard passes) := by
  cases e with
  | clientPacket env =>
      rw [inboxCall]
      by_cases hhead : w.server.mInComingPacketUserIndex.head? = some i
      · rw [if_pos hhead, dispatched_of_head env hhead, Option.bind_guard]
        rfl
      · rw [if_neg hhead, dispatched_of_head_ne env hhead]
        rfl
  | receive j pData =>
      rw [inboxCall]
      split <;> rfl
  | _ => rfl

end Step

/-! ### The stream of a client -/

/-- The bytes the calls bring are those that come in. -/
lemma flatMap_incoming_inboxCall {w w' : World} {es : List Event} (i : ℕ)
    (h : Runs.run step w es = some w') :
    (Runs.outputs step (inboxCall i) w es).flatMap RecvBuffer.Call.incoming =
      es.flatMap (arrived i) := by
  induction es generalizing w with
  | nil => rfl
  | cons e es ih =>
      obtain ⟨t, ht, hrest⟩ := Option.bind_eq_some_iff.mp h
      have hfirst : (w.inboxCall i e).toList.flatMap RecvBuffer.Call.incoming = arrived i e := by
        cases e with
        | receive j pData =>
            rw [inboxCall, arrived]
            split <;> simp [RecvBuffer.Call.incoming]
        | clientPacket env =>
            rw [inboxCall]
            split <;> rfl
        | _ => rfl
      rw [Runs.outputs_cons ht, List.flatMap_append, hfirst, ih hrest, List.flatMap_cons]

/-- A packet as `ProcessRecvPacket` gets it, if it does. -/
def requests (packets : List Bytes) : List ReceivedPacket :=
  (packets.map (ReceivedPacket.of ∘ RecvBuffer.packetFraming.headed)).filter passes

lemma requests_append (packets packets' : List Bytes) :
    requests (packets ++ packets') = requests packets ++ requests packets' := by
  rw [requests, List.map_append, List.filter_append]
  rfl

/-- No more packets are passed on than there are. -/
lemma requests_sublist {packets packets' : List Bytes} (h : packets.Sublist packets') :
    (requests packets).Sublist (requests packets') := (h.map _).filter _

/-- One packet at most. -/
lemma requests_toList (x : Option Bytes) : requests x.toList =
    ((x.map (ReceivedPacket.of ∘ RecvBuffer.packetFraming.headed)).filter passes).toList := by
  cases x with
  | none => rfl
  | some x =>
      rw [requests, Option.toList_some, List.map_singleton, Option.map_some, Option.filter_some,
        List.filter_singleton]
      split <;> simp_all

variable {w w' : World} {i : ℕ} {es : List Event} {packets : List Bytes} {rest : Bytes}

/-- The buffer of a user and the packets dispatched for it, over a run. -/
lemma run_inbox (hspares : Runs.Along step (Spares i) w es) (hrun : Runs.run step w es = some w') :
    Runs.run RecvBuffer.call (w.server.mUserObjPool i).recv (Runs.outputs step (inboxCall i) w es) =
        some (w'.server.mUserObjPool i).recv ∧
      Runs.outputs step (dispatched i) w es =
        (Runs.outputs RecvBuffer.call RecvBuffer.output (w.server.mUserObjPool i).recv
          (Runs.outputs step (inboxCall i) w es)).filter passes := by
  have hstep : ∀ (w : World) (b : RecvBuffer) e w', (w.server.mUserObjPool i).recv = b →
      Spares i w e → w.step e = some w' →
      w.dispatched i e = ((w.inboxCall i e).bind b.output).bind (Option.guard passes) ∧
        ∃ b', Runs.run RecvBuffer.call b (w.inboxCall i e).toList = some b' ∧
          (w'.server.mUserObjPool i).recv = b' := fun w b e w' hb hspares h => by
    subst hb
    exact ⟨dispatched_eq i w e, _, run_inboxCall h hspares, rfl⟩
  obtain ⟨b, hcalls, rfl, houts⟩ := Runs.run_projects hstep rfl hspares hrun
  refine ⟨hcalls, ?_⟩
  rw [houts, List.filterMap_eq_filter]

/-- The buffer answers the first packets of the stream. -/
lemma answersPrefix_of_run
    (hclear : (w.server.mUserObjPool i).recv.clear = (w.server.mUserObjPool i).recv)
    (hpackets : ∀ x ∈ packets, RecvBuffer.IsPacket x)
    (hstream : es.flatMap (arrived i) ++ rest = packets.flatten)
    (hspares : Runs.Along step (Spares i) w es) (hrun : Runs.run step w es = some w') :
    (w.server.mUserObjPool i).recv.AnswersPrefix packets
      (Runs.outputs step (inboxCall i) w es) := by
  obtain ⟨hcalls, -⟩ := run_inbox hspares hrun
  refine RecvBuffer.answersPrefix_of_fits _ hpackets
    (flatMap_incoming_inboxCall i hrun ▸ hstream) ?_
  rw [hclear]
  exact RecvBuffer.along_fits_of_run (hclear ▸ RecvBuffer.cursorsInBounds_clear _) hcalls

/-- The first packets of the stream are dispatched, and the buffer holds what has come in of the
others. -/
lemma exists_dispatched
    (hclear : (w.server.mUserObjPool i).recv.clear = (w.server.mUserObjPool i).recv)
    (hpackets : ∀ x ∈ packets, RecvBuffer.IsPacket x)
    (hstream : es.flatMap (arrived i) ++ rest = packets.flatten)
    (hspares : Runs.Along step (Spares i) w es) (hrun : Runs.run step w es = some w') :
    ∃ k ≤ packets.length,
      Runs.outputs step (dispatched i) w es = requests (packets.take k) ∧
      es.flatMap (arrived i) = (packets.take k).flatten ++ (w'.server.mUserObjPool i).recv.unread ∧
      (w'.server.mUserObjPool i).recv.received =
        (packets[k]?.filter fun x =>
          x.length ≤ (w'.server.mUserObjPool i).recv.unread.length).map
            (ReceivedPacket.of ∘ RecvBuffer.packetFraming.headed) := by
  obtain ⟨hcalls, houts⟩ := run_inbox hspares hrun
  obtain ⟨k, b, hb, hk, hanswers, hsplit, hnext⟩ :=
    answersPrefix_of_run hclear hpackets hstream hspares hrun
  rw [hclear] at hb hanswers
  obtain rfl := Option.some.inj (hcalls.symm.trans hb)
  exact ⟨k, hk, by rw [houts, hanswers]; rfl, flatMap_incoming_inboxCall i hrun ▸ hsplit, hnext⟩

/-- **The packets of a client are handled in order.** From the moment when its buffer is empty, in
any run in which its connection does not begin or end, whatever the other clients and the other
threads do: where the bytes that come in for it are cut from a stream of packets, those handed to
`ProcessRecvPacket` are the first packets of the stream but for system packets, each once, in order
and with its id, size and bytes; what has come in of the others is in the buffer; and the next turn
of the client takes the next packet, if all of it is there. -/
theorem dispatched_inOrder
    (hclear : (w.server.mUserObjPool i).recv.clear = (w.server.mUserObjPool i).recv)
    (hpackets : ∀ x ∈ packets, RecvBuffer.IsPacket x)
    (hstream : es.flatMap (arrived i) ++ rest = packets.flatten)
    (hspares : Runs.Along step (Spares i) w es) (hrun : Runs.run step w es = some w') :
    ∃ k ≤ packets.length,
      Runs.outputs step (dispatched i) w es = requests (packets.take k) ∧
      es.flatMap (arrived i) = (packets.take k).flatten ++ (w'.server.mUserObjPool i).recv.unread ∧
      ∀ env, w'.server.mInComingPacketUserIndex.head? = some i →
        (w'.dispatched i (.clientPacket env)).toList =
          requests (packets[k]?.filter fun x =>
            x.length ≤ (w'.server.mUserObjPool i).recv.unread.length).toList := by
  obtain ⟨k, hk, houts, hsplit, hreceived⟩ :=
    exists_dispatched hclear hpackets hstream hspares hrun
  refine ⟨k, hk, houts, hsplit, fun env hhead => ?_⟩
  rw [dispatched_of_head env hhead, hreceived, requests_toList]

/-- Two clients send at the same time, the first two packets in three chunks. -/
def twoClients : List Event :=
  [.receive 0 (chunk [5, 0, 215]), .receive 1 (chunk roomLeaveRequestPacket), .clientPacket {},
   .receive 0 (chunk [0, 0, 5, 0]), .clientPacket {}, .tick {},
   .receive 0 (chunk [215, 0, 0]), .redisTask default, .clientPacket {}, .clientPacket {}]

/-- Both packets of the first client are handled. -/
theorem dispatched_twoClients :
    ∃ w', Runs.run step (init 3 (fun _ _ => 0) fun _ => none) twoClients = some w' ∧
      Runs.outputs step (dispatched 0) (init 3 (fun _ _ => 0) fun _ => none) twoClients =
        requests (List.replicate 2 roomLeaveRequestPacket) ∧
      (w'.server.mUserObjPool 0).recv.unread = [] := by
  obtain ⟨w', hrun⟩ : ∃ w', Runs.run step (init 3 (fun _ _ => 0) fun _ => none) twoClients =
    some w' := ⟨_, by rfl⟩
  have hpackets : ∀ x ∈ List.replicate 2 roomLeaveRequestPacket, RecvBuffer.IsPacket x := by decide
  have hstream : twoClients.flatMap (arrived 0) ++ [] =
      (List.replicate 2 roomLeaveRequestPacket).flatten := by decide
  obtain ⟨k, hk, houts, hsplit, -⟩ := dispatched_inOrder rfl hpackets hstream
    (Runs.Along.of_forall_mem fun e he _ => by
      simp only [twoClients, List.mem_cons, List.not_mem_nil, or_false] at he
      rcases he with rfl | rfl | rfl | rfl | rfl | rfl | rfl | rfl | rfl | rfl <;> trivial) hrun
  have htwo : (Runs.outputs step (dispatched 0) (init 3 (fun _ _ => 0) fun _ => none)
      twoClients).length = 2 := by decide +kernel
  obtain rfl : k = 2 := by
    have hle : (requests ((List.replicate 2 roomLeaveRequestPacket).take k)).length ≤ k :=
      (List.length_filter_le _ _).trans (by simp)
    rw [List.length_replicate] at hk
    rw [houts] at htwo
    omega
  refine ⟨w', hrun, houts, ?_⟩
  rw [List.append_nil] at hstream
  rw [hstream] at hsplit
  exact (List.self_eq_append_right.mp hsplit)

end World

end CKGameServer
