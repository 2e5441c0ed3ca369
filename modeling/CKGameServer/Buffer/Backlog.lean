import CKGameServer.Buffer.ReceiveBuffer
import CKGameServer.Model.GameServer

/-!
The queue of received chunks (`ReceivePacketData`, `DequePacketData`).

The network threads append a chunk to its user's buffer and queue the user's index once; the
process thread takes an index and at most one packet for it.

* `Server.Backlog`, `Server.backlogStep`: the two kinds of steps, in any order.
* `Server.NoneStranded`: a complete packet at the head of a user's buffer has an index of that
  user in the queue that will lead to it.
* `noneStranded_iff`: it holds throughout a run exactly if no dequeue takes the last index of a
  user whose unread bytes hold two complete packets.
* `noneStranded_of_completesOne`: in particular if no chunk completes two packets at once.
-/

namespace CKGameServer

namespace Server

open RecvBuffer

/-- A step of the pipeline: `ReceivePacketData` or `DequePacketData`. -/
inductive Backlog where
  | receive (clientIndex : ℕ) (pData : Chunk)
  | deque

/-- The effect of a step. -/
def backlogStep (σ : Server) : Backlog → Option Server
  | .receive clientIndex pData => σ.receivePacketData clientIndex pData.val
  | .deque => some σ.dequePacketData.2

/-- The unread bytes of a user. -/
def unread (σ : Server) (i : ℕ) : Memory.Bytes := (σ.mUserObjPool i).recv.unread

/-- A user without an index in the queue has no complete packet at the head of its buffer. -/
def NoneStranded (σ : Server) : Prop :=
  ∀ i, i ∉ σ.mInComingPacketUserIndex → ¬packetFraming.BeginsFrame (σ.unread i)

/-- A dequeue takes the last index of a user only if at most one complete packet waits. -/
def LeavesNoPacket (σ : Server) : Backlog → Prop
  | .receive _ _ => True
  | .deque => ∀ i, σ.mInComingPacketUserIndex.head? = some i →
      i ∉ σ.mInComingPacketUserIndex.tail → ¬packetFraming.BeginsFrames 2 (σ.unread i)

/-- All cursors are in order. -/
def BuffersInBounds (σ : Server) : Prop := ∀ i, (σ.mUserObjPool i).recv.CursorsInBounds

/-! ### The two steps on unread bytes and queue -/

variable {σ τ : Server} {i : ℕ} {pData : Memory.Bytes}

/-- `ReceivePacketData` appends the chunk to the unread bytes of its user and the index to the
queue. -/
lemma receivePacketData_spec (hσ : σ.BuffersInBounds)
    (h : σ.receivePacketData i pData = some τ) :
    τ.BuffersInBounds ∧ τ.mInComingPacketUserIndex = σ.mInComingPacketUserIndex ++ [i] ∧
      τ.unread = Function.update σ.unread i (σ.unread i ++ pData) := by
  obtain ⟨recv, hrecv, rfl⟩ := Option.map_eq_some_iff.mp h
  obtain ⟨-, hbounds, hunread⟩ := unread_of_setPacketData (hσ i) hrecv
  refine ⟨fun j => ?_, rfl, funext fun j => ?_⟩
  · by_cases hj : j = i
    · subst hj; simpa using hbounds
    · simpa [hj] using hσ j
  · by_cases hj : j = i
    · subst hj; simpa [unread] using hunread
    · simp [unread, hj]

lemma dequePacketData_nil (hq : σ.mInComingPacketUserIndex = []) : σ.dequePacketData.2 = σ := by
  rw [dequePacketData]
  split
  · rfl
  · rename_i h
    rw [hq] at h
    cases h

/-- `DequePacketData` takes one index from the queue and at most one packet of its user. -/
lemma dequePacketData_cons (hσ : σ.BuffersInBounds) {rest : List ℕ}
    (hq : σ.mInComingPacketUserIndex = i :: rest) :
    σ.dequePacketData.2.BuffersInBounds ∧
      σ.dequePacketData.2.mInComingPacketUserIndex = rest ∧
      σ.dequePacketData.2.unread = Function.update σ.unread i
        (if packetFraming.BeginsFrame (σ.unread i) then
          (σ.unread i).drop (packetFraming.frameLength (σ.unread i))
        else σ.unread i) := by
  have hdeque : σ.dequePacketData.2 =
      { σ.modUser i (User.setRecv (σ.mUserObjPool i).recv.getPacket.2) with
        mInComingPacketUserIndex := rest } := by
    rw [dequePacketData]
    split
    · rename_i h
      rw [hq] at h
      cases h
    · rename_i j rest' h
      obtain ⟨rfl, rfl⟩ := List.cons.inj (hq.symm.trans h)
      rfl
  rw [hdeque]
  refine ⟨fun j => ?_, rfl, funext fun j => ?_⟩
  · by_cases hj : j = i
    · subst hj; simpa using cursorsInBounds_getPacket (hσ j)
    · simpa [hj] using hσ j
  · by_cases hj : j = i
    · subst hj
      simp only [unread, modUser_mUserObjPool, Function.update_self, User.setRecv_recv]
      exact unread_getPacket _
    · simp [unread, hj]

lemma buffersInBounds_backlogStep {e : Backlog} (hσ : σ.BuffersInBounds)
    (h : σ.backlogStep e = some τ) : τ.BuffersInBounds := by
  cases e with
  | receive i pData => exact (receivePacketData_spec hσ h).1
  | deque =>
      obtain rfl := Option.some.inj h
      cases hq : σ.mInComingPacketUserIndex with
      | nil => rwa [dequePacketData_nil hq]
      | cons i rest => exact (dequePacketData_cons hσ hq).1

/-! ### Stranded packets -/

/-- A chunk never strands a packet: its index follows it into the queue. -/
lemma noneStranded_receive (hσ : σ.BuffersInBounds) (hns : σ.NoneStranded)
    (h : σ.receivePacketData i pData = some τ) : τ.NoneStranded := by
  obtain ⟨-, hqueue, hunread⟩ := receivePacketData_spec hσ h
  intro j hj
  rw [hqueue, List.mem_append, List.mem_singleton, not_or] at hj
  rw [hunread, Function.update_of_ne hj.2]
  exact hns j hj.1

/-- A dequeue strands a packet exactly if it takes the last index of a user with two. -/
lemma noneStranded_deque_iff (hσ : σ.BuffersInBounds) (hns : σ.NoneStranded) :
    σ.dequePacketData.2.NoneStranded ↔ σ.LeavesNoPacket .deque := by
  cases hq : σ.mInComingPacketUserIndex with
  | nil => simp [dequePacketData_nil hq, hns, LeavesNoPacket, hq]
  | cons i rest =>
      obtain ⟨-, hqueue, hunread⟩ := dequePacketData_cons hσ hq
      simp only [LeavesNoPacket, hq, List.head?_cons, Option.some.injEq, forall_eq', List.tail_cons]
      constructor
      · intro hns' hi htwo
        have hone := hns' i (by rwa [hqueue])
        rw [hunread, Function.update_self, if_pos htwo.1] at hone
        exact hone htwo.2.1
      · intro hlast j hj
        rw [hqueue] at hj
        by_cases hji : j = i
        · subst hji
          rw [hunread, Function.update_self]
          split
          · rename_i hone
            exact fun hnext => hlast hj ⟨hone, hnext, trivial⟩
          · assumption
        · rw [hunread, Function.update_of_ne hji]
          exact hns j (by rw [hq]; exact List.not_mem_cons_of_ne_of_not_mem hji hj)

/-- From any state with its cursors in order and no packet stranded, in any order of receives
and dequeues: no packet is stranded exactly as long as no dequeue takes the last index of a user
with two complete packets. -/
lemma always_noneStranded_iff (hσ : σ.BuffersInBounds) (hns : σ.NoneStranded)
    (es : List Backlog) :
    Runs.Always backlogStep NoneStranded σ es ↔ Runs.Along backlogStep LeavesNoPacket σ es := by
  refine Runs.always_iff_along (I := BuffersInBounds)
    (fun _ _ _ h => buffersInBounds_backlogStep h) (fun σ e hσ hns => ?_) es hσ hns
  cases e with
  | receive i pData =>
      exact ⟨fun _ => trivial, fun _ τ h => noneStranded_receive hσ hns h⟩
  | deque =>
      rw [← noneStranded_deque_iff hσ hns]
      exact ⟨fun h => h _ rfl, fun h τ hτ => Option.some.inj hτ ▸ h⟩

section Init

variable (maxClient : ℕ) (memory : ℕ → Memory.View) (store : Store)

lemma buffersInBounds_init : (World.init maxClient memory store).server.BuffersInBounds :=
  fun _ => ⟨le_rfl, Nat.zero_le _⟩

lemma noneStranded_init : (World.init maxClient memory store).server.NoneStranded :=
  fun i _ h => by
    have hlen : packetHeaderLength ≤ ([] : Memory.Bytes).length := h.1
    exact absurd hlen (by decide)

/-- **No packet is stranded.** From the start of the server on, in any order of receives and
dequeues, a complete packet at the head of a buffer has an index in the queue exactly as long as
no dequeue takes the last index of a user with two complete packets. -/
theorem noneStranded_iff (es : List Backlog) :
    Runs.Always backlogStep NoneStranded (World.init maxClient memory store).server es ↔
      Runs.Along backlogStep LeavesNoPacket (World.init maxClient memory store).server es :=
  always_noneStranded_iff (buffersInBounds_init maxClient memory store)
    (noneStranded_init maxClient memory store) es

end Init

/-- Two packets without a body, `ROOM_LEAVE_REQUEST` twice, in one chunk. -/
def twoPackets : Chunk := ⟨[5, 0, 215, 0, 0, 5, 0, 215, 0, 0], by decide⟩

/-- The chunk queues one index, and the dequeue that takes it leaves the second packet behind. -/
theorem stranded_twoPackets :
    ¬∀ (maxClient : ℕ) (memory : ℕ → Memory.View) (store : Store) (es : List Backlog),
      Runs.Always backlogStep NoneStranded (World.init maxClient memory store).server es := by
  intro h
  have hσ := buffersInBounds_init 3 (fun _ _ => 0) fun _ => none
  have hns := noneStranded_init 3 (fun _ _ => 0) fun _ => none
  have halong := (always_noneStranded_iff hσ hns [.receive 0 twoPackets, .deque]).mp (h ..)
  obtain ⟨τ, hτ⟩ : ∃ τ, (World.init 3 (fun _ _ => 0) fun _ => none).server.receivePacketData 0
      twoPackets.val = some τ := ⟨_, rfl⟩
  obtain ⟨-, hqueue, hunread⟩ := receivePacketData_spec hσ hτ
  have hlast := (halong.2 τ hτ).1 0 (by rw [hqueue]; rfl) (by rw [hqueue]; decide)
  rw [hunread, Function.update_self] at hlast
  exact hlast (by decide)

/-! ### Chunks with one packet each -/

/-- A chunk completes at most one packet. -/
def CompletesOne (σ : Server) : Backlog → Prop
  | .receive i pData => ∀ n, packetFraming.BeginsFrames (n + 1) (σ.unread i ++ pData.val) →
      packetFraming.BeginsFrames n (σ.unread i)
  | .deque => True

/-- There are at most as many complete packets as indices in the queue. -/
def PacketsQueued (σ : Server) : Prop :=
  σ.BuffersInBounds ∧ ∀ i n, packetFraming.BeginsFrames n (σ.unread i) →
    n ≤ σ.mInComingPacketUserIndex.count i

lemma PacketsQueued.noneStranded (h : σ.PacketsQueued) : σ.NoneStranded := fun i hi hone => by
  have := h.2 i 1 (Framing.beginsFrames_one.mpr hone)
  rw [List.count_eq_zero.mpr hi] at this
  omega

/-- The packet a chunk completes, if it does, has the index that comes with the chunk. -/
lemma packetsQueued_receive {pData : Chunk} (hσ : σ.PacketsQueued)
    (hone : σ.CompletesOne (.receive i pData)) (h : σ.receivePacketData i pData.val = some τ) :
    τ.PacketsQueued := by
  obtain ⟨hbounds, hcount⟩ := hσ
  obtain ⟨hbounds', hqueue, hunread⟩ := receivePacketData_spec hbounds h
  refine ⟨hbounds', fun j n hn => ?_⟩
  rw [hunread] at hn
  rw [hqueue, List.count_append]
  by_cases hj : j = i
  · subst hj
    rw [Function.update_self] at hn
    rw [List.count_singleton_self]
    cases n with
    | zero => exact Nat.zero_le _
    | succ n => exact Nat.succ_le_succ (hcount j n (hone n hn))
  · rw [Function.update_of_ne hj] at hn
    exact (hcount j n hn).trans (Nat.le_add_right _ _)

/-- A dequeue takes an index and, if the user has one, a packet. -/
lemma packetsQueued_deque (hσ : σ.PacketsQueued) : σ.dequePacketData.2.PacketsQueued := by
  cases hq : σ.mInComingPacketUserIndex with
  | nil => rwa [dequePacketData_nil hq]
  | cons i rest =>
      obtain ⟨hbounds, hcount⟩ := hσ
      obtain ⟨hbounds', hqueue, hunread⟩ := dequePacketData_cons hbounds hq
      refine ⟨hbounds', fun j n hn => ?_⟩
      rw [hunread] at hn
      rw [hqueue]
      by_cases hj : j = i
      · subst hj
        rw [Function.update_self] at hn
        split at hn
        · rename_i hone
          have := hcount j (n + 1) ⟨hone, hn⟩
          rw [hq, List.count_cons_self] at this
          omega
        · rename_i hone
          cases n with
          | zero => exact Nat.zero_le _
          | succ n => exact absurd hn.1 hone
      · rw [Function.update_of_ne hj] at hn
        have := hcount j n hn
        rwa [hq, List.count_cons_of_ne (Ne.symm hj)] at this

lemma packetsQueued_step {e : Backlog} (hσ : σ.PacketsQueued) (he : σ.CompletesOne e)
    (h : σ.backlogStep e = some τ) : τ.PacketsQueued := by
  cases e with
  | receive i pData => exact packetsQueued_receive hσ he h
  | deque => exact Option.some.inj h ▸ packetsQueued_deque hσ

/-- Where every chunk completes at most one packet, no packet is ever stranded. -/
theorem noneStranded_of_completesOne (hσ : σ.PacketsQueued) {es : List Backlog}
    (h : Runs.Along backlogStep CompletesOne σ es) :
    Runs.Always backlogStep NoneStranded σ es :=
  (Runs.always_of_along (fun _ _ _ hσ he h => packetsQueued_step hσ he h) hσ h).mono
    fun _ h => h.noneStranded

end Server

end CKGameServer
