import CKGameServer.Library.FrameQueue
import CKGameServer.Model.Client
import CKGameServer.Session.History

/-!
The boundaries of a session (`OnConnect`, `OnClose`, `OnReceive`, `ProcessPacket`).

`SYS_USER_CONNECT` and `SYS_USER_DISCONNECT` wait in one queue, the bytes of a client in its
buffer, and the process thread takes from both in turn.

* `Notice`, `Boundaries`: for each packet in `mSystemPacketQueue` the connection that it opens or
  closes, and those that have been taken.
* `Bounded.KeepsBoundaries`: a packet of a client is handled after the `SYS_USER_CONNECT` and before
  the `SYS_USER_DISCONNECT` of the connection in which it came, and a `SYS_USER_CONNECT` discards no
  byte that came in its connection.
* `Bounded.Calm`: bytes come in between the two, and no packet is left when the
  `SYS_USER_DISCONNECT` is taken of a client whose buffer the handler leaves as it is.
* `Bounded.keepsBoundaries_of_calm`: in a run whose steps are so the boundaries are kept.
* `Bounded.early_packets`: two runs in which a packet comes before its `SYS_USER_CONNECT` is taken.
-/

namespace CKGameServer

/-- What a system packet tells: a connection is open, or closed. -/
inductive Notice where
  | opened (c : Connection)
  | closed (c : Connection)
  deriving DecidableEq

/-- The connection a notice is about. -/
def Notice.connection : Notice → Connection
  | opened c => c
  | closed c => c

/-- The system packet of a notice. -/
def Notice.packet : Notice → PacketInfo
  | opened c => World.onConnect c.slot
  | closed c => World.onClose c.slot

/-- A notice may be pushed before another: the connections of a slot come in turn. -/
def Notice.MayPrecede (x y : Notice) : Prop :=
  x.connection.slot = y.connection.slot → y.connection.number ≠ 0 →
    x.connection.number ≤ y.connection.number

/-- What has become of the system packets. The number zero is that of no connection. -/
structure Boundaries where
  /-- What the packets in `mSystemPacketQueue` tell. -/
  system : List Notice := []
  /-- What the packets told that the process thread has taken. -/
  handled : List Notice := []
  /-- The connections for which `OnClose` was called. -/
  ended : List Connection := []

namespace Boundaries

/-- The system packets pushed so far. -/
def pushed (b : Boundaries) : List Notice := b.handled ++ b.system

/-- The boundaries after an event. -/
def next (b : Boundaries) (h : History) : Event → Boundaries
  | .connect i => { b with system := b.system ++ [.opened ⟨i, h.sessions i + 1⟩] }
  | .close i =>
    if h.connected i then
      { b with
        system := b.system ++ [.closed ⟨i, h.sessions i⟩]
        ended := b.ended ++ [⟨i, h.sessions i⟩] }
    else { b with system := b.system ++ [.closed ⟨i, 0⟩] }
  | .systemPacket _ =>
    { b with
      system := b.system.drop 1
      handled := b.handled ++ b.system.take 1 }
  | _ => b

/-- Of the notices that were pushed once, those are handled that do not wait any more. -/
lemma mem_handled_iff {b : Boundaries} {x : Notice} (honce : b.pushed.count x ≤ 1)
    (hpushed : x ∈ b.pushed) : x ∈ b.handled ↔ x ∉ b.system := by
  rw [pushed, List.count_append] at honce
  constructor
  · intro hhandled hsystem
    have h1 := List.count_pos_iff.mpr hhandled
    have h2 := List.count_pos_iff.mpr hsystem
    omega
  · exact (List.mem_append.mp hpushed).resolve_right

/-- What is taken stays pushed. -/
lemma pushed_next_systemPacket (b : Boundaries) (h : History) (env : Env) :
    (b.next h (.systemPacket env)).pushed = b.pushed := by
  simp only [pushed, next, List.append_assoc, List.take_append_drop]

end Boundaries

namespace Server

/-- No packet of the user waits to be taken: no index of it is in the queue, or what it has not read
does not begin with a packet. -/
def Idle (σ : Server) (i : ℕ) : Prop :=
  i ∈ σ.mInComingPacketUserIndex → ¬RecvBuffer.packetFraming.BeginsFrame (σ.unread i)

instance (σ : Server) (i : ℕ) : Decidable (σ.Idle i) := inferInstanceAs (Decidable (_ → ¬_))

variable {σ τ : Server} {i : ℕ}

/-- A user that has read everything has no packet. -/
lemma idle_of_unread (h : σ.unread i = []) : σ.Idle i := fun _ => by
  rw [h]
  exact Framing.not_beginsFrame_nil (Nat.succ_pos 4)

/-- `DequePacketData` brings no packet. -/
lemma idle_dequePacketData (hσ : σ.BuffersInBounds) (h : σ.Idle i) :
    σ.dequePacketData.2.Idle i := by
  cases hq : σ.mInComingPacketUserIndex with
  | nil => rwa [dequePacketData_nil hq]
  | cons j rest =>
      obtain ⟨-, hqueue, hunread⟩ := dequePacketData_cons hσ hq
      intro hmem
      rw [hqueue] at hmem
      have hnone : ¬RecvBuffer.packetFraming.BeginsFrame (σ.unread i) :=
        h (hq ▸ List.mem_cons_of_mem j hmem)
      rw [hunread]
      by_cases hij : i = j
      · subst hij
        rwa [Function.update_self, if_neg hnone]
      · rwa [Function.update_of_ne hij]

/-- A dispatch brings no packet. -/
lemma idle_dispatch {env : Env} {taken : Option RecvPacket × Server}
    (h : dispatch env taken = .ok τ) (hidle : taken.2.Idle i) : τ.Idle i := by
  obtain ⟨tasks, hpushes, -⟩ := dispatch_pushes h
  have hqueue : τ.mInComingPacketUserIndex = taken.2.mInComingPacketUserIndex := by
    rcases dispatch_cases h with ⟨-, rfl⟩ | ⟨handler, q, -, hrun⟩
    · rfl
    · exact Handler.run_mInComingPacketUserIndex hrun
  rcases hpushes.unread i with hunread | hunread
  · rwa [Idle, hqueue, hunread]
  · exact idle_of_unread hunread

/-- The user whose packet is taken had one. -/
lemma not_idle_of_clientPacket {p : RecvPacket} (h : σ.clientPacket.1 = some p) :
    ¬σ.Idle p.clientIndex := by
  rw [clientPacket, dequePacketData] at h
  cases hq : σ.mInComingPacketUserIndex with
  | nil => simp [hq] at h
  | cons j rest =>
      intro hidle
      have hj : p.clientIndex = j := by
        simp only [hq] at h
        split at h
        · exact congrArg RecvPacket.clientIndex (Option.some.inj h).symm
        · cases h
      rw [hj] at hidle
      have hnone := RecvBuffer.getPacket_of_not_beginsFrame (hidle (hq ▸ List.mem_cons_self))
      simp [hq, hnone] at h

/-- The end of a connection leaves no byte unread of a user that is logged in or in a room. -/
lemma unread_processUserDisConnect (env : Env)
    (hstate : (σ.mUserObjPool i).mCurDomainState ≠ .none) :
    (PacketManager.processUserDisConnect env i σ).unread i = [] := by
  have hleft : ((if (σ.mUserObjPool i).mCurDomainState = .room then
      (RoomManager.leaveUser env σ (σ.mUserObjPool i).mRoomIndex i).2
        else σ).mUserObjPool i).mCurDomainState ≠ .none := by
    split
    · rw [RoomManager.leaveUser]
      split
      · exact hstate
      · simp [Room.leaveUser, Room.sendToAllUser, Actor.setDomainState]
    · exact hstate
  rw [PacketManager.processUserDisConnect, PacketManager.clearConnectionInfo, if_pos hleft, unread,
    UserManager.deleteUserInfo, modUser_mUserObjPool, Function.update_self]
  exact RecvBuffer.unread_clear _

end Server

namespace World

/-- Without a receive a user gets no packet. -/
lemma idle_step {w w' : World} {e : Event} {i : ℕ} (hw : w.server.BuffersInBounds)
    (h : w.step e = some w') (he : ∀ pData, e ≠ .receive i pData) (hidle : w.server.Idle i) :
    w'.server.Idle i := by
  cases e with
  | receive j pData =>
      have hij : i ≠ j := fun heq => he pData (heq ▸ rfl)
      obtain ⟨σ, hσ, rfl⟩ := Option.map_eq_some_iff.mp h
      obtain ⟨-, hqueue, hunread⟩ := Server.receivePacketData_spec hw hσ
      intro hmem
      rw [hqueue, List.mem_append, List.mem_singleton] at hmem
      rw [hunread, Function.update_of_ne hij]
      exact hidle (hmem.resolve_right hij)
  | clientPacket env =>
      exact Server.idle_dispatch (exists_dispatch h) (Server.idle_dequePacketData hw hidle)
  | systemPacket env =>
      refine Server.idle_dispatch (exists_dispatch h) ?_
      simp only [Server.systemPacket, Server.dequeSystemPacketData]
      split <;> exact hidle
  | response env =>
      refine Server.idle_dispatch (exists_dispatch h) ?_
      simp only [Server.responsePacket, Server.takeResponseTask]
      split <;> exact hidle
  | redisTask env =>
      obtain ⟨out, -, rfl⟩ := exists_taskProcess h
      simp only [commit, Server.takeRequestTask]
      split <;> exact hidle
  | connect j => exact Option.some.inj h ▸ hidle
  | close j => exact Option.some.inj h ▸ hidle
  | tick env => exact Option.some.inj h ▸ hidle
  | subscribe env message => exact Option.some.inj h ▸ hidle

/-- The server with its history and its boundaries. -/
abbrev Bounded := Traced × Boundaries

namespace Bounded

variable (s : Bounded)

/-- A step of the server, of its history and of its boundaries. -/
def step : Bounded → Event → Option Bounded :=
  Runs.withHistory Traced.step fun s e _ => s.2.next s.1.2 e

/-- The start of the server. -/
def init (maxClient : ℕ) (memory : ℕ → Memory.View) (store : Store) : Bounded :=
  (Traced.init maxClient memory store, {})

/-- **The runs of the server with its boundaries are the runs of the server.** -/
theorem run_bounded (es : List Event) :
    (Runs.run step s es).map (fun s => s.1.1) = Runs.run World.step s.1.1 es := by
  rw [← Traced.run_traced s.1 es, ← Runs.run_withHistory Traced.step _ s es, Option.map_map]
  rfl

/-- The connections in which the bytes came of the packet that is dispatched: its header, and as
many bytes as the header says. -/
def senders (p : RecvPacket) : List Connection :=
  ((s.1.2.arrivals p.clientIndex).take (max packetHeaderLength p.packetSize)).map fun number =>
    ⟨p.clientIndex, number⟩

/-- A packet of a client is handled after the `SYS_USER_CONNECT` and before the
`SYS_USER_DISCONNECT` of the connection in which it came, and the processing of a
`SYS_USER_CONNECT` discards no byte that came in its connection. -/
def KeepsBoundaries : Event → Prop
  | .clientPacket env => ∀ handler p, s.1.1.call (.clientPacket env) = some (handler, p) →
      ∀ c ∈ s.senders p, .opened c ∈ s.2.handled ∧ .closed c ∉ s.2.handled
  | .systemPacket env => ∀ c rest, s.2.system = .opened c :: rest →
      ∀ s', step s (.systemPacket env) = some s' →
        (s'.1.2.arrivals c.slot).count c.number = (s.1.2.arrivals c.slot).count c.number
  | _ => True

/-- Bytes come in a connection whose `SYS_USER_CONNECT` has been taken and whose
`SYS_USER_DISCONNECT` has not; and when the `SYS_USER_DISCONNECT` of a user is taken that is neither
logged in nor in a room, no packet of it waits to be taken. -/
def Calm : Event → Prop
  | .receive i _ => .opened ⟨i, s.1.2.sessions i⟩ ∈ s.2.handled ∧
      .closed ⟨i, s.1.2.sessions i⟩ ∉ s.2.handled
  | .systemPacket _ => ∀ x ∈ s.2.system.head?, x = .closed x.connection →
      (s.1.1.server.mUserObjPool x.connection.slot).mCurDomainState = .none →
        s.1.1.server.Idle x.connection.slot
  | _ => True

/-- Every unread byte came in a connection whose `SYS_USER_CONNECT` has been taken; and if its
`SYS_USER_DISCONNECT` has been taken too, the byte is of no packet that waits to be taken, and no
later `SYS_USER_CONNECT` of the slot has been taken. -/
def Current : Prop :=
  ∀ i, ∀ n ∈ s.1.2.arrivals i, .opened ⟨i, n⟩ ∈ s.2.handled ∧
    (.closed ⟨i, n⟩ ∈ s.2.handled →
      s.1.1.server.Idle i ∧ ∀ m, .opened ⟨i, m⟩ ∈ s.2.handled → m ≤ n)

/-- **The invariant**: the notices are those of the packets in the queue; every connection of a slot
has been announced once, and its end once if it has ended; every byte came in one of them. -/
structure InOrder (s : Bounded) : Prop where
  queue : s.1.1.server.mSystemPacketQueue = s.2.system.map Notice.packet
  opened : ∀ c : Connection, .opened c ∈ s.2.pushed ↔
    c.number ≠ 0 ∧ c.number ≤ s.1.2.sessions c.slot
  closed : ∀ c : Connection, c.number ≠ 0 → (.closed c ∈ s.2.pushed ↔ c ∈ s.2.ended)
  once : ∀ x : Notice, x.connection.number ≠ 0 → s.2.pushed.count x ≤ 1
  connected : ∀ i, s.1.2.connected i = true →
    s.1.2.sessions i ≠ 0 ∧ ⟨i, s.1.2.sessions i⟩ ∉ s.2.ended
  ended : ∀ c ∈ s.2.ended, c.number ≤ s.1.2.sessions c.slot
  arrivals : ∀ i, ∀ n ∈ s.1.2.arrivals i, n ≤ s.1.2.sessions i
  sorted : s.2.pushed.Pairwise Notice.MayPrecede

/-! ### The step -/

section Step

variable {s : Bounded} {s' : Bounded} {e : Event} {w w' : World}

/-- What an event does to the queue of system packets. -/
lemma mSystemPacketQueue_step (h : w.step e = some w') :
    w'.server.mSystemPacketQueue =
      match e with
      | .connect i => w.server.mSystemPacketQueue ++ [onConnect i]
      | .close i => w.server.mSystemPacketQueue ++ [onClose i]
      | .systemPacket _ => w.server.mSystemPacketQueue.drop 1
      | _ => w.server.mSystemPacketQueue := by
  cases e with
  | receive i pData =>
      obtain ⟨recv, -, rfl⟩ := World.exists_receive h
      rfl
  | clientPacket env =>
      obtain ⟨tasks, hpushes, -⟩ := Server.dispatch_pushes (exists_dispatch h)
      exact hpushes.mSystemPacketQueue.trans w.server.queues_dequePacketData.2.2
  | systemPacket env =>
      obtain ⟨tasks, hpushes, -⟩ := Server.dispatch_pushes (exists_dispatch h)
      refine hpushes.mSystemPacketQueue.trans ?_
      simp only [Server.systemPacket, Server.dequeSystemPacketData]
      cases hq : w.server.mSystemPacketQueue <;> simp [hq]
  | response env =>
      obtain ⟨tasks, hpushes, -⟩ := Server.dispatch_pushes (exists_dispatch h)
      exact hpushes.mSystemPacketQueue.trans w.server.queues_takeResponseTask.2.2.1
  | redisTask env =>
      obtain ⟨out, -, rfl⟩ := exists_taskProcess h
      exact w.server.queues_takeRequestTask.2.2.1
  | connect i => exact Option.some.inj h ▸ rfl
  | close i => exact Option.some.inj h ▸ rfl
  | tick env => exact Option.some.inj h ▸ rfl
  | subscribe env message => exact Option.some.inj h ▸ rfl

/-- A slot has no fewer connections after an event. -/
lemma sessions_le_next (t : Traced) (e : Event) (w' : World) (i : ℕ) :
    t.2.sessions i ≤ (t.next e w').sessions i := by
  cases e with
  | connect j =>
      by_cases hij : i = j
      · subst hij
        simp [Traced.next]
      · simp [Traced.next, hij]
  | _ => exact le_rfl

/-- The bytes of a user came in connections of its slot. -/
lemma arrivals_le_next {t : Traced} (h : ∀ i, ∀ n ∈ t.2.arrivals i, n ≤ t.2.sessions i) (i : ℕ) :
    ∀ n ∈ (t.next e w').arrivals i, n ≤ (t.next e w').sessions i := by
  intro n hn
  refine le_trans ?_ (sessions_le_next t e w' i)
  have hmem := List.mem_of_mem_drop hn
  cases e with
  | receive j pData =>
      simp only at hmem
      split at hmem
      · rename_i hij
        rcases List.mem_append.mp hmem with hmem | hmem
        · exact h i n hmem
        · exact (List.eq_of_mem_replicate hmem).le
      · exact h i n hmem
  | _ => exact h i n hmem

/-- An event that announces no connection and ends none. -/
lemma InOrder.next_of_quiet (hs : s.InOrder) (t : Traced) (b : Boundaries)
    (hqueue : t.1.server.mSystemPacketQueue = b.system.map Notice.packet)
    (hpushed : b.pushed = s.2.pushed) (hended : b.ended = s.2.ended)
    (hsessions : t.2.sessions = s.1.2.sessions) (hconnected : t.2.connected = s.1.2.connected)
    (harrivals : ∀ i, ∀ n ∈ t.2.arrivals i, n ≤ t.2.sessions i) : InOrder (t, b) where
  queue := hqueue
  opened := by simpa only [hpushed, hsessions] using hs.opened
  closed := by simpa only [hpushed, hended] using hs.closed
  once := by simpa only [hpushed] using hs.once
  connected := by simpa only [hended, hsessions, hconnected] using hs.connected
  ended := by simpa only [hended, hsessions] using hs.ended
  arrivals := harrivals
  sorted := hpushed ▸ hs.sorted

/-- The notices of a slot are about connections that it has had. -/
lemma InOrder.number_le (hs : s.InOrder) {x : Notice} (hx : x ∈ s.2.pushed) :
    x.connection.number ≤ s.1.2.sessions x.connection.slot := by
  by_cases hzero : x.connection.number = 0
  · rw [hzero]
    exact Nat.zero_le _
  · cases x with
    | opened c => exact ((hs.opened c).mp hx).2
    | closed c => exact hs.ended c ((hs.closed c hzero).mp hx)

/-- A notice about the newest connection of a slot may be pushed last. -/
lemma InOrder.sorted_append (hs : s.InOrder) {y : Notice}
    (hy : y.connection.number ≠ 0 → s.1.2.sessions y.connection.slot ≤ y.connection.number) :
    (s.2.pushed ++ [y]).Pairwise Notice.MayPrecede := by
  refine List.pairwise_append.mpr ⟨hs.sorted, List.pairwise_singleton _ _, fun x hx z hz => ?_⟩
  rw [List.mem_singleton.mp hz]
  intro hslot hnumber
  have hle := hs.number_le hx
  rw [hslot] at hle
  exact hle.trans (hy hnumber)

lemma pushed_append (b : Boundaries) (x : Notice) (ended : List Connection) :
    Boundaries.pushed { b with system := b.system ++ [x], ended := ended } = b.pushed ++ [x] :=
  (List.append_assoc ..).symm

/-- A notice that is pushed for the first time. -/
lemma count_append_le_one {l : List Notice} {x y : Notice} (hy : y.connection.number ≠ 0 → y ∉ l)
    (h : ∀ x : Notice, x.connection.number ≠ 0 → l.count x ≤ 1) (hx : x.connection.number ≠ 0) :
    (l ++ [y]).count x ≤ 1 := by
  rw [List.count_append, List.count_singleton]
  split
  · rename_i heq
    obtain rfl := eq_of_beq heq
    rw [List.count_eq_zero_of_not_mem (hy hx)]
  · exact h x hx

lemma inOrder_connect (hs : s.InOrder) {i : ℕ} (h : World.step s.1.1 (.connect i) = some w') :
    InOrder ((w', s.1.next (.connect i) w'), s.2.next s.1.2 (.connect i)) := by
  have hnew : Notice.opened ⟨i, s.1.2.sessions i + 1⟩ ∉ s.2.pushed := fun hmem =>
    absurd ((hs.opened _).mp hmem).2 (Nat.not_succ_le_self _)
  have hpushed : (s.2.next s.1.2 (.connect i)).pushed =
      s.2.pushed ++ [.opened ⟨i, s.1.2.sessions i + 1⟩] := pushed_append _ _ _
  refine ⟨?_, fun c => ?_, fun c hc => ?_, fun x hx => ?_, fun j hj => ?_, fun c hc => ?_,
    arrivals_le_next hs.arrivals, hpushed ▸ hs.sorted_append fun _ => Nat.le_succ _⟩
  · rw [mSystemPacketQueue_step h]
    simp only [Boundaries.next, List.map_append, hs.queue]
    rfl
  · rw [hpushed, List.mem_append, hs.opened, List.mem_singleton, Notice.opened.injEq]
    show _ ↔ c.number ≠ 0 ∧
      c.number ≤ Function.update s.1.2.sessions i (s.1.2.sessions i + 1) c.slot
    obtain ⟨j, n⟩ := c
    by_cases hj : j = i
    · subst hj
      simp only [Function.update_self, Connection.mk.injEq, true_and]
      omega
    · simp [hj]
  · rw [hpushed, List.mem_append, hs.closed c hc, List.mem_singleton]
    simp [Boundaries.next]
  · rw [hpushed]
    exact count_append_le_one (fun _ => hnew) hs.once hx
  · show Function.update s.1.2.sessions i (s.1.2.sessions i + 1) j ≠ 0 ∧
      ⟨j, Function.update s.1.2.sessions i (s.1.2.sessions i + 1) j⟩ ∉ s.2.ended
    by_cases hji : j = i
    · subst hji
      rw [Function.update_self]
      exact ⟨Nat.succ_ne_zero _, fun hmem => Nat.not_succ_le_self _ (hs.ended _ hmem)⟩
    · rw [Function.update_of_ne hji]
      refine hs.connected j ?_
      simpa [Traced.next, hji] using hj
  · exact (hs.ended c hc).trans (sessions_le_next s.1 (.connect i) w' c.slot)

/-- The connection of the slot ends. -/
lemma inOrder_close_connected (hs : s.InOrder) {i : ℕ} (hconnected : s.1.2.connected i = true)
    (h : World.step s.1.1 (.close i) = some w') :
    InOrder ((w', s.1.next (.close i) w'), s.2.next s.1.2 (.close i)) := by
  have hqueue := mSystemPacketQueue_step h
  rw [Boundaries.next, if_pos hconnected]
  obtain ⟨hne, hopen⟩ := hs.connected i hconnected
  have hnew : Notice.closed ⟨i, s.1.2.sessions i⟩ ∉ s.2.pushed := fun hmem =>
    hopen ((hs.closed _ hne).mp hmem)
  refine ⟨?_, fun c => ?_, fun c hc => ?_, fun x hx => ?_, fun j hj => ?_, fun c hc => ?_,
    arrivals_le_next hs.arrivals, pushed_append _ _ _ ▸ hs.sorted_append fun _ => le_rfl⟩
  · rw [hqueue]
    simp only [List.map_append, hs.queue]
    rfl
  · rw [pushed_append, List.mem_append, hs.opened, List.mem_singleton]
    simp [Traced.next]
  · rw [pushed_append, List.mem_append, hs.closed c hc, List.mem_singleton, Notice.closed.injEq,
      List.mem_append, List.mem_singleton]
  · rw [pushed_append]
    exact count_append_le_one (fun _ => hnew) hs.once hx
  · have hji : j ≠ i := by
      rintro rfl
      simp [Traced.next] at hj
    have hj' : s.1.2.connected j = true := by simpa [Traced.next, hji] using hj
    refine ⟨(hs.connected j hj').1, fun hmem => ?_⟩
    rcases List.mem_append.mp hmem with hmem | hmem
    · exact (hs.connected j hj').2 hmem
    · exact hji (congrArg Connection.slot (List.mem_singleton.mp hmem))
  · rcases List.mem_append.mp hc with hc | hc
    · exact hs.ended c hc
    · rw [List.mem_singleton.mp hc]
      exact le_rfl

/-- No connection of the slot ends: there is none. -/
lemma inOrder_close_again (hs : s.InOrder) {i : ℕ} (hconnected : ¬s.1.2.connected i = true)
    (h : World.step s.1.1 (.close i) = some w') :
    InOrder ((w', s.1.next (.close i) w'), s.2.next s.1.2 (.close i)) := by
  have hqueue := mSystemPacketQueue_step h
  rw [Boundaries.next, if_neg hconnected]
  refine ⟨?_, fun c => ?_, fun c hc => ?_, fun x hx => ?_, fun j hj => ?_, hs.ended,
    arrivals_le_next hs.arrivals,
    pushed_append _ _ _ ▸ hs.sorted_append fun hzero => absurd rfl hzero⟩
  · rw [hqueue]
    simp only [List.map_append, hs.queue]
    rfl
  · rw [pushed_append, List.mem_append, hs.opened, List.mem_singleton]
    simp [Traced.next]
  · rw [pushed_append, List.mem_append, hs.closed c hc, List.mem_singleton, Notice.closed.injEq]
    exact or_iff_left fun heq => hc (congrArg Connection.number heq)
  · rw [pushed_append]
    exact count_append_le_one (fun hzero => absurd rfl hzero) hs.once hx
  · refine hs.connected j ?_
    by_cases hji : j = i
    · subst hji
      simp [Traced.next] at hj
    · simpa [Traced.next, hji] using hj

/-- **One step** keeps the invariant. -/
theorem inOrder_step (hs : s.InOrder) (h : s.step e = some s') : s'.InOrder := by
  obtain ⟨t, ht, rfl⟩ := Option.map_eq_some_iff.mp h
  obtain ⟨w', hw', rfl⟩ := Option.map_eq_some_iff.mp ht
  have hqueue := mSystemPacketQueue_step hw'
  have harrivals : ∀ i, ∀ n ∈ (s.1.next e w').arrivals i, n ≤ (s.1.next e w').sessions i :=
    arrivals_le_next hs.arrivals
  cases e with
  | connect i => exact inOrder_connect hs hw'
  | close i =>
      by_cases hconnected : s.1.2.connected i = true
      · exact inOrder_close_connected hs hconnected hw'
      · exact inOrder_close_again hs hconnected hw'
  | systemPacket env =>
      refine hs.next_of_quiet _ _ ?_ (s.2.pushed_next_systemPacket s.1.2 env) rfl rfl rfl harrivals
      rw [hqueue, hs.queue]
      exact List.map_drop.symm
  | _ => exact hs.next_of_quiet _ _ (hqueue.trans hs.queue) rfl rfl rfl rfl harrivals

lemma inOrder_init (maxClient : ℕ) (memory : ℕ → Memory.View) (store : Store) :
    (init maxClient memory store).InOrder where
  queue := rfl
  opened c := by
    simp only [init, Boundaries.pushed, Traced.init, List.append_nil, List.not_mem_nil, false_iff]
    omega
  closed c _ := by simp [init, Boundaries.pushed]
  once x _ := by simp [init, Boundaries.pushed]
  connected i hi := by cases hi
  ended c hc := by cases hc
  arrivals i n hn := by cases hn
  sorted := .nil

/-- The processing of a `SYS_USER_CONNECT` leaves no byte of its user unread. -/
lemma InOrder.exists_step_opened (hs : s.InOrder) (env : Env) {c : Connection} {rest : List Notice}
    (hsystem : s.2.system = .opened c :: rest) :
    ∃ s', s.step (.systemPacket env) = some s' ∧ s'.1.2.arrivals c.slot = [] := by
  have hqueue := hs.queue
  rw [hsystem, List.map_cons] at hqueue
  have hstep : World.step s.1.1 (.systemPacket env) = some { s.1.1 with
      server := { s.1.1.server with mSystemPacketQueue := rest.map Notice.packet }.modUser c.slot
        User.clear } := by
    rw [World.step, Server.systemPacket, Server.dequeSystemPacketData, hqueue]
    rfl
  refine ⟨_, by rw [step, Runs.withHistory, Traced.step, Runs.withHistory, hstep]; rfl, ?_⟩
  show List.rtake _ (List.length (RecvBuffer.unread _)) = []
  rw [Server.modUser_mUserObjPool, Function.update_self]
  exact (congrArg (List.rtake _) (congrArg List.length (RecvBuffer.unread_clear _))).trans
    (List.rtake_zero _)

/-- A calm `SYS_USER_DISCONNECT` leaves no packet to be taken, and the `SYS_USER_CONNECT`s of its
slot that were taken are those of earlier connections. -/
lemma InOrder.idle_closed (hs : s.InOrder) (hbounds : s.1.1.server.BuffersInBounds) {env : Env}
    (hcalm : s.Calm (.systemPacket env)) {c : Connection} {rest : List Notice}
    (hsystem : s.2.system = .closed c :: rest)
    (h : World.step s.1.1 (.systemPacket env) = some w') :
    w'.server.Idle c.slot ∧
      (c.number ≠ 0 → ∀ m, .opened ⟨c.slot, m⟩ ∈ s.2.handled → m ≤ c.number) := by
  constructor
  · by_cases hstate : (s.1.1.server.mUserObjPool c.slot).mCurDomainState = .none
    · exact idle_step hbounds h (by simp) (hcalm (.closed c) (by rw [hsystem]; rfl) rfl hstate)
    · have hqueue := hs.queue
      rw [hsystem, List.map_cons] at hqueue
      have hstep : World.step s.1.1 (.systemPacket env) = some { s.1.1 with
          server := PacketManager.processUserDisConnect env c.slot
            { s.1.1.server with mSystemPacketQueue := rest.map Notice.packet } } := by
        rw [World.step, Server.systemPacket, Server.dequeSystemPacketData, hqueue]
        rfl
      obtain rfl := Option.some.inj (h.symm.trans hstep)
      exact Server.idle_of_unread (Server.unread_processUserDisConnect env hstate)
  · intro hnumber m hm
    have hsorted := hs.sorted
    rw [Boundaries.pushed, hsystem, List.pairwise_append] at hsorted
    exact hsorted.2.2 _ hm _ List.mem_cons_self rfl hnumber

/-- What a user has read does not come back. -/
lemma arrivals_subset (h : s.step e = some s') {i : ℕ} (he : ∀ pData, e ≠ .receive i pData) :
    ∀ n ∈ s'.1.2.arrivals i, n ∈ s.1.2.arrivals i := by
  obtain ⟨t, ht, rfl⟩ := Option.map_eq_some_iff.mp h
  obtain ⟨w', -, rfl⟩ := Option.map_eq_some_iff.mp ht
  intro n hn
  have hmem := List.mem_of_mem_drop hn
  cases e with
  | receive j pData =>
      have hij : i ≠ j := fun heq => he pData (heq ▸ rfl)
      simpa only [if_neg hij] using hmem
  | _ => exact hmem

/-- Bytes that come in are of a connection that is open for the process thread. -/
lemma current_receive (hs : s.InOrder) (hcurrent : s.Current) {i : ℕ} {pData : Chunk}
    (hcalm : s.Calm (.receive i pData)) (h : s.step (.receive i pData) = some s') :
    ∀ n ∈ s'.1.2.arrivals i, .opened ⟨i, n⟩ ∈ s'.2.handled ∧ .closed ⟨i, n⟩ ∉ s'.2.handled := by
  obtain ⟨t, ht, rfl⟩ := Option.map_eq_some_iff.mp h
  obtain ⟨w', -, rfl⟩ := Option.map_eq_some_iff.mp ht
  obtain ⟨hopen, hnotClosed⟩ := hcalm
  intro n hn
  have hmem := List.mem_of_mem_drop hn
  simp only [if_true] at hmem
  rcases List.mem_append.mp hmem with hmem | hmem
  · obtain ⟨hopened, hclosed⟩ := hcurrent i n hmem
    refine ⟨hopened, fun hmem' => hnotClosed ?_⟩
    -- else the connection would be the newest of the slot
    have heq : n = s.1.2.sessions i :=
      Nat.le_antisymm (hs.arrivals i n hmem) ((hclosed hmem').2 _ hopen)
    exact heq ▸ hmem'
  · obtain rfl := List.eq_of_mem_replicate hmem
    exact ⟨hopen, hnotClosed⟩

/-- What a system packet leaves unread. -/
lemma current_systemPacket (hs : s.InOrder) (hbounds : s.1.1.server.BuffersInBounds)
    (hcurrent : s.Current) {env : Env} (hcalm : s.Calm (.systemPacket env))
    (h : s.step (.systemPacket env) = some s') : s'.Current := by
  intro i n hn
  obtain ⟨hopened, hclosed⟩ := hcurrent i n (arrivals_subset h (by simp) n hn)
  obtain ⟨t, ht, heq⟩ := Option.map_eq_some_iff.mp h
  obtain ⟨w', hw', rfl⟩ := Option.map_eq_some_iff.mp ht
  have hidle : s.1.1.server.Idle i → w'.server.Idle i := idle_step hbounds hw' (by simp)
  cases hsystem : s.2.system with
  | nil =>
      have hhandled : s'.2.handled = s.2.handled := by
        rw [← heq]
        simp [Boundaries.next, hsystem]
      rw [hhandled, ← heq]
      exact ⟨hopened, fun hmem => ⟨hidle (hclosed hmem).1, (hclosed hmem).2⟩⟩
  | cons x rest =>
      have hhandled : s'.2.handled = s.2.handled ++ [x] := by
        rw [← heq]
        simp [Boundaries.next, hsystem]
      rw [hhandled]
      refine ⟨List.mem_append_left _ hopened, fun hmem => ?_⟩
      cases x with
      | opened c =>
          -- the handler discards the bytes of its own slot
          have hslot : c.slot ≠ i := by
            rintro rfl
            obtain ⟨s'', hs'', hnil⟩ := hs.exists_step_opened env hsystem
            obtain rfl := Option.some.inj (h.symm.trans hs'')
            rw [hnil] at hn
            cases hn
          have hmem' : Notice.closed ⟨i, n⟩ ∈ s.2.handled := by simpa using hmem
          refine ⟨heq ▸ hidle (hclosed hmem').1, fun m hm => (hclosed hmem').2 m ?_⟩
          rcases List.mem_append.mp hm with hm | hm
          · exact hm
          · simp only [List.mem_singleton, Notice.opened.injEq] at hm
            exact absurd (congrArg Connection.slot hm).symm hslot
      | closed c =>
          have hlater : ∀ m, .opened ⟨i, m⟩ ∈ s.2.handled ++ [Notice.closed c] →
              .opened ⟨i, m⟩ ∈ s.2.handled := fun m hm => by simpa using hm
          rcases List.mem_append.mp hmem with hmem | hmem
          · exact ⟨heq ▸ hidle (hclosed hmem).1, fun m hm => (hclosed hmem).2 m (hlater m hm)⟩
          · obtain rfl := Notice.closed.inj (List.mem_singleton.mp hmem)
            have hnumber := ((hs.opened ⟨i, n⟩).mp (List.mem_append_left _ hopened)).1
            obtain ⟨hidle', hle⟩ := hs.idle_closed hbounds hcalm hsystem hw'
            exact ⟨heq ▸ hidle', fun m hm => hle hnumber m (hlater m hm)⟩

/-- **One step** of a calm run. -/
lemma current_step (hs : s.InOrder) (hbounds : s.1.1.server.BuffersInBounds)
    (hcurrent : s.Current) (hcalm : s.Calm e) (h : s.step e = some s') : s'.Current := by
  by_cases hsystem : ∃ env, e = .systemPacket env
  · obtain ⟨env, rfl⟩ := hsystem
    exact current_systemPacket hs hbounds hcurrent hcalm h
  · intro i n hn
    by_cases hreceive : ∃ pData, e = .receive i pData
    · obtain ⟨pData, rfl⟩ := hreceive
      obtain ⟨hopened, hclosed⟩ := current_receive hs hcurrent hcalm h n hn
      exact ⟨hopened, fun hmem => absurd hmem hclosed⟩
    · have he : ∀ pData, e ≠ .receive i pData := fun pData heq => hreceive ⟨pData, heq⟩
      obtain ⟨hopened, hclosed⟩ := hcurrent i n (arrivals_subset h he n hn)
      obtain ⟨t, ht, rfl⟩ := Option.map_eq_some_iff.mp h
      obtain ⟨w', hw', rfl⟩ := Option.map_eq_some_iff.mp ht
      have hhandled : (s.2.next s.1.2 e).handled = s.2.handled := by
        cases e with
        | systemPacket env => exact absurd ⟨env, rfl⟩ hsystem
        | close j =>
            rw [Boundaries.next]
            split <;> rfl
        | _ => rfl
      simp only [hhandled]
      exact ⟨hopened, fun hmem => ⟨idle_step hbounds hw' he (hclosed hmem).1, (hclosed hmem).2⟩⟩

/-- Where the bytes are of such connections, the boundaries are kept. -/
lemma keepsBoundaries_of_current (hs : s.InOrder) (hcurrent : s.Current) (e : Event) :
    s.KeepsBoundaries e := by
  cases e with
  | clientPacket env =>
      intro handler p hcall c hc
      obtain ⟨n, hn, rfl⟩ := List.mem_map.mp hc
      obtain ⟨hopened, hclosed⟩ := hcurrent _ n (List.mem_of_mem_take hn)
      exact ⟨hopened, fun hmem =>
        Server.not_idle_of_clientPacket (call_eq_some_iff.mp hcall).1 (hclosed hmem).1⟩
  | systemPacket env =>
      intro c rest hsystem s'' hs''
      have hnone : c.number ∉ s.1.2.arrivals c.slot := fun hn => by
        -- the notice waits, so it has not been taken
        have hpushed : Notice.opened c ∈ s.2.pushed :=
          List.mem_append_right _ (hsystem ▸ List.mem_cons_self)
        have hhandled := (hcurrent c.slot c.number hn).1
        have hwaits := (Boundaries.mem_handled_iff
          (hs.once (.opened c) ((hs.opened c).mp hpushed).1) hpushed).mp hhandled
        exact hwaits (hsystem ▸ List.mem_cons_self)
      have hafter : c.number ∉ s''.1.2.arrivals c.slot := fun hn =>
        hnone (arrivals_subset hs'' (by simp) _ hn)
      rw [List.count_eq_zero.mpr hnone, List.count_eq_zero.mpr hafter]
  | _ => trivial

end Step

instance (e : Event) : Decidable (s.Calm e) :=
  match e with
  | .receive _ _ => inferInstanceAs (Decidable (_ ∧ _))
  | .systemPacket _ => inferInstanceAs (Decidable (∀ x, x ∈ s.2.system.head? →
      x = .closed x.connection → _ → s.1.1.server.Idle x.connection.slot))
  | .connect _ | .close _ | .clientPacket _ | .response _ | .tick _ | .redisTask _
  | .subscribe _ _ => .isTrue trivial

/-- **The boundaries of sessions.** In every run from the start of the server in which the bytes of a
connection come in between the taking of its `SYS_USER_CONNECT` and that of its
`SYS_USER_DISCONNECT`, and no packet is left of a client whose buffer the latter leaves as it is,
the packets of a connection are handled between the two, and no `SYS_USER_CONNECT` discards bytes of
its connection. -/
theorem keepsBoundaries_of_calm (maxClient : ℕ) (memory : ℕ → Memory.View) (store : Store)
    {es : List Event} (h : Runs.Along step Calm (init maxClient memory store) es) :
    Runs.Along step KeepsBoundaries (init maxClient memory store) es := by
  refine Runs.along_of_along
    (P := fun s => s.InOrder ∧ s.1.1.server.BuffersInBounds ∧ s.Current)
    (fun s e hs _ => keepsBoundaries_of_current hs.1 hs.2.2 e) (fun s e s' hs hcalm hstep => ?_)
    ⟨inOrder_init maxClient memory store, fun _ => ⟨le_rfl, Nat.zero_le _⟩,
      fun _ _ hn => by cases hn⟩ h
  obtain ⟨hinOrder, hbounds, hcurrent⟩ := hs
  refine ⟨inOrder_step hinOrder hstep, ?_, current_step hinOrder hbounds hcurrent hcalm hstep⟩
  obtain ⟨t, ht, rfl⟩ := Option.map_eq_some_iff.mp hstep
  obtain ⟨w', hw', rfl⟩ := Option.map_eq_some_iff.mp ht
  exact (step_unread hbounds hw').1

/-- A client connects, waits until it is known, sends a packet, and leaves when it is handled; the
next client of the slot does the same. -/
def patientClients : List Event :=
  let client := [.connect 0, .systemPacket {}, .receive 0 (chunk roomLeaveRequestPacket),
    .clientPacket {}, .close 0, .systemPacket {}]
  client ++ client

/-- Two clients on one slot, one after the other. -/
theorem keepsBoundaries_patient :
    Runs.Along step Calm (init 3 (fun _ _ => 0) fun _ => none) patientClients ∧
      Runs.Along step KeepsBoundaries (init 3 (fun _ _ => 0) fun _ => none) patientClients := by
  have hcalm : Runs.Along step Calm (init 3 (fun _ _ => 0) fun _ => none) patientClients := by
    decide +kernel
  exact ⟨hcalm, keepsBoundaries_of_calm 3 (fun _ _ => 0) (fun _ => none) hcalm⟩

/-! ### Two runs -/

/-- A client connects, and its first packet is there before its `SYS_USER_CONNECT` is taken. -/
def quickClient : List Event := [.connect 0, .receive 0 (chunk roomLeaveRequestPacket)]

/-- Taken first, the packet is handled too early; taken second, it is lost. -/
theorem early_packets :
    ¬Runs.Along step KeepsBoundaries (init 3 (fun _ _ => 0) fun _ => none)
        (quickClient ++ [.clientPacket {}]) ∧
      ¬Runs.Along step KeepsBoundaries (init 3 (fun _ _ => 0) fun _ => none)
        (quickClient ++ [.systemPacket {}]) := by
  have hrun : (Runs.run step (init 3 (fun _ _ => 0) fun _ => none) quickClient).map (fun s =>
      ((s.1.1.call (.clientPacket {})).map fun c => (c.1, s.senders c.2), s.2.system,
        s.2.handled, s.1.2.arrivals 0)) =
      some (some (.processLeaveRoom, List.replicate 5 ⟨0, 1⟩), [.opened ⟨0, 1⟩], [],
        List.replicate 5 1) := by decide +kernel
  obtain ⟨s, hs, hstate⟩ := Option.map_eq_some_iff.mp hrun
  simp only [Prod.mk.injEq] at hstate
  obtain ⟨hcall, hsystem, hhandled, harrivals⟩ := hstate
  obtain ⟨⟨handler, p⟩, hcall, heq⟩ := Option.map_eq_some_iff.mp hcall
  constructor
  · intro h
    have hsender : (⟨0, 1⟩ : Connection) ∈ s.senders p := by
      rw [(Prod.mk.inj heq).2]
      exact List.mem_cons_self
    have hkeeps := ((h.of_run hs) handler p hcall _ hsender).1
    rw [hhandled] at hkeeps
    cases hkeeps
  · intro h
    have hinOrder := (Runs.always_of_step (fun _ _ _ hs h => inOrder_step hs h) quickClient
      (inOrder_init 3 (fun _ _ => 0) fun _ => none)).of_run hs
    obtain ⟨s', hs', hnil⟩ := hinOrder.exists_step_opened {} hsystem
    have hkept := (h.of_run hs) _ _ hsystem s' hs'
    rw [hnil, harrivals] at hkept
    exact absurd hkept (by decide)

end Bounded

end World

end CKGameServer
