import Mathlib.Data.List.DropRight
import Mathlib.Data.List.Forall2
import CKGameServer.Buffer.Backlog
import CKGameServer.Session.Tasks

/-!
The connections behind slots, bytes and tasks (`AccepterThread`, `CloseSocket`, `PushTask`).

A packet and a task carry the index of a slot and no more, and slots are used again. A history
beside the state of the server remembers in which connection a byte came and which connection
sent a login request, and hands it on to the tasks the request leads to.

* `Connection`, `History`: the connections of the slots, the connection every unread byte came
  in, and the connection every task in a queue goes back to.
* `World.Traced.step`: the server with its history; `run_traced`: its runs are those of the
  server.
* `arrivals_always`: every unread byte has its connection.
-/

namespace CKGameServer

/-- A connection: the slot, and which of the connections of the slot it is. -/
structure Connection where
  slot : ℕ
  number : ℕ
  deriving DecidableEq

/-- What the server itself does not keep. -/
structure History where
  /-- How many connections a slot has had. -/
  sessions : ℕ → ℕ := fun _ => 0
  /-- A slot is connected, from `OnConnect` to `OnClose`. -/
  connected : ℕ → Bool := fun _ => false
  /-- For each unread byte of a user the number of the connection it came in. -/
  arrivals : ℕ → List ℕ := fun _ => []
  /-- For each task in `mRequestTask` the connection whose login it belongs to. -/
  requests : List (Option Connection) := []
  /-- The same for `mResponseTask`. -/
  responses : List (Option Connection) := []

namespace History

/-- The connection is open. -/
def IsOpen (h : History) (c : Connection) : Prop :=
  h.connected c.slot = true ∧ h.sessions c.slot = c.number

instance (h : History) (c : Connection) : Decidable (h.IsOpen c) :=
  inferInstanceAs (Decidable (_ ∧ _))

/-- No login of the slot is under way. -/
def NoLogin (h : History) (i : ℕ) : Prop :=
  ∀ c, some c ∈ h.requests ++ h.responses → c.slot ≠ i

instance (h : History) (i : ℕ) : Decidable (h.NoLogin i) :=
  decidable_of_iff (∀ o ∈ h.requests ++ h.responses, ∀ c ∈ o, c.slot ≠ i)
    ⟨fun hall c hc => hall _ hc c rfl, fun hall _ ho c hc => hall c (hc ▸ ho)⟩

end History

/-- The tasks an event takes from `mRequestTask`. -/
def Event.requestsTaken : Event → ℕ
  | .redisTask _ => 1
  | _ => 0

/-- The tasks an event takes from `mResponseTask`. -/
def Event.responsesTaken : Event → ℕ
  | .response _ => 1
  | _ => 0

/-- Two lists that are related stay so if the first members go and related ones are appended. -/
lemma forall₂_taken_append {α β : Type*} {R R' : α → β → Prop} {as : List α} {bs : List β}
    {new : List α} {f : α → β} (k : ℕ) (h : List.Forall₂ R as bs)
    (hmono : ∀ a, ∀ b ∈ bs, R a b → R' a b) (hnew : ∀ a ∈ new, R' a (f a)) :
    List.Forall₂ R' (as.drop k ++ new) (bs.drop k ++ new.map f) := by
  have hkept : List.Forall₂ R' as bs := by
    induction h with
    | nil => exact .nil
    | cons hab _ ih =>
        exact .cons (hmono _ _ List.mem_cons_self hab)
          (ih fun a b hb => hmono a b (List.mem_cons_of_mem _ hb))
  have happended : List.Forall₂ R' new (new.map f) := by
    rw [List.forall₂_map_right_iff, List.forall₂_same]
    exact hnew
  exact List.rel_append (List.forall₂_drop k hkept) happended

namespace World

/-- The server with its history. -/
abbrev Traced := World × History

namespace Traced

variable (s : Traced)

/-- The connection that has an event of a thread carried out: the one in which the first byte of
a packet came, or the one a task goes back to. -/
def caller : Event → Option Connection
  | .clientPacket _ => s.1.server.clientPacket.1.bind fun p =>
      (s.2.arrivals p.clientIndex).head?.map fun number => ⟨p.clientIndex, number⟩
  | .response _ => s.2.responses.head?.join
  | .redisTask _ => s.2.requests.head?.join
  | _ => none

/-- The connection a new request task goes back to. Of the requests of clients only logins are
followed. -/
def origin (e : Event) (task : RedisTask) : Option Connection :=
  match e with
  | .clientPacket _ => if task.taskID = .requestLogin then s.caller e else none
  | _ => s.caller e

/-- The connections in which the bytes came that a user has not read when an event has happened.
A user reads from the front. -/
def arrivalsAfter (e : Event) (w' : World) (i : ℕ) : List ℕ :=
  let arrivals := match e with
    | .receive j pData =>
      if i = j then s.2.arrivals i ++ List.replicate pData.val.length (s.2.sessions i)
      else s.2.arrivals i
    | _ => s.2.arrivals i
  arrivals.rtake (w'.server.unread i).length

/-- The history after an event. -/
def next (e : Event) (w' : World) : History where
  sessions := match e with
    | .connect i => Function.update s.2.sessions i (s.2.sessions i + 1)
    | _ => s.2.sessions
  connected := match e with
    | .connect i => Function.update s.2.connected i true
    | .close i => Function.update s.2.connected i false
    | _ => s.2.connected
  arrivals := s.arrivalsAfter e w'
  requests := s.2.requests.drop e.requestsTaken ++
    (w'.server.mRequestTask.drop (s.1.server.mRequestTask.drop e.requestsTaken).length).map
      (s.origin e)
  responses := s.2.responses.drop e.responsesTaken ++
    (w'.server.mResponseTask.drop (s.1.server.mResponseTask.drop e.responsesTaken).length).map
      fun _ => s.caller e

/-- A step of the server and of its history. -/
def step : Traced → Event → Option Traced := Runs.withHistory World.step next

/-- The start of the server: no slot is connected. -/
def init (maxClient : ℕ) (memory : ℕ → Memory.View) (store : Store) : Traced :=
  (World.init maxClient memory store, {})

/-- **The runs of the server with its history are the runs of the server.** -/
theorem run_traced (es : List Event) :
    (Runs.run step s es).map Prod.fst = Runs.run World.step s.1 es :=
  Runs.run_withHistory World.step next s es

/-! ### Arrivals -/

end Traced

end World

namespace Server

variable {σ τ : Server} {tasks : List RedisTask}

/-- A user's unread bytes are not touched while tasks are pushed, or they are dropped. -/
lemma Pushes.unread (h : σ.Pushes τ tasks) (i : ℕ) : τ.unread i = σ.unread i ∨ τ.unread i = [] := by
  rcases h.recv i with heq | heq
  · exact .inl (congrArg RecvBuffer.unread heq)
  · exact .inr ((congrArg RecvBuffer.unread heq).trans (RecvBuffer.unread_clear _))

lemma Pushes.buffersInBounds (h : σ.Pushes τ tasks) (hσ : σ.BuffersInBounds) :
    τ.BuffersInBounds := fun i => by
  rcases h.recv i with heq | heq
  · rw [heq]
    exact hσ i
  · rw [heq]
    exact RecvBuffer.cursorsInBounds_clear _

/-- The dequeue of a packet does not add to the unread bytes of a user. -/
lemma length_unread_dequePacketData (hσ : σ.BuffersInBounds) (i : ℕ) :
    σ.dequePacketData.2.BuffersInBounds ∧
      (σ.dequePacketData.2.unread i).length ≤ (σ.unread i).length := by
  cases hq : σ.mInComingPacketUserIndex with
  | nil =>
      rw [dequePacketData_nil hq]
      exact ⟨hσ, le_rfl⟩
  | cons j rest =>
      obtain ⟨hbounds, -, hunread⟩ := dequePacketData_cons hσ hq
      refine ⟨hbounds, ?_⟩
      rw [hunread]
      by_cases hij : i = j
      · subst hij
        rw [Function.update_self]
        split
        · rw [List.length_drop]
          exact Nat.sub_le _ _
        · exact le_rfl
      · rw [Function.update_of_ne hij]

end Server

namespace World

/-- The bytes an event adds to what a user has not read. -/
def received (i : ℕ) : Event → ℕ
  | .receive j pData => if i = j then pData.val.length else 0
  | _ => 0

section Unread

variable {w w' : World} {e : Event}

/-- A dispatch adds no unread bytes to those of the state it starts from. -/
lemma unread_of_dispatch {env : Env} {taken : Option RecvPacket × Server}
    (h : Server.dispatch env taken = .ok w'.server) (hbounds : taken.2.BuffersInBounds)
    (hle : ∀ i, (taken.2.unread i).length ≤ (w.server.unread i).length) :
    w'.server.BuffersInBounds ∧
      ∀ i, (w'.server.unread i).length ≤ (w.server.unread i).length := by
  obtain ⟨tasks, hpushes, -⟩ := Server.dispatch_pushes h
  refine ⟨hpushes.buffersInBounds hbounds, fun i => ?_⟩
  rcases hpushes.unread i with heq | heq
  · rw [heq]
    exact hle i
  · rw [heq]
    exact Nat.zero_le _

/-- With the users as they are, so are their unread bytes. -/
lemma unread_of_pool (hw : w.server.BuffersInBounds) {σ : Server}
    (hpool : σ.mUserObjPool = w.server.mUserObjPool) :
    σ.BuffersInBounds ∧ ∀ i, (σ.unread i).length ≤ (w.server.unread i).length := by
  refine ⟨fun i => ?_, fun i => ?_⟩
  · rw [hpool]
    exact hw i
  · rw [Server.unread, Server.unread, hpool]

/-- A step adds no unread bytes but those it receives. -/
theorem step_unread (hw : w.server.BuffersInBounds) (h : w.step e = some w') :
    w'.server.BuffersInBounds ∧
      ∀ i, (w'.server.unread i).length ≤ (w.server.unread i).length + received i e := by
  cases e with
  | receive j pData =>
      obtain ⟨σ, hσ, rfl⟩ := Option.map_eq_some_iff.mp h
      obtain ⟨hbounds, -, hunread⟩ := Server.receivePacketData_spec hw hσ
      refine ⟨hbounds, fun i => ?_⟩
      rw [hunread, received]
      by_cases hij : i = j
      · subst hij
        rw [Function.update_self, if_pos rfl, List.length_append]
      · rw [Function.update_of_ne hij, if_neg hij]
        exact le_rfl
  | connect j =>
      obtain rfl := Option.some.inj h
      exact unread_of_pool hw rfl
  | close j =>
      obtain rfl := Option.some.inj h
      exact unread_of_pool hw rfl
  | clientPacket env =>
      have hdeque := fun i => Server.length_unread_dequePacketData hw i
      exact unread_of_dispatch (exists_dispatch h) (hdeque 0).1 fun i => (hdeque i).2
  | systemPacket env =>
      have htaken := unread_of_pool hw w.server.queues_systemPacket.2.2.1
      exact unread_of_dispatch (exists_dispatch h) htaken.1 htaken.2
  | response env =>
      have htaken := unread_of_pool hw w.server.queues_takeResponseTask.2.2.2.1
      exact unread_of_dispatch (exists_dispatch h) htaken.1 htaken.2
  | tick env =>
      obtain rfl := Option.some.inj h
      exact unread_of_pool hw rfl
  | redisTask env =>
      obtain ⟨out, -, rfl⟩ := exists_taskProcess h
      exact unread_of_pool hw w.server.queues_takeRequestTask.2.2.2
  | subscribe env message =>
      obtain rfl := Option.some.inj h
      exact unread_of_pool hw rfl

end Unread

namespace Traced

/-- **Every unread byte has its connection**, in every state of every run. -/
theorem arrivals_always (maxClient : ℕ) (memory : ℕ → Memory.View) (store : Store)
    (es : List Event) :
    Runs.Always step (fun s => s.1.server.BuffersInBounds ∧
        ∀ i, (s.2.arrivals i).length = (s.1.server.unread i).length)
      (init maxClient memory store) es := by
  refine Runs.always_of_step (fun s e s' hs h => ?_) es ⟨fun _ => ⟨le_rfl, Nat.zero_le _⟩,
    fun _ => rfl⟩
  obtain ⟨w', hw', rfl⟩ := Option.map_eq_some_iff.mp h
  obtain ⟨hbounds, hle⟩ := step_unread hs.1 hw'
  refine ⟨hbounds, fun i => ?_⟩
  have hbefore : (s.arrivalsAfter e w' i).length =
      min (w'.server.unread i).length ((s.1.server.unread i).length + received i e) := by
    rw [← hs.2 i]
    cases e with
    | receive j pData =>
        rw [arrivalsAfter, received, List.rtake, List.length_drop]
        by_cases hij : i = j
        · rw [if_pos hij, if_pos hij, List.length_append, List.length_replicate]
          omega
        · rw [if_neg hij, if_neg hij]
          omega
    | _ =>
        simp only [arrivalsAfter, received, List.rtake, List.length_drop]
        omega
  exact hbefore.trans (Nat.min_eq_left (hle i))

end Traced

end World

end CKGameServer
