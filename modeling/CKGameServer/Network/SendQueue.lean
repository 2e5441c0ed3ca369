import CKGameServer.Library.Runs
import CKGameServer.Model.ClientInfo

/-!
The send queue of a slot across failures and sessions (`SendMsg`, `SendCompleted`, `SendIO`,
`Close`, `OnConnect`, `WokerThread`).

The queue goes on only by successful completions. A `WSASend` that fails, a completion that fails
and a `Close` leave it as it is, and so does `OnConnect`.

* `SendHistory`: the session of the slot, and for each message of the queue the session it was
  pushed in.
* `Slot.Traced.Draining`: the front of the queue of a connected slot is under way on its socket,
  alone, and was pushed in this session.
* `Slot.Traced.FrontPending`: in every state at most one send is under way, and it is that of the
  front.
* `Slot.Traced.draining_iff`: over a run the queue drains exactly if an accept finds the queue
  empty and every `WSASend` of a connected slot is taken.
* `Slot.Traced.stranded_message`: a message left over from one session blocks the next.
-/

namespace CKGameServer

open Memory

/-- What the slot itself does not keep. -/
structure SendHistory where
  /-- How many connections the slot has had. -/
  session : ℕ := 0
  /-- For each message of the queue the session it was pushed in, if there was one. -/
  pushedIn : List (Option ℕ) := []

/-- The messages of the queue after an event, or what is remembered of them: `SendMsg` adds one at
the end, a successful completion takes the first. -/
def NetEvent.queueAfter {α : Type} (e : NetEvent) (x : α) (queue : List α) : List α :=
  match e with
  | .sendMsg _ _ => queue ++ [x]
  | .sendCompletion _ bSuccess dwIoSize _ _ =>
    if bSuccess = false ∨ dwIoSize = 0 then queue else queue.tail
  | _ => queue

lemma NetEvent.length_queueAfter {α β : Type} (e : NetEvent) {x : α} {y : β} {l : List α}
    {m : List β} (h : l.length = m.length) :
    (e.queueAfter x l).length = (e.queueAfter y m).length := by
  cases e with
  | sendMsg pMsg wsaSend => simp [queueAfter, h]
  | sendCompletion k bSuccess dwIoSize wsaSend curTimeSec =>
      rw [queueAfter, queueAfter]
      split
      · exact h
      · rw [List.length_tail, List.length_tail, h]
  | _ => exact h

lemma NetEvent.mem_queueAfter {α : Type} {e : NetEvent} {x y : α} {l : List α}
    (h : y ∈ e.queueAfter x l) : y = x ∨ y ∈ l := by
  cases e with
  | sendMsg pMsg wsaSend =>
      exact (List.mem_append.mp h).elim .inr fun hy => .inl (List.mem_singleton.mp hy)
  | sendCompletion k bSuccess dwIoSize wsaSend curTimeSec =>
      rw [queueAfter] at h
      split at h
      · exact .inr h
      · exact .inr (List.mem_of_mem_tail h)
  | _ => exact .inr h

namespace Slot

/-- A slot with its history. -/
abbrev Traced := Slot × SendHistory

namespace Traced

/-- The history after an event. -/
def next (s : Traced) (e : NetEvent) (_ : Slot) : SendHistory where
  session := match e with
    | .acceptCompletion _ _ => s.2.session + 1
    | _ => s.2.session
  pushedIn := e.queueAfter (if s.1.mIsConnect then some s.2.session else none) s.2.pushedIn

/-- A step of the slot and of its history. -/
def step : Traced → NetEvent → Option Traced := Runs.withHistory Slot.step next

/-- A slot before its first connection. -/
def init : Traced := ({}, {})

/-- **The queue drains**: while the slot is connected and its queue is not empty, exactly one
`WSASend` is under way on its socket, that of the front, which was pushed in this session. -/
def Draining (s : Traced) : Prop :=
  s.1.mIsConnect = true → ∀ front rest, s.1.mSendDataqueue = front :: rest →
    (∃ socket, s.1.mSocket = some socket ∧
      (s.1.pendingSends.filter fun p => p.socket = socket) = [⟨socket, front⟩]) ∧
    s.2.pushedIn.head? = some (some s.2.session)

/-- An accept finds the queue empty, and every `WSASend` of a connected slot is taken. -/
def Taken (s : Traced) : NetEvent → Prop
  | .sendMsg _ wsaSend => s.1.mIsConnect = true → s.1.mSendDataqueue = [] → wsaSend = true
  | .sendCompletion k bSuccess dwIoSize wsaSend _ =>
    k < s.1.pendingSends.length → bSuccess = true → dwIoSize ≠ 0 → s.1.mIsConnect = true →
      s.1.mSendDataqueue.tail ≠ [] → wsaSend = true
  | .acceptCompletion wsaRecv _ =>
    s.1.pendingAccept = true → s.1.mSocket.isSome → wsaRecv = true → s.1.mSendDataqueue = []
  | _ => True

/-- At most one send is under way, and it is that of the front of the queue. -/
def FrontPending (s : Slot) : Prop :=
  s.pendingSends = [] ∨ ∃ socket front rest,
    s.pendingSends = [⟨socket, front⟩] ∧ s.mSendDataqueue = front :: rest

/-! ### One send at most -/

variable {s s' : Slot}

lemma FrontPending.nil (h : FrontPending s) (hqueue : s.mSendDataqueue = []) :
    s.pendingSends = [] := by
  rcases h with hnone | ⟨socket, front, rest, -, hfront⟩
  · exact hnone
  · cases hqueue.symm.trans hfront

/-- A `WSASend` of the front where none is under way. -/
lemma frontPending_sendIo (h : s.pendingSends = []) (wsaSend : Bool) :
    FrontPending (s.sendIo wsaSend) := by
  rw [sendIo]
  split
  · rename_i front rest socket hqueue hsocket
    split
    · refine .inr ⟨socket, front, rest, ?_, hqueue⟩
      rw [h, List.nil_append]
    · exact .inl h
  · exact .inl h

lemma FrontPending.sendMsg (h : FrontPending s) (pMsg : Bytes) (wsaSend : Bool) :
    FrontPending (s.sendMsg pMsg wsaSend) := by
  rw [Slot.sendMsg]
  split
  · rename_i hone
    have hempty : s.mSendDataqueue = [] := by
      rw [push, List.length_append, List.length_singleton] at hone
      exact List.eq_nil_of_length_eq_zero (by omega)
    exact frontPending_sendIo (s := s.push pMsg) (h.nil hempty) wsaSend
  · rcases h with hnone | ⟨socket, front, rest, hpending, hqueue⟩
    · exact .inl hnone
    · exact .inr ⟨socket, front, rest ++ [_], hpending, by rw [push, hqueue, List.cons_append]⟩

/-- Closing leaves the queue and the sends as they are. -/
lemma FrontPending.closeSocket (h : FrontPending s) (curTimeSec : ℕ) :
    FrontPending (s.closeSocket curTimeSec) := by
  rw [Slot.closeSocket]
  split
  · exact h
  · exact h

/-- The send that is completed is the only one. -/
lemma FrontPending.eraseIdx (h : FrontPending s) {k : ℕ} (hk : k < s.pendingSends.length) :
    s.pendingSends.eraseIdx k = [] ∧ s.mSendDataqueue ≠ [] := by
  rcases h with hnone | ⟨socket, front, rest, hpending, hqueue⟩
  · rw [hnone] at hk
    exact absurd hk (Nat.not_lt_zero k)
  · rw [hpending, List.length_singleton, Nat.lt_one_iff] at hk
    rw [hpending, hk, hqueue]
    exact ⟨rfl, List.cons_ne_nil _ _⟩

/-! ### What a step can do -/

/-- A completion of a send: the slot is closed, or the front goes and the next is sent. -/
lemma sendCompletion_cases (h : FrontPending s) {k dwIoSize curTimeSec : ℕ}
    {bSuccess wsaSend : Bool}
    (hstep : s.step (.sendCompletion k bSuccess dwIoSize wsaSend curTimeSec) = some s') :
    k < s.pendingSends.length ∧
      ((bSuccess = false ∨ dwIoSize = 0) ∧
          s' = { s with pendingSends := [] }.closeSocket curTimeSec ∨
        ¬(bSuccess = false ∨ dwIoSize = 0) ∧
          s' = if s.mSendDataqueue.tail = [] then { s with pendingSends := [] }.pop
            else ({ s with pendingSends := [] }.pop).sendIo wsaSend) := by
  rw [Slot.step] at hstep
  split at hstep
  · rename_i hk
    obtain ⟨hnone, hqueue⟩ := h.eraseIdx hk
    rw [hnone, Slot.sendCompletion] at hstep
    refine ⟨hk, ?_⟩
    split at hstep
    · rename_i hfailed
      exact .inl ⟨hfailed, (Option.some.inj hstep).symm⟩
    · rename_i hdone
      refine .inr ⟨hdone, ?_⟩
      rw [sendCompleted, if_neg hqueue] at hstep
      split at hstep
      · rename_i hlast
        have hlast' : s.mSendDataqueue.tail = [] := hlast
        rw [if_pos hlast']
        exact (Option.some.inj hstep).symm
      · rename_i hmore
        have hmore' : s.mSendDataqueue.tail ≠ [] := hmore
        rw [if_neg hmore']
        exact (Option.some.inj hstep).symm
  · cases hstep

/-- A completion of an accept: the slot is connected, or closed again. -/
lemma acceptCompletion_cases {wsaRecv : Bool} {curTimeSec : ℕ}
    (hstep : s.step (.acceptCompletion wsaRecv curTimeSec) = some s') :
    s.pendingAccept = true ∧
      ((wsaRecv = true ∧ s.mSocket.isSome) ∧
          s' = { s with pendingAccept := false, mIsConnect := true } ∨
        ¬(wsaRecv = true ∧ s.mSocket.isSome) ∧
          s' = ({ s with pendingAccept := false, mIsConnect := true } : Slot).closeSocket
            curTimeSec) := by
  have hbound : ({ s with pendingAccept := false }.onConnect wsaRecv).1 = true ↔
      wsaRecv = true ∧ s.mSocket.isSome := by
    rw [onConnect, Bool.and_eq_true]
  rw [Slot.step] at hstep
  split at hstep
  · rename_i hpending
    refine ⟨hpending, ?_⟩
    rw [← Option.some.inj hstep, Slot.acceptCompletion, ← hbound]
    split
    · rename_i hconnected
      exact .inl ⟨hconnected, rfl⟩
    · rename_i hfailed
      exact .inr ⟨hfailed, rfl⟩
  · cases hstep

/-- The accepter thread leaves the slot, or makes a socket for one that is not connected. -/
lemma accepterThread_cases {wsaSocket acceptEx : Bool} {curTimeSec : ℕ}
    (hstep : s.step (.accepterThread wsaSocket acceptEx curTimeSec) = some s') :
    s' = s ∨ s'.mIsConnect = false ∧ s'.mSendDataqueue = s.mSendDataqueue ∧
      s'.pendingSends = s.pendingSends := by
  obtain rfl := Option.some.inj hstep
  split
  · rename_i hmay
    rw [postAccept]
    split <;> exact .inr ⟨hmay.1, rfl, rfl⟩
  · exact .inl rfl

/-- **At most one send is under way** after every step, that of the front. -/
theorem FrontPending.step (h : FrontPending s) {e : NetEvent} (hstep : s.step e = some s') :
    FrontPending s' := by
  cases e with
  | sendMsg pMsg wsaSend => exact Option.some.inj hstep ▸ h.sendMsg pMsg wsaSend
  | recvFailed curTimeSec => exact Option.some.inj hstep ▸ h.closeSocket curTimeSec
  | accepterThread wsaSocket acceptEx curTimeSec =>
      rcases accepterThread_cases hstep with rfl | ⟨-, hqueue, hpending⟩
      · exact h
      · rwa [FrontPending, hqueue, hpending]
  | acceptCompletion wsaRecv curTimeSec =>
      have hconnected : FrontPending { s with pendingAccept := false, mIsConnect := true } := h
      obtain ⟨-, ⟨-, rfl⟩ | ⟨-, rfl⟩⟩ := acceptCompletion_cases hstep
      · exact hconnected
      · exact hconnected.closeSocket curTimeSec
  | sendCompletion k bSuccess dwIoSize wsaSend curTimeSec =>
      obtain ⟨-, ⟨-, rfl⟩ | ⟨-, rfl⟩⟩ := sendCompletion_cases h hstep
      · exact FrontPending.closeSocket (.inl rfl) curTimeSec
      · split
        · exact .inl rfl
        · exact frontPending_sendIo rfl wsaSend

/-! ### The sessions of the messages -/

/-- What every step keeps: at most one send is under way, and every message has its session,
which is this one or a past one. -/
structure Sound (s : Traced) : Prop where
  pending : FrontPending s.1
  aligned : s.2.pushedIn.length = s.1.mSendDataqueue.length
  past : ∀ n, some n ∈ s.2.pushedIn → n ≤ s.2.session
  socket : s.1.mIsConnect = true → s.1.mSocket.isSome

/-- The queue after a step. -/
lemma queue_step (h : FrontPending s) {e : NetEvent} (hstep : s.step e = some s') :
    ∃ x, s'.mSendDataqueue = e.queueAfter x s.mSendDataqueue := by
  cases e with
  | sendMsg pMsg wsaSend =>
      obtain rfl := Option.some.inj hstep
      exact ⟨_, congrArg ClientInfo.mSendDataqueue (sendMsg_toClientInfo s pMsg wsaSend)⟩
  | sendCompletion k bSuccess dwIoSize wsaSend curTimeSec =>
      obtain ⟨-, ⟨hfailed, rfl⟩ | ⟨hdone, rfl⟩⟩ := sendCompletion_cases h hstep
      · refine ⟨⟨0, []⟩, ?_⟩
        rw [closeSocket_mSendDataqueue, NetEvent.queueAfter, if_pos hfailed]
      · refine ⟨⟨0, []⟩, ?_⟩
        rw [NetEvent.queueAfter, if_neg hdone]
        split
        · rfl
        · rw [sendIo_toClientInfo]
          rfl
  | recvFailed curTimeSec =>
      obtain rfl := Option.some.inj hstep
      exact ⟨⟨0, []⟩, closeSocket_mSendDataqueue s curTimeSec⟩
  | accepterThread wsaSocket acceptEx curTimeSec =>
      rcases accepterThread_cases hstep with rfl | ⟨-, hqueue, -⟩
      · exact ⟨⟨0, []⟩, rfl⟩
      · exact ⟨⟨0, []⟩, hqueue⟩
  | acceptCompletion wsaRecv curTimeSec =>
      obtain ⟨-, ⟨-, rfl⟩ | ⟨-, rfl⟩⟩ := acceptCompletion_cases hstep
      · exact ⟨⟨0, []⟩, rfl⟩
      · exact ⟨⟨0, []⟩, closeSocket_mSendDataqueue _ curTimeSec⟩

/-- The sessions of a slot are counted up. -/
lemma session_le_next (s : Traced) (e : NetEvent) (t : Slot) :
    s.2.session ≤ (s.next e t).session := by
  cases e with
  | acceptCompletion wsaRecv curTimeSec => exact Nat.le_succ _
  | _ => exact le_rfl

/-- A slot that is connected after a step was connected before with the same socket, or an
accept has been completed. -/
lemma connected_step (h : FrontPending s) {e : NetEvent} (hstep : s.step e = some s')
    (hconnect : s'.mIsConnect = true) :
    s'.mSocket = s.mSocket ∧ (s.mIsConnect = true ∧
        (∀ recv cur, e ≠ .acceptCompletion recv cur) ∨
      ∃ curTimeSec, e = .acceptCompletion true curTimeSec ∧ s.pendingAccept = true ∧
        s.mSocket.isSome) := by
  cases e with
  | sendMsg pMsg wsaSend =>
      obtain rfl := Option.some.inj hstep
      rw [sendMsg_toClientInfo] at hconnect ⊢
      exact ⟨rfl, .inl ⟨hconnect, by simp⟩⟩
  | sendCompletion k bSuccess dwIoSize wsaSend curTimeSec =>
      obtain ⟨-, ⟨-, rfl⟩ | ⟨-, rfl⟩⟩ := sendCompletion_cases h hstep
      · rw [closeSocket_mIsConnect] at hconnect
        cases hconnect
      · have hsame : (if s.mSendDataqueue.tail = [] then { s with pendingSends := [] }.pop
            else ({ s with pendingSends := [] }.pop).sendIo wsaSend).toClientInfo =
            { s.toClientInfo with mSendDataqueue := s.mSendDataqueue.tail } := by
          split
          · rfl
          · rw [sendIo_toClientInfo]
            rfl
        rw [hsame] at hconnect ⊢
        exact ⟨rfl, .inl ⟨hconnect, by simp⟩⟩
  | recvFailed curTimeSec =>
      obtain rfl := Option.some.inj hstep
      rw [closeSocket_mIsConnect] at hconnect
      cases hconnect
  | accepterThread wsaSocket acceptEx curTimeSec =>
      rcases accepterThread_cases hstep with rfl | ⟨hclosed, -, -⟩
      · exact ⟨rfl, .inl ⟨hconnect, by simp⟩⟩
      · cases hclosed.symm.trans hconnect
  | acceptCompletion wsaRecv curTimeSec =>
      obtain ⟨hpending, ⟨⟨rfl, hsocket⟩, rfl⟩ | ⟨-, rfl⟩⟩ := acceptCompletion_cases hstep
      · exact ⟨rfl, .inr ⟨curTimeSec, rfl, hpending, hsocket⟩⟩
      · rw [closeSocket_mIsConnect] at hconnect
        cases hconnect

/-- Every step keeps it. -/
theorem Sound.step {s : Traced} {t : Slot} {e : NetEvent} (hs : s.Sound)
    (hstep : s.1.step e = some t) : Sound (t, s.next e t) where
  pending := hs.pending.step hstep
  aligned := by
    obtain ⟨x, hx⟩ := queue_step hs.pending hstep
    rw [hx]
    exact e.length_queueAfter hs.aligned
  past n hn := by
    refine le_trans ?_ (session_le_next s e t)
    rcases NetEvent.mem_queueAfter hn with htag | hold
    · split at htag
      · rw [Option.some.inj htag]
      · cases htag
    · exact hs.past n hold
  socket hconnect := by
    obtain ⟨hsame, ⟨hconnected, -⟩ | ⟨-, -, -, hsocket⟩⟩ :=
      connected_step hs.pending hstep hconnect
    · exact hsame ▸ hs.socket hconnected
    · exact hsame ▸ hsocket

/-! ### Which steps keep the queue draining -/

/-- Every message of a connected slot was pushed in this session. -/
def OfSession (s : Traced) : Prop :=
  s.1.mIsConnect = true → ∀ t ∈ s.2.pushedIn, t = some s.2.session

variable {s : Traced} {t : Slot}

lemma draining_of_closed (h : s.1.mIsConnect = false) : s.Draining := fun hconnect => by
  cases h.symm.trans hconnect

lemma draining_of_nil (h : s.1.mSendDataqueue = []) : s.Draining := fun _ front rest hqueue => by
  cases h.symm.trans hqueue

/-- A `WSASend` of the front of a connected slot that has none under way. -/
lemma draining_sendIo_iff {front : OverlappedEx} {rest : List OverlappedEx}
    (hnone : s.1.pendingSends = []) (hconnect : s.1.mIsConnect = true)
    (hsocket : s.1.mSocket.isSome) (hqueue : s.1.mSendDataqueue = front :: rest)
    (hsession : s.2.pushedIn.head? = some (some s.2.session)) (wsaSend : Bool) :
    Draining (s.1.sendIo wsaSend, s.2) ↔ wsaSend = true := by
  obtain ⟨socket, hsocket⟩ := Option.isSome_iff_exists.mp hsocket
  rw [sendIo_of_cons s.1 hqueue hsocket]
  cases wsaSend with
  | true =>
      refine iff_of_true (fun _ front' rest' hqueue' => ?_) rfl
      obtain ⟨rfl, -⟩ := List.cons.inj (hqueue.symm.trans hqueue')
      refine ⟨⟨socket, hsocket, ?_⟩, hsession⟩
      simp [hnone]
  | false =>
      refine iff_of_false (fun hdraining => ?_) Bool.false_ne_true
      obtain ⟨⟨socket', -, hpending⟩, -⟩ := hdraining hconnect front rest hqueue
      simp [hnone] at hpending

lemma draining_sendMsg_iff (hs : s.Sound) (hdraining : s.Draining) (pMsg : Bytes) (wsaSend : Bool) :
    Draining (s.1.sendMsg pMsg wsaSend, s.next (.sendMsg pMsg wsaSend) t) ↔
      s.Taken (.sendMsg pMsg wsaSend) := by
  by_cases hconnect : s.1.mIsConnect = true
  · cases hqueue : s.1.mSendDataqueue with
    | nil =>
        have htags : s.2.pushedIn = [] :=
          List.eq_nil_of_length_eq_zero (by rw [hs.aligned, hqueue, List.length_nil])
        have hsent := draining_sendIo_iff (s := (s.1.push pMsg, s.next (.sendMsg pMsg wsaSend) t))
          (hs.pending.nil hqueue) hconnect (hs.socket hconnect)
          (by rw [push_mSendDataqueue, hqueue, List.nil_append])
          (by simp [next, NetEvent.queueAfter, htags, hconnect]) wsaSend
        rw [sendMsg_of_nil s.1 hqueue, hsent]
        exact ⟨fun h _ _ => h, fun h => h hconnect hqueue⟩
    | cons front rest =>
        have hne : s.1.mSendDataqueue ≠ [] := by simp [hqueue]
        obtain ⟨hpending, hsession⟩ := hdraining hconnect front rest hqueue
        rw [sendMsg_of_ne_nil s.1 hne]
        refine iff_of_true (fun _ front' rest' hqueue' => ?_) fun _ hnil => absurd hnil hne
        rw [push_mSendDataqueue, hqueue, List.cons_append] at hqueue'
        obtain ⟨rfl, -⟩ := List.cons.inj hqueue'
        refine ⟨hpending, ?_⟩
        simp only [next, NetEvent.queueAfter, List.head?_append, hsession, Option.some_or]
  · refine iff_of_true (draining_of_closed ?_) fun h => absurd h hconnect
    rw [sendMsg_toClientInfo]
    exact Bool.eq_false_of_not_eq_true hconnect

lemma draining_sendCompletion_iff (hs : s.Sound) (hsession : s.OfSession)
    {k dwIoSize curTimeSec : ℕ} {bSuccess wsaSend : Bool}
    (hstep : s.1.step (.sendCompletion k bSuccess dwIoSize wsaSend curTimeSec) = some t) :
    Draining (t, s.next (.sendCompletion k bSuccess dwIoSize wsaSend curTimeSec) t) ↔
      s.Taken (.sendCompletion k bSuccess dwIoSize wsaSend curTimeSec) := by
  obtain ⟨hk, ⟨hfailed, rfl⟩ | ⟨hdone, rfl⟩⟩ := sendCompletion_cases hs.pending hstep
  · refine iff_of_true (draining_of_closed (closeSocket_mIsConnect _ _)) fun _ hok hsize => ?_
    rcases hfailed with hfailed | hfailed
    · cases hfailed.symm.trans hok
    · exact absurd hfailed hsize
  · rw [not_or, Bool.not_eq_false] at hdone
    have htaken : s.Taken (.sendCompletion k bSuccess dwIoSize wsaSend curTimeSec) ↔
        (s.1.mIsConnect = true → s.1.mSendDataqueue.tail ≠ [] → wsaSend = true) :=
      ⟨fun h => h hk hdone.1 hdone.2, fun h _ _ _ => h⟩
    rw [htaken]
    split
    · rename_i hlast
      exact iff_of_true (draining_of_nil hlast) fun _ hmore => absurd hlast hmore
    · rename_i hmore
      by_cases hconnect : s.1.mIsConnect = true
      · obtain ⟨front, rest, hqueue⟩ := List.exists_cons_of_ne_nil hmore
        have htags : s.2.pushedIn.tail.head? = some (some s.2.session) := by
          have hlength : s.2.pushedIn.tail.length = (front :: rest).length := by
            rw [List.length_tail, hs.aligned, ← hqueue, List.length_tail]
          obtain ⟨tag, tags, htail⟩ := List.exists_cons_of_length_eq_add_one hlength
          have htag := hsession hconnect tag
            (List.mem_of_mem_tail (htail ▸ List.mem_cons_self))
          rw [htail, htag, List.head?_cons]
        have hsent := draining_sendIo_iff
          (s := (({ s.1 with pendingSends := [] } : Slot).pop,
            s.next (.sendCompletion k bSuccess dwIoSize wsaSend curTimeSec) s.1))
          rfl hconnect (hs.socket hconnect) hqueue
          (by simpa [next, NetEvent.queueAfter, hdone.1, hdone.2] using htags) wsaSend
        exact hsent.trans ⟨fun h _ _ => h, fun h => h hconnect hmore⟩
      · refine iff_of_true (draining_of_closed ?_) fun h => absurd h hconnect
        rw [sendIo_toClientInfo]
        exact Bool.eq_false_of_not_eq_true hconnect

/-- An accept begins a session, which none of the messages was pushed in. -/
lemma draining_acceptCompletion_iff (hs : s.Sound) {wsaRecv : Bool} {curTimeSec : ℕ}
    (hstep : s.1.step (.acceptCompletion wsaRecv curTimeSec) = some t) :
    Draining (t, s.next (.acceptCompletion wsaRecv curTimeSec) t) ↔
      s.Taken (.acceptCompletion wsaRecv curTimeSec) := by
  obtain ⟨hpending, ⟨⟨hrecv, hsocket⟩, rfl⟩ | ⟨hfailed, rfl⟩⟩ :=
    acceptCompletion_cases hstep
  · constructor
    · intro hdraining _ _ _
      by_contra hqueue
      obtain ⟨front, rest, hqueue⟩ := List.exists_cons_of_ne_nil hqueue
      have htag := (hdraining rfl front rest hqueue).2
      exact absurd (hs.past _ (List.mem_of_head? htag)) (Nat.not_succ_le_self _)
    · intro htaken
      exact draining_of_nil (htaken hpending hsocket hrecv)
  · refine iff_of_true (draining_of_closed (closeSocket_mIsConnect _ _)) ?_
    intro _ hsocket hrecv
    exact absurd ⟨hrecv, hsocket⟩ hfailed

/-- **One step**: the queue drains after it exactly if the system takes what it is given. -/
theorem draining_step_iff (hs : s.Sound) (hsession : s.OfSession) (hdraining : s.Draining)
    (e : NetEvent) : (∀ s', s.step e = some s' → s'.Draining) ↔ s.Taken e := by
  rw [step, Runs.forall_withHistory]
  cases e with
  | sendMsg pMsg wsaSend =>
      rw [← draining_sendMsg_iff (t := s.1) hs hdraining pMsg wsaSend]
      exact ⟨fun h => h _ rfl, fun h t hstep => Option.some.inj hstep ▸ h⟩
  | sendCompletion k bSuccess dwIoSize wsaSend curTimeSec =>
      constructor
      · intro h
        cases hstep : s.1.step (.sendCompletion k bSuccess dwIoSize wsaSend curTimeSec) with
        | some t => exact (draining_sendCompletion_iff hs hsession hstep).mp (h t hstep)
        | none =>
            intro hk hok hsize
            obtain ⟨-, hqueue⟩ := hs.pending.eraseIdx hk
            rw [Slot.step, if_pos hk, Slot.sendCompletion, if_neg (by simp [hok, hsize]),
              sendCompleted, if_neg hqueue] at hstep
            split at hstep <;> cases hstep
      · exact fun h t hstep => (draining_sendCompletion_iff hs hsession hstep).mpr h
  | recvFailed curTimeSec =>
      refine iff_of_true (fun t hstep => ?_) trivial
      obtain rfl := Option.some.inj hstep
      exact draining_of_closed (closeSocket_mIsConnect s.1 curTimeSec)
  | accepterThread wsaSocket acceptEx curTimeSec =>
      refine iff_of_true (fun t hstep => ?_) trivial
      rcases accepterThread_cases hstep with rfl | ⟨hclosed, -, -⟩
      · exact hdraining
      · exact draining_of_closed hclosed
  | acceptCompletion wsaRecv curTimeSec =>
      constructor
      · intro h
        cases hstep : s.1.step (.acceptCompletion wsaRecv curTimeSec) with
        | some t => exact (draining_acceptCompletion_iff hs hstep).mp (h t hstep)
        | none =>
            intro hpending
            rw [Slot.step, if_pos hpending] at hstep
            cases hstep
      · exact fun h t hstep => (draining_acceptCompletion_iff hs hstep).mpr h

/-- While the queue drains, its messages are those of the session. -/
lemma OfSession.step {e : NetEvent} (hs : s.Sound) (hsession : s.OfSession) (htaken : s.Taken e)
    (hstep : s.1.step e = some t) : OfSession (t, s.next e t) := by
  intro hconnect tag htag
  obtain ⟨-, ⟨hconnected, hother⟩ | ⟨curTimeSec, rfl, hpending, hsocket⟩⟩ :=
    connected_step hs.pending hstep hconnect
  · have hsame : (s.next e t).session = s.2.session := by
      cases e with
      | acceptCompletion recv cur => exact absurd rfl (hother recv cur)
      | _ => rfl
    rw [hsame]
    rcases NetEvent.mem_queueAfter htag with rfl | hold
    · rw [if_pos hconnected]
    · exact hsession hconnected tag hold
  · have hqueue : s.1.mSendDataqueue = [] := htaken hpending hsocket rfl
    have hnil : s.2.pushedIn = [] :=
      List.eq_nil_of_length_eq_zero (by rw [hs.aligned, hqueue, List.length_nil])
    have hmem : tag ∈ s.2.pushedIn := htag
    rw [hnil] at hmem
    exact absurd hmem List.not_mem_nil

/-! ### Runs -/

/-- What holds of a slot along a run in which the queue drains. -/
structure Ready (s : Traced) : Prop where
  sound : s.Sound
  session : s.OfSession
  draining : s.Draining

lemma ready_init : init.Ready where
  sound := ⟨.inl rfl, rfl, by simp [init], by simp [init]⟩
  session hconnect := by cases hconnect
  draining hconnect := by cases hconnect

/-- **The queue drains** in every state of a run exactly if every accept finds it empty and the
system takes every `WSASend` of a connected slot. -/
theorem draining_iff (es : List NetEvent) :
    Runs.Always step Draining init es ↔ Runs.Along step Taken init es := by
  rw [Runs.always_iff_along_keeps es ready_init.draining]
  refine Runs.along_iff_along (P := Ready)
    (fun s e hs => draining_step_iff hs.sound hs.session hs.draining e) ?_ es ready_init
  intro s e s' hs hkeeps hstep
  have htaken := (draining_step_iff hs.sound hs.session hs.draining e).mp hkeeps
  obtain ⟨t, ht, rfl⟩ := Option.map_eq_some_iff.mp hstep
  exact ⟨hs.sound.step ht, hs.session.step hs.sound htaken ht, hkeeps _ hstep⟩

/-- A client connects and is sent a message; its connection ends before the message has gone, and
the slot is used again. -/
def reconnect : List NetEvent :=
  [.accepterThread true true 4, .acceptCompletion true 4, .sendMsg [1] true, .recvFailed 5,
    .sendCompletion 0 false 0 true 5, .accepterThread true true 9, .acceptCompletion true 9]

/-- The next session begins with the message in the queue and nothing under way: what is sent to
it is queued behind and never goes out. -/
theorem stranded_message :
    ¬∀ es : List NetEvent, Runs.Always step Draining init es := by
  intro h
  have hrun : (Runs.run step init reconnect).map (fun s =>
      (s.1.mIsConnect, s.1.mSendDataqueue, s.1.pendingSends, s.2.session)) =
      some (true, [⟨0, [1]⟩], [], 2) := by decide +kernel
  obtain ⟨s, hs, hmap⟩ := Option.map_eq_some_iff.mp hrun
  simp only [Prod.mk.injEq] at hmap
  obtain ⟨hconnect, hqueue, hpending, -⟩ := hmap
  obtain ⟨⟨socket, -, hone⟩, -⟩ := (h reconnect).of_run hs hconnect _ _ hqueue
  rw [hpending] at hone
  cases hone

end Traced

end Slot

end CKGameServer
