import CKGameServer.Library.InFlight
import CKGameServer.Model.ClientInfo

/-!
The order of the sends of a connected slot (`SendMsg`, `SendCompleted`, `SendIO`), while the system
takes every `WSASend` and completes it in full.

Each of the two functions holds `mSendLock`; what `SendMsg` does before that touches only the
object it has made.

* `SendCall`, `Slot.sendStep`: a call of either. `SendCompleted` is called for one of the sends the
  system has taken.
* `Slot.handed`: the buffer a call hands to `WSASend`, read off what the system has taken.
* `Slot.FrontSent`: the front of the queue is under way on the socket, and nothing else.
* `Slot.sendStep_simulates`: the slot is a queue the front of which is under way.
* `Slot.sends_in_order`: over every interleaving the buffers handed to `WSASend` are the messages,
  in order, as far as they do not wait.
-/

namespace CKGameServer

open Memory

/-- A call of `SendMsg`, or of `SendCompleted` for the `k`-th send under way. -/
inductive SendCall where
  | sendMsg (pMsg : Bytes)
  | sendCompleted (k : ℕ)

/-- The message of a call. -/
def SendCall.messages : SendCall → List Bytes
  | sendMsg pMsg => [pMsg]
  | sendCompleted _ => []

/-- What the call is to a queue of messages. -/
def SendCall.op : SendCall → InFlight.Op Bytes
  | sendMsg pMsg => .put pMsg
  | sendCompleted _ => .done

namespace Slot

/-- The slot after a call; every `WSASend` is taken. -/
def sendStep (s : Slot) : SendCall → Option Slot
  | .sendMsg pMsg => some (s.sendMsg pMsg true)
  | .sendCompleted k =>
    if k < s.pendingSends.length then
      { s with pendingSends := s.pendingSends.eraseIdx k }.sendCompleted true
    else none

/-- `SendCompleted` is called for a send that is under way. -/
def Completes (s : Slot) : SendCall → Prop
  | .sendMsg _ => True
  | .sendCompleted k => k < s.pendingSends.length

instance (s : Slot) (c : SendCall) : Decidable (s.Completes c) :=
  match c with
  | .sendMsg _ => isTrue trivial
  | .sendCompleted k => inferInstanceAs (Decidable (k < s.pendingSends.length))

/-- How many of the sends under way are left when a call begins. -/
def leftPending (s : Slot) : SendCall → ℕ
  | .sendMsg _ => s.pendingSends.length
  | .sendCompleted _ => s.pendingSends.length - 1

/-- The buffer a call hands to `WSASend`: that of the send which is new behind those left. -/
def handed (s : Slot) (c : SendCall) : Option Bytes :=
  (s.sendStep c).bind fun s' =>
    (s'.pendingSends.drop (s.leftPending c)).head?.map fun p => p.overlapped.m_wsaBuf

/-- The messages of the queue. -/
def queued (s : Slot) : List Bytes := s.mSendDataqueue.map OverlappedEx.m_wsaBuf

/-- On the socket exactly one send is under way, that of the front, or none where the queue is
empty. -/
def FrontSent (socket : ℕ) (s : Slot) : Prop :=
  s.pendingSends = (s.mSendDataqueue.head?.map (PendingSend.mk socket)).toList

/-! ### The slot as a queue -/

variable {socket : ℕ} {s : Slot} {q : List Bytes}

/-- The slot holds the messages `q`, the first of them under way. -/
structure Holds (socket : ℕ) (s : Slot) (q : List Bytes) : Prop where
  connected : s.mSocket = some socket
  queue : s.queued = q
  front : s.FrontSent socket

/-- `SendMsg` to an empty queue starts its message; behind others the message waits. -/
lemma Holds.sendMsg (h : Holds socket s q) (pMsg : Bytes) :
    s.handed (.sendMsg pMsg) = InFlight.start q (.put pMsg) ∧
      Holds socket (s.sendMsg pMsg true) (q ++ [pMsg]) := by
  obtain ⟨hsocket, rfl, hfront⟩ := h
  have hqueued : (s.sendMsg pMsg true).queued = s.queued ++ [pMsg] := by
    rw [queued, queued, sendMsg_toClientInfo, push_mSendDataqueue, List.map_append]
    rfl
  have hkept : (s.sendMsg pMsg true).mSocket = some socket := by
    rw [sendMsg_toClientInfo]
    exact hsocket
  rw [FrontSent] at hfront
  cases hqueue : s.mSendDataqueue with
  | nil =>
      have hsent : s.sendMsg pMsg true = (s.push pMsg).sendIo true := sendMsg_of_nil s hqueue _ _
      have hpending : s.pendingSends = [] := by rw [hfront, hqueue]; rfl
      have hpush : (s.push pMsg).mSendDataqueue = [⟨s.allocations, pMsg⟩] := by
        rw [push_mSendDataqueue, hqueue, List.nil_append]
      have hnew : (s.sendMsg pMsg true).pendingSends = [⟨socket, ⟨s.allocations, pMsg⟩⟩] := by
        rw [hsent, sendIo_of_cons _ hpush hsocket, if_pos rfl]
        exact congrArg (· ++ [_]) hpending
      refine ⟨?_, hkept, hqueued, ?_⟩
      · rw [handed, sendStep, leftPending, Option.bind_some, hnew, hpending, queued, hqueue]
        rfl
      · rw [FrontSent, hnew, sendMsg_toClientInfo, hpush]
        rfl
  | cons front rest =>
      have hsent : s.sendMsg pMsg true = s.push pMsg :=
        sendMsg_of_ne_nil s (by rw [hqueue]; exact List.cons_ne_nil _ _) _ _
      have hpending : (s.push pMsg).pendingSends = s.pendingSends := rfl
      refine ⟨?_, hkept, hqueued, ?_⟩
      · rw [handed, sendStep, leftPending, Option.bind_some, hsent, hpending, List.drop_length,
          queued, hqueue]
        rfl
      · rw [FrontSent, hsent, push_mSendDataqueue, hqueue]
        rw [hqueue] at hfront
        exact hfront

/-- `SendCompleted` takes the front, which is the send under way, and starts the next. -/
lemma Holds.sendCompleted (h : Holds socket s q) {k : ℕ} (hk : k < s.pendingSends.length) :
    s.handed (.sendCompleted k) = InFlight.start q .done ∧
      ∃ s' q', s.sendStep (.sendCompleted k) = some s' ∧ InFlight.step q .done = some q' ∧
        Holds socket s' q' := by
  obtain ⟨hsocket, rfl, hfront⟩ := h
  rw [FrontSent] at hfront
  cases hqueue : s.mSendDataqueue with
  | nil =>
      rw [hfront, hqueue] at hk
      exact absurd hk (Nat.not_lt_zero k)
  | cons front rest =>
      rw [hqueue] at hfront
      have hone : s.pendingSends = [⟨socket, front⟩] := hfront
      have hk0 : k = 0 := by
        rw [hone, List.length_singleton] at hk
        omega
      have hleft : s.pendingSends.eraseIdx k = [] := by rw [hone, hk0]; rfl
      have hstep : s.sendStep (.sendCompleted k) =
          { s with pendingSends := [] }.sendCompleted true := by
        rw [sendStep, if_pos hk, hleft]
      have hlength : s.leftPending (.sendCompleted k) = 0 := by rw [leftPending, hone]; rfl
      have hne : ({ s with pendingSends := [] } : Slot).mSendDataqueue ≠ [] := by
        rw [hqueue]
        exact List.cons_ne_nil _ _
      have htail : ({ s with pendingSends := [] } : Slot).pop.mSendDataqueue = rest := by
        rw [pop, hqueue]
        rfl
      rw [Slot.sendCompleted, if_neg hne, htail] at hstep
      rw [handed, hlength, queued, hqueue]
      cases rest with
      | nil =>
          rw [if_pos rfl] at hstep
          rw [hstep]
          refine ⟨rfl, _, [], rfl, rfl, hsocket, ?_, ?_⟩
          · rw [queued, htail]
            rfl
          · rw [FrontSent, htail]
            rfl
      | cons next rest =>
          rw [if_neg (List.cons_ne_nil _ _), sendIo_of_cons _ htail hsocket, if_pos rfl] at hstep
          rw [hstep]
          refine ⟨rfl, _, _, rfl, rfl, hsocket, ?_, ?_⟩
          · rw [queued]
            exact congrArg (List.map _) htail
          · rw [FrontSent]
            exact (congrArg (fun l => (List.head? l |>.map (PendingSend.mk socket)).toList)
              htail).symm

/-- **The slot is a queue the front of which is under way**: a call does to its messages what the
operation does, and hands over what goes under way. -/
lemma sendStep_simulates {c : SendCall} (h : Holds socket s q) (hc : s.Completes c) :
    s.handed c = InFlight.start q c.op ∧
      ∃ s' q', s.sendStep c = some s' ∧ InFlight.step q c.op = some q' ∧ Holds socket s' q' := by
  cases c with
  | sendMsg pMsg =>
      obtain ⟨hhanded, hnext⟩ := h.sendMsg pMsg
      exact ⟨hhanded, _, _, rfl, rfl, hnext⟩
  | sendCompleted k => exact h.sendCompleted hc

/-! ### Runs -/

/-- **The sends are in order.** From a connected slot with nothing queued or under way, over every
interleaving of the two functions in which `SendCompleted` is called for a send that is under way:
no call fails, the buffers handed to `WSASend`, followed by the messages that wait behind the front
of the queue, are the messages of the calls, and exactly the front of the queue is under way. -/
theorem sends_in_order (hsocket : s.mSocket = some socket) (hqueue : s.mSendDataqueue = [])
    (hpending : s.pendingSends = []) {calls : List SendCall}
    (hcalls : Runs.Along sendStep Completes s calls) :
    ∃ s', Runs.run sendStep s calls = some s' ∧
      Runs.outputs sendStep handed s calls ++ s'.queued.tail =
        calls.flatMap SendCall.messages ∧
      s'.FrontSent socket := by
  have hstart : Holds socket s [] := ⟨hsocket, by rw [queued, hqueue]; rfl,
    by rw [FrontSent, hpending, hqueue]; rfl⟩
  have hstep : ∀ s q c, Holds socket s q → Completes s c →
      handed s c = (InFlight.start q c.op).map id ∧
        ∃ s' q', sendStep s c = some s' ∧ InFlight.step q c.op = some q' ∧ Holds socket s' q' :=
    fun s q c h hc => by
      obtain ⟨hhanded, hnext⟩ := sendStep_simulates h hc
      exact ⟨by rw [hhanded, Option.map_id_fun, id], hnext⟩
  obtain ⟨s', q', hrun, hrun', hholds, houts⟩ := Runs.run_simulates hstep hstart hcalls
  have hmessages : (calls.map SendCall.op).flatMap InFlight.Op.incoming =
      calls.flatMap SendCall.messages := by
    rw [List.flatMap_map]
    exact List.flatMap_congr fun c _ => by cases c <;> rfl
  refine ⟨s', hrun, ?_, hholds.front⟩
  rw [houts, List.map_id, hholds.queue, InFlight.outputs_append_tail hrun', hmessages]
  rfl

/-- A slot that has been connected. -/
def connectedSlot : Slot := { mSocket := some 0, mIsConnect := true, sockets := 1 }

/-- Three messages; the second goes when the first is done, the third waits. -/
theorem sends_in_order_three :
    ∃ s', Runs.run sendStep connectedSlot
        [.sendMsg [1], .sendMsg [2], .sendMsg [3], .sendCompleted 0] = some s' ∧
      Runs.outputs sendStep handed connectedSlot
        [.sendMsg [1], .sendMsg [2], .sendMsg [3], .sendCompleted 0] ++ s'.queued.tail =
        [[1], [2], [3]] ∧
      s'.FrontSent 0 :=
  sends_in_order rfl rfl rfl (by decide)

end Slot

end CKGameServer
