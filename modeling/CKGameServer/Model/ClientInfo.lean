import Mathlib.Data.List.Basic
import CKGameServer.Library.Memory

/-!
`ClientInfo.h` and `IOCPServer.h`: one slot of the network threads.

* `OverlappedEx`, `ClientInfo`: the object of a send, and the members of `stClientInfo` that its
  functions read.
* `Slot`: a `ClientInfo` with what the system holds of it: the sends that have been handed to it
  and have not been completed, and whether an accept is under way.
* `Slot.sendIo` … `Slot.sendCompletion`: the functions of the two classes.
* `NetEvent`, `Slot.step`: what happens next. Whether the system takes a `WSASend` and how an
  operation is completed is part of the event.

A socket is the number of the call of `WSASocket` that made it, and the address of an object
the number of its allocation. `Close` and `OnConnect` are single steps. An accept that fails is
no step: `WokerThread` then closes the slot its completion key names, which is a null pointer.
-/

namespace CKGameServer

open Memory

/-- `stOverlappedEx` of a send. -/
structure OverlappedEx where
  address : ℕ
  m_wsaBuf : Bytes
  deriving DecidableEq, Repr

/-- `stClientInfo`. The socket is `none` where it is `INVALID_SOCKET`. -/
structure ClientInfo where
  mSocket : Option ℕ := none
  mIsConnect : Bool := false
  mLatestClosedTimeSec : ℕ := 0
  mSendDataqueue : List OverlappedEx := []

/-- A `WSASend` that the system has taken and not completed. -/
structure PendingSend where
  socket : ℕ
  overlapped : OverlappedEx
  deriving DecidableEq, Repr

/-- A slot with what the system holds of it. -/
structure Slot extends ClientInfo where
  pendingSends : List PendingSend := []
  pendingAccept : Bool := false
  /-- The sockets made so far. -/
  sockets : ℕ := 0
  /-- The objects allocated so far. -/
  allocations : ℕ := 0

/-- `RE_USE_SESSION_WAIT_TIMESEC`. -/
def reUseSessionWaitTimesec : ℕ := 3

/-- `UINT32_MAX`. -/
def uint32Max : ℕ := 4294967295

namespace Slot

variable (s : Slot)

/-! ### `stClientInfo` -/

/-- `stClientInfo::SendIO`: a `WSASend` of the front. On `INVALID_SOCKET` it fails, and nobody
looks at the result. -/
def sendIo (wsaSend : Bool) : Slot :=
  match s.mSendDataqueue, s.mSocket with
  | sendOverlappedEx :: _, some socket =>
    if wsaSend then
      { s with pendingSends := s.pendingSends ++ [{ socket, overlapped := sendOverlappedEx }] }
    else s
  | _, _ => s

/-- `mSendDataqueue.push` of a new object. -/
def push (pMsg : Bytes) : Slot :=
  { s with
    mSendDataqueue := s.mSendDataqueue ++ [{ address := s.allocations, m_wsaBuf := pMsg }]
    allocations := s.allocations + 1 }

/-- `stClientInfo::SendMsg`. -/
def sendMsg (pMsg : Bytes) (wsaSend : Bool) : Slot :=
  if (s.push pMsg).mSendDataqueue.length = 1 then (s.push pMsg).sendIo wsaSend else s.push pMsg

/-- `mSendDataqueue.pop`. -/
def pop : Slot := { s with mSendDataqueue := s.mSendDataqueue.tail }

/-- `stClientInfo::SendCompleted`. The front of an empty queue is undefined. -/
def sendCompleted (wsaSend : Bool) : Option Slot :=
  if s.mSendDataqueue = [] then none
  else if s.pop.mSendDataqueue = [] then some s.pop
  else some (s.pop.sendIo wsaSend)

/-- `stClientInfo::Close`. -/
def close (curTimeSec : ℕ) : Slot :=
  { s with mIsConnect := false, mLatestClosedTimeSec := curTimeSec, mSocket := none }

/-- `stClientInfo::PostAccept`. -/
def postAccept (wsaSocket acceptEx : Bool) : Slot :=
  if wsaSocket then
    { s with
      mLatestClosedTimeSec := uint32Max, mSocket := some s.sockets, sockets := s.sockets + 1
      pendingAccept := s.pendingAccept || acceptEx }
  else { s with mLatestClosedTimeSec := uint32Max, mSocket := none }

/-- `stClientInfo::OnConnect`: `Clear` does nothing, `BindIOCompletionPort` answers `true` whatever
`CreateIoCompletionPort` does, and a `WSARecv` on `INVALID_SOCKET` fails. -/
def onConnect (wsaRecv : Bool) : Bool × Slot :=
  (wsaRecv && s.mSocket.isSome, { s with mIsConnect := true })

/-! ### `IOCPServer` -/

/-- `IOCPServer::CloseSocket`. -/
def closeSocket (curTimeSec : ℕ) : Slot := if s.mIsConnect then s.close curTimeSec else s

/-- `AccepterThread`, the conditions for a `PostAccept`. -/
def MayAccept (curTimeSec : ℕ) : Prop :=
  s.mIsConnect = false ∧ s.mLatestClosedTimeSec ≤ curTimeSec ∧
    reUseSessionWaitTimesec < curTimeSec - s.mLatestClosedTimeSec

instance (curTimeSec : ℕ) : Decidable (s.MayAccept curTimeSec) :=
  inferInstanceAs (Decidable (_ ∧ _ ∧ _))

/-- `WokerThread`, the completion of an accept. -/
def acceptCompletion (wsaRecv : Bool) (curTimeSec : ℕ) : Slot :=
  let connected := { s with pendingAccept := false }.onConnect wsaRecv
  if connected.1 then connected.2 else connected.2.closeSocket curTimeSec

/-- `WokerThread`, the completion of a send. -/
def sendCompletion (bSuccess : Bool) (dwIoSize : ℕ) (wsaSend : Bool) (curTimeSec : ℕ) :
    Option Slot :=
  if bSuccess = false ∨ dwIoSize = 0 then some (s.closeSocket curTimeSec)
  else s.sendCompleted wsaSend

end Slot

/-! ### What the functions leave -/

namespace Slot

variable (s : Slot)

lemma sendIo_of_cons {front : OverlappedEx} {rest : List OverlappedEx} {socket : ℕ}
    (hqueue : s.mSendDataqueue = front :: rest) (hsocket : s.mSocket = some socket)
    (wsaSend : Bool) :
    s.sendIo wsaSend =
      if wsaSend then
        { s with pendingSends := s.pendingSends ++ [{ socket, overlapped := front }] }
      else s := by
  rw [sendIo, hqueue, hsocket]

/-- `SendIO` changes what the system holds and nothing else. -/
@[simp] lemma sendIo_toClientInfo (wsaSend : Bool) :
    (s.sendIo wsaSend).toClientInfo = s.toClientInfo := by
  rw [sendIo]
  split
  · split <;> rfl
  · rfl

@[simp] lemma push_mSendDataqueue (pMsg : Bytes) :
    (s.push pMsg).mSendDataqueue =
      s.mSendDataqueue ++ [{ address := s.allocations, m_wsaBuf := pMsg }] := rfl

/-- A message that is pushed to an empty queue is sent at once. -/
lemma sendMsg_of_nil (h : s.mSendDataqueue = []) (pMsg : Bytes) (wsaSend : Bool) :
    s.sendMsg pMsg wsaSend = (s.push pMsg).sendIo wsaSend := by
  rw [sendMsg, if_pos (by simp [h])]

/-- Behind others a message waits. -/
lemma sendMsg_of_ne_nil (h : s.mSendDataqueue ≠ []) (pMsg : Bytes) (wsaSend : Bool) :
    s.sendMsg pMsg wsaSend = s.push pMsg := by
  rw [sendMsg, if_neg (by simpa using h)]

lemma sendMsg_toClientInfo (pMsg : Bytes) (wsaSend : Bool) :
    (s.sendMsg pMsg wsaSend).toClientInfo = (s.push pMsg).toClientInfo := by
  rw [sendMsg]
  split
  · exact sendIo_toClientInfo _ wsaSend
  · rfl

@[simp] lemma closeSocket_mSendDataqueue (curTimeSec : ℕ) :
    (s.closeSocket curTimeSec).mSendDataqueue = s.mSendDataqueue := by
  rw [closeSocket]
  split <;> rfl

@[simp] lemma closeSocket_mIsConnect (curTimeSec : ℕ) :
    (s.closeSocket curTimeSec).mIsConnect = false := by
  rw [closeSocket]
  split
  · rfl
  · rename_i h
    exact Bool.eq_false_of_not_eq_true h

end Slot

/-! ### Steps -/

/-- What happens next. `SendMsg` is called; the system completes one of the sends it has taken; a
receive fails or brings no bytes; the accepter thread comes by; an accept is completed. -/
inductive NetEvent where
  | sendMsg (pMsg : Bytes) (wsaSend : Bool)
  | sendCompletion (k : ℕ) (bSuccess : Bool) (dwIoSize : ℕ) (wsaSend : Bool) (curTimeSec : ℕ)
  | recvFailed (curTimeSec : ℕ)
  | accepterThread (wsaSocket acceptEx : Bool) (curTimeSec : ℕ)
  | acceptCompletion (wsaRecv : Bool) (curTimeSec : ℕ)

/-- One step of the slot. It is `none` where no such operation is under way, and where the code
leaves the queue. -/
def Slot.step (s : Slot) : NetEvent → Option Slot
  | .sendMsg pMsg wsaSend => some (s.sendMsg pMsg wsaSend)
  | .sendCompletion k bSuccess dwIoSize wsaSend curTimeSec =>
    if k < s.pendingSends.length then
      { s with pendingSends := s.pendingSends.eraseIdx k }.sendCompletion bSuccess dwIoSize wsaSend
        curTimeSec
    else none
  | .recvFailed curTimeSec => some (s.closeSocket curTimeSec)
  | .accepterThread wsaSocket acceptEx curTimeSec =>
    some (if s.MayAccept curTimeSec then s.postAccept wsaSocket acceptEx else s)
  | .acceptCompletion wsaRecv curTimeSec =>
    if s.pendingAccept then some (s.acceptCompletion wsaRecv curTimeSec) else none

end CKGameServer
