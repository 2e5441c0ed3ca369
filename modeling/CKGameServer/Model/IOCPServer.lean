import CKGameServer.Model.ClientInfo

/-!
`IOCPServer.h`: the slots of the server, with the operations the system holds for each.

* `SlotIo`: a slot with its `AcceptEx` and its `WSARecv` calls that are outstanding, and the
  completions of receives that workers are handling.
* `SlotIo.onConnect` … `SlotIo.recvCompletion`: the functions of the two classes, as far as they
  touch these.
* `SlotEvent`, `SlotIo.step`: what happens to one slot next. Whether a call succeeds is part of the
  event.
* `IOCPServer`, `IOCPServer.step`: all slots, with the clock.

The accepter thread comes by one slot at a time, with the time at which its pass began. A receive
is handled in two steps, between which anything can happen.
-/

namespace CKGameServer

/-- A slot with what the system holds of it. -/
structure SlotIo extends Slot where
  /-- The `AcceptEx` calls that are outstanding. -/
  acceptExs : ℕ := 0
  /-- The sockets of the `WSARecv` calls that are outstanding. -/
  wsaRecvs : List ℕ := []
  /-- The completions of receives that are being handled. -/
  handling : ℕ := 0
  /-- The sockets whose completions come to the port. -/
  associated : List ℕ := []

namespace SlotIo

variable (s : SlotIo)

/-! ### `stClientInfo` -/

/-- `stClientInfo::BindIOCompletionPort`. A failure is not noticed: `CreateIoCompletionPort` returns
`NULL` then, and the result is compared with `INVALID_HANDLE_VALUE`. -/
def bindIOCompletionPort (createIoCompletionPort : Bool) : SlotIo :=
  match s.mSocket with
  | some socket =>
    if createIoCompletionPort then { s with associated := s.associated ++ [socket] } else s
  | none => s

/-- `stClientInfo::BindRecv`. On `INVALID_SOCKET` it fails. -/
def bindRecv (wsaRecv : Bool) : Bool × SlotIo :=
  match s.mSocket with
  | some socket =>
    if wsaRecv then (true, { s with wsaRecvs := s.wsaRecvs ++ [socket] }) else (false, s)
  | none => (false, s)

/-- `stClientInfo::OnConnect`. -/
def onConnect (createIoCompletionPort wsaRecv : Bool) : Bool × SlotIo :=
  (bindIOCompletionPort { s with mIsConnect := true } createIoCompletionPort).bindRecv wsaRecv

/-- `stClientInfo::PostAccept`. -/
def postAccept (wsaSocket acceptEx : Bool) : SlotIo :=
  { s with
    toSlot := s.toSlot.postAccept wsaSocket acceptEx
    acceptExs := s.acceptExs + if wsaSocket && acceptEx then 1 else 0 }

/-! ### `IOCPServer` -/

/-- `IOCPServer::CloseSocket`. -/
def closeSocket (curTimeSec : ℕ) : SlotIo :=
  { s with toSlot := s.toSlot.closeSocket curTimeSec }

/-- `WokerThread`, the completion of an accept. -/
def acceptCompletion (createIoCompletionPort wsaRecv : Bool) (curTimeSec : ℕ) : SlotIo :=
  let connected :=
    onConnect { s with acceptExs := s.acceptExs - 1, pendingAccept := false }
      createIoCompletionPort wsaRecv
  if connected.1 then connected.2 else connected.2.closeSocket curTimeSec

/-- `WokerThread`, the completion of the `k`-th receive: a failure or no bytes close the socket,
and bytes are handed on. No worker learns of it where the socket does not belong to the port. -/
def recvCompletion (k socket : ℕ) (bSuccess : Bool) (dwIoSize curTimeSec : ℕ) : SlotIo :=
  let completed := { s with wsaRecvs := s.wsaRecvs.eraseIdx k }
  if socket ∈ s.associated then
    if bSuccess = false ∨ dwIoSize = 0 then completed.closeSocket curTimeSec
    else { completed with handling := s.handling + 1 }
  else completed

/-- Up to what the system holds, this is the completion of an accept of the slot. -/
lemma acceptCompletion_toSlot (createIoCompletionPort wsaRecv : Bool) (curTimeSec : ℕ) :
    (s.acceptCompletion createIoCompletionPort wsaRecv curTimeSec).toSlot =
      s.toSlot.acceptCompletion wsaRecv curTimeSec := by
  rw [acceptCompletion, Slot.acceptCompletion, onConnect, Slot.onConnect, bindIOCompletionPort]
  simp only
  cases hsocket : s.mSocket with
  | none => simp [bindRecv, closeSocket]
  | some socket =>
      cases createIoCompletionPort <;> cases wsaRecv <;> simp [bindRecv, closeSocket]

end SlotIo

/-! ### Steps -/

/-- What happens to a slot next. The accepter thread comes by; an accept is completed, or fails; a
receive is completed; a worker has handed on what it received; the socket is closed for another
reason. -/
inductive SlotEvent where
  | accepterThread (wsaSocket acceptEx : Bool) (curTimeSec : ℕ)
  | acceptCompletion (createIoCompletionPort wsaRecv : Bool)
  | acceptFailed
  | recvCompletion (k : ℕ) (bSuccess : Bool) (dwIoSize : ℕ)
  | recvHandled (wsaRecv : Bool)
  | closeSocket

/-- One step of a slot. It is `none` where no such operation is under way, and where the accept
fails: `WokerThread` then closes the slot its completion key names, which is a null pointer. -/
def SlotIo.step (now : ℕ) (s : SlotIo) : SlotEvent → Option SlotIo
  | .accepterThread wsaSocket acceptEx curTimeSec =>
    if curTimeSec ≤ now then
      some (if s.MayAccept curTimeSec then s.postAccept wsaSocket acceptEx else s)
    else none
  | .acceptCompletion createIoCompletionPort wsaRecv =>
    if 0 < s.acceptExs then some (s.acceptCompletion createIoCompletionPort wsaRecv now) else none
  | .acceptFailed => none
  | .recvCompletion k bSuccess dwIoSize =>
    s.wsaRecvs[k]?.map fun socket => s.recvCompletion k socket bSuccess dwIoSize now
  | .recvHandled wsaRecv =>
    if 0 < s.handling then some (bindRecv { s with handling := s.handling - 1 } wsaRecv).2
    else none
  | .closeSocket => some (s.closeSocket now)

/-- The slots of the server, and the time in seconds. -/
structure IOCPServer where
  now : ℕ
  mClientInfos : ℕ → SlotIo

/-- Time passes, or something happens to a slot. -/
inductive IOCPEvent where
  | clock (seconds : ℕ)
  | slot (i : ℕ) (e : SlotEvent)

namespace IOCPServer

/-- One step. -/
def step (v : IOCPServer) : IOCPEvent → Option IOCPServer
  | .clock seconds => some { v with now := v.now + seconds }
  | .slot i e =>
    ((v.mClientInfos i).step v.now e).map fun s =>
      { v with mClientInfos := Function.update v.mClientInfos i s }

/-- `CreateClient`. -/
def init (now : ℕ) : IOCPServer where
  now := now
  mClientInfos := fun _ => {}

end IOCPServer

end CKGameServer
