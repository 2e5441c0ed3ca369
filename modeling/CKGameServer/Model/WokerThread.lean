import Mathlib.Data.Nat.Notation
import Mathlib.Logic.Function.Basic

/-!
`IOCPServer::WokerThread`: the worker threads between the completion port and the callbacks.

* `Completion`: what `GetQueuedCompletionStatus` gives; `Completion.pClientInfo`: the slot that the
  completion key names.
* `Worker`: a thread that handles a completion, with the place it has reached. From one place to the
  next a worker reads or writes `mIsConnect` once, or makes one call.
* `wokerThread`: the place at which the handling of a completion begins.
* `Workers`, `Workers.step`: the slots, the threads at work, and the callbacks made.

Any number of threads are at work, and any completion can come at any time. `BindRecv` after a
receive is not followed: nobody looks at its result.
-/

namespace CKGameServer

/-- `IOOperation`. -/
inductive IOOperation where
  | accept | recv | send
  deriving DecidableEq, Repr

/-- What `GetQueuedCompletionStatus` gives, with the slot that the operation was begun for. -/
structure Completion where
  m_eOperation : IOOperation
  sessionIndex : ℕ
  bSuccess : Bool := true
  dwIoSize : ℕ := 0

/-- The completion key. The listen socket, on which accepts are made, has the key 0. -/
def Completion.pClientInfo (c : Completion) : Option ℕ :=
  match c.m_eOperation with
  | .accept => none
  | .recv | .send => some c.sessionIndex

/-- The callbacks of `IOCPServer`. -/
inductive Callback where
  | onConnect | onReceive | onClose
  deriving DecidableEq, Repr

/-- What a worker does next. -/
inductive WorkerAt where
  /-- `OnConnect` of the slot sets `mIsConnect`. -/
  | acceptCompletion
  /-- `BindIOCompletionPort` and `BindRecv`: the receive is armed, or `OnConnect` fails. -/
  | bindRecv
  | onConnect
  | onReceive
  | sendCompleted
  /-- `CloseSocket` asks `IsConnectd`. -/
  | isConnectd
  /-- `Close` of the slot resets `mIsConnect`. -/
  | close
  | onClose
  deriving DecidableEq, Repr

/-- A thread that handles a completion of a slot. -/
structure Worker where
  pClientInfo : ℕ
  next : WorkerAt
  deriving DecidableEq, Repr

/-- `WokerThread` with a completion. It is `none` where a null pointer is used. -/
def wokerThread (c : Completion) : Option Worker :=
  if c.bSuccess = false ∨ (c.dwIoSize = 0 ∧ c.m_eOperation ≠ .accept) then
    c.pClientInfo.map fun i => ⟨i, .isConnectd⟩
  else
    match c.m_eOperation with
    | .accept => some ⟨c.sessionIndex, .acceptCompletion⟩
    | .recv => c.pClientInfo.map fun i => ⟨i, .onReceive⟩
    | .send => c.pClientInfo.map fun i => ⟨i, .sendCompleted⟩

/-- The slots with the threads at work, and for each slot the callbacks that have been made. -/
structure Workers where
  mIsConnect : ℕ → Bool := fun _ => false
  workers : List Worker := []
  calls : ℕ → List Callback := fun _ => []
  /-- A null pointer has been used. -/
  nullUsed : Bool := false

/-- A thread takes a completion, or the `k`-th thread at work goes on. -/
inductive WorkerEvent where
  | completion (c : Completion)
  | worker (k : ℕ) (wsaRecv : Bool)

namespace Worker

variable (w : Worker)

/-- What the worker does after that, by `IsConnectd` and whether the receive was armed. -/
def goesTo (isConnectd wsaRecv : Bool) : Option Worker :=
  match w.next with
  | .acceptCompletion => some { w with next := .bindRecv }
  | .bindRecv => some { w with next := if wsaRecv then .onConnect else .isConnectd }
  | .isConnectd => if isConnectd then some { w with next := .close } else none
  | .close => some { w with next := .onClose }
  | .onConnect | .onReceive | .sendCompleted | .onClose => none

/-- What it makes of `mIsConnect`. -/
def setsConnect (mIsConnect : Bool) : Bool :=
  match w.next with
  | .acceptCompletion => true
  | .close => false
  | _ => mIsConnect

/-- The callback it makes. -/
def callback : Option Callback :=
  match w.next with
  | .onConnect => some .onConnect
  | .onReceive => some .onReceive
  | .onClose => some .onClose
  | _ => none

end Worker

namespace Workers

variable (s : Workers)

/-- The `k`-th thread at work, which is `w`, goes on. -/
def goOn (k : ℕ) (w : Worker) (wsaRecv : Bool) : Workers :=
  { s with
    mIsConnect := Function.update s.mIsConnect w.pClientInfo
      (w.setsConnect (s.mIsConnect w.pClientInfo))
    workers := match w.goesTo (s.mIsConnect w.pClientInfo) wsaRecv with
      | some w' => s.workers.set k w'
      | none => s.workers.eraseIdx k
    calls := Function.update s.calls w.pClientInfo
      (s.calls w.pClientInfo ++ w.callback.toList) }

/-- One step. -/
def step : WorkerEvent → Option Workers
  | .completion c =>
    match wokerThread c with
    | some w => some { s with workers := s.workers ++ [w] }
    | none => some { s with nullUsed := true }
  | .worker k wsaRecv => s.workers[k]?.map fun w => s.goOn k w wsaRecv

end Workers

end CKGameServer
