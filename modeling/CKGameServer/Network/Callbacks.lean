import Mathlib.Algebra.BigOperators.Group.List.Basic
import Mathlib.Algebra.Ring.Int.Defs
import Mathlib.Data.List.InsertIdx
import CKGameServer.Library.Runs
import CKGameServer.Library.Sessions
import CKGameServer.Model.ClientInfo
import CKGameServer.Model.WokerThread

/-!
The order of the callbacks (`WokerThread`, `CloseSocket`).

`OnConnect` of the slot arms the receive, and `WokerThread` reports `OnConnect` only then. Where the
receive cannot be armed it closes the slot, and reports `OnClose` alone. `IsConnectd` and `Close`
are two steps, between which another worker can close the slot too. An accept that fails comes with
the key of the listen socket, which names no slot.

* `Workers.Ordered`: no null pointer is used, and the callbacks of each slot are in sessions.
* `Workers.openSessions`: the sessions that the callbacks have left open, from `mIsConnect` and the
  places of the workers; `Workers.Counted`: the callbacks agree with it.
* `Workers.Undisturbed`: the accept finds the slot free, its receive is armed, and who closes the
  slot still finds it connected.
* `Workers.InTurn`: no accept fails, and a callback finds the sessions open that it must.
* `Workers.run_alone`: a worker that is not interrupted; `Workers.closeSocket_alone`,
  `Workers.acceptCompletion_alone`: it does what the model of a slot does in one step.
* `Workers.ordered_iff`: in runs that are undisturbed, the callbacks are well ordered exactly if all
  of them come in turn. `Workers.close_without_connect`: one `WSARecv` that fails is enough.
-/

namespace CKGameServer

/-- What a callback is to the session of its slot. -/
def Callback.call : Callback → Sessions.Call
  | .onConnect => .opens
  | .onReceive => .uses
  | .onClose => .closes

/-- The sessions reported open beyond what `mIsConnect` says, by the place of a worker: it is set
before `OnConnect`, and reset before `OnClose`. -/
def WorkerAt.unreported : WorkerAt → ℤ
  | .bindRecv | .onConnect => -1
  | .onClose => 1
  | _ => 0

namespace Worker

/-- What a worker still has to report of a slot. -/
def unreported (i : ℕ) (w : Worker) : ℤ :=
  if w.pClientInfo = i then w.next.unreported else 0

/-- What a worker that is not interrupted makes of `mIsConnect` in at most so many steps, and the
callbacks it makes. -/
def alone (wsaRecv : Bool) : ℕ → Worker → Bool → Bool × List Callback
  | 0, _, mIsConnect => (mIsConnect, [])
  | n + 1, w, mIsConnect =>
    match w.goesTo mIsConnect wsaRecv with
    | none => (w.setsConnect mIsConnect, w.callback.toList)
    | some w' =>
      let after := alone wsaRecv n w' (w.setsConnect mIsConnect)
      (after.1, w.callback.toList ++ after.2)

/-- A worker finds `mIsConnect` as it expects, and its receive is armed. -/
def Undisturbed (w : Worker) (mIsConnect wsaRecv : Bool) : Prop :=
  (w.next = .acceptCompletion → mIsConnect = false) ∧ (w.next = .bindRecv → wsaRecv = true) ∧
    (w.next = .close → mIsConnect = true)

instance (w : Worker) (mIsConnect wsaRecv : Bool) :
    Decidable (w.Undisturbed mIsConnect wsaRecv) :=
  inferInstanceAs (Decidable (_ ∧ _ ∧ _))

end Worker

namespace Workers

/-- The calls that a slot has been given. -/
def sessionCalls (s : Workers) (i : ℕ) : List Sessions.Call := (s.calls i).map Callback.call

/-- No null pointer is used, and the callbacks of each slot are the beginning of sessions. -/
def Ordered (s : Workers) : Prop :=
  s.nullUsed = false ∧ ∀ i, Sessions.InSessions (s.sessionCalls i)

/-- The sessions of a slot that have been reported open. -/
def openSessions (s : Workers) (i : ℕ) : ℤ :=
  (s.mIsConnect i).toNat + (s.workers.map (Worker.unreported i)).sum

/-- What has been reported agrees with `mIsConnect` and the places of the workers. -/
def Counted (s : Workers) : Prop :=
  ∀ i, ((s.sessionCalls i).count .opens : ℤ) = (s.sessionCalls i).count .closes + s.openSessions i

/-- The worker that goes on is undisturbed. -/
def Undisturbed (s : Workers) : WorkerEvent → Prop
  | .completion _ => True
  | .worker k wsaRecv =>
      ∀ w ∈ s.workers[k]?, w.Undisturbed (s.mIsConnect w.pClientInfo) wsaRecv

/-- No accept fails, and a callback finds as many open sessions as it must. -/
def InTurn (s : Workers) : WorkerEvent → Prop
  | .completion c => c.m_eOperation = .accept → c.bSuccess = true
  | .worker k _ =>
      ∀ w ∈ s.workers[k]?, ∀ c ∈ w.callback, s.openSessions w.pClientInfo = c.call.finds

instance (s : Workers) : (e : WorkerEvent) → Decidable (s.Undisturbed e)
  | .completion _ => inferInstanceAs (Decidable True)
  | .worker k wsaRecv => inferInstanceAs (Decidable
      (∀ w ∈ s.workers[k]?, w.Undisturbed (s.mIsConnect w.pClientInfo) wsaRecv))

instance (s : Workers) : (e : WorkerEvent) → Decidable (s.InTurn e)
  | .completion c => inferInstanceAs (Decidable (c.m_eOperation = .accept → c.bSuccess = true))
  | .worker k _ => inferInstanceAs (Decidable
      (∀ w ∈ s.workers[k]?, ∀ c ∈ w.callback, s.openSessions w.pClientInfo = c.call.finds))

end Workers

/-! ### A completion -/

/-- Only a failed accept has no slot. -/
lemma wokerThread_eq_none_iff (c : Completion) :
    wokerThread c = none ↔ ¬(c.m_eOperation = .accept → c.bSuccess = true) := by
  rw [wokerThread, Completion.pClientInfo]
  cases c.m_eOperation <;> cases c.bSuccess <;> simp
  all_goals split <;> simp

/-- A completion has been reported to nobody, and nothing is due of it. -/
lemma unreported_wokerThread {c : Completion} {w : Worker} (h : wokerThread c = some w) (i : ℕ) :
    w.unreported i = 0 := by
  have hnext : w.next.unreported = 0 := by
    rw [wokerThread, Completion.pClientInfo] at h
    split at h
    · cases hop : c.m_eOperation with
      | accept =>
          rw [hop] at h
          cases h
      | recv | send =>
          rw [hop] at h
          obtain rfl := Option.some.inj h
          rfl
    · cases hop : c.m_eOperation with
      | accept | recv | send =>
          rw [hop] at h
          obtain rfl := Option.some.inj h
          rfl
  rw [Worker.unreported, hnext, ite_self]

/-! ### A worker -/

namespace Worker

variable {w : Worker} {mIsConnect wsaRecv : Bool}

lemma goesTo_pClientInfo {w' : Worker} (h : w' ∈ w.goesTo mIsConnect wsaRecv) :
    w'.pClientInfo = w.pClientInfo := by
  rw [goesTo] at h
  split at h
  case h_3 =>
    split at h
    · obtain rfl := Option.some.inj h
      rfl
    · cases h
  all_goals first
    | (obtain rfl := Option.some.inj h; rfl)
    | cases h

@[simp] lemma unreported_self (i : ℕ) (next : WorkerAt) :
    unreported i ⟨i, next⟩ = next.unreported := if_pos rfl

/-- **One step of a worker** that is undisturbed: what becomes of `mIsConnect` and of what the
worker has left unreported is what it reports. -/
lemma balance (h : w.Undisturbed mIsConnect wsaRecv) :
    ((w.callback.toList.map Callback.call).count .opens : ℤ) + mIsConnect.toNat +
        w.unreported w.pClientInfo =
      (w.callback.toList.map Callback.call).count .closes + (w.setsConnect mIsConnect).toNat +
        (w.goesTo mIsConnect wsaRecv).elim 0 (unreported w.pClientInfo) := by
  obtain ⟨haccept, hrecv, hclose⟩ := h
  obtain ⟨i, next⟩ := w
  simp only [unreported_self, callback, setsConnect, goesTo]
  cases next with
  | acceptCompletion =>
      obtain rfl := haccept rfl
      simp [WorkerAt.unreported]
  | bindRecv =>
      obtain rfl := hrecv rfl
      simp [WorkerAt.unreported]
  | onConnect => simp [WorkerAt.unreported, Callback.call]
  | onReceive => simp [WorkerAt.unreported, Callback.call]
  | sendCompleted => simp [WorkerAt.unreported]
  | isConnectd => cases mIsConnect <;> simp [WorkerAt.unreported]
  | close =>
      obtain rfl := hclose rfl
      simp [WorkerAt.unreported]
  | onClose => simp [WorkerAt.unreported, Callback.call, add_comm]

/-- What a worker of another slot does not report of this one. -/
lemma unreported_of_ne {i : ℕ} (h : w.pClientInfo ≠ i) : w.unreported i = 0 := if_neg h

lemma unreported_goesTo_of_ne {i : ℕ} (h : w.pClientInfo ≠ i) :
    (w.goesTo mIsConnect wsaRecv).elim 0 (unreported i) = 0 := by
  cases hnext : w.goesTo mIsConnect wsaRecv with
  | none => rfl
  | some w' => exact unreported_of_ne (goesTo_pClientInfo hnext ▸ h)

end Worker

/-- A slot is connected after an accept exactly if `OnConnect` succeeds. -/
lemma Slot.acceptCompletion_mIsConnect (t : Slot) (wsaRecv : Bool) (curTimeSec : ℕ) :
    (t.acceptCompletion wsaRecv curTimeSec).mIsConnect = (t.onConnect wsaRecv).1 := by
  have hconnected : ({ t with pendingAccept := false }.onConnect wsaRecv).1 =
      (t.onConnect wsaRecv).1 := rfl
  rw [Slot.acceptCompletion]
  simp only [hconnected]
  cases (t.onConnect wsaRecv).1 with
  | true => rfl
  | false =>
      rw [if_neg Bool.false_ne_true]
      exact Slot.closeSocket_mIsConnect _ _

/-! ### All workers -/

namespace Workers

variable {s : Workers}

/-- The worker that goes on, and no other, changes a sum over the workers. -/
lemma sum_goOn {k : ℕ} {w : Worker} (hw : s.workers[k]? = some w) (wsaRecv : Bool)
    (f : Worker → ℤ) :
    ((s.goOn k w wsaRecv).workers.map f).sum + f w =
      (s.workers.map f).sum + (w.goesTo (s.mIsConnect w.pClientInfo) wsaRecv).elim 0 f := by
  obtain ⟨hk, rfl⟩ := List.getElem?_eq_some_iff.mp hw
  have hk' : k < (s.workers.map f).length := by rwa [List.length_map]
  rw [goOn]
  cases (s.workers[k]).goesTo (s.mIsConnect (s.workers[k]).pClientInfo) wsaRecv with
  | none =>
      have herase := List.add_sum_eraseIdx hk' fun a _ => AddCommute.all _ a
      rw [List.getElem_map] at herase
      simp only [Option.elim_none, ← List.eraseIdx_map]
      omega
  | some w' =>
      simp only [Option.elim_some, List.map_set, List.sum_set', dif_pos hk', List.getElem_map]
      omega

/-- A worker that goes on in a slot that is not its own changes nothing there. -/
lemma goOn_of_ne {w : Worker} {i : ℕ} (h : w.pClientInfo ≠ i) (k : ℕ) (wsaRecv : Bool) :
    (s.goOn k w wsaRecv).mIsConnect i = s.mIsConnect i ∧
      (s.goOn k w wsaRecv).sessionCalls i = s.sessionCalls i := by
  rw [sessionCalls, goOn]
  exact ⟨Function.update_of_ne h.symm _ _,
    congrArg (List.map Callback.call) (Function.update_of_ne h.symm _ _)⟩

/-- In its own slot it makes its callback. -/
lemma sessionCalls_goOn (k : ℕ) (w : Worker) (wsaRecv : Bool) :
    (s.goOn k w wsaRecv).sessionCalls w.pClientInfo =
      s.sessionCalls w.pClientInfo ++ w.callback.toList.map Callback.call := by
  rw [sessionCalls, goOn]
  simp only [Function.update_self]
  rw [List.map_append, sessionCalls]

/-- What is reported still agrees after a worker that is undisturbed has gone on. -/
lemma Counted.goOn (hs : s.Counted) {k : ℕ} {w : Worker} (hw : s.workers[k]? = some w)
    {wsaRecv : Bool} (h : w.Undisturbed (s.mIsConnect w.pClientInfo) wsaRecv) :
    (s.goOn k w wsaRecv).Counted := by
  intro i
  have hcount := hs i
  have hsum := sum_goOn hw wsaRecv (Worker.unreported i)
  rw [openSessions] at hcount ⊢
  by_cases hi : w.pClientInfo = i
  · subst hi
    have hbalance := w.balance h
    have hconnect : (s.goOn k w wsaRecv).mIsConnect w.pClientInfo =
        w.setsConnect (s.mIsConnect w.pClientInfo) := Function.update_self _ _ _
    rw [sessionCalls_goOn, List.count_append, List.count_append, hconnect]
    push_cast
    omega
  · obtain ⟨hconnect, hcalls⟩ := goOn_of_ne (s := s) hi k wsaRecv
    rw [Worker.unreported_of_ne hi, Worker.unreported_goesTo_of_ne hi] at hsum
    rw [hconnect, hcalls]
    omega

/-- A completion that is taken leaves everything reported as it was. -/
lemma counted_completion (hs : s.Counted) {c : Completion} {w : Worker}
    (h : wokerThread c = some w) : Counted { s with workers := s.workers ++ [w] } := by
  intro i
  have hcount := hs i
  rw [openSessions] at hcount ⊢
  rw [List.map_append, List.sum_append, List.map_singleton, List.sum_singleton,
    unreported_wokerThread h, add_zero]
  exact hcount

/-- **One step** that is undisturbed keeps what is reported in agreement. -/
lemma Counted.step (hs : s.Counted) {e : WorkerEvent} (h : s.Undisturbed e) {s' : Workers}
    (hstep : s.step e = some s') : s'.Counted := by
  cases e with
  | completion c =>
      rw [Workers.step] at hstep
      cases hc : wokerThread c with
      | none =>
          rw [hc] at hstep
          obtain rfl := Option.some.inj hstep
          exact hs
      | some w =>
          rw [hc] at hstep
          obtain rfl := Option.some.inj hstep
          exact counted_completion hs hc
  | worker k wsaRecv =>
      obtain ⟨w, hw, rfl⟩ := Option.map_eq_some_iff.mp hstep
      exact hs.goOn hw (h w hw)

/-- A worker that goes on leaves the callbacks in order exactly if its own is in its turn. -/
lemma ordered_goOn_iff (hs : s.Counted) (hordered : s.Ordered) (k : ℕ) (w : Worker)
    (wsaRecv : Bool) :
    (s.goOn k w wsaRecv).Ordered ↔
      ∀ c ∈ w.callback, s.openSessions w.pClientInfo = c.call.finds := by
  have hown : Sessions.InSessions ((s.goOn k w wsaRecv).sessionCalls w.pClientInfo) ↔
      ∀ c ∈ w.callback, s.openSessions w.pClientInfo = c.call.finds := by
    rw [sessionCalls_goOn]
    cases w.callback with
    | none =>
        rw [Option.toList_none, List.map_nil, List.append_nil]
        refine iff_of_true (hordered.2 _) fun c hc => ?_
        cases hc
    | some c =>
        rw [Option.toList_some, List.map_singleton,
          Sessions.inSessions_concat_iff (hordered.2 _) (hs _)]
        simp only [Option.mem_def, Option.some.injEq, forall_eq']
  rw [← hown]
  refine ⟨fun h => h.2 _, fun h => ⟨hordered.1, fun i => ?_⟩⟩
  by_cases hi : w.pClientInfo = i
  · exact hi ▸ h
  · rw [(goOn_of_ne hi k wsaRecv).2]
    exact hordered.2 i

/-- **One step** leaves the callbacks in order exactly if it comes in turn. -/
lemma ordered_step_iff (hs : s.Counted) (hordered : s.Ordered) (e : WorkerEvent) :
    (∀ s', s.step e = some s' → s'.Ordered) ↔ s.InTurn e := by
  cases e with
  | completion c =>
      rw [InTurn, ← not_iff_not, ← wokerThread_eq_none_iff, Workers.step]
      cases hc : wokerThread c with
      | none => simp [Ordered]
      | some w =>
          have hsame : Ordered { s with workers := s.workers ++ [w] } := hordered
          simp [hsame]
  | worker k wsaRecv =>
      rw [InTurn, Workers.step]
      cases hw : s.workers[k]? with
      | none => simp
      | some w => simp [ordered_goOn_iff hs hordered]

/-! ### A worker that is not interrupted -/

lemma step_worker {k : ℕ} {w : Worker} (hw : s.workers[k]? = some w) (wsaRecv : Bool) :
    s.step (.worker k wsaRecv) = some (s.goOn k w wsaRecv) := by
  rw [step, hw, Option.map_some]

/-- What a worker does next is what it does after that. -/
lemma workers_goOn {k : ℕ} {w w' : Worker} (hw : s.workers[k]? = some w) {wsaRecv : Bool}
    (h : w.goesTo (s.mIsConnect w.pClientInfo) wsaRecv = some w') :
    (s.goOn k w wsaRecv).workers[k]? = some w' := by
  obtain ⟨hk, -⟩ := List.getElem?_eq_some_iff.mp hw
  rw [goOn]
  simp only [h]
  exact List.getElem?_set_self hk

/-- What a worker makes of its own slot. -/
lemma goOn_self (k : ℕ) (w : Worker) (wsaRecv : Bool) :
    (s.goOn k w wsaRecv).mIsConnect w.pClientInfo = w.setsConnect (s.mIsConnect w.pClientInfo) ∧
      (s.goOn k w wsaRecv).calls w.pClientInfo = s.calls w.pClientInfo ++ w.callback.toList :=
  ⟨Function.update_self _ _ _, Function.update_self _ _ _⟩

/-- **A worker that is not interrupted** makes of its slot what `Worker.alone` says. -/
theorem run_alone {k : ℕ} {w : Worker} (hw : s.workers[k]? = some w) (wsaRecv : Bool) (n : ℕ) :
    ∃ m s', Runs.run step s (List.replicate m (.worker k wsaRecv)) = some s' ∧
      s'.mIsConnect w.pClientInfo = (w.alone wsaRecv n (s.mIsConnect w.pClientInfo)).1 ∧
      s'.calls w.pClientInfo =
        s.calls w.pClientInfo ++ (w.alone wsaRecv n (s.mIsConnect w.pClientInfo)).2 := by
  induction n generalizing s w with
  | zero => exact ⟨0, s, rfl, rfl, (List.append_nil _).symm⟩
  | succ n ih =>
      obtain ⟨hconnect, hcalls⟩ := goOn_self (s := s) k w wsaRecv
      rw [Worker.alone]
      cases hnext : w.goesTo (s.mIsConnect w.pClientInfo) wsaRecv with
      | none =>
          refine ⟨1, s.goOn k w wsaRecv, ?_, hconnect, hcalls⟩
          rw [List.replicate_one, Runs.run_cons, step_worker hw]
          rfl
      | some w' =>
          obtain ⟨m, s', hrun, hconnect', hcalls'⟩ := ih (workers_goOn hw hnext)
          rw [Worker.goesTo_pClientInfo hnext, hconnect] at hconnect' hcalls'
          refine ⟨m + 1, s', ?_, hconnect', ?_⟩
          · rw [List.replicate_succ, Runs.run_cons, step_worker hw]
            exact hrun
          · rw [hcalls', hcalls, List.append_assoc]

/-- A worker alone closes a slot as `CloseSocket` does, and reports it. -/
theorem closeSocket_alone {k i : ℕ} (hw : s.workers[k]? = some ⟨i, .isConnectd⟩) {t : Slot}
    (ht : s.mIsConnect i = t.mIsConnect) (wsaRecv : Bool) (curTimeSec : ℕ) :
    ∃ m s', Runs.run step s (List.replicate m (.worker k wsaRecv)) = some s' ∧
      s'.mIsConnect i = (t.closeSocket curTimeSec).mIsConnect ∧
      s'.calls i = s.calls i ++ if t.mIsConnect then [.onClose] else [] := by
  obtain ⟨m, s', hrun, hconnect, hcalls⟩ := run_alone hw wsaRecv 3
  refine ⟨m, s', hrun, ?_, ?_⟩
  · rw [hconnect, Slot.closeSocket_mIsConnect, ht]
    cases t.mIsConnect <;> rfl
  · rw [hcalls, ht]
    cases t.mIsConnect <;> rfl

/-- A worker alone handles an accept as the model of a slot does, and reports that the connection
has come, or that it has gone. -/
theorem acceptCompletion_alone {k i : ℕ} (hw : s.workers[k]? = some ⟨i, .acceptCompletion⟩)
    (t : Slot) (wsaRecv : Bool) (curTimeSec : ℕ) :
    let connected := (t.onConnect wsaRecv).1
    ∃ m s', Runs.run step s (List.replicate m (.worker k connected)) = some s' ∧
      s'.mIsConnect i = (t.acceptCompletion wsaRecv curTimeSec).mIsConnect ∧
      s'.calls i = s.calls i ++ [if connected then .onConnect else .onClose] := by
  intro connected
  obtain ⟨m, s', hrun, hconnect, hcalls⟩ := run_alone hw connected 5
  rw [Slot.acceptCompletion_mIsConnect]
  refine ⟨m, s', hrun, ?_, ?_⟩
  · rw [hconnect]
    show _ = connected
    cases connected <;> rfl
  · rw [hcalls]
    cases connected <;> rfl

/-! ### Runs -/

/-- No slot has been used. -/
lemma counted_init : Counted {} := fun _ => rfl

lemma ordered_init : Ordered {} := ⟨rfl, fun _ => ⟨[], List.nil_prefix⟩⟩

/-- **The order of the callbacks.** In a run whose steps are undisturbed no null pointer is used and
the callbacks of each slot are in sessions, exactly if all steps come in turn. -/
theorem ordered_iff {es : List WorkerEvent} (h : Runs.Along step Undisturbed {} es) :
    Runs.Always step Ordered {} es ↔ Runs.Along step InTurn {} es :=
  Runs.always_iff_along_of_along (fun _ _ _ hs hd hstep => hs.step hd hstep)
    (fun _ e hs _ hordered => ordered_step_iff hs hordered e) counted_init ordered_init h

/-- A connection is accepted, sends five bytes and ends. -/
theorem ordered_once : Runs.Always step Ordered {}
    [.completion { m_eOperation := .accept, sessionIndex := 3 }, .worker 0 true, .worker 0 true,
      .worker 0 true,
      .completion { m_eOperation := .recv, sessionIndex := 3, dwIoSize := 5 }, .worker 0 true,
      .completion { m_eOperation := .recv, sessionIndex := 3 }, .worker 0 true, .worker 0 true,
      .worker 0 true] :=
  (ordered_iff (by decide)).mpr (by decide)

/-- **`OnClose` without `OnConnect`**: a connection is accepted, and the receive cannot be armed. -/
theorem close_without_connect : ¬∀ es : List WorkerEvent, Runs.Always step Ordered {} es := by
  intro h
  have hordered := (h [.completion { m_eOperation := .accept, sessionIndex := 3 }, .worker 0 true,
    .worker 0 false, .worker 0 true, .worker 0 true, .worker 0 true]).of_run rfl
  obtain ⟨b, hb⟩ := Sessions.inSessions_iff.mp (hordered.2 3)
  cases hb

end Workers

end CKGameServer
