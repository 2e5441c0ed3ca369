import CKGameServer.Library.Runs
import CKGameServer.Model.IOCPServer

/-!
The life of a slot (`AccepterThread`, `WokerThread`, `stClientInfo`).

`PostAccept` marks its slot with the time `UINT32_MAX` before it knows that there will be an accept,
and nobody takes the mark back. `WokerThread` does not look at the result of `BindRecv`.

* `SlotIo.Waiting`, `Accepting`, `Receiving`: a slot that the accepter thread will find, one with an
  accept under way, and a connection that is listened to. `SlotIo.Kept`: it is exactly one of these.
* `SlotIo.InOrder`: an accept is under way on a marked slot only, and a connection has a socket.
* `SlotIo.kept_step_iff`: what a step must find for the slot to be kept.
* `IOCPServer.kept_iff`: so it is throughout a run for all slots.
* `IOCPServer.lost_slot`: a slot is lost by one failure of `WSASocket`.
-/

namespace CKGameServer

namespace SlotIo

/-! ### The three conditions -/

/-- Not connected, and closed no later than now. -/
def Waiting (now : ℕ) (s : SlotIo) : Prop :=
  s.mIsConnect = false ∧ s.mLatestClosedTimeSec ≤ now

/-- Not connected, with exactly one `AcceptEx` outstanding. -/
def Accepting (s : SlotIo) : Prop := s.mIsConnect = false ∧ s.acceptExs = 1

/-- Connected, with exactly one `WSARecv` that is outstanding or whose completion is handled. -/
def Receiving (s : SlotIo) : Prop :=
  s.mIsConnect = true ∧ s.wsaRecvs.length + s.handling = 1

/-- Exactly one of the three. -/
def Kept (now : ℕ) (s : SlotIo) : Prop :=
  s.Waiting now ∧ ¬s.Accepting ∧ ¬s.Receiving ∨
    ¬s.Waiting now ∧ s.Accepting ∧ ¬s.Receiving ∨
      ¬s.Waiting now ∧ ¬s.Accepting ∧ s.Receiving

/-- An accept is under way on a slot that is marked and has a socket, and a connection has one. -/
structure InOrder (s : SlotIo) : Prop where
  accept : s.acceptExs = 0 ∨ s.acceptExs = 1 ∧ s.mIsConnect = false ∧
    s.mLatestClosedTimeSec = uint32Max ∧ s.mSocket ≠ none
  socket : s.mIsConnect = true → s.mSocket ≠ none

/-- What an event must find for the slot to be kept. An accept is posted, unless the clock has
reached the mark. A connection begins without receives of an earlier one. Its receives are completed
on the port, and go on. -/
def Keeps (now : ℕ) (s : SlotIo) : SlotEvent → Prop
  | .accepterThread wsaSocket acceptEx curTimeSec =>
    curTimeSec ≤ now → s.MayAccept curTimeSec →
      ((wsaSocket && acceptEx) = true ↔ now < uint32Max)
  | .acceptCompletion _ wsaRecv =>
    0 < s.acceptExs → wsaRecv = true → s.wsaRecvs.length + s.handling = 0
  | .acceptFailed => True
  | .recvCompletion k _ _ =>
    ∀ socket ∈ s.wsaRecvs[k]?, s.mIsConnect = true → socket ∈ s.associated
  | .recvHandled wsaRecv => 0 < s.handling → s.mIsConnect = true → wsaRecv = true
  | .closeSocket => True

variable {now : ℕ} {s : SlotIo}

lemma kept_of_connected (h : s.mIsConnect = true) :
    s.Kept now ↔ s.wsaRecvs.length + s.handling = 1 := by
  simp [Kept, Waiting, Accepting, Receiving, h]

lemma kept_of_disconnected (h : s.mIsConnect = false) :
    s.Kept now ↔ (s.acceptExs = 1 ↔ now < s.mLatestClosedTimeSec) := by
  simp only [Kept, Waiting, Accepting, Receiving, h]
  rw [← not_le]
  tauto

/-- Where only its receives differ from those of a slot that is kept. -/
lemma kept_iff_of_toSlot {t : SlotIo} (hslot : t.toSlot = s.toSlot)
    (haccepts : t.acceptExs = s.acceptExs) (hkept : s.Kept now) :
    t.Kept now ↔ (s.mIsConnect = true → t.wsaRecvs.length + t.handling = 1) := by
  cases hconnect : s.mIsConnect with
  | false =>
      refine iff_of_true ?_ fun h => by cases h
      rw [kept_of_disconnected (by rw [hslot]; exact hconnect), hslot, haccepts]
      exact (kept_of_disconnected hconnect).mp hkept
  | true =>
      rw [kept_of_connected (by rw [hslot]; exact hconnect)]
      simp

/-! ### The functions -/

lemma closeSocket_of_disconnected (h : s.mIsConnect = false) : s.closeSocket now = s := by
  rw [closeSocket, Slot.closeSocket, if_neg (by rw [h]; decide)]

/-- The accepter thread finds a slot that waits, on a pass a few seconds later. -/
lemma Waiting.mayAccept (h : s.Waiting now) {curTimeSec : ℕ}
    (hlater : now + reUseSessionWaitTimesec < curTimeSec) : s.MayAccept curTimeSec := by
  obtain ⟨hfree, hlatest⟩ := h
  exact ⟨hfree, by omega, by omega⟩

/-- A connection that is closed waits. -/
lemma kept_closeSocket (h : s.mIsConnect = true) (haccepts : s.acceptExs ≠ 1) :
    (s.closeSocket now).Kept now := by
  rw [closeSocket, Slot.closeSocket, if_pos h, kept_of_disconnected rfl]
  exact iff_of_false haccepts (lt_irrefl now)

lemma InOrder.closeSocket (hs : s.InOrder) (now : ℕ) : (s.closeSocket now).InOrder := by
  cases h : s.mIsConnect with
  | false => rwa [closeSocket_of_disconnected h]
  | true =>
      rw [SlotIo.closeSocket, Slot.closeSocket, if_pos h]
      refine ⟨?_, fun h => by cases h⟩
      rcases hs.accept with hnone | ⟨-, hfalse, -⟩
      · exact .inl hnone
      · cases h.symm.trans hfalse

/-- On a socket `BindRecv` succeeds where the call does. -/
lemma bindRecv_of_socket {socket : ℕ} (h : s.mSocket = some socket) (wsaRecv : Bool) :
    s.bindRecv wsaRecv =
      (wsaRecv, if wsaRecv then { s with wsaRecvs := s.wsaRecvs ++ [socket] } else s) := by
  rw [bindRecv, h]
  cases wsaRecv <;> rfl

/-- What `BindRecv` leaves alone. -/
lemma bindRecv_toSlot (s : SlotIo) (wsaRecv : Bool) :
    (s.bindRecv wsaRecv).2.toSlot = s.toSlot ∧
      (s.bindRecv wsaRecv).2.acceptExs = s.acceptExs := by
  rw [bindRecv]
  split
  · split <;> exact ⟨rfl, rfl⟩
  · exact ⟨rfl, rfl⟩

/-- What `BindIOCompletionPort` leaves alone. -/
lemma bindIOCompletionPort_fields (s : SlotIo) (createIoCompletionPort : Bool) :
    (s.bindIOCompletionPort createIoCompletionPort).toSlot = s.toSlot ∧
      (s.bindIOCompletionPort createIoCompletionPort).acceptExs = s.acceptExs ∧
      (s.bindIOCompletionPort createIoCompletionPort).wsaRecvs = s.wsaRecvs ∧
      (s.bindIOCompletionPort createIoCompletionPort).handling = s.handling := by
  rw [bindIOCompletionPort]
  split
  · split <;> exact ⟨rfl, rfl, rfl, rfl⟩
  · exact ⟨rfl, rfl, rfl, rfl⟩

/-- `OnConnect` on a slot with a socket: it is connected, and listened to if the call succeeds. -/
lemma onConnect_of_socket {socket : ℕ} (h : s.mSocket = some socket)
    (createIoCompletionPort wsaRecv : Bool) :
    ∃ s', s.onConnect createIoCompletionPort wsaRecv = (wsaRecv, s') ∧
      s'.toSlot = { s.toSlot with mIsConnect := true } ∧ s'.acceptExs = s.acceptExs ∧
      s'.handling = s.handling ∧
      s'.wsaRecvs.length = s.wsaRecvs.length + wsaRecv.toNat := by
  obtain ⟨hslot, haccepts, hrecvs, hhandling⟩ :=
    bindIOCompletionPort_fields { s with mIsConnect := true } createIoCompletionPort
  rw [onConnect, bindRecv_of_socket (by rw [hslot]; exact h)]
  refine ⟨_, rfl, ?_⟩
  cases wsaRecv with
  | false => exact ⟨hslot, haccepts, hhandling, congrArg List.length hrecvs⟩
  | true =>
      refine ⟨hslot, haccepts, hhandling, ?_⟩
      simp only [if_true, List.length_append, hrecvs]
      rfl

/-! ### The step -/

/-- **The accepter thread.** -/
lemma kept_postAccept_iff (hs : s.InOrder) (hkept : s.Kept now) {curTimeSec : ℕ}
    (hcur : curTimeSec ≤ now) (hmay : s.MayAccept curTimeSec) (wsaSocket acceptEx : Bool) :
    (s.postAccept wsaSocket acceptEx).InOrder ∧
      ((s.postAccept wsaSocket acceptEx).Kept now ↔
        ((wsaSocket && acceptEx) = true ↔ now < uint32Max)) := by
  obtain ⟨hfree, hlatest, -⟩ := hmay
  have hnone : s.acceptExs = 0 := by
    rcases hs.accept with hnone | ⟨hone, -, -, -⟩
    · exact hnone
    · have hlater := ((kept_of_disconnected hfree).mp hkept).mp hone
      omega
  have hslot : (s.postAccept wsaSocket acceptEx).mIsConnect = false ∧
      (s.postAccept wsaSocket acceptEx).mLatestClosedTimeSec = uint32Max ∧
      (wsaSocket = true → (s.postAccept wsaSocket acceptEx).mSocket ≠ none) := by
    rw [postAccept, Slot.postAccept]
    cases wsaSocket with
    | true => exact ⟨hfree, rfl, fun _ => Option.some_ne_none _⟩
    | false => exact ⟨hfree, rfl, fun h => by cases h⟩
  obtain ⟨hfree', hmark, hsocket⟩ := hslot
  have haccepts : (s.postAccept wsaSocket acceptEx).acceptExs =
      if wsaSocket && acceptEx then 1 else 0 := by
    show s.acceptExs + _ = _
    rw [hnone, Nat.zero_add]
  refine ⟨⟨?_, fun h => by cases hfree'.symm.trans h⟩, ?_⟩
  · rw [haccepts]
    split_ifs with hposted
    · exact .inr ⟨rfl, hfree', hmark, hsocket (Bool.and_eq_true_iff.mp hposted).1⟩
    · exact .inl rfl
  · rw [kept_of_disconnected hfree', haccepts, hmark]
    split_ifs with hposted <;> simp [hposted]

/-- **An accept is completed.** -/
lemma kept_acceptCompletion_iff (hs : s.InOrder) (haccept : 0 < s.acceptExs)
    (createIoCompletionPort wsaRecv : Bool) :
    (s.acceptCompletion createIoCompletionPort wsaRecv now).InOrder ∧
      ((s.acceptCompletion createIoCompletionPort wsaRecv now).Kept now ↔
        (wsaRecv = true → s.wsaRecvs.length + s.handling = 0)) := by
  obtain ⟨hone, -, -, hsocket⟩ := hs.accept.resolve_left haccept.ne'
  obtain ⟨socket, hsocket⟩ := Option.ne_none_iff_exists'.mp hsocket
  obtain ⟨s', hconnect, hslot, haccepts, hhandling, hrecvs⟩ :=
    onConnect_of_socket (s := { s with acceptExs := s.acceptExs - 1, pendingAccept := false })
      hsocket createIoCompletionPort wsaRecv
  have hconnected : s'.mIsConnect = true := by rw [hslot]
  have hnone : s'.acceptExs = 0 := by
    rw [haccepts]
    show s.acceptExs - 1 = 0
    omega
  have horder : s'.InOrder := by
    refine ⟨.inl hnone, fun _ => ?_⟩
    rw [hslot]
    show s.mSocket ≠ none
    rw [hsocket]
    exact Option.some_ne_none _
  rw [acceptCompletion, hconnect]
  cases wsaRecv with
  | false =>
      refine ⟨horder.closeSocket now, iff_of_true (kept_closeSocket hconnected ?_) fun h => ?_⟩
      · rw [hnone]
        decide
      · cases h
  | true =>
      refine ⟨horder, ?_⟩
      rw [if_pos rfl, kept_of_connected hconnected, hrecvs, hhandling]
      simp only [Bool.toNat_true, forall_const]
      omega

/-- A slot that is closed, or was before, is kept. -/
lemma kept_of_closeSocket (hs : s.InOrder) (hkept : s.mIsConnect = false → s.Kept now) :
    (s.closeSocket now).Kept now := by
  cases hconnect : s.mIsConnect with
  | false =>
      rw [closeSocket_of_disconnected hconnect]
      exact hkept hconnect
  | true =>
      refine kept_closeSocket hconnect ?_
      rcases hs.accept with hnone | ⟨-, hfalse, -⟩
      · rw [hnone]
        decide
      · cases hconnect.symm.trans hfalse

/-- **A receive is completed.** -/
lemma kept_recvCompletion_iff (hs : s.InOrder) (hkept : s.Kept now) {k socket : ℕ}
    (hrecv : s.wsaRecvs[k]? = some socket) (bSuccess : Bool) (dwIoSize : ℕ) :
    (s.recvCompletion k socket bSuccess dwIoSize now).InOrder ∧
      ((s.recvCompletion k socket bSuccess dwIoSize now).Kept now ↔
        (s.mIsConnect = true → socket ∈ s.associated)) := by
  obtain ⟨hk, -⟩ := List.getElem?_eq_some_iff.mp hrecv
  have hlength : (s.wsaRecvs.eraseIdx k).length + 1 = s.wsaRecvs.length := by
    rw [List.length_eraseIdx_of_lt hk]
    omega
  have horder : InOrder { s with wsaRecvs := s.wsaRecvs.eraseIdx k } := ⟨hs.accept, hs.socket⟩
  have hone := fun hconnect => (kept_of_connected hconnect).mp hkept
  have hcompleted : ∀ n, Kept now { s with wsaRecvs := s.wsaRecvs.eraseIdx k, handling := n } ↔
      (s.mIsConnect = true → (s.wsaRecvs.eraseIdx k).length + n = 1) :=
    fun n => kept_iff_of_toSlot (s := s) rfl rfl hkept
  rw [recvCompletion]
  simp only
  split_ifs with hport hfailed
  · refine ⟨horder.closeSocket now, iff_of_true (kept_of_closeSocket horder fun hfree => ?_)
      fun _ => hport⟩
    exact (hcompleted _).mpr fun hconnect => absurd (hconnect.symm.trans hfree) (by decide)
  · refine ⟨⟨hs.accept, hs.socket⟩, iff_of_true ?_ fun _ => hport⟩
    refine (hcompleted _).mpr fun hconnect => ?_
    have hone := hone hconnect
    omega
  · refine ⟨horder, (hcompleted _).trans (forall_congr' fun hconnect => ?_)⟩
    have hone := hone hconnect
    exact iff_of_false (by omega) hport

/-- **A receive has been handled.** -/
lemma kept_recvHandled_iff (hs : s.InOrder) (hkept : s.Kept now) (hhandling : 0 < s.handling)
    (wsaRecv : Bool) :
    (bindRecv { s with handling := s.handling - 1 } wsaRecv).2.InOrder ∧
      ((bindRecv { s with handling := s.handling - 1 } wsaRecv).2.Kept now ↔
        (s.mIsConnect = true → wsaRecv = true)) := by
  obtain ⟨hslot, haccepts⟩ := bindRecv_toSlot { s with handling := s.handling - 1 } wsaRecv
  have horder : (bindRecv { s with handling := s.handling - 1 } wsaRecv).2.InOrder := by
    refine ⟨?_, ?_⟩
    · rw [hslot, haccepts]
      exact hs.accept
    · rw [hslot]
      exact hs.socket
  refine ⟨horder, (kept_iff_of_toSlot (s := s) hslot haccepts hkept).trans
    (forall_congr' fun hconnect => ?_)⟩
  have hone := (kept_of_connected hconnect).mp hkept
  obtain ⟨socket, hsocket⟩ := Option.ne_none_iff_exists'.mp (hs.socket hconnect)
  rw [bindRecv_of_socket (s := { s with handling := s.handling - 1 }) hsocket]
  cases wsaRecv with
  | false =>
      refine iff_of_false (fun hone' => ?_) Bool.false_ne_true
      change s.wsaRecvs.length + (s.handling - 1) = 1 at hone'
      omega
  | true =>
      refine iff_of_true ?_ rfl
      show (s.wsaRecvs ++ [socket]).length + (s.handling - 1) = 1
      rw [List.length_append, List.length_singleton]
      omega

/-- **One step** of a slot in order leaves it in order, and keeps it exactly if it finds what it
must. -/
theorem kept_step_iff (hs : s.InOrder) (hkept : s.Kept now) (e : SlotEvent) :
    (∀ s', s.step now e = some s' → s'.InOrder) ∧
      ((∀ s', s.step now e = some s' → s'.Kept now) ↔ s.Keeps now e) := by
  have htaken : ∀ {t : SlotIo}, s.step now e = some t → t.InOrder →
      (t.Kept now ↔ s.Keeps now e) → (∀ s', s.step now e = some s' → s'.InOrder) ∧
        ((∀ s', s.step now e = some s' → s'.Kept now) ↔ s.Keeps now e) := by
    intro t ht horder hiff
    simp only [ht, Option.some.injEq, forall_eq']
    exact ⟨horder, hiff⟩
  have hnot : s.step now e = none → s.Keeps now e →
      (∀ s', s.step now e = some s' → s'.InOrder) ∧
        ((∀ s', s.step now e = some s' → s'.Kept now) ↔ s.Keeps now e) := by
    intro h hkeeps
    simp [h, hkeeps]
  cases e with
  | accepterThread wsaSocket acceptEx curTimeSec =>
      by_cases hcur : curTimeSec ≤ now
      · by_cases hmay : s.MayAccept curTimeSec
        · obtain ⟨horder, hiff⟩ := kept_postAccept_iff hs hkept hcur hmay wsaSocket acceptEx
          refine htaken (by rw [step, if_pos hcur, if_pos hmay]) horder (hiff.trans ?_)
          exact ⟨fun h _ _ => h, fun h => h hcur hmay⟩
        · exact htaken (by rw [step, if_pos hcur, if_neg hmay]) hs
            (iff_of_true hkept fun _ h => absurd h hmay)
      · exact hnot (if_neg hcur) fun h => absurd h hcur
  | acceptCompletion createIoCompletionPort wsaRecv =>
      by_cases haccept : 0 < s.acceptExs
      · obtain ⟨horder, hiff⟩ :=
          kept_acceptCompletion_iff hs haccept createIoCompletionPort wsaRecv
        refine htaken (if_pos haccept) horder (hiff.trans ?_)
        exact ⟨fun h _ => h, fun h => h haccept⟩
      · exact hnot (if_neg haccept) fun h => absurd h haccept
  | acceptFailed => exact hnot rfl trivial
  | recvCompletion k bSuccess dwIoSize =>
      cases hrecv : s.wsaRecvs[k]? with
      | none =>
          refine hnot (by rw [step, hrecv, Option.map_none]) fun socket h => ?_
          rw [hrecv] at h
          cases h
      | some socket =>
          obtain ⟨horder, hiff⟩ := kept_recvCompletion_iff hs hkept hrecv bSuccess dwIoSize
          refine htaken (by rw [step, hrecv, Option.map_some]) horder (hiff.trans ?_)
          rw [Keeps, hrecv]
          exact ⟨fun h socket' hsocket => Option.some.inj hsocket ▸ h, fun h => h socket rfl⟩
  | recvHandled wsaRecv =>
      by_cases hhandling : 0 < s.handling
      · obtain ⟨horder, hiff⟩ := kept_recvHandled_iff hs hkept hhandling wsaRecv
        refine htaken (if_pos hhandling) horder (hiff.trans ?_)
        exact ⟨fun h _ => h, fun h => h hhandling⟩
      · exact hnot (if_neg hhandling) fun h => absurd h hhandling
  | closeSocket =>
      exact htaken rfl (hs.closeSocket now)
        (iff_of_true (kept_of_closeSocket hs fun _ => hkept) trivial)

/-- Time passes: an accept that is under way must not be overtaken by the clock. -/
lemma kept_clock_iff (hs : s.InOrder) (hkept : s.Kept now) (seconds : ℕ) :
    s.Kept (now + seconds) ↔ (0 < s.acceptExs → now + seconds < uint32Max) := by
  cases hconnect : s.mIsConnect with
  | true =>
      refine iff_of_true ?_ fun haccept => ?_
      · rwa [kept_of_connected hconnect, ← kept_of_connected hconnect]
      · obtain ⟨-, hfalse, -⟩ := hs.accept.resolve_left haccept.ne'
        cases hconnect.symm.trans hfalse
  | false =>
      have hkept := (kept_of_disconnected hconnect).mp hkept
      rw [kept_of_disconnected hconnect]
      rcases hs.accept with hnone | ⟨hone, -, hmark, -⟩
      · rw [hnone] at hkept ⊢
        refine iff_of_true (iff_of_false Nat.zero_ne_one fun hlater => ?_)
          fun h => absurd h (lt_irrefl 0)
        exact Nat.zero_ne_one (hkept.mpr (by omega))
      · rw [hone, hmark]
        simp

end SlotIo

/-! ### All slots -/

namespace IOCPServer

/-- Every slot is in exactly one of the three conditions. -/
def AllKept (v : IOCPServer) : Prop := ∀ i, (v.mClientInfos i).Kept v.now

/-- What a step must find for all slots to be kept. -/
def Keeps (v : IOCPServer) : IOCPEvent → Prop
  | .clock seconds => ∀ i, 0 < (v.mClientInfos i).acceptExs → v.now + seconds < uint32Max
  | .slot i e => (v.mClientInfos i).Keeps v.now e

/-- All slots are in order. -/
def InOrder (v : IOCPServer) : Prop := ∀ i, (v.mClientInfos i).InOrder

variable {v : IOCPServer}

/-- **One step** of the server. -/
lemma allKept_step_iff (hv : v.InOrder) (hkept : v.AllKept) (e : IOCPEvent) :
    (∀ v', v.step e = some v' → v'.InOrder) ∧
      ((∀ v', v.step e = some v' → v'.AllKept) ↔ v.Keeps e) := by
  cases e with
  | clock seconds =>
      refine ⟨fun v' h => Option.some.inj h ▸ hv, ?_⟩
      rw [step, Keeps]
      simp only [Option.some.injEq, forall_eq']
      exact forall_congr' fun i => SlotIo.kept_clock_iff (hv i) (hkept i) seconds
  | slot i e =>
      obtain ⟨horder, hiff⟩ := SlotIo.kept_step_iff (hv i) (hkept i) e
      rw [Keeps, ← hiff, step]
      refine ⟨fun v' h j => ?_, fun h s' hs' => ?_, fun h v' hv' j => ?_⟩
      · obtain ⟨s', hs', rfl⟩ := Option.map_eq_some_iff.mp h
        by_cases hij : j = i
        · subst hij
          simpa using horder s' hs'
        · simpa [hij] using hv j
      · have hi := h _ (by rw [hs', Option.map_some]) i
        simp only [Function.update_self] at hi
        exact hi
      · obtain ⟨s', hs', rfl⟩ := Option.map_eq_some_iff.mp hv'
        by_cases hij : j = i
        · subst hij
          simpa using h s' hs'
        · simpa [hij] using hkept j

/-- A slot that has never been used. -/
lemma inOrder_init (now : ℕ) : (init now).InOrder := fun _ => ⟨.inl rfl, fun h => by cases h⟩

lemma allKept_init (now : ℕ) : (init now).AllKept := fun _ =>
  (SlotIo.kept_of_disconnected rfl).mpr (iff_of_false Nat.zero_ne_one (Nat.not_lt_zero now))

/-- **No slot is lost** throughout a run exactly if every step finds what it must. -/
theorem kept_iff (now : ℕ) (es : List IOCPEvent) :
    Runs.Always step AllKept (init now) es ↔ Runs.Along step Keeps (init now) es := by
  rw [Runs.always_iff_along_keeps es (allKept_init now)]
  exact Runs.along_iff_along (P := fun v => v.InOrder ∧ v.AllKept)
    (fun v e hv => (allKept_step_iff hv.1 hv.2 e).2)
    (fun v e v' hv hkeeps h => ⟨(allKept_step_iff hv.1 hv.2 e).1 v' h, hkeeps v' h⟩) es
    ⟨inOrder_init now, allKept_init now⟩

/-- **A slot is lost**: one call of `WSASocket` fails. -/
theorem lost_slot :
    ¬∀ (now : ℕ) (es : List IOCPEvent), Runs.Always step AllKept (init now) es := by
  intro h
  have hall := (h 4 [.slot 0 (.accepterThread false true 4)]).2 _ rfl
  have hslot := (SlotIo.kept_of_disconnected rfl).mp (hall.head 0)
  exact absurd (hslot.mpr (by decide)) (by decide)

end IOCPServer

end CKGameServer
