import CKGameServer.Buffer.ClientReader

/-!
The end of a connection (`ReadTcpDataThread`, `NetworkClient.Close`).

`Receive` returns 0 once the server has closed the connection, and both phases of the loop go on
with that as if nothing had happened.

* `Connection.after`: the thread after a number of iterations; `Connection.IsSchedule`: what
  `Receive` may return in them.
* `Reader.Placed.iterate_some`: an iteration in which `Receive` returns does not leave the loop.
* `Connection.Open.pass`: nor does any iteration; it goes on or ends with an exception.
* `Connection.never_ends`: no stream is followed by `OnDisconnect`.
-/

namespace CKGameServer

open Memory

namespace NetworkClient

namespace Reader

variable {r : Reader} {bytes : Bytes}

/-- **An iteration in which `Receive` returns** goes on. -/
lemma Placed.iterate_some (hr : r.Placed) {call : ReceiveCall} (hcall : r.receiveCall = some call)
    (hbytes : bytes.length ≤ call.size) :
    ∃ r' posted, r.iterate (some bytes) = .next r' posted ∧ r'.Placed := by
  rw [receiveCall] at hcall
  cases hbase : r.bBase with
  | false =>
      rw [hbase] at hcall
      obtain rfl := Option.some.inj hcall
      change (bytes.length : ℤ) ≤ packetBaseSize - r.offset at hbytes
      rw [iterate_header hbase]
      exact ⟨_, _, rfl, hr.header_next hbase (by omega) _⟩
  | true =>
      rw [hbase, if_pos rfl] at hcall
      obtain ⟨b, hb, rfl⟩ := Option.map_eq_some_iff.mp hcall
      change (bytes.length : ℤ) ≤ r.pbase.length - r.offset at hbytes
      obtain ⟨hlength, -, hoffset⟩ := hr.allocated hbase hb
      rw [iterate_payload hbase hb, iteratePayload]
      simp only
      split_ifs
      · exact ⟨_, _, rfl, hr.payload_next hbase hb (by omega) _⟩
      · exact ⟨_, _, rfl, placed_reset r⟩
      · exact ⟨_, _, rfl, hr.payload_next hbase hb (k := 0) (by omega) _⟩

/-- Where the buffer cannot hold the header, there is an exception. -/
lemma iterate_of_receiveCall_eq_none (hcall : r.receiveCall = none) (received : Option Bytes) :
    r.iterate received = .uncaught := by
  rw [receiveCall] at hcall
  cases hbase : r.bBase with
  | false =>
      rw [hbase] at hcall
      cases hcall
  | true =>
      rw [hbase, if_pos rfl] at hcall
      rw [iterate, if_pos hbase, Option.map_eq_none_iff.mp hcall]

end Reader

namespace Connection

/-- The thread after `n` iterations in which the network delivers `ks`. -/
def after (stream : Bytes) (ks : ℕ → ℕ) : ℕ → Connection
  | 0 => start stream
  | n + 1 => (after stream ks n).pass (ks n)

/-- `Receive` can return these numbers of bytes. Behind the end of the stream it returns 0. -/
def IsSchedule (stream : Bytes) (ks : ℕ → ℕ) : Prop :=
  ∀ n, (after stream ks n).CanReceive (ks n)

/-- The thread has left its loop, closed the socket and raised `OnDisconnect`. -/
def Ended (c : Connection) : Prop := c.socket = false ∧ c.onDisconnect = true ∧ c.thrown = false

/-- The socket is open. -/
structure Open (c : Connection) : Prop where
  socket : c.socket = true
  placed : c.reader.Placed

variable {c : Connection}

/-- **No iteration leaves the loop.** -/
lemma Open.pass (h : c.Open) {k : ℕ} (hk : c.CanReceive k) : (c.pass k).Open := by
  by_cases hthrown : c.thrown = true
  · rw [Connection.pass, if_neg fun hrun => hrun.2 hthrown]
    exact h
  · cases hcall : c.reader.receiveCall with
    | none =>
        rw [Connection.pass, if_pos ⟨h.socket, hthrown⟩,
          Reader.iterate_of_receiveCall_eq_none hcall]
        exact ⟨h.socket, h.placed⟩
    | some call =>
        obtain ⟨hlength, hsize⟩ := hk
        have hfits : ((c.stream.take k).length : ℤ) ≤ call.size := by
          rw [List.length_take_of_le hlength]
          exact (hsize call hcall).1
        obtain ⟨r', posted, hnext, hr'⟩ := h.placed.iterate_some hcall hfits
        rw [pass_of_placed h.socket (Bool.eq_false_of_not_eq_true hthrown) h.placed hcall hnext]
        exact ⟨h.socket, hr'⟩

lemma open_start (stream : Bytes) : (start stream).Open := ⟨rfl, Reader.placed_reset {}⟩

lemma open_after {stream : Bytes} {ks : ℕ → ℕ} (hks : IsSchedule stream ks) (n : ℕ) :
    (after stream ks n).Open := by
  induction n with
  | zero => exact open_start stream
  | succ n ih => exact ih.pass (hks n)

/-- The most bytes that `Receive` can return. -/
def most (c : Connection) : ℕ :=
  match c.reader.receiveCall with
  | none => 0
  | some call => min call.size.toNat c.stream.length

lemma Open.canReceive_most (h : c.Open) : c.CanReceive c.most := by
  rw [most]
  cases hcall : c.reader.receiveCall with
  | none =>
      refine ⟨Nat.zero_le _, fun call hmem => ?_⟩
      rw [hcall] at hmem
      cases hmem
  | some call =>
      obtain ⟨hsize, -⟩ := h.placed.fits hcall
      refine ⟨min_le_right _ _, fun call' hmem => ?_⟩
      obtain rfl := Option.some.inj (hcall.symm.trans hmem)
      simp only
      refine ⟨by omega, fun hpos hne => ?_⟩
      have hlength := List.length_pos_of_ne_nil hne
      omega

/-- The thread on a network that always delivers all it can. -/
def eager (stream : Bytes) : ℕ → Connection
  | 0 => start stream
  | n + 1 => (eager stream n).pass (eager stream n).most

lemma open_eager (stream : Bytes) (n : ℕ) : (eager stream n).Open := by
  induction n with
  | zero => exact open_start stream
  | succ n ih => exact ih.pass ih.canReceive_most

lemma after_eager (stream : Bytes) (n : ℕ) :
    after stream (fun n => (eager stream n).most) n = eager stream n := by
  induction n with
  | zero => rfl
  | succ n ih => rw [after, ih, eager]

/-- The network always has a way to go on. -/
lemma exists_schedule (stream : Bytes) : ∃ ks, IsSchedule stream ks :=
  ⟨_, fun n => by
    rw [after_eager]
    exact (open_eager stream n).canReceive_most⟩

/-- **The thread never ends with `OnDisconnect`**, whatever stream comes before the end of the
connection, and however it is split. -/
theorem never_ends (stream : Bytes) :
    (∃ ks, IsSchedule stream ks) ∧
      ∀ ks, IsSchedule stream ks → ¬∃ n, (after stream ks n).Ended := by
  refine ⟨exists_schedule stream, fun ks hks => ?_⟩
  rintro ⟨n, hsocket, -⟩
  rw [(open_after hks n).socket] at hsocket
  cases hsocket

/-- An iteration without bytes leaves the stream as it is. -/
lemma stream_pass_zero (c : Connection) : (c.pass 0).stream = c.stream := by
  rw [Connection.pass]
  split
  · split <;> rfl
  · rfl

lemma Open.canReceive_zero (h : c.Open) (hempty : c.stream = []) : c.CanReceive 0 :=
  ⟨Nat.zero_le _, fun _ hcall => ⟨(h.placed.fits hcall).1, fun _ hne => absurd hempty hne⟩⟩

/-- A connection that is closed at once. -/
lemma isSchedule_nil : IsSchedule [] fun _ => 0 := by
  have hempty : ∀ n, (after [] (fun _ => 0) n).Open ∧ (after [] (fun _ => 0) n).stream = [] := by
    intro n
    induction n with
    | zero => exact ⟨open_start [], rfl⟩
    | succ n ih =>
        exact ⟨ih.1.pass (ih.1.canReceive_zero ih.2), (stream_pass_zero _).trans ih.2⟩
  exact fun n => (hempty n).1.canReceive_zero (hempty n).2

/-- **Nothing is sent**, and the connection is closed. -/
theorem empty_stream_never_ends :
    ¬∀ (stream : Bytes) (ks : ℕ → ℕ), IsSchedule stream ks → ∃ n, (after stream ks n).Ended := by
  intro h
  obtain ⟨n, hsocket, -⟩ := h [] (fun _ => 0) isSchedule_nil
  rw [(open_after isSchedule_nil n).socket] at hsocket
  cases hsocket

end Connection

end NetworkClient

end CKGameServer
