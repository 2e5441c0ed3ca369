import Mathlib.Data.List.ReduceOption
import CKGameServer.Redis.Commands
import CKGameServer.Redis.Replies

/-!
Calls of `redisvCommand` over one connection.

* `RedisLink`, `RedisLink.step`: the context with what has been sent, received and answered. A
  call comes with the answers of the socket, so a run is any way to split what is sent and received.
* `Causal`: Redis answers the commands in their order, and none before it has been given.
* `Receives`: bytes of values have arrived at the reader.
* `Ordered`: the invariant of a run. `Aligned` is that of a run without an
  interrupted `send`.
* `replies_inOrder`: the commands go out as they are given, and the replies that are handed out are
  those to the first commands; a null reply without an interrupted `send` is the first of no others.
-/

namespace CKGameServer

open Memory Incremental Runs

/-! ### The reader -/

variable {strtod : Bytes → Bool} {ws : List Resp.Value} {r : RedisReader} {u : Bytes}

/-- The reader has been fed the bytes `u` since the last reply. -/
def Receives (strtod : Bytes → Bool) (r : RedisReader) (u : Bytes) : Prop :=
  ∃ s v, Reading r s v ∧ (replyReader strtod).Pending (some rootStack) (some s, v) u

/-- The values can be read. -/
structure Readable (strtod : Bytes → Bool) (ws : List Resp.Value) : Prop where
  valid : ∀ w ∈ ws, w.Valid (takesDouble strtod)
  depth : ∀ w ∈ ws, w.depth ≤ 8

/-- The first value has not arrived. -/
def Incomplete (ws : List Resp.Value) (u : Bytes) : Prop :=
  ∀ w ∈ ws.head?, u.length < w.bytes.length

lemma Incomplete.not_arrived (h : Incomplete ws u) {w : Resp.Value} {ws' : List Resp.Value}
    {u' : Bytes} (hws : ws = w :: ws') (hu : u = w.bytes ++ u') : False := by
  have hlt := h w (by rw [hws]; rfl)
  rw [hu, List.length_append] at hlt
  omega

lemma receives_init : Receives strtod {} [] := ⟨rootStack, [], reading_init, Pending.refl _ []⟩

lemma Receives.err (h : Receives strtod r u) : r.err = none := by
  obtain ⟨s, v, hr, -⟩ := h
  exact hr.err

lemma Receives.feed (h : Receives strtod r u) (buf : Bytes) :
    ∃ r', redisReaderFeed r buf = (true, r') ∧ Receives strtod r' (u ++ buf) := by
  obtain ⟨s, v, hr, hp⟩ := h
  obtain ⟨r', hfeed, hr'⟩ := redisReaderFeed_spec hr buf
  exact ⟨r', hfeed, s, v ++ buf, hr', hp.feed buf⟩

/-- What the reader answers where the values `ws` are to come and `u` has been fed, and the reader
after it. -/
inductive Got (strtod : Bytes → Bool) (ws : List Resp.Value) (u : Bytes) :
    Option RedisReply × RedisReader → Prop
  | reply {w : Resp.Value} {ws' : List Resp.Value} {u' : Bytes} {r : RedisReader}
      (hws : ws = w :: ws') (hu : u = w.bytes ++ u') (hr : Receives strtod r u') :
      Got strtod ws u (some (replyOf w), r)
  | null {r : RedisReader} (hinc : Incomplete ws u) (hr : Receives strtod r u) :
      Got strtod ws u (none, r)

/-- Either the first value has arrived and is read, or none is. -/
lemma read_arrived (hws : Readable strtod ws) (hu : u <+: Resp.bytesOf ws) :
    (∃ w ws' u', ws = w :: ws' ∧ u = w.bytes ++ u' ∧
      (replyReader strtod).read (some rootStack) u =
        (some (.ok (replyOf w)), some rootStack, u')) ∨
      Incomplete ws u ∧ ((replyReader strtod).read (some rootStack) u).1 = none := by
  obtain ⟨t, ht⟩ := hu
  cases ws with
  | nil =>
      obtain rfl := (List.append_eq_nil_iff.mp ht).1
      refine .inr ⟨by simp [Incomplete], ?_⟩
      have hnil : readerStep strtod (some rootStack) [] = none := readerStep_nil rootStack
      exact congrArg Prod.fst (read_of_step_none hnil)
  | cons w ws =>
      have hframe :=
        frame_value (hws.valid w List.mem_cons_self) (hws.depth w List.mem_cons_self)
      rw [Resp.bytesOf] at ht
      by_cases hle : w.bytes.length ≤ u.length
      · obtain ⟨u', rfl⟩ : w.bytes <+: u :=
          List.prefix_of_prefix_length_le ⟨_, ht.symm⟩ ⟨t, rfl⟩ hle
        exact .inl ⟨w, ws, u', rfl, rfl, hframe.read_append u'⟩
      · have hlt := Nat.lt_of_not_le hle
        refine .inr ⟨?_, hframe.read_fst_of_lt ht hlt⟩
        rintro w' ⟨⟩
        exact hlt

/-- A call for a reply. -/
lemma Receives.get (h : Receives strtod r u) (hws : Readable strtod ws)
    (hu : u <+: Resp.bytesOf ws) :
    ∃ reply r', redisReaderGetReply strtod r = (some reply, r') ∧ Got strtod ws u (reply, r') := by
  obtain ⟨s, v, hr, hp⟩ := h
  have hanswer : Answer strtod s v (redisReaderGetReply strtod r) := redisReaderGetReply_spec hr
  have hread := hp.read
  simp only at hread
  generalize redisReaderGetReply strtod r = answer at hanswer
  rcases read_arrived hws hu with ⟨w, ws', u', rfl, rfl, hvalue⟩ | ⟨hinc, hnone⟩
  · rw [hvalue] at hread
    cases hanswer with
    | reply r' w' v' hw hr' =>
        rw [hread] at hw
        obtain ⟨rfl, rfl⟩ : replyOf w = w' ∧ u' = v' := by simpa using hw
        exact ⟨_, _, rfl, .reply rfl rfl ⟨rootStack, u', hr', Pending.refl _ u'⟩⟩
    | waits r' s' v' hw hr' => simp [hread] at hw
    | error r' e v' hw hr' => simp [hread] at hw
  · cases hanswer with
    | reply r' w' v' hw hr' =>
        rw [← hread, hw] at hnone
        cases hnone
    | waits r' s' v' hw hr' =>
        have hpending := hp.get_none hnone
        rw [hw] at hpending
        exact ⟨_, _, rfl, .null hinc ⟨s', v', hr', hpending⟩⟩
    | error r' e v' hw hr' =>
        rw [← hread, hw] at hnone
        cases hnone

/-! ### The socket -/

/-- How many bytes a call of `send` takes. -/
def SendResult.count : SendResult → ℕ
  | .sent n => n
  | .interrupted | .failed => 0

/-- The bytes that a call of `recv` brings. -/
def RecvResult.bytes : RecvResult → Bytes
  | .received buf => buf
  | .interrupted | .timedOut | .closed | .failed => []

/-- The number of bytes that calls of `send` take. -/
def sentBytes (sends : List SendResult) : ℕ := (sends.map SendResult.count).sum

/-- The bytes that calls of `recv` bring. -/
def receivedBytes (recvs : List RecvResult) : Bytes := recvs.flatMap RecvResult.bytes

variable {c c' : RedisContext} {sends : List SendResult} {recvs : List RecvResult}

/-- How the loop that writes ends. -/
structure Written (sends : List SendResult) (c : RedisContext) (ok : Bool) (c' : RedisContext) :
    Prop where
  reader : c'.reader = c.reader
  obuf : c'.obuf = c.obuf.drop (sentBytes sends)
  done : ok = true → c'.obuf = [] ∧ c.err = none ∧ c'.err = none
  failed : ok = false → c'.err ≠ none ∨ .interrupted ∈ sends

lemma writeUntilDone_spec {ok : Bool} (h : writeUntilDone sends c = some (ok, c')) :
    Written sends c ok c' := by
  induction sends generalizing c with
  | nil =>
      rw [writeUntilDone] at h
      split_ifs at h with herr hobuf
      · obtain ⟨rfl, rfl⟩ := Prod.mk.inj (Option.some.inj h)
        exact ⟨rfl, rfl, nofun, fun _ => .inl herr⟩
      · obtain ⟨rfl, rfl⟩ := Prod.mk.inj (Option.some.inj h)
        have herr := not_not.mp herr
        exact ⟨rfl, rfl, fun _ => ⟨hobuf, herr, herr⟩, nofun⟩
  | cons e sends ih =>
      have hgo : ¬(c.err ≠ none ∨ c.obuf = []) := fun hstop => by
        rw [writeUntilDone, if_pos hstop] at h
        cases h
      have herr : c.err = none := not_not.mp (not_or.mp hgo).1
      rw [writeUntilDone, if_neg hgo] at h
      cases e with
      | sent n =>
          simp only [RedisContext.redisBufferWrite, RedisContext.redisNetWrite] at h
          cases hempty : (c.obuf.drop n).isEmpty with
          | false =>
              rw [hempty] at h
              obtain ⟨hreader, hobuf, hdone, hfailed⟩ := ih h
              refine ⟨hreader, ?_, hdone, fun hok => (hfailed hok).imp_right fun hmem => ?_⟩
              · rw [hobuf, List.drop_drop]
                rfl
              · exact List.mem_cons_of_mem _ hmem
          | true =>
              rw [hempty] at h
              simp only at h
              split_ifs at h with hsends
              obtain ⟨rfl, rfl⟩ := Prod.mk.inj (Option.some.inj h)
              subst hsends
              have hnil : c.obuf.drop n = [] := List.isEmpty_iff.mp hempty
              exact ⟨rfl, by simp [sentBytes, SendResult.count], fun _ => ⟨hnil, herr, herr⟩, nofun⟩
      | interrupted =>
          simp only [RedisContext.redisBufferWrite, RedisContext.redisNetWrite] at h
          split_ifs at h with hsends
          obtain ⟨rfl, rfl⟩ := Prod.mk.inj (Option.some.inj h)
          subst hsends
          exact ⟨rfl, rfl, nofun, fun _ => .inr List.mem_cons_self⟩
      | failed =>
          simp only [RedisContext.redisBufferWrite, RedisContext.redisNetWrite] at h
          split_ifs at h with hsends
          obtain ⟨rfl, rfl⟩ := Prod.mk.inj (Option.some.inj h)
          subst hsends
          exact ⟨rfl, rfl, nofun, fun _ => .inl (by simp [RedisContext.setError])⟩

/-- The loop that writes fails without an error where its last call is interrupted, and only
there. -/
lemma writeUntilDone_err {ok : Bool} (h : writeUntilDone sends c = some (ok, c')) :
    ok = false ∧ c'.err = none ↔ sends.getLast? = some .interrupted := by
  induction sends generalizing c with
  | nil =>
      rw [writeUntilDone] at h
      split_ifs at h with herr hobuf
      · obtain ⟨rfl, rfl⟩ := Prod.mk.inj (Option.some.inj h)
        simpa using herr
      · obtain ⟨rfl, rfl⟩ := Prod.mk.inj (Option.some.inj h)
        simp
  | cons e sends ih =>
      have hgo : ¬(c.err ≠ none ∨ c.obuf = []) := fun hstop => by
        rw [writeUntilDone, if_pos hstop] at h
        cases h
      have herr : c.err = none := not_not.mp (not_or.mp hgo).1
      rw [writeUntilDone, if_neg hgo] at h
      cases e with
      | sent n =>
          simp only [RedisContext.redisBufferWrite, RedisContext.redisNetWrite] at h
          cases hempty : (c.obuf.drop n).isEmpty with
          | false =>
              rw [hempty] at h
              cases sends with
              | nil =>
                  have hne : c.obuf.drop n ≠ [] := fun hnil => by simp [hnil] at hempty
                  simp [writeUntilDone, herr, hne] at h
              | cons e' sends => rw [ih h, List.getLast?_cons_cons]
          | true =>
              rw [hempty] at h
              simp only at h
              split_ifs at h with hsends
              obtain ⟨rfl, rfl⟩ := Prod.mk.inj (Option.some.inj h)
              subst hsends
              simp
      | interrupted =>
          simp only [RedisContext.redisBufferWrite, RedisContext.redisNetWrite] at h
          split_ifs at h with hsends
          obtain ⟨rfl, rfl⟩ := Prod.mk.inj (Option.some.inj h)
          subst hsends
          simpa using herr
      | failed =>
          simp only [RedisContext.redisBufferWrite, RedisContext.redisNetWrite] at h
          split_ifs at h with hsends
          obtain ⟨rfl, rfl⟩ := Prod.mk.inj (Option.some.inj h)
          subst hsends
          simp [RedisContext.setError]

/-- How a call for a reply ends, where the values `ws` are to come and `u` has arrived of them: with
a reply that was there already, with one that arrives, or without one. -/
inductive Replied (strtod : Bytes → Bool) (ws : List Resp.Value) (u : Bytes)
    (sends : List SendResult) (recvs : List RecvResult) (c : RedisContext) :
    Option RedisReply × RedisContext → Prop
  | buffered {w : Resp.Value} {ws' : List Resp.Value} {u' : Bytes} {c' : RedisContext}
      (hws : ws = w :: ws') (hu : u = w.bytes ++ u') (hsends : sends = []) (hrecvs : recvs = [])
      (hr : Receives strtod c'.reader u') (hobuf : c'.obuf = c.obuf) (herr : c'.err = c.err) :
      Replied strtod ws u sends recvs c (some (replyOf w), c')
  | answered {w : Resp.Value} {ws' : List Resp.Value} {u' : Bytes} {c' : RedisContext}
      (hinc : Incomplete ws u) (hws : ws = w :: ws') (hu : u ++ receivedBytes recvs = w.bytes ++ u')
      (hr : Receives strtod c'.reader u') (hobuf : c'.obuf = c.obuf.drop (sentBytes sends))
      (hdone : c'.obuf = []) (hlast : sends.getLast? ≠ some .interrupted) (herr : c.err = none)
      (herr' : c'.err = none) :
      Replied strtod ws u sends recvs c (some (replyOf w), c')
  | failed {c' : RedisContext} (hinc : Incomplete ws (u ++ receivedBytes recvs))
      (hr : Receives strtod c'.reader (u ++ receivedBytes recvs))
      (hobuf : c'.obuf = c.obuf.drop (sentBytes sends))
      (herr : c'.err ≠ none ∨ .interrupted ∈ sends) :
      Replied strtod ws u sends recvs c (none, c')

/-- Bytes that arrive go to the reader; a call that fails brings none. -/
lemma redisBufferRead_spec {u : Bytes} (hr : Receives strtod c.reader u) (herr : c.err = none)
    (e : RecvResult) :
    ∃ ok c', c.redisBufferRead e = (ok, c') ∧ c'.obuf = c.obuf ∧
      Receives strtod c'.reader (u ++ e.bytes) ∧ (ok = true → c'.err = none) ∧
      (ok = false → c'.err ≠ none ∧ e.bytes = []) := by
  rw [RedisContext.redisBufferRead, if_neg (not_not.mpr herr)]
  cases e with
  | received buf =>
      simp only [RedisContext.redisNetRead, RecvResult.bytes]
      split_ifs with hbuf
      · subst hbuf
        exact ⟨true, c, rfl, rfl, by rwa [List.append_nil], fun _ => herr, Bool.noConfusion⟩
      · obtain ⟨r', hfeed, hr'⟩ := hr.feed buf
        rw [hfeed]
        exact ⟨true, _, rfl, rfl, hr', fun _ => herr, Bool.noConfusion⟩
  | interrupted =>
      exact ⟨true, c, rfl, rfl, by rwa [RecvResult.bytes, List.append_nil], fun _ => herr,
        Bool.noConfusion⟩
  | timedOut | closed | failed =>
      exact ⟨false, _, rfl, rfl, by rwa [RecvResult.bytes, List.append_nil],
        Bool.noConfusion, fun _ => ⟨by simp [RedisContext.setError], rfl⟩⟩

/-- A call for a reply from the reader. -/
lemma redisGetReplyFromReader_spec {ws : List Resp.Value} (hws : Readable strtod ws) {u : Bytes}
    (hr : Receives strtod c.reader u) (hu : u <+: Resp.bytesOf ws) :
    ∃ reply r', c.redisGetReplyFromReader strtod = (some reply, { c with reader := r' }) ∧
      Got strtod ws u (reply, r') := by
  obtain ⟨reply, r', hget, hgot⟩ := hr.get hws hu
  exact ⟨reply, r', by rw [RedisContext.redisGetReplyFromReader, hget], hgot⟩

/-- How the loop that reads ends. -/
inductive Read (strtod : Bytes → Bool) (ws : List Resp.Value) (u : Bytes) (recvs : List RecvResult)
    (c : RedisContext) : Option RedisReply × RedisContext → Prop
  | answered {w : Resp.Value} {ws' : List Resp.Value} {u' : Bytes} {c' : RedisContext}
      (hws : ws = w :: ws') (hu : u ++ receivedBytes recvs = w.bytes ++ u')
      (hr : Receives strtod c'.reader u') (hobuf : c'.obuf = c.obuf) (herr : c'.err = none) :
      Read strtod ws u recvs c (some (replyOf w), c')
  | failed {c' : RedisContext} (hinc : Incomplete ws (u ++ receivedBytes recvs))
      (hr : Receives strtod c'.reader (u ++ receivedBytes recvs)) (hobuf : c'.obuf = c.obuf)
      (herr : c'.err ≠ none) : Read strtod ws u recvs c (none, c')

lemma readUntilReply_spec {ws : List Resp.Value} (hws : Readable strtod ws) {u : Bytes}
    (hr : Receives strtod c.reader u) (hinc : Incomplete ws u) (herr : c.err = none)
    (hu : u ++ receivedBytes recvs <+: Resp.bytesOf ws) {p : Option RedisReply × RedisContext}
    (h : readUntilReply strtod recvs c = some p) : Read strtod ws u recvs c p := by
  induction recvs generalizing c u with
  | nil => cases h
  | cons e recvs ih =>
      have hbytes : receivedBytes (e :: recvs) = e.bytes ++ receivedBytes recvs := rfl
      rw [hbytes, ← List.append_assoc] at hu
      obtain ⟨ok, c₁, hread, hobuf, hr₁, hok, hfail⟩ := redisBufferRead_spec hr herr e
      rw [readUntilReply, hread] at h
      cases ok with
      | false =>
          obtain ⟨herr₁, hempty⟩ := hfail rfl
          simp only at h
          split_ifs at h with hrecvs
          obtain rfl := Option.some.inj h
          subst hrecvs
          have hall : u ++ receivedBytes [e] = u ++ e.bytes := by simp [receivedBytes]
          exact .failed (by simpa [hall, hempty] using hinc) (hall ▸ hr₁) hobuf herr₁
      | true =>
          obtain ⟨reply, r', hget, hgot⟩ := redisGetReplyFromReader_spec hws hr₁
            ((List.prefix_append _ _).trans hu)
          simp only [hget] at h
          cases hgot with
          | @reply w ws' u' _ hws' hu' hr' =>
              simp only at h
              split_ifs at h with hrecvs
              obtain rfl := Option.some.inj h
              subst hrecvs
              have hall : u ++ receivedBytes [e] = u ++ e.bytes := by simp [receivedBytes]
              exact .answered hws' (hall.trans hu') hr' hobuf (hok rfl)
          | null hinc' hr' =>
              have hrest := ih (c := { c₁ with reader := r' }) hr' hinc' (hok rfl) hu h
              have hall : u ++ e.bytes ++ receivedBytes recvs =
                  u ++ receivedBytes (e :: recvs) := by rw [hbytes, List.append_assoc]
              cases hrest with
              | answered hws' hu' hr' hobuf' herr' =>
                  exact .answered hws' (hall ▸ hu') hr' (hobuf'.trans hobuf) herr'
              | failed hinc' hr' hobuf' herr' =>
                  exact .failed (hall ▸ hinc') (hall ▸ hr') (hobuf'.trans hobuf) herr'

/-- A call for a reply. -/
lemma redisGetReply_spec {ws : List Resp.Value} (hws : Readable strtod ws) {u : Bytes}
    (hr : Receives strtod c.reader u) (hu : u ++ receivedBytes recvs <+: Resp.bytesOf ws)
    {p : Option RedisReply × RedisContext}
    (h : redisGetReply strtod sends recvs c = some p) :
    Replied strtod ws u sends recvs c p := by
  obtain ⟨reply, r', hget, hgot⟩ :=
    redisGetReplyFromReader_spec hws hr ((List.prefix_append _ _).trans hu)
  rw [redisGetReply, hget] at h
  cases hgot with
  | @reply w ws' u' _ hws' hu' hr' =>
      simp only at h
      split_ifs at h with hnil
      obtain rfl := Option.some.inj h
      exact .buffered hws' hu' hnil.1 hnil.2 hr' rfl rfl
  | null hinc hr' =>
      simp only at h
      cases hwrite : writeUntilDone sends { c with reader := r' } with
      | none => simp [hwrite] at h
      | some q =>
          obtain ⟨ok, c₁⟩ := q
          obtain ⟨hreader, hobuf, hdone, hfailed⟩ := writeUntilDone_spec hwrite
          have hr₁ : Receives strtod c₁.reader u := by rw [hreader]; exact hr'
          rw [hwrite] at h
          cases ok with
          | false =>
              simp only at h
              split_ifs at h with hrecvs
              obtain rfl := Option.some.inj h
              subst hrecvs
              have hall : u ++ receivedBytes [] = u := List.append_nil u
              exact .failed (hall.symm ▸ hinc) (hall.symm ▸ hr₁) hobuf (hfailed rfl)
          | true =>
              obtain ⟨hnil, herr, herr₁⟩ := hdone rfl
              have hlast : sends.getLast? ≠ some .interrupted := fun hlast => by
                simpa using ((writeUntilDone_err hwrite).mpr hlast).1
              have hread := readUntilReply_spec hws hr₁ hinc herr₁ hu h
              cases hread with
              | answered hws' hu' hr₂ hobuf' herr' =>
                  exact .answered hinc hws' hu' hr₂ (hobuf'.trans hobuf) (hobuf'.trans hnil) hlast
                    herr herr'
              | failed hinc' hr₂ hobuf' herr' =>
                  exact .failed hinc' hr₂ (hobuf'.trans hobuf) (.inl herr')

/-! ### Runs -/

/-- A call of `redisvCommand`, and what its calls of the socket answer. -/
structure CommandEvent where
  format : Bytes
  ap : List FormatArg
  sends : List SendResult
  recvs : List RecvResult

/-- A context, the commands it has been given, what has gone over its connection, and the replies
that have been handed out. -/
structure RedisLink where
  ctx : RedisContext := {}
  commands : List Bytes := []
  sent : Bytes := []
  received : Bytes := []
  replies : List (Option RedisReply) := []

variable (vsnprintf : Bytes → UInt64 → Bytes) (strtod)

/-- The command of a call, unless its format is invalid. -/
def CommandEvent.command (e : CommandEvent) : List Bytes :=
  (redisvFormatCommand vsnprintf e.format e.ap).toOption.toList

/-- A call. -/
def RedisLink.step (t : RedisLink) (e : CommandEvent) : Option RedisLink :=
  (redisvCommand vsnprintf strtod e.format e.ap e.sends e.recvs t.ctx).map fun p =>
    { ctx := p.2
      commands := t.commands ++ e.command vsnprintf
      sent := t.sent ++ (t.ctx.obuf ++ (e.command vsnprintf).flatten).take (sentBytes e.sends)
      received := t.received ++ receivedBytes e.recvs
      replies := t.replies ++ [p.1] }

/-- The commands are answered in their order: what has been received is a part of the answers `ws`,
as many as there are commands. -/
def Causal (ws : List Resp.Value) (t : RedisLink) : Prop :=
  t.received <+: Resp.bytesOf (ws.take t.commands.length)

instance (ws : List Resp.Value) (t : RedisLink) : Decidable (Causal ws t) :=
  inferInstanceAs (Decidable (_ <+: _))

variable {vsnprintf strtod}

/-- What holds after any run: `k` replies have been handed out, and `u` has arrived behind them. -/
structure Ordered (strtod : Bytes → Bool) (ws : List Resp.Value) (t : RedisLink) (k : ℕ)
    (u : Bytes) : Prop where
  wire : t.sent ++ t.ctx.obuf = t.commands.flatten
  replies : t.replies.reduceOption = (ws.take k).map replyOf
  received : t.received = Resp.bytesOf (ws.take k) ++ u
  reader : Receives strtod t.ctx.reader u

/-- What holds after a run without an interrupted `send`: either every command has its reply and
nothing is under way, or the connection has failed and every call since then. -/
structure Aligned (ws : List Resp.Value) (t : RedisLink) (k : ℕ) (u : Bytes) : Prop where
  replies : ∃ m, t.replies = (ws.take k).map (some ∘ replyOf) ++ List.replicate m none
  state : (t.ctx.err = none ∧ t.ctx.obuf = [] ∧ u = [] ∧ t.commands.length = k ∧
      t.replies = (ws.take k).map (some ∘ replyOf)) ∨
    t.ctx.err ≠ none ∧ Incomplete (ws.drop k) u

/-- A call either goes to the connection with its command, or fails for its format. -/
lemma redisvCommand_spec {ws : List Resp.Value} (hws : Readable strtod ws) {u : Bytes}
    {e : CommandEvent} (hr : Receives strtod c.reader u)
    (hu : u ++ receivedBytes e.recvs <+: Resp.bytesOf ws) {p : Option RedisReply × RedisContext}
    (h : redisvCommand vsnprintf strtod e.format e.ap e.sends e.recvs c = some p) :
    (∃ cmd, e.command vsnprintf = [cmd] ∧
        Replied strtod ws u e.sends e.recvs { c with obuf := c.obuf ++ cmd } p) ∨
      e.command vsnprintf = [] ∧ e.sends = [] ∧ e.recvs = [] ∧ p = (none, c.setError .other) := by
  rw [redisvCommand, redisvAppendCommand] at h
  rw [CommandEvent.command]
  cases hcmd : redisvFormatCommand vsnprintf e.format e.ap with
  | ok cmd =>
      rw [hcmd] at h
      exact .inl ⟨cmd, rfl, redisGetReply_spec (c := { c with obuf := c.obuf ++ cmd }) hws hr hu h⟩
  | error err =>
      rw [hcmd] at h
      cases err with
      | format =>
          simp only at h
          split_ifs at h with hnil
          exact .inr ⟨rfl, hnil.1, hnil.2, (Option.some.inj h).symm⟩
      | undefined => cases h
      | assertion => cases h

lemma bytesOf_append (a b : List Resp.Value) :
    Resp.bytesOf (a ++ b) = Resp.bytesOf a ++ Resp.bytesOf b := by
  induction a with
  | nil => rfl
  | cons w a ih => rw [List.cons_append, Resp.bytesOf, Resp.bytesOf, ih, List.append_assoc]

lemma bytesOf_take_drop (ws : List Resp.Value) (k : ℕ) :
    Resp.bytesOf ws = Resp.bytesOf (ws.take k) ++ Resp.bytesOf (ws.drop k) := by
  rw [← bytesOf_append, List.take_append_drop]

lemma take_succ_of_drop {w : Resp.Value} {ws' : List Resp.Value} {k : ℕ}
    (h : ws.drop k = w :: ws') : ws.take (k + 1) = ws.take k ++ [w] := by
  rw [List.take_add, h, List.take_succ_cons, List.take_zero]

lemma Readable.drop (hws : Readable strtod ws) (k : ℕ) : Readable strtod (ws.drop k) :=
  ⟨fun w hw => hws.valid w (List.mem_of_mem_drop hw),
    fun w hw => hws.depth w (List.mem_of_mem_drop hw)⟩

/-- The bytes that are under way belong to the answers that are to come. -/
lemma prefix_drop {received v : Bytes} {k n : ℕ} (h : received = Resp.bytesOf (ws.take k) ++ u)
    (hv : received ++ v <+: Resp.bytesOf (ws.take n)) : u ++ v <+: Resp.bytesOf (ws.drop k) := by
  have hall : received ++ v <+: Resp.bytesOf ws := by
    rw [bytesOf_take_drop ws n]
    exact hv.trans (List.prefix_append _ _)
  rw [h, bytesOf_take_drop ws k, List.append_assoc] at hall
  exact (List.prefix_append_right_inj _).mp hall

lemma bytes_ne_nil (w : Resp.Value) : w.bytes ≠ [] := by
  cases w <;> simp [Resp.Value.bytes, Resp.typed]

/-- No value has arrived where nothing is under way. -/
lemma incomplete_nil (ws : List Resp.Value) : Incomplete ws [] := fun w _ =>
  List.length_pos_of_ne_nil (bytes_ne_nil w)

lemma Aligned.incomplete {t : RedisLink} {k : ℕ} (h : Aligned ws t k u) :
    Incomplete (ws.drop k) u := by
  rcases h.state with ⟨-, -, rfl, -⟩ | ⟨-, hinc⟩
  · exact incomplete_nil _
  · exact hinc

/-- A null reply behind a failure. -/
lemma Aligned.fail {t t' : RedisLink} {k : ℕ} {u' : Bytes} (h : Aligned ws t k u)
    (hreplies : t'.replies = t.replies ++ [none]) (herr : t'.ctx.err ≠ none)
    (hinc : Incomplete (ws.drop k) u') : Aligned ws t' k u' := by
  obtain ⟨m, hm⟩ := h.replies
  exact ⟨⟨m + 1, by rw [hreplies, hm, List.append_assoc, List.replicate_succ']⟩, .inr ⟨herr, hinc⟩⟩

/-- What a call does to a connection. -/
lemma Ordered.step {t t' : RedisLink} {e : CommandEvent} {k : ℕ} (hws : Readable strtod ws)
    (h : Ordered strtod ws t k u) (hstep : RedisLink.step strtod vsnprintf t e = some t')
    (hcausal : Causal ws t') :
    ∃ k' u', Ordered strtod ws t' k' u' ∧
      (Aligned ws t k u → SendResult.interrupted ∉ e.sends → Aligned ws t' k' u') := by
  obtain ⟨p, hcall, rfl⟩ := Option.map_eq_some_iff.mp hstep
  have hu := prefix_drop h.received hcausal
  rcases redisvCommand_spec (hws.drop k) h.reader hu hcall with
    ⟨cmd, hcmd, hreplied⟩ | ⟨hcmd, hsends, hrecvs, rfl⟩
  · cases hreplied with
    | @buffered w ws' u' c' hdrop hu' hsends hrecvs hr' hobuf herr =>
        refine ⟨k + 1, u', ⟨?_, ?_, ?_, hr'⟩, fun ha hint => ?_⟩
        · simp [hcmd, hsends, hobuf, sentBytes, ← h.wire]
        · rw [List.reduceOption_append, h.replies, take_succ_of_drop hdrop, List.map_append]
          rfl
        · rw [h.received, hu', hrecvs, take_succ_of_drop hdrop, bytesOf_append]
          simp [receivedBytes, Resp.bytesOf]
        · exact (ha.incomplete.not_arrived hdrop hu').elim
    | @answered w ws' u' c' hinc hdrop hu' hr' hobuf hdone hlast herr herr' =>
        refine ⟨k + 1, u', ⟨?_, ?_, ?_, hr'⟩, fun ha hint => ?_⟩
        · simp [hcmd, hobuf, ← h.wire]
        · rw [List.reduceOption_append, h.replies, take_succ_of_drop hdrop, List.map_append]
          rfl
        · rw [h.received, List.append_assoc, hu', take_succ_of_drop hdrop, bytesOf_append]
          simp [Resp.bytesOf]
        · rcases ha.state with ⟨-, -, -, hcount, hreplies⟩ | ⟨herr, -⟩
          · have hreplies' : t.replies ++ [some (replyOf w)] =
                (ws.take (k + 1)).map (some ∘ replyOf) := by
              rw [hreplies, take_succ_of_drop hdrop, List.map_append]
              rfl
            have hnil : u' = [] := by
              rw [Causal, hcmd, h.received, List.append_assoc, hu', List.length_append, hcount,
                List.length_singleton, take_succ_of_drop hdrop, bytesOf_append] at hcausal
              have hle := hcausal.length_le
              simp only [List.length_append, Resp.bytesOf, List.append_nil] at hle
              exact List.length_eq_zero_iff.mp (by omega)
            exact ⟨⟨0, by simpa using hreplies'⟩,
              .inl ⟨herr', hdone, hnil, by simp [hcmd, hcount], hreplies'⟩⟩
          · exact absurd ‹t.ctx.err = none› herr
    | @failed c' hinc hr' hobuf herr =>
        refine ⟨k, u ++ receivedBytes e.recvs, ⟨?_, ?_, ?_, hr'⟩, fun ha hint => ?_⟩
        · simp [hcmd, hobuf, ← h.wire]
        · rw [List.reduceOption_append, h.replies, List.reduceOption_singleton]
          exact List.append_nil _
        · rw [h.received, List.append_assoc]
        · exact ha.fail rfl (herr.resolve_right hint) hinc
  · refine ⟨k, u, ⟨?_, ?_, ?_, h.reader⟩, fun ha hint => ?_⟩
    · simp [hcmd, hsends, sentBytes, RedisContext.setError, ← h.wire]
    · rw [List.reduceOption_append, h.replies, List.reduceOption_singleton]
      exact List.append_nil _
    · simp [hrecvs, h.received, receivedBytes]
    · exact ha.fail rfl (by simp [RedisContext.setError]) ha.incomplete

/-- A run keeps the order, and without an interrupted `send` the calls keep their replies. -/
lemma Ordered.run {es : List CommandEvent} {t t' : RedisLink} {k : ℕ} (hws : Readable strtod ws)
    (h : Ordered strtod ws t k u) (hrun : run (RedisLink.step strtod vsnprintf) t es = some t')
    (hcausal : Always (RedisLink.step strtod vsnprintf) (Causal ws) t es) :
    ∃ k' u', Ordered strtod ws t' k' u' ∧
      (Aligned ws t k u → (∀ e ∈ es, SendResult.interrupted ∉ e.sends) → Aligned ws t' k' u') := by
  induction es generalizing t k u with
  | nil =>
      obtain rfl := Option.some.inj hrun
      exact ⟨k, u, h, fun ha _ => ha⟩
  | cons e es ih =>
      obtain ⟨t₁, hstep, hrun⟩ := Option.bind_eq_some_iff.mp hrun
      have hrest := hcausal.2 t₁ hstep
      obtain ⟨k₁, u₁, h₁, ha₁⟩ := h.step hws hstep hrest.head
      obtain ⟨k', u', h', ha'⟩ := ih h₁ hrun hrest
      refine ⟨k', u', h', fun ha hint => ha' (ha₁ ha (hint e List.mem_cons_self)) fun e he => ?_⟩
      exact hint e (List.mem_cons_of_mem _ he)

lemma length_replies {es : List CommandEvent} {t t' : RedisLink}
    (hrun : run (RedisLink.step strtod vsnprintf) t es = some t') :
    t'.replies.length = t.replies.length + es.length := by
  induction es generalizing t with
  | nil =>
      obtain rfl := Option.some.inj hrun
      rfl
  | cons e es ih =>
      obtain ⟨t₁, hstep, hrun⟩ := Option.bind_eq_some_iff.mp hrun
      obtain ⟨p, -, rfl⟩ := Option.map_eq_some_iff.mp hstep
      rw [ih hrun]
      simp only [List.length_append, List.length_cons, List.length_nil]
      omega

lemma ordered_init : Ordered strtod ws {} 0 [] := ⟨rfl, rfl, rfl, receives_init⟩

lemma aligned_init : Aligned ws {} 0 [] := ⟨⟨0, rfl⟩, .inl ⟨rfl, rfl, rfl, rfl, rfl⟩⟩

/-- **Replies in order.** However what is sent and received is split, the commands go out as they
are given, and the replies that are handed out are those to the first commands, in their order.
Where no `send` has been interrupted, each call hands out the reply to its own command until one
fails, and null from then on. -/
theorem replies_inOrder (strtod : Bytes → Bool) (vsnprintf : Bytes → UInt64 → Bytes)
    {ws : List Resp.Value} (hws : Readable strtod ws) {es : List CommandEvent} {t : RedisLink}
    (hrun : run (RedisLink.step strtod vsnprintf) {} es = some t)
    (hcausal : Always (RedisLink.step strtod vsnprintf) (Causal ws) {} es) :
    t.sent ++ t.ctx.obuf = t.commands.flatten ∧
      t.replies.reduceOption <+: ws.map replyOf ∧
      ((∀ e ∈ es, SendResult.interrupted ∉ e.sends) →
        ∃ k, t.replies =
          (ws.take k).map (some ∘ replyOf) ++ List.replicate (es.length - k) none) := by
  obtain ⟨k, u, hordered, haligned⟩ := ordered_init.run hws hrun hcausal
  refine ⟨hordered.wire, ?_, fun hint => ?_⟩
  · rw [hordered.replies]
    exact (List.take_prefix k ws).map replyOf
  · obtain ⟨m, hm⟩ := (haligned aligned_init hint).replies
    have hlength := length_replies hrun
    rw [hm] at hlength
    refine ⟨min k ws.length, ?_⟩
    simp only [List.length_append, List.length_map, List.length_take, List.length_replicate,
      List.length_nil] at hlength
    rw [hm, show m = es.length - min k ws.length by omega, List.take_eq_take_min]

/-- The answer to `GET a` arrives in two pieces, and the next one does not arrive. -/
theorem replies_inOrder_closed :
    ∃ t, run (RedisLink.step (fun _ => false) fun _ _ => []) {}
        [⟨[71, 69, 84, 32, 37, 115], [.string [97]], [.sent 3, .sent 17],
          [.received [36, 49, 13], .interrupted, .received [10, 55, 13, 10]]⟩,
        ⟨[71, 69, 84, 32, 37, 115], [.string [98]], [.sent 20], [.received [36], .closed]⟩] =
        some t ∧
      t.sent ++ t.ctx.obuf = t.commands.flatten ∧
      t.replies.reduceOption <+: [Resp.Value.bulk [55], .nilBulk].map replyOf ∧
      ∃ k, t.replies = ([Resp.Value.bulk [55], .nilBulk].take k).map (some ∘ replyOf) ++
        List.replicate (2 - k) none := by
  obtain ⟨t, hrun⟩ : ∃ t, run (RedisLink.step (fun _ => false) fun _ _ => []) {}
      [⟨[71, 69, 84, 32, 37, 115], [.string [97]], [.sent 3, .sent 17],
        [.received [36, 49, 13], .interrupted, .received [10, 55, 13, 10]]⟩,
      ⟨[71, 69, 84, 32, 37, 115], [.string [98]], [.sent 20], [.received [36], .closed]⟩] =
      some t := ⟨_, by rfl⟩
  have hws : Readable (fun _ => false) [.bulk [55], .nilBulk] :=
    ⟨by simp [Resp.Value.Valid], by simp [Resp.Value.depth]⟩
  have h := replies_inOrder (fun _ => false) (fun _ _ => []) hws hrun ?_
  · exact ⟨t, hrun, h.1, h.2.1, h.2.2 (by simp)⟩
  · refine ⟨by decide, fun t₁ h₁ => ?_⟩
    obtain rfl := Option.some.inj h₁
    refine ⟨by decide, fun t₂ h₂ => ?_⟩
    obtain rfl := Option.some.inj h₂
    rw [Always]
    decide

/-! ### Null replies -/

lemma redisReaderGetReply_err {r' : RedisReader}
    (h : redisReaderGetReply strtod r = (none, r')) : r'.err ≠ none := by
  have hemit : ∀ r₁ : RedisReader, r₁.emit = (none, r') → r'.err ≠ none := by
    intro r₁ hr₁
    rw [RedisReader.emit] at hr₁
    split_ifs at hr₁ with herr
    · obtain ⟨-, rfl⟩ := Prod.mk.inj hr₁
      exact herr
    all_goals
      simp only at hr₁
      split_ifs at hr₁
      all_goals simp at hr₁
  rw [redisReaderGetReply] at h
  split_ifs at h with herr
  · obtain ⟨-, rfl⟩ := Prod.mk.inj h
    exact herr
  · simp at h
  · exact hemit _ h

lemma redisGetReplyFromReader_err {o : Option (Option RedisReply)}
    (h : c.redisGetReplyFromReader strtod = (o, c')) :
    (o = none → c'.err ≠ none) ∧ (o ≠ none → c'.err = c.err) := by
  rw [RedisContext.redisGetReplyFromReader] at h
  split at h
  · obtain ⟨rfl, rfl⟩ := Prod.mk.inj h
    exact ⟨nofun, fun _ => rfl⟩
  · rename_i reader hget
    obtain ⟨rfl, rfl⟩ := Prod.mk.inj h
    exact ⟨fun _ => by simpa using redisReaderGetReply_err hget, fun hne => absurd rfl hne⟩

lemma redisBufferRead_err {e : RecvResult} {ok : Bool} (h : c.redisBufferRead e = (ok, c')) :
    ok = true ↔ c'.err = none := by
  rw [RedisContext.redisBufferRead] at h
  split_ifs at h with herr
  · obtain ⟨rfl, rfl⟩ := Prod.mk.inj h
    simpa using herr
  · rw [not_not] at herr
    cases e with
    | received buf =>
        simp only [RedisContext.redisNetRead] at h
        split_ifs at h with hbuf
        · obtain ⟨rfl, rfl⟩ := Prod.mk.inj h
          simpa using herr
        · rw [redisReaderFeed] at h
          cases hreader : c.reader.err with
          | none =>
              rw [hreader] at h
              obtain ⟨rfl, rfl⟩ := Prod.mk.inj h
              simpa using herr
          | some err =>
              rw [hreader] at h
              obtain ⟨rfl, rfl⟩ := Prod.mk.inj h
              simp [hreader]
    | interrupted =>
        obtain ⟨rfl, rfl⟩ := Prod.mk.inj h
        simpa using herr
    | timedOut | closed | failed =>
        obtain ⟨rfl, rfl⟩ := Prod.mk.inj h
        simp [RedisContext.setError]

/-- The loop that reads sets the error where it ends without a reply. -/
lemma readUntilReply_err (h : readUntilReply strtod recvs c = some (none, c')) : c'.err ≠ none := by
  induction recvs generalizing c with
  | nil => cases h
  | cons e recvs ih =>
      rw [readUntilReply] at h
      rcases hread : c.redisBufferRead e with ⟨ok, c₁⟩
      rw [hread] at h
      cases ok with
      | false =>
          simp only at h
          split_ifs at h
          obtain ⟨-, rfl⟩ := Prod.mk.inj (Option.some.inj h)
          exact fun hnone => by simpa using (redisBufferRead_err hread).mpr hnone
      | true =>
          rcases hget : c₁.redisGetReplyFromReader strtod with ⟨o, c₂⟩
          simp only [hget] at h
          match o with
          | none =>
              simp only at h
              split_ifs at h
              obtain ⟨-, rfl⟩ := Prod.mk.inj (Option.some.inj h)
              exact (redisGetReplyFromReader_err hget).1 rfl
          | some none => exact ih h
          | some (some reply) =>
              simp only at h
              split_ifs at h
              simp at h

lemma redisGetReply_err (h : redisGetReply strtod sends recvs c = some (none, c')) :
    c'.err = none ↔ sends.getLast? = some .interrupted := by
  rw [redisGetReply] at h
  rcases hget : c.redisGetReplyFromReader strtod with ⟨o, c₁⟩
  simp only [hget] at h
  match o with
  | none =>
      simp only at h
      split_ifs at h with hnil
      obtain ⟨-, rfl⟩ := Prod.mk.inj (Option.some.inj h)
      simpa [hnil.1] using (redisGetReplyFromReader_err hget).1 rfl
  | some (some reply) =>
      simp only at h
      split_ifs at h
      simp at h
  | some none =>
      simp only at h
      cases hwrite : writeUntilDone sends c₁ with
      | none => simp [hwrite] at h
      | some q =>
          obtain ⟨ok, c₂⟩ := q
          rw [← writeUntilDone_err hwrite]
          rw [hwrite] at h
          cases ok with
          | false =>
              simp only at h
              split_ifs at h
              obtain ⟨-, rfl⟩ := Prod.mk.inj (Option.some.inj h)
              simp
          | true => simpa using readUntilReply_err h

/-- **A null reply without an error.** A null reply leaves an error in the context, except where the
last call of `send` is interrupted. -/
theorem err_of_null {format : Bytes} {ap : List FormatArg}
    (h : redisvCommand vsnprintf strtod format ap sends recvs c = some (none, c')) :
    c'.err = none ↔ sends.getLast? = some .interrupted := by
  rw [redisvCommand, redisvAppendCommand] at h
  cases hcmd : redisvFormatCommand vsnprintf format ap with
  | ok cmd =>
      rw [hcmd] at h
      exact redisGetReply_err h
  | error err =>
      rw [hcmd] at h
      cases err with
      | format =>
          simp only at h
          split_ifs at h with hnil
          obtain ⟨-, rfl⟩ := Prod.mk.inj (Option.some.inj h)
          simp [RedisContext.setError, hnil.1]
      | undefined => cases h
      | assertion => cases h

/-- A command whose first half has been sent. -/
theorem err_of_null_interrupted :
    ∃ c', redisvCommand (fun _ _ => []) (fun _ => false) [71, 69, 84, 32, 37, 115] [.string [97]]
        [.sent 10, .interrupted] [] {} = some (none, c') ∧
      (c'.err = none ↔ [SendResult.sent 10, .interrupted].getLast? = some .interrupted) :=
  ⟨_, by rfl, err_of_null (show redisvCommand (fun _ _ => []) (fun _ => false)
    [71, 69, 84, 32, 37, 115] [.string [97]] [.sent 10, .interrupted] [] {} = _ from by rfl)⟩

end CKGameServer
