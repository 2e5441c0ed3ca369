import CKGameServer.Model.CRedisConn
import CKGameServer.Redis.Connection

/-!
The database through its connection.

* `RedisCall`: a call of the server; `RedisCall.perform` makes it over the connection, and
  `Store.perform` on the store at once.
* `Answers`: what Redis answers to the command of a call, and the store after it.
* `Session`: calls one after the other over one connection.
* `results_eq_perform`: the calls that return make what they would make on the store.
-/

namespace CKGameServer

open Memory Incremental Runs

variable {strtod : Bytes → Bool} {vsnprintf : Bytes → UInt64 → Bytes}

/-! ### Commands -/

/-- The format of a command with strings. -/
def stringFormat (name : Bytes) (ap : List Bytes) : Bytes :=
  name ++ ap.flatMap fun _ => [32, 37, 115]

/-- The words of such a format. -/
def stringWords (name : Bytes) (ap : List Bytes) : List Word :=
  name.map .lit :: ap.map fun s => [.string s]

lemma intercalate_cons (t : Bytes) (ts : List Bytes) :
    [32].intercalate (t :: ts) = t ++ ts.flatMap fun s => 32 :: s := by
  induction ts generalizing t with
  | nil => simp
  | cons t' ts ih => rw [List.intercalate_cons_cons, ih, List.flatMap_cons]; simp

lemma formatText_stringWords (name : Bytes) (ap : List Bytes) :
    formatText (stringWords name ap) = stringFormat name ap := by
  have hname : (name.map Piece.lit).flatMap Piece.text = name := by
    simp [List.flatMap_map, Piece.text]
  rw [formatText, stringWords, List.map_cons, intercalate_cons, hname, stringFormat, List.map_map,
    List.flatMap_map]
  rfl

lemma formatArgs_stringWords (name : Bytes) (ap : List Bytes) :
    formatArgs (stringWords name ap) = ap.map .string := by
  have hname : (name.map Piece.lit).flatMap Piece.args = [] := by
    simp [List.flatMap_map, Piece.args]
  rw [formatArgs, stringWords, List.flatMap_cons, hname, List.nil_append]
  induction ap with
  | nil => rfl
  | cons s ap ih => rw [List.map_cons, List.flatMap_cons, ih]; rfl

lemma formatArgv_stringWords {name : Bytes} (hne : name ≠ []) (ap : List Bytes) :
    formatArgv vsnprintf (stringWords name ap) = name :: ap.map cstr := by
  have hname : (name.map Piece.lit).flatMap (Piece.value vsnprintf) = name := by
    simp [List.flatMap_map, Piece.value]
  have hwords : (stringWords name ap).filter (· ≠ []) = stringWords name ap := by
    simp [stringWords, hne]
  rw [formatArgv, hwords, stringWords, List.map_cons, hname, List.map_map]
  congr 1
  exact List.map_congr_left fun s _ => by simp [Piece.value]

lemma redisvFormatCommand_strings {name : Bytes} (hne : name ≠ [])
    (hname : ∀ c ∈ name, c ≠ 32 ∧ c ≠ 37) (ap : List Bytes) :
    redisvFormatCommand vsnprintf (stringFormat name ap) (ap.map .string) =
      .ok (Resp.command (name :: ap.map cstr)).bytes := by
  have hvalid : ∀ w ∈ stringWords name ap, ∀ p ∈ w, p.Valid := by
    intro w hw p hp
    rcases List.mem_cons.mp hw with rfl | hw
    · obtain ⟨c, hc, rfl⟩ := List.mem_map.mp hp
      exact hname c hc
    · obtain ⟨s, -, rfl⟩ := List.mem_map.mp hw
      obtain rfl := List.mem_singleton.mp hp
      trivial
  have h := redisvFormatCommand_words vsnprintf hvalid []
  rwa [List.append_nil, formatText_stringWords, formatArgs_stringWords,
    formatArgv_stringWords hne] at h

/-- A call of the server. -/
inductive RedisCall where
  | get (key : Bytes)
  | hget (key filed : Bytes)
  | hset (key filed value : Bytes)
  | hgetall (key : Bytes)
  | publish (channel message : Bytes)

/-- What the server makes of a call: the number that `hset` hands out is not looked at. -/
inductive RedisResult where
  | string (value : Option Bytes)
  | map (value : Option ValueMap)
  | none

/-- A call over the connection. -/
def RedisCall.perform (strtod : Bytes → Bool) (vsnprintf : Bytes → UInt64 → Bytes)
    (call : RedisCall) (sends : List SendResult) (recvs : List RecvResult) (conn : CRedisConn) :
    Option (RedisResult × CRedisConn) :=
  match call with
  | .get key => (conn.get strtod vsnprintf key sends recvs).map fun p => (.string p.1, p.2)
  | .hget key filed =>
    (conn.hget strtod vsnprintf key filed sends recvs).map fun p => (.string p.1, p.2)
  | .hset key filed value =>
    (conn.hset strtod vsnprintf key filed value sends recvs).map fun p => (.none, p.2)
  | .hgetall key =>
    (conn.hgetall strtod vsnprintf key sends recvs).map fun p => (.map p.1, p.2)
  | .publish channel message =>
    (conn.publish strtod vsnprintf channel message sends recvs).map fun conn => (.none, conn)

/-- A call on the store, with its outcome: whether Redis answers it. -/
def Store.perform (db : Store) (reply : Bool) : RedisCall → RedisResult × Store
  | .get key => (.string (db.get reply key), db)
  | .hget key filed => (.string (db.hget reply key filed), db)
  | .hset key filed value => (.none, db.hset reply key filed value)
  | .hgetall key => (.map (db.hgetall reply key), db)
  | .publish _ _ => (.none, db)

/-- Calls on the store, the `k`-th with the outcome `replies k`. -/
def Store.performAll (replies : ℕ → Bool) : Store → List RedisCall → List RedisResult
  | _, [] => []
  | db, call :: calls =>
    (db.perform (replies 0) call).1 ::
      performAll (fun k => replies (k + 1)) (db.perform (replies 0) call).2 calls

/-- The key of a call holds no string. -/
def NoString (db : Store) (key : Bytes) : Prop := ∀ v, db (cstr key) ≠ some (.str v)

/-- What Redis answers to a command, and the store after it. Any command may be answered with an
error, and then nothing is changed. -/
inductive Answers (db : Store) : RedisCall → Resp.Value → Store → Prop
  | error (call : RedisCall) (s : Bytes) : Answers db call (.error s) db
  | get {key v : Bytes} (h : db (cstr key) = some (.str v)) : Answers db (.get key) (.bulk v) db
  | getNil {key : Bytes} (h : db (cstr key) = none) : Answers db (.get key) .nilBulk db
  | hget {key filed v : Bytes} (h : (db.hashAt key).bind (·.lookup (cstr filed)) = some v) :
      Answers db (.hget key filed) (.bulk v) db
  | hgetNil {key filed : Bytes} (h : NoString db key)
      (h' : (db.hashAt key).bind (·.lookup (cstr filed)) = none) :
      Answers db (.hget key filed) .nilBulk db
  | hset {key filed value : Bytes} (h : NoString db key) (n : ℤ) :
      Answers db (.hset key filed value) (.integer n) (db.hset true key filed value)
  | hgetall {key : Bytes} {fields : Hash} (h : db (cstr key) = some (.hash fields)) :
      Answers db (.hgetall key)
        (.aggregate .array (fields.entries.flatMap fun e => [.bulk e.1, .bulk e.2])) db
  | hgetallNil {key : Bytes} (h : db (cstr key) = none) :
      Answers db (.hgetall key) (.aggregate .array []) db
  | publish {channel message : Bytes} (n : ℤ) :
      Answers db (.publish channel message) (.integer n) db

/-- Whether an answer is no error. -/
def isAnswered : Resp.Value → Bool
  | .error _ => false
  | .status _ | .integer _ | .double _ | .null | .bool _ | .bulk _ | .nilBulk | .aggregate _ _
  | .nilAggregate _ => true

/-- The answers to commands that come one after the other. -/
inductive AnswersAll : Store → List RedisCall → List Resp.Value → Prop
  | nil {db : Store} : AnswersAll db [] []
  | cons {db db' : Store} {call : RedisCall} {calls : List RedisCall} {w : Resp.Value}
      {ws : List Resp.Value} (h : Answers db call w db') (hrest : AnswersAll db' calls ws) :
      AnswersAll db (call :: calls) (w :: ws)

/-! ### One call -/

namespace RedisCall

/-- The name of the command. -/
def name : RedisCall → Bytes
  | .get _ => [71, 69, 84]
  | .hget _ _ => [72, 71, 69, 84]
  | .hset _ _ _ => [72, 83, 69, 84]
  | .hgetall _ => [72, 71, 69, 84, 65, 76, 76]
  | .publish _ _ => [80, 85, 66, 76, 73, 83, 72]

/-- Its arguments. -/
def args : RedisCall → List Bytes
  | .get key | .hgetall key => [key]
  | .hget key filed => [key, filed]
  | .hset key filed value => [key, filed, value]
  | .publish channel message => [channel, message]

/-- What is made of a reply. -/
def answer : RedisCall → Option RedisReply → Option RedisResult
  | .get _, reply | .hget _ _, reply => (CRedisConn.stringAnswer reply).map fun q => .string q.1
  | .hset _ _ _, reply => (CRedisConn.integerAnswer reply).map fun _ => .none
  | .hgetall _, reply => (CRedisConn.mapAnswer reply).map fun q => .map q.1
  | .publish _ _, _ => some .none

lemma command_eq (call : RedisCall) :
    redisvFormatCommand vsnprintf (stringFormat call.name call.args) (call.args.map .string) =
      .ok (Resp.command (call.name :: call.args.map cstr)).bytes := by
  refine redisvFormatCommand_strings ?_ ?_ call.args <;> cases call <;> simp [name]

end RedisCall

variable {sends : List SendResult} {recvs : List RecvResult}

/-- A call that returns over a connection makes something of the reply to its command. -/
lemma CRedisConn.call_cases {α : Type} {noConnection : α} {format : Bytes} {ap : List Bytes}
    {answer : Option RedisReply → Option (α × ErrStr)} {g : α → RedisResult}
    {result : RedisResult} {conn conn' : CRedisConn} {c : RedisContext}
    (hconn : conn.connected = true) (hc : conn.redCtx = some c)
    (h : (CRedisConn.call strtod vsnprintf noConnection format ap answer sends recvs conn).map
      (fun p => (g p.1, p.2)) = some (result, conn')) :
    ∃ reply c', redisvCommand vsnprintf strtod format (ap.map .string) sends recvs c =
        some (reply, c') ∧ (answer reply).map (fun q => g q.1) = some result ∧
      conn'.connected = true ∧ conn'.redCtx = some c' := by
  rw [CRedisConn.call, hconn, hc] at h
  obtain ⟨a, ha, heq⟩ := Option.map_eq_some_iff.mp h
  obtain ⟨p, hp, hq⟩ := Option.bind_eq_some_iff.mp ha
  obtain ⟨q, hanswer, rfl⟩ := Option.map_eq_some_iff.mp hq
  obtain ⟨rfl, rfl⟩ := Prod.mk.inj heq
  exact ⟨p.1, p.2, hp, by rw [hanswer]; rfl, rfl, rfl⟩

lemma RedisCall.perform_cases {call : RedisCall} {result : RedisResult} {conn conn' : CRedisConn}
    {c : RedisContext} (hconn : conn.connected = true) (hc : conn.redCtx = some c)
    (h : call.perform strtod vsnprintf sends recvs conn = some (result, conn')) :
    ∃ reply c', redisvCommand vsnprintf strtod (stringFormat call.name call.args)
        (call.args.map .string) sends recvs c = some (reply, c') ∧
      call.answer reply = some result ∧ conn'.connected = true ∧ conn'.redCtx = some c' := by
  cases call with
  | get key | hget key filed | hgetall key => exact CRedisConn.call_cases hconn hc h
  | hset key filed value =>
      exact CRedisConn.call_cases (g := fun _ => RedisResult.none) hconn hc h
  | publish channel message =>
      obtain ⟨conn₁, hpublish, heq⟩ := Option.map_eq_some_iff.mp h
      obtain ⟨rfl, rfl⟩ := Prod.mk.inj heq
      rw [CRedisConn.publish, hc, Option.bind_some] at hpublish
      obtain ⟨p, hp, rfl⟩ := Option.map_eq_some_iff.mp hpublish
      exact ⟨p.1, p.2, hp, rfl, hconn, rfl⟩

/-- A null reply ends every call but `publish`. -/
lemma RedisCall.answer_null {call : RedisCall} {result : RedisResult}
    (h : call.answer none = some result) : ∃ channel message, call = .publish channel message := by
  cases call with
  | publish channel message => exact ⟨channel, message, rfl⟩
  | get key | hget key filed | hset key filed value | hgetall key => cases h

lemma arryToMap_pairs (entries : List (Sigma fun _ : Bytes => Bytes)) (m : ValueMap) :
    arryToMap (repliesOf (entries.flatMap fun e => [.bulk e.1, .bulk e.2])) m =
      some (entries.foldl (fun m e => ValueMap.insert (cstr e.1) (cstr e.2) m) m) := by
  induction entries generalizing m with
  | nil => rfl
  | cons e entries ih => exact ih (ValueMap.insert (cstr e.1) (cstr e.2) m)

lemma hget_eq_map (db : Store) (key filed : Bytes) :
    db.hget true key filed = ((db.hashAt key).bind (·.lookup (cstr filed))).map cstr := by
  rw [Store.hget, if_pos rfl, Option.map_bind]
  rfl

/-- **One call.** What is made of the answer to a command is what is made on the store. -/
lemma Answers.perform {db db' : Store} {call : RedisCall} {w : Resp.Value}
    (h : Answers db call w db') :
    call.answer (some (replyOf w)) = some (db.perform (isAnswered w) call).1 ∧
      (db.perform (isAnswered w) call).2 = db' := by
  cases h with
  | error call s => cases call <;> exact ⟨rfl, rfl⟩
  | get h => exact ⟨by simp [Store.perform, Store.get, h, isAnswered]; rfl, rfl⟩
  | getNil h => exact ⟨by simp [Store.perform, Store.get, h, isAnswered]; rfl, rfl⟩
  | hget h => exact ⟨by rw [isAnswered, Store.perform, hget_eq_map, h]; rfl, rfl⟩
  | hgetNil h h' => exact ⟨by rw [isAnswered, Store.perform, hget_eq_map, h']; rfl, rfl⟩
  | hset h n => exact ⟨rfl, rfl⟩
  | @hgetall key fields h =>
      refine ⟨?_, rfl⟩
      have hat : db.hashAt key = some fields := by rw [Store.hashAt, h]
      rw [isAnswered, Store.perform, Store.hgetall, if_pos rfl, hat, Option.bind_some]
      by_cases hnil : fields.entries = []
      · rw [hnil, if_pos rfl]
        rfl
      · obtain ⟨e, entries, hcons⟩ := List.exists_cons_of_ne_nil hnil
        have helements :
            repliesOf (fields.entries.flatMap fun e => [.bulk e.1, .bulk e.2]) ≠ [] := by
          rw [hcons, List.flatMap_cons]
          simp [repliesOf]
        rw [if_neg hnil]
        simp [RedisCall.answer, CRedisConn.mapAnswer, getError, replyOf, aggregateType, helements,
          arryToMap_pairs, getArryToMap]
  | @hgetallNil key h =>
      refine ⟨?_, rfl⟩
      have hat : db.hashAt key = none := by rw [Store.hashAt, h]
      rw [isAnswered, Store.perform, Store.hgetall, if_pos rfl, hat]
      rfl
  | publish n => exact ⟨rfl, rfl⟩

/-! ### Runs -/

/-- A call, and what its calls of the socket answer. -/
structure RedisCallEvent where
  call : RedisCall
  sends : List SendResult
  recvs : List RecvResult

/-- A connection, how many calls it has made, the bytes it has received, and what has been made of
the replies. -/
structure RedisSession where
  conn : CRedisConn := { redCtx := some {}, connected := true }
  calls : ℕ := 0
  received : Bytes := []
  results : List RedisResult := []

namespace RedisSession

/-- A call. -/
def step (strtod : Bytes → Bool) (vsnprintf : Bytes → UInt64 → Bytes) (t : RedisSession)
    (e : RedisCallEvent) : Option RedisSession :=
  (e.call.perform strtod vsnprintf e.sends e.recvs t.conn).map fun p =>
    { conn := p.2
      calls := t.calls + 1
      received := t.received ++ receivedBytes e.recvs
      results := t.results ++ [p.1] }

/-- What has been received is a part of the answers `ws`, as many as there are calls. -/
def Causal (ws : List Resp.Value) (t : RedisSession) : Prop :=
  t.received <+: Resp.bytesOf (ws.take t.calls)

instance (ws : List Resp.Value) (t : RedisSession) : Decidable (t.Causal ws) :=
  inferInstanceAs (Decidable (_ <+: _))

/-- Every call has had its reply. -/
structure Live (strtod : Bytes → Bool) (ws : List Resp.Value) (t : RedisSession)
    (c : RedisContext) : Prop where
  connected : t.conn.connected = true
  redCtx : t.conn.redCtx = some c
  received : t.received = Resp.bytesOf (ws.take t.calls)
  reader : Receives strtod c.reader []

/-- The connection has failed within the answer to a call. -/
structure Failed (strtod : Bytes → Bool) (ws : List Resp.Value) (t : RedisSession)
    (c : RedisContext) : Prop where
  connected : t.conn.connected = true
  redCtx : t.conn.redCtx = some c
  err : c.err ≠ none
  stopped : ∃ k u, t.received = Resp.bytesOf (ws.take k) ++ u ∧ Receives strtod c.reader u ∧
    Incomplete (ws.drop k) u

variable {ws : List Resp.Value} {t t' : RedisSession} {e : RedisCallEvent} {c : RedisContext}

/-- What a call does to its context. -/
lemma replied (hws : Readable strtod ws) {k : ℕ} {u : Bytes}
    (hreceived : t.received = Resp.bytesOf (ws.take k) ++ u) (hr : Receives strtod c.reader u)
    (hcausal : t.received ++ receivedBytes e.recvs <+: Resp.bytesOf (ws.take (t.calls + 1)))
    {p : Option RedisReply × RedisContext}
    (h : redisvCommand vsnprintf strtod (stringFormat e.call.name e.call.args)
      (e.call.args.map .string) e.sends e.recvs c = some p) :
    ∃ cmd, Replied strtod (ws.drop k) u e.sends e.recvs { c with obuf := c.obuf ++ cmd } p := by
  have hu := prefix_drop hreceived hcausal
  rcases redisvCommand_spec (hws.drop k)
    (e := ⟨stringFormat e.call.name e.call.args, e.call.args.map .string, e.sends, e.recvs⟩)
    hr hu h with ⟨cmd, -, hreplied⟩ | ⟨hcmd, -⟩
  · exact ⟨cmd, hreplied⟩
  · simp [CommandEvent.command, RedisCall.command_eq, Except.toOption] at hcmd

/-- A call where every call has had its reply. -/
lemma Live.step (hws : Readable strtod ws) (h : t.Live strtod ws c)
    (hstep : RedisSession.step strtod vsnprintf t e = some t') (hcausal : t'.Causal ws)
    (hint : ∀ channel message, e.call = .publish channel message →
      SendResult.interrupted ∉ e.sends) :
    ∃ c' result, t'.results = t.results ++ [result] ∧ t'.calls = t.calls + 1 ∧
      ((∃ w, ws.drop t.calls = w :: ws.drop (t.calls + 1) ∧
          e.call.answer (some (replyOf w)) = some result ∧ t'.Live strtod ws c') ∨
        e.call.answer none = some result ∧ t'.Failed strtod ws c') := by
  obtain ⟨⟨result, conn'⟩, hperform, rfl⟩ := Option.map_eq_some_iff.mp hstep
  obtain ⟨reply, c', hcall, hanswer, hconnected, hctx⟩ :=
    RedisCall.perform_cases h.connected h.redCtx hperform
  obtain ⟨cmd, hreplied⟩ :=
    replied hws (h.received.trans (List.append_nil _).symm) h.reader hcausal hcall
  refine ⟨c', result, rfl, rfl, ?_⟩
  cases hreplied with
  | buffered hdrop hu => exact ((incomplete_nil _).not_arrived hdrop hu).elim
  | @answered w ws' u' _ hinc hdrop hu hr' hobuf hdone hlast herr herr' =>
      have htail : ws' = ws.drop (t.calls + 1) := by
        rw [← List.drop_drop, hdrop, List.drop_one, List.tail_cons]
      rw [List.nil_append] at hu
      have hnil : u' = [] := by
        rw [Causal, h.received, take_succ_of_drop hdrop, bytesOf_append, hu] at hcausal
        have hle := hcausal.length_le
        simp only [List.length_append, Resp.bytesOf, List.append_nil] at hle
        exact List.length_eq_zero_iff.mp (by omega)
      subst hnil
      refine .inl ⟨w, by rw [hdrop, htail], hanswer, hconnected, hctx, ?_, hr'⟩
      rw [h.received, hu, take_succ_of_drop hdrop, bytesOf_append]
      simp [Resp.bytesOf]
  | failed hinc hr' hobuf herr =>
      obtain ⟨channel, message, hpublish⟩ := RedisCall.answer_null hanswer
      have herr' := herr.resolve_right (hint channel message hpublish)
      refine .inr ⟨hanswer, hconnected, hctx, herr', t.calls, _, ?_, hr', hinc⟩
      rw [h.received, List.nil_append]

/-- A call behind a failure. -/
lemma Failed.step (hws : Readable strtod ws) (h : t.Failed strtod ws c)
    (hstep : RedisSession.step strtod vsnprintf t e = some t') (hcausal : t'.Causal ws)
    (hint : ∀ channel message, e.call = .publish channel message →
      SendResult.interrupted ∉ e.sends) :
    ∃ c' result, t'.results = t.results ++ [result] ∧ e.call.answer none = some result ∧
      t'.Failed strtod ws c' := by
  obtain ⟨⟨result, conn'⟩, hperform, rfl⟩ := Option.map_eq_some_iff.mp hstep
  obtain ⟨reply, c', hcall, hanswer, hconnected, hctx⟩ :=
    RedisCall.perform_cases h.connected h.redCtx hperform
  obtain ⟨k, u, hreceived, hr, hinc⟩ := h.stopped
  obtain ⟨cmd, hreplied⟩ := replied hws hreceived hr hcausal hcall
  refine ⟨c', result, rfl, ?_⟩
  cases hreplied with
  | buffered hdrop hu => exact (hinc.not_arrived hdrop hu).elim
  | answered hinc hdrop hu hr' hobuf hdone hlast herr herr' => exact absurd herr h.err
  | failed hinc hr' hobuf herr =>
      obtain ⟨channel, message, hpublish⟩ := RedisCall.answer_null hanswer
      have herr' := herr.resolve_right (hint channel message hpublish)
      refine ⟨hanswer, hconnected, hctx, herr', k, _, ?_, hr', hinc⟩
      rw [hreceived, List.append_assoc]

/-- Behind a failure nothing is made of a call, as on the store. -/
lemma Failed.run (hws : Readable strtod ws) {es : List RedisCallEvent} (h : t.Failed strtod ws c)
    (hrun : run (RedisSession.step strtod vsnprintf) t es = some t')
    (hcausal : Always (RedisSession.step strtod vsnprintf) (Causal ws) t es)
    (hint : ∀ e ∈ es, ∀ channel message, e.call = .publish channel message →
      SendResult.interrupted ∉ e.sends) (db : Store) (replies : ℕ → Bool) :
    t'.results = t.results ++ db.performAll replies (es.map RedisCallEvent.call) := by
  induction es generalizing t c db replies with
  | nil =>
      obtain rfl := Option.some.inj hrun
      exact (List.append_nil _).symm
  | cons e es ih =>
      obtain ⟨t₁, hstep, hrun⟩ := Option.bind_eq_some_iff.mp hrun
      have hrest := hcausal.2 t₁ hstep
      obtain ⟨c', result, hresults, hanswer, h₁⟩ :=
        h.step hws hstep hrest.head (hint e List.mem_cons_self)
      obtain ⟨channel, message, hpublish⟩ := RedisCall.answer_null hanswer
      rw [hpublish] at hanswer
      obtain rfl := Option.some.inj hanswer
      rw [ih h₁ hrun hrest (fun e he => hint e (List.mem_cons_of_mem _ he)) db
        (fun k => replies (k + 1)), hresults, List.map_cons, hpublish, List.append_assoc]
      rfl

/-- The calls make what they would make on the store. -/
lemma Live.run (hws : Readable strtod ws) {es : List RedisCallEvent} (h : t.Live strtod ws c)
    (hrun : run (RedisSession.step strtod vsnprintf) t es = some t')
    (hcausal : Always (RedisSession.step strtod vsnprintf) (Causal ws) t es)
    (hint : ∀ e ∈ es, ∀ channel message, e.call = .publish channel message →
      SendResult.interrupted ∉ e.sends) {db : Store}
    (hanswers : AnswersAll db (es.map RedisCallEvent.call) (ws.drop t.calls)) :
    t'.results = t.results ++ db.performAll
      (fun k => (ws.drop t.calls)[k]?.all isAnswered) (es.map RedisCallEvent.call) := by
  induction es generalizing t c db with
  | nil =>
      obtain rfl := Option.some.inj hrun
      exact (List.append_nil _).symm
  | cons e es ih =>
      obtain ⟨t₁, hstep, hrun⟩ := Option.bind_eq_some_iff.mp hrun
      have hrest := hcausal.2 t₁ hstep
      have hint' := fun e he => hint e (List.mem_cons_of_mem _ he)
      obtain ⟨c', result, hresults, hcalls, ⟨w, hdrop, hanswer, h₁⟩ | ⟨hanswer, h₁⟩⟩ :=
        h.step hws hstep hrest.head (hint e List.mem_cons_self)
      · rw [List.map_cons, hdrop] at hanswers
        cases hanswers with
        | cons hw hws' =>
            obtain ⟨hperform, hdb⟩ := hw.perform
            obtain rfl := Option.some.inj (hanswer.symm.trans hperform)
            rw [ih h₁ hrun hrest hint' (by rw [hcalls]; exact hws'), hresults, List.append_assoc,
              List.map_cons, hcalls, hdrop, ← hdb]
            rfl
      · obtain ⟨channel, message, hpublish⟩ := RedisCall.answer_null hanswer
        rw [hpublish] at hanswer
        obtain rfl := Option.some.inj hanswer
        rw [h₁.run hws hrun hrest hint' db fun k => (ws.drop t.calls)[k + 1]?.all isAnswered,
          hresults, List.map_cons, hpublish, List.append_assoc]
        rfl

end RedisSession

/-- **The database through its connection.** However what is sent and received is split, the calls
that return make what they would make on the store, one after the other, as long as no `send` is
interrupted in a `publish`. -/
theorem results_eq_perform (strtod : Bytes → Bool) (vsnprintf : Bytes → UInt64 → Bytes)
    {ws : List Resp.Value} (hws : Readable strtod ws) {db : Store} {es : List RedisCallEvent}
    (hanswers : AnswersAll db (es.map RedisCallEvent.call) ws) {t : RedisSession}
    (hrun : run (RedisSession.step strtod vsnprintf) {} es = some t)
    (hcausal : Always (RedisSession.step strtod vsnprintf) (RedisSession.Causal ws) {} es)
    (hint : ∀ e ∈ es, ∀ channel message, e.call = .publish channel message →
      SendResult.interrupted ∉ e.sends) :
    t.results =
      db.performAll (fun k => ws[k]?.all isAnswered) (es.map RedisCallEvent.call) := by
  have hlive : RedisSession.Live strtod ws {} {} := ⟨rfl, rfl, rfl, receives_init⟩
  exact hlive.run hws hrun hcausal hint hanswers

/-- A string is read and a field is written; then the connection is closed within a message. -/
theorem results_eq_perform_closed :
    ∃ t, run (RedisSession.step (fun _ => false) fun _ _ => []) {}
        [⟨.get [97], [.sent 7, .sent 13], [.received [36, 49], .received [13, 10, 55, 13, 10]]⟩,
        ⟨.hset [98] [49] [50], [.sent 36], [.received [58, 49, 13, 10]]⟩,
        ⟨.publish [99] [100], [.sent 3, .failed], []⟩] = some t ∧
      t.results = Store.performAll
        (fun k => ([.bulk [55], .integer 1, .integer 0] : List Resp.Value)[k]?.all isAnswered)
        (fun key => if key = [97] then some (.str [55]) else none)
        [.get [97], .hset [98] [49] [50], .publish [99] [100]] := by
  obtain ⟨t, hrun⟩ : ∃ t, run (RedisSession.step (fun _ => false) fun _ _ => []) {}
      [⟨.get [97], [.sent 7, .sent 13], [.received [36, 49], .received [13, 10, 55, 13, 10]]⟩,
      ⟨.hset [98] [49] [50], [.sent 36], [.received [58, 49, 13, 10]]⟩,
      ⟨.publish [99] [100], [.sent 3, .failed], []⟩] = some t := ⟨_, by rfl⟩
  refine ⟨t, hrun, results_eq_perform (fun _ => false) (fun _ _ => []) ?_ ?_ hrun ?_ ?_⟩
  · exact ⟨by simp [Resp.Value.Valid], by simp [Resp.Value.depth]⟩
  · exact .cons (.get rfl) (.cons (.hset (fun v => by simp [cstr]) 1) (.cons (.publish 0) .nil))
  · refine ⟨by decide, fun t₁ h₁ => ?_⟩
    obtain rfl := Option.some.inj h₁
    refine ⟨by decide, fun t₂ h₂ => ?_⟩
    obtain rfl := Option.some.inj h₂
    refine ⟨by decide, fun t₃ h₃ => ?_⟩
    obtain rfl := Option.some.inj h₃
    rw [Always]
    decide
  · simp

/-! ### An interrupted message -/

/-- **The map after an interrupted message.** Where the last `send` of a `publish` is interrupted,
the next call is handed the reply to the message. A call of `hgetall` takes it for an empty hash,
whatever the key holds. -/
theorem hgetall_after_interrupted {strtod : Bytes → Bool} {vsnprintf : Bytes → UInt64 → Bytes}
    {ws : List Resp.Value} (hws : Readable strtod ws) {t t₁ t₂ : RedisSession} {c : RedisContext}
    (hlive : t.Live strtod ws c) {channel message key : Bytes} {n : ℤ} {rest : List Resp.Value}
    (hanswer : ws.drop t.calls = .integer n :: rest) {sends sends' : List SendResult}
    {recvs recvs' : List RecvResult} (hint : sends.getLast? = some .interrupted)
    (hpublish : RedisSession.step strtod vsnprintf t ⟨.publish channel message, sends, recvs⟩ =
      some t₁)
    (hgetall : RedisSession.step strtod vsnprintf t₁ ⟨.hgetall key, sends', recvs'⟩ = some t₂)
    (hcausal₁ : t₁.Causal ws) (hcausal₂ : t₂.Causal ws) :
    t₂.results = t.results ++ [.none, .map (some [])] := by
  obtain ⟨⟨result, conn₁⟩, hperform, rfl⟩ := Option.map_eq_some_iff.mp hpublish
  obtain ⟨reply, c₁, hcall, hnone, hconnected, hctx⟩ :=
    RedisCall.perform_cases hlive.connected hlive.redCtx hperform
  obtain rfl := Option.some.inj hnone
  obtain ⟨cmd, hreplied⟩ :=
    RedisSession.replied hws (hlive.received.trans (List.append_nil _).symm) hlive.reader hcausal₁
      hcall
  obtain ⟨⟨result, conn₂⟩, hperform', rfl⟩ := Option.map_eq_some_iff.mp hgetall
  obtain ⟨reply', c₂, hcall', hmap, -⟩ := RedisCall.perform_cases hconnected hctx hperform'
  cases hreplied with
  | buffered hdrop hu => exact ((incomplete_nil _).not_arrived hdrop hu).elim
  | answered hinc hdrop hu hr' hobuf hdone hlast herr herr' => exact absurd hint hlast
  | failed hinc hr' hobuf herr =>
      obtain ⟨cmd', hreplied'⟩ := RedisSession.replied hws
        (congrArg (· ++ receivedBytes recvs) hlive.received) hr' hcausal₂ hcall'
      cases hreplied' with
      | buffered hdrop hu => exact (hinc.not_arrived hdrop hu).elim
      | answered hinc' hdrop hu hr₂ hobuf' hdone hlast herr' herr₂ =>
          obtain ⟨rfl, -⟩ := List.cons.inj (hanswer.symm.trans hdrop)
          obtain rfl := Option.some.inj hmap
          exact List.append_assoc _ _ _
      | failed hinc' hr₂ hobuf' herr' => cases hmap

/-- The first `send` of a message is interrupted, and the key holds an item. -/
theorem hgetall_after_interrupted_item :
    ∃ t₁ t₂, RedisSession.step (fun _ => false) (fun _ _ => []) {}
        ⟨.publish [99] [100], [.interrupted], []⟩ = some t₁ ∧
      RedisSession.step (fun _ => false) (fun _ _ => []) t₁
        ⟨.hgetall [97], [.sent 55], [.received [58, 48, 13, 10]]⟩ = some t₂ ∧
      t₂.results = [] ++ [RedisResult.none, .map (some [])] := by
  have hws : Readable (fun _ => false)
      [.integer 0, .aggregate .array [.bulk [49], .bulk [50]]] :=
    ⟨by simp [Resp.Value.Valid, Resp.ValidAll, Resp.Aggregate.width],
      by simp [Resp.Value.depth, Resp.depthOf]⟩
  obtain ⟨t₁, hpublish⟩ : ∃ t₁, RedisSession.step (fun _ => false) (fun _ _ => []) {}
      ⟨.publish [99] [100], [.interrupted], []⟩ = some t₁ := ⟨_, by rfl⟩
  obtain ⟨t₂, hgetall⟩ : ∃ t₂, RedisSession.step (fun _ => false) (fun _ _ => []) t₁
      ⟨.hgetall [97], [.sent 55], [.received [58, 48, 13, 10]]⟩ = some t₂ := by
    obtain rfl := Option.some.inj hpublish
    exact ⟨_, by rfl⟩
  refine ⟨t₁, t₂, hpublish, hgetall, hgetall_after_interrupted hws
    ⟨rfl, rfl, rfl, receives_init⟩ (by rfl) (by rfl) hpublish hgetall ?_ ?_⟩
  · obtain rfl := Option.some.inj hpublish
    decide
  · obtain rfl := Option.some.inj hpublish
    obtain rfl := Option.some.inj hgetall
    decide

end CKGameServer
