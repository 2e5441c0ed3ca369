import CKGameServer.Redis.Reader

/-!
The replies of Redis through the reader (`redisReaderFeed`, `redisReaderGetReply`).

* `replyOf`: the object for a value of the protocol.
* `read_value`: on a stack with room for it a value is read, whatever follows.
* `read_tooDeep`: on one without, the reader fails.
* `RedisReader.step`, `RedisReader.output`: bytes that arrive, and calls for a reply;
  `RedisReader.answer`: what each call answers, null included.
* `outputs_redisReader`: however the bytes of some values are split and the calls interleaved, each
  call answers the next value if all of it has arrived, and null if not.
* `reads_iff`: that is so up to eight aggregates around each other; one more, and the reader fails,
  and at every later call.
-/

namespace CKGameServer

open Memory Incremental Runs

/-- The type of an aggregate. -/
def aggregateType : Resp.Aggregate → ReplyType
  | .array => .array
  | .map => .map
  | .set => .set

mutual

/-- The object for a value. -/
def replyOf : Resp.Value → RedisReply
  | .error s => { type := .error, str := some s }
  | .status s => { type := .status, str := some s }
  | .integer v => { type := .integer, integer := v }
  | .double s => { type := .double, str := some s }
  | .null | .nilBulk | .nilAggregate _ => { type := .nil }
  | .bool b => { type := .bool, integer := if b then 1 else 0 }
  | .bulk s => { type := .string, str := some s }
  | .aggregate kind elements => { type := aggregateType kind, element := repliesOf elements }

/-- The objects for values one after the other. -/
def repliesOf : List Resp.Value → List RedisReply
  | [] => []
  | w :: ws => replyOf w :: repliesOf ws

end

variable {strtod : Bytes → Bool} {cur : RedisReadTask} {rest : ReadStack} {u : Bytes}

/-- The reader goes on behind a step. -/
def goOn (strtod : Bytes → Bool) (p : Option (Except ReaderError RedisReply) × Option ReadStack)
    (u : Bytes) : Option (Except ReaderError RedisReply) × Option ReadStack × Bytes :=
  match p.1 with
  | some o => (some o, p.2, u)
  | none => (replyReader strtod).read p.2 u

lemma read_of_readerStep {s : Option ReadStack} {u u' : Bytes}
    {p : Option (Except ReaderError RedisReply) × Option ReadStack}
    (h : readerStep strtod s u = some (p.1, p.2, u')) :
    (replyReader strtod).read s u = goOn strtod p u' := by
  obtain ⟨o, s'⟩ := p
  cases o with
  | none => exact read_of_step h
  | some w => exact read_of_step_some h

/-- The next task depends on the index of this one only. -/
lemma moveToNextTask_congr {cur cur' : RedisReadTask} (h : cur.idx = cur'.idx) (obj : RedisReply)
    (rest : ReadStack) : moveToNextTask obj cur rest = moveToNextTask obj cur' rest := by
  cases rest with
  | nil => rfl
  | cons prv rest => rw [moveToNextTask, moveToNextTask, h]

lemma afterObject_congr {cur cur' : RedisReadTask} (h : cur.idx = cur'.idx) (obj : RedisReply)
    (rest : ReadStack) : afterObject obj cur rest = afterObject obj cur' rest := by
  rw [afterObject, afterObject, moveToNextTask_congr h]

/-- An object goes into the object around it. -/
lemma afterObject_cons (obj : RedisReply) (cur prv : RedisReadTask) (rest : ReadStack) :
    afterObject obj cur (prv :: rest) =
      if cur.idx = prv.elements - 1 then
        afterObject { type := prv.type.getD .array, element := prv.obj ++ [obj] } prv rest
      else
        (none, some ({ idx := cur.idx + 1 } :: { prv with obj := prv.obj ++ [obj] } :: rest)) := by
  rw [afterObject, moveToNextTask]
  by_cases hlast : cur.idx = prv.elements - 1
  · rw [if_pos hlast, if_pos hlast, ← afterObject]
    exact afterObject_congr (by rfl) _ rest
  · rw [if_neg hlast, if_neg hlast]

lemma afterToken_object (type : ReplyType) (obj : RedisReply) :
    afterToken { cur with type := some type } rest (.object obj) = afterObject obj cur rest := by
  rw [afterToken]
  exact afterObject_congr (by rfl) obj rest

/-- A type byte is read. -/
lemma read_type {byte : UInt8} {type : ReplyType} (hcur : cur.type = none)
    (hbyte : RedisReader.readType byte = some type)
    (hplace : type.isAggregate → rest.length ≠ 8) (u : Bytes) :
    (replyReader strtod).read (some (cur :: rest)) (byte :: u) =
      (replyReader strtod).read (some ({ cur with type := some type } :: rest)) u := by
  have hstep : readerStep strtod (some (cur :: rest)) (byte :: u) =
      some (none, some ({ cur with type := some type } :: rest), u) := by
    rw [readerStep.eq_def]
    simp only [hcur, afterType, hbyte]
    rw [if_neg fun h => hplace h.1 h.2]
  exact read_of_step hstep

/-- What stands behind it is read. -/
lemma read_body {type : ReplyType} {t : Token} {v : Bytes} (hcur : cur.type = some type)
    (h : bodyToken strtod type (v ++ u) = some (t, v.length)) :
    (replyReader strtod).read (some (cur :: rest)) (v ++ u) =
      goOn strtod (afterToken cur rest t) u := by
  refine read_of_readerStep ?_
  rw [readerStep_typed hcur, h, Option.map_some, List.drop_left]

lemma take_line (s v : Bytes) : (s ++ (Resp.newline ++ v)).take s.length = s := List.take_left

lemma bodyToken_line {type : ReplyType} {s : Bytes} (hs : Resp.IsLine s) (hstring : type ≠ .string)
    (haggregate : type.isAggregate = false) :
    bodyToken strtod type (s ++ Resp.newline ++ u) =
      some (lineToken strtod type s, (s ++ Resp.newline).length) := by
  rw [List.append_assoc, bodyToken, seekNewline_line hs, Option.bind_some, if_neg hstring,
    haggregate, if_neg (by simp), take_line, List.length_append]
  rfl

lemma bodyToken_aggregate {type : ReplyType} {s : Bytes} (hs : Resp.IsLine s)
    (haggregate : type.isAggregate = true) :
    bodyToken strtod type (s ++ Resp.newline ++ u) =
      some (aggregateToken type s, (s ++ Resp.newline).length) := by
  have hstring : type ≠ .string := by rintro rfl; cases haggregate
  rw [List.append_assoc, bodyToken, seekNewline_line hs, Option.bind_some, if_neg hstring,
    if_pos haggregate, take_line, List.length_append]
  rfl

/-- A text without a carriage return is a line. -/
lemma isLine_of_notMem {s : Bytes} (h : 13 ∉ s) : Resp.IsLine s := fun hs =>
  h (hs.subset (by decide : (13 : UInt8) ∈ Resp.newline))

lemma isLine_toDecimal (v : ℤ) : Resp.IsLine (Decimal.toDecimal v) := by
  have hdigits : (13 : UInt8) ∉ Decimal.toDecimalNat v.natAbs := fun h => by
    have := Decimal.isDigit_of_mem_toDecimalNat h
    revert this; decide
  refine isLine_of_notMem ?_
  rw [Decimal.toDecimal]
  split
  · simp [hdigits]
  · exact hdigits

/-- A value that is one line is read. -/
lemma read_line {byte : UInt8} {type : ReplyType} {s : Bytes} {obj : RedisReply}
    (hcur : cur.type = none) (hbyte : RedisReader.readType byte = some type) (hs : Resp.IsLine s)
    (hstring : type ≠ .string) (haggregate : type.isAggregate = false)
    (hobj : RedisReader.lineObject strtod type s = .ok obj) :
    (replyReader strtod).read (some (cur :: rest)) (Resp.typed byte s ++ u) =
      goOn strtod (afterObject obj cur rest) u := by
  rw [Resp.typed, List.cons_append, List.cons_append, read_type hcur hbyte (by simp [haggregate]),
    read_body rfl (bodyToken_line hs hstring haggregate), lineToken, hobj]
  simp only [afterToken_object]

/-- A bulk string is read. -/
lemma read_bulk {s : Bytes} (hcur : cur.type = none) (hs : s.length < 2 ^ 31) :
    (replyReader strtod).read (some (cur :: rest)) ((Resp.Value.bulk s).bytes ++ u) =
      goOn strtod (afterObject { type := .string, str := some s } cur rest) u := by
  have hbody : bodyToken strtod .string
      (Decimal.toDecimal s.length ++ Resp.newline ++ (s ++ Resp.newline) ++ u) =
        some (.object { type := .string, str := some s },
          (Decimal.toDecimal s.length ++ Resp.newline ++ (s ++ Resp.newline)).length) := by
    simp only [List.append_assoc]
    rw [bodyToken, seekNewline_line (isLine_toDecimal _), Option.bind_some, if_pos rfl, bulkToken,
      take_line, string2ll_toDecimal (by omega) (by omega)]
    simp only
    rw [if_neg (by omega), if_neg (by omega), if_pos]
    · have hdrop : (Decimal.toDecimal s.length ++ (Resp.newline ++ (s ++ (Resp.newline ++ u)))).drop
          ((Decimal.toDecimal s.length).length + 2) = s ++ (Resp.newline ++ u) := by
        rw [← List.append_assoc]
        exact List.drop_left' (by rw [List.length_append]; rfl)
      rw [hdrop, Int.toNat_natCast, List.take_left]
      simp only [List.length_append, Resp.newline, List.length_cons, List.length_nil]
      congr 2
      omega
    · simp only [List.length_append, Resp.newline, List.length_cons, List.length_nil]
      omega
  rw [Resp.Value.bytes, Resp.typed, List.cons_append, List.cons_append, List.cons_append,
    read_type hcur rfl (by simp [ReplyType.isAggregate]), read_body rfl hbody, afterToken_object]

lemma readType_byte (kind : Resp.Aggregate) :
    RedisReader.readType kind.byte = some (aggregateType kind) := by
  cases kind <;> rfl

lemma isAggregate_aggregateType (kind : Resp.Aggregate) :
    (aggregateType kind).isAggregate = true := by
  cases kind <;> rfl

/-- The head of an aggregate is read. -/
lemma read_head {kind : Resp.Aggregate} {n : ℤ} (hcur : cur.type = none) (hrest : rest.length ≠ 8) :
    (replyReader strtod).read (some (cur :: rest))
        (Resp.typed kind.byte (Decimal.toDecimal n) ++ u) =
      goOn strtod (afterToken { cur with type := some (aggregateType kind) } rest
        (aggregateToken (aggregateType kind) (Decimal.toDecimal n))) u := by
  rw [Resp.typed, List.cons_append, List.cons_append,
    read_type hcur (readType_byte kind) fun _ => hrest,
    read_body rfl (bodyToken_aggregate (isLine_toDecimal n) (isAggregate_aggregateType kind))]

/-- The values one after the other, as the elements of an aggregate that is being read. -/
lemma read_elements {ws : List Resp.Value}
    (ih : ∀ w ∈ ws, ∀ (cur : RedisReadTask) (rest : ReadStack) (u : Bytes), cur.type = none →
      rest.length + w.depth ≤ 8 →
        (replyReader strtod).read (some (cur :: rest)) (w.bytes ++ u) =
          goOn strtod (afterObject (replyOf w) cur rest) u)
    (prv : RedisReadTask) {i : ℤ} (hne : ws ≠ []) (hprv : prv.elements = i + ws.length)
    (hdepth : rest.length + 1 + Resp.depthOf ws ≤ 8) (u : Bytes) :
    (replyReader strtod).read (some ({ idx := i } :: prv :: rest)) (Resp.bytesOf ws ++ u) =
      goOn strtod
        (afterObject { type := prv.type.getD .array, element := prv.obj ++ repliesOf ws } prv rest)
        u := by
  induction ws generalizing prv i with
  | nil => exact absurd rfl hne
  | cons w ws ihs =>
      rw [Resp.depthOf] at hdepth
      rw [Resp.bytesOf, List.append_assoc,
        ih w List.mem_cons_self { idx := i } (prv :: rest) _ rfl (by rw [List.length_cons]; omega),
        afterObject_cons, repliesOf]
      rw [List.length_cons] at hprv
      cases ws with
      | nil =>
          rw [if_pos (by simp only [hprv, List.length_nil]; omega)]
          rfl
      | cons w' ws =>
          rw [if_neg (by simp only [hprv, List.length_cons]; omega)]
          have hrest := ihs (fun v hv => ih v (List.mem_cons_of_mem w hv))
            { prv with obj := prv.obj ++ [replyOf w] } (i := i + 1) (by simp)
            (by simp only [hprv, List.length_cons]; omega) (by omega)
          rw [List.append_assoc, List.singleton_append] at hrest
          refine hrest.trans ?_
          exact congrArg (goOn strtod · u) (afterObject_congr (by rfl) _ rest)

/-- The lines that `processLineItem` takes for floating-point numbers. -/
def takesDouble (strtod : Bytes → Bool) (line : Bytes) : Bool :=
  line.length < 326 && isDouble strtod line

/-- The token of the head of an aggregate. -/
lemma aggregateToken_length {kind : Resp.Aggregate} {n : ℕ} (hn : n < 2 ^ 31)
    (hwidth : kind.width ∣ n) :
    aggregateToken (aggregateType kind) (Decimal.toDecimal (n / kind.width : ℕ)) =
      if n = 0 then .object { type := aggregateType kind } else .opens n := by
  obtain ⟨m, rfl⟩ := hwidth
  have hpos : 0 < kind.width := by cases kind <;> decide
  have hle : m ≤ kind.width * m := Nat.le_mul_of_pos_left m hpos
  have hcount : (if aggregateType kind = .map then (m : ℤ) * 2 else m) = (kind.width * m : ℕ) := by
    cases kind with
    | map =>
        rw [if_pos (by rfl), Resp.Aggregate.width]
        omega
    | array => simp [aggregateType, Resp.Aggregate.width]
    | set => simp [aggregateType, Resp.Aggregate.width]
  rw [Nat.mul_div_cancel_left m hpos, aggregateToken, string2ll_toDecimal (by omega) (by omega)]
  simp only
  rw [if_neg (by omega), if_neg (by omega), hcount]
  by_cases hzero : kind.width * m = 0
  · rw [if_neg (by omega), if_pos hzero]
  · rw [if_pos (by omega), if_neg hzero]

mutual

/-- **A value is read.** On a stack with room for it, the reader goes on behind the bytes of a value
with its object. -/
theorem read_value : ∀ (w : Resp.Value), w.Valid (takesDouble strtod) →
    ∀ (cur : RedisReadTask) (rest : ReadStack) (u : Bytes), cur.type = none →
      rest.length + w.depth ≤ 8 →
        (replyReader strtod).read (some (cur :: rest)) (w.bytes ++ u) =
          goOn strtod (afterObject (replyOf w) cur rest) u
  | .error s, hs, cur, rest, u, hcur, _ => read_line hcur rfl hs (by decide) rfl rfl
  | .status s, hs, cur, rest, u, hcur, _ => read_line hcur rfl hs (by decide) rfl rfl
  | .integer v, hv, cur, rest, u, hcur, _ => by
      refine read_line hcur rfl (isLine_toDecimal v) (by decide) rfl ?_
      simp only [RedisReader.lineObject, string2ll_toDecimal hv.1 hv.2]
      rfl
  | .double s, hs, cur, rest, u, hcur, _ => by
      have hdouble := hs.2
      rw [takesDouble, Bool.and_eq_true, decide_eq_true_eq] at hdouble
      refine read_line hcur rfl hs.1 (by decide) rfl ?_
      simp only [RedisReader.lineObject]
      rw [if_neg (by omega), if_pos hdouble.2]
      rfl
  | .null, _, cur, rest, u, hcur, _ =>
      read_line hcur rfl (isLine_of_notMem (by simp)) (by decide) rfl rfl
  | .bool b, _, cur, rest, u, hcur, _ => by
      cases b with
      | true => exact read_line hcur rfl (isLine_of_notMem (by decide)) (by decide) rfl rfl
      | false => exact read_line hcur rfl (isLine_of_notMem (by decide)) (by decide) rfl rfl
  | .bulk s, hs, cur, rest, u, hcur, _ => read_bulk hcur hs
  | .nilBulk, _, cur, rest, u, hcur, _ => by
      have hbody : bodyToken strtod .string (Decimal.toDecimal (-1) ++ Resp.newline ++ u) =
          some (.object { type := .nil }, (Decimal.toDecimal (-1) ++ Resp.newline).length) := by
        rw [List.append_assoc, bodyToken, seekNewline_line (isLine_toDecimal _), Option.bind_some,
          if_pos rfl, bulkToken, take_line, string2ll_toDecimal (by decide) (by decide)]
        rfl
      rw [Resp.Value.bytes, Resp.typed, List.cons_append, List.cons_append,
        read_type hcur rfl (by simp [ReplyType.isAggregate]), read_body rfl hbody,
        afterToken_object]
      rfl
  | .nilAggregate kind, _, cur, rest, u, hcur, hdepth => by
      rw [Resp.Value.depth] at hdepth
      rw [Resp.Value.bytes, read_head hcur (by omega)]
      have htoken : aggregateToken (aggregateType kind) (Decimal.toDecimal (-1)) =
          .object { type := .nil } := by
        rw [aggregateToken, string2ll_toDecimal (by decide) (by decide)]
        rfl
      rw [htoken, afterToken_object]
      rfl
  | .aggregate kind ws, hw, cur, rest, u, hcur, hdepth => by
      obtain ⟨hlength, hwidth, hws⟩ := hw
      rw [Resp.Value.depth] at hdepth
      rw [Resp.Value.bytes, List.append_assoc, read_head hcur (by omega),
        aggregateToken_length hlength hwidth]
      cases ws with
      | nil =>
          rw [List.length_nil, if_pos rfl, afterToken_object]
          rfl
      | cons w ws =>
          rw [if_neg (by simp), afterToken]
          refine (read_elements (read_values (w :: ws) hws)
            { cur with type := some (aggregateType kind), elements := (w :: ws).length, obj := [] }
            (i := 0) (by simp) (by simp) (by omega) u).trans ?_
          exact congrArg (goOn strtod · u) (afterObject_congr (by rfl) _ rest)

theorem read_values : ∀ (ws : List Resp.Value), Resp.ValidAll (takesDouble strtod) ws → ∀ w ∈ ws,
    ∀ (cur : RedisReadTask) (rest : ReadStack) (u : Bytes), cur.type = none →
      rest.length + w.depth ≤ 8 →
        (replyReader strtod).read (some (cur :: rest)) (w.bytes ++ u) =
          goOn strtod (afterObject (replyOf w) cur rest) u
  | [], _, _, h => absurd h List.not_mem_nil
  | w :: ws, hws, w', hw' => by
      rcases List.mem_cons.mp hw' with heq | hmem
      · rw [heq]
        exact read_value w hws.1
      · exact read_values ws hws.2 w' hmem

end

/-! ### Values that are too deep -/

/-- The reader fails because of the depth of what it reads. -/
def FailsAt (strtod : Bytes → Bool) (s : ReadStack) (u : Bytes) : Prop :=
  ∃ u', (replyReader strtod).read (some s) u = (some (.error .nestedTooDeep), none, u')

/-- An aggregate has no place on a full stack. -/
lemma failsAt_full {kind : Resp.Aggregate} (hcur : cur.type = none) (hrest : rest.length = 8)
    (u : Bytes) : FailsAt strtod (cur :: rest) (kind.byte :: u) := by
  have hstep : readerStep strtod (some (cur :: rest)) (kind.byte :: u) =
      some (some (.error .nestedTooDeep), none, u) := by
    rw [readerStep.eq_def]
    simp only [hcur, afterType, readType_byte]
    rw [if_pos ⟨isAggregate_aggregateType kind, hrest⟩]
  exact ⟨u, read_of_step_some hstep⟩

/-- The elements up to the first that is too deep. -/
lemma failsAt_elements {ws : List Resp.Value} (hws : Resp.ValidAll (takesDouble strtod) ws)
    (ih : ∀ w ∈ ws, ∀ (cur : RedisReadTask) (rest : ReadStack) (u : Bytes), cur.type = none →
      rest.length ≤ 8 → 8 < rest.length + w.depth → FailsAt strtod (cur :: rest) (w.bytes ++ u))
    (prv : RedisReadTask) {i : ℤ} (hprv : prv.elements = i + ws.length)
    (hrest : rest.length + 1 ≤ 8)
    (hdepth : 8 < rest.length + 1 + Resp.depthOf ws) (u : Bytes) :
    FailsAt strtod ({ idx := i } :: prv :: rest) (Resp.bytesOf ws ++ u) := by
  induction ws generalizing prv i with
  | nil =>
      rw [Resp.depthOf] at hdepth
      omega
  | cons w ws ihs =>
      rw [Resp.depthOf] at hdepth
      rw [Resp.bytesOf, List.append_assoc]
      by_cases hw : 8 < rest.length + 1 + w.depth
      · exact ih w List.mem_cons_self { idx := i } (prv :: rest) _ rfl hrest hw
      · have hread := read_value w hws.1 { idx := i } (prv :: rest) (Resp.bytesOf ws ++ u) rfl
          (by rw [List.length_cons]; omega)
        rw [List.length_cons] at hprv
        have hlength : 0 < ws.length := by
          rcases ws with _ | ⟨w', ws⟩
          · rw [Resp.depthOf] at hdepth
            omega
          · simp
        rw [afterObject_cons, if_neg (by simp only [hprv]; omega)] at hread
        rw [FailsAt, hread]
        exact ihs hws.2 (fun v hv => ih v (List.mem_cons_of_mem w hv))
          { prv with obj := prv.obj ++ [replyOf w] } (by simp only [hprv]; omega) (by omega)

mutual

/-- **A value that is too deep** makes the reader fail. -/
theorem read_tooDeep : ∀ (w : Resp.Value), w.Valid (takesDouble strtod) →
    ∀ (cur : RedisReadTask) (rest : ReadStack) (u : Bytes), cur.type = none → rest.length ≤ 8 →
      8 < rest.length + w.depth → FailsAt strtod (cur :: rest) (w.bytes ++ u)
  | .nilAggregate kind, _, cur, rest, u, hcur, hrest, hdepth => by
      rw [Resp.Value.depth] at hdepth
      exact failsAt_full hcur (by omega) _
  | .aggregate kind ws, hw, cur, rest, u, hcur, hrest, hdepth => by
      obtain ⟨hlength, hwidth, hws⟩ := hw
      rw [Resp.Value.depth] at hdepth
      rw [Resp.Value.bytes, List.append_assoc]
      by_cases hfull : rest.length = 8
      · exact failsAt_full hcur hfull _
      · have hne : ws.length ≠ 0 := by
          rintro hzero
          rw [List.length_eq_zero_iff.mp hzero, Resp.depthOf] at hdepth
          omega
        rw [FailsAt, read_head hcur hfull, aggregateToken_length hlength hwidth, if_neg hne]
        exact failsAt_elements hws (tooDeep_values ws hws)
          { cur with type := some (aggregateType kind), elements := ws.length, obj := [] }
          (by simp) (by omega) (by omega) u
  | .error _, _, _, _, _, _, hrest, hdepth => by rw [Resp.Value.depth] at hdepth; omega
  | .status _, _, _, _, _, _, hrest, hdepth => by rw [Resp.Value.depth] at hdepth; omega
  | .integer _, _, _, _, _, _, hrest, hdepth => by rw [Resp.Value.depth] at hdepth; omega
  | .double _, _, _, _, _, _, hrest, hdepth => by rw [Resp.Value.depth] at hdepth; omega
  | .null, _, _, _, _, _, hrest, hdepth => by rw [Resp.Value.depth] at hdepth; omega
  | .bool _, _, _, _, _, _, hrest, hdepth => by rw [Resp.Value.depth] at hdepth; omega
  | .bulk _, _, _, _, _, _, hrest, hdepth => by rw [Resp.Value.depth] at hdepth; omega
  | .nilBulk, _, _, _, _, _, hrest, hdepth => by rw [Resp.Value.depth] at hdepth; omega

theorem tooDeep_values : ∀ (ws : List Resp.Value), Resp.ValidAll (takesDouble strtod) ws → ∀ w ∈ ws,
    ∀ (cur : RedisReadTask) (rest : ReadStack) (u : Bytes), cur.type = none → rest.length ≤ 8 →
      8 < rest.length + w.depth → FailsAt strtod (cur :: rest) (w.bytes ++ u)
  | [], _, _, h => absurd h List.not_mem_nil
  | w :: ws, hws, w', hw' => by
      rcases List.mem_cons.mp hw' with heq | hmem
      · rw [heq]
        exact read_tooDeep w hws.1
      · exact tooDeep_values ws hws.2 w' hmem

end

/-! ### Calls -/

namespace RedisReader

/-- Bytes arrive, or `redisReaderGetReply` is called. -/
def step (strtod : Bytes → Bool) (r : RedisReader) : Call UInt8 → Option RedisReader
  | .feed buf => some (redisReaderFeed r buf).2
  | .get => some (redisReaderGetReply strtod r).2

/-- What a call answers: a reply, or `REDIS_ERR` as `none`; null is no answer. -/
def output (strtod : Bytes → Bool) (r : RedisReader) : Call UInt8 → Option (Option RedisReply)
  | .feed _ => none
  | .get =>
    match (redisReaderGetReply strtod r).1 with
    | none => some none
    | some none => none
    | some (some w) => some (some w)

/-- What a call answers, null included. -/
def answer (strtod : Bytes → Bool) (r : RedisReader) :
    Call UInt8 → Option (Option (Option RedisReply))
  | .feed _ => none
  | .get => some (redisReaderGetReply strtod r).1

/-- Null is no answer. -/
def notNull : Option (Option RedisReply) → Option (Option RedisReply)
  | none => some none
  | some none => none
  | some (some w) => some (some w)

end RedisReader

/-- The bytes of values, each with its object. -/
def frames (ws : List Resp.Value) : List (Bytes × RedisReply) :=
  ws.map fun w => (w.bytes, replyOf w)

variable {r : RedisReader} {s : ReadStack}

lemma reading_init : Reading {} rootStack [] :=
  ⟨rfl, rfl, rfl, rfl, Nat.le_refl 0, fun _ h => by cases h⟩

/-- Where `replyReader` puts out replies only, the calls answer these. -/
lemma outputs_of_replyReader (hr : Reading r s u) (calls : List (Call UInt8)) {os : List RedisReply}
    (h : outputs (replyReader strtod).callStep (replyReader strtod).callOutput (some s, u) calls =
      os.map .ok) :
    outputs (RedisReader.step strtod) (RedisReader.output strtod) r calls = os.map some := by
  induction calls generalizing r s u os with
  | nil =>
      obtain rfl := List.map_eq_nil_iff.mp h.symm
      rfl
  | cons call calls ih =>
      cases call with
      | feed buf =>
          obtain ⟨r', hfeed, hr'⟩ := redisReaderFeed_spec hr buf
          have hstep : RedisReader.step strtod r (.feed buf) = some r' := by
            rw [RedisReader.step, hfeed]
          rw [outputs_cons hstep]
          exact ih hr' h
      | get =>
          have hanswer : Answer strtod s u (redisReaderGetReply strtod r) :=
            redisReaderGetReply_spec hr
          have hmachine : (replyReader strtod).callStep (some s, u) .get =
            some ((replyReader strtod).read (some s) u).2 := rfl
          rw [outputs_cons hmachine, callOutput] at h
          have hstep : RedisReader.step strtod r .get = some (redisReaderGetReply strtod r).2 := rfl
          rw [outputs_cons hstep, RedisReader.output]
          generalize redisReaderGetReply strtod r = answer at hanswer
          cases hanswer with
          | reply r' w u' hread hr' =>
              rw [hread] at h
              cases os with
              | nil => simp at h
              | cons o os =>
                  obtain ⟨hw, hrest⟩ := List.cons.inj h
                  obtain rfl := Except.ok.inj hw
                  exact congrArg (some w :: ·) (ih hr' hrest)
          | waits r' s' u' hread hr' =>
              rw [hread] at h
              exact ih hr' h
          | error r' e u' hread hr' =>
              rw [hread] at h
              cases os with
              | nil => simp at h
              | cons o os => cases (List.cons.inj h).1

/-- A value is a frame of the reader. -/
lemma frame_value {w : Resp.Value} (hw : w.Valid (takesDouble strtod)) (hdepth : w.depth ≤ 8) :
    (replyReader strtod).Frame (some rootStack) w.bytes (.ok (replyOf w)) := by
  have hread := read_value w hw { idx := -1 } [] [] rfl (by rw [List.length_nil]; omega)
  rw [List.append_nil] at hread
  exact hread

lemma validAll_iff {P : Bytes → Bool} {ws : List Resp.Value} :
    Resp.ValidAll P ws ↔ ∀ w ∈ ws, w.Valid P := by
  induction ws with
  | nil => simp [Resp.ValidAll]
  | cons v ws ih => rw [Resp.ValidAll, ih, List.forall_mem_cons]

lemma flatten_frames (ws : List Resp.Value) :
    ((frames ws).map Prod.fst).flatten = Resp.bytesOf ws := by
  induction ws with
  | nil => rfl
  | cons w ws ih =>
      rw [frames, List.map_cons, List.map_cons, List.flatten_cons, Resp.bytesOf]
      exact congrArg (w.bytes ++ ·) ih

/-- The reader puts out the values as they arrive. -/
lemma outputs_replyReader {ws : List Resp.Value} (hws : Resp.ValidAll (takesDouble strtod) ws)
    (hdepth : ∀ w ∈ ws, w.depth ≤ 8) {calls : List (Call UInt8)} {rest : Bytes}
    (h : calls.flatMap Call.incoming ++ rest = Resp.bytesOf ws) :
    outputs (replyReader strtod).callStep (replyReader strtod).callOutput (some rootStack, [])
        calls =
      (outputs Arrivals.step Arrivals.output ⟨0, frames ws⟩ calls).map .ok := by
  have hnil : readerStep strtod (some rootStack) [] = none := readerStep_nil rootStack
  have hframes : ∀ p ∈ (frames ws).map fun p => (p.1, Except.ok p.2),
      (replyReader strtod).Frame (some rootStack) p.1 p.2 := by
    intro p hp
    obtain ⟨q, hq, rfl⟩ := List.mem_map.mp hp
    obtain ⟨w, hw, rfl⟩ := List.mem_map.mp hq
    exact frame_value (validAll_iff.mp hws w hw) (hdepth w hw)
  rw [← Arrivals.outputs_map]
  refine outputs_eq_arrivals hnil hframes (Pending.refl _ []) calls rest ?_
  rw [List.nil_append, List.map_map]
  exact h.trans (flatten_frames ws).symm

/-- **Replies are read as they arrive.** However the bytes of some values are split and whenever the
reader is called, each call answers the next value if all of it has arrived, and null if not. -/
theorem outputs_redisReader {ws : List Resp.Value} (hws : Resp.ValidAll (takesDouble strtod) ws)
    (hdepth : ∀ w ∈ ws, w.depth ≤ 8) {calls : List (Call UInt8)} {rest : Bytes}
    (h : calls.flatMap Call.incoming ++ rest = Resp.bytesOf ws) :
    outputs (RedisReader.step strtod) (RedisReader.output strtod) {} calls =
      (outputs Arrivals.step Arrivals.output ⟨0, frames ws⟩ calls).map some :=
  outputs_of_replyReader reading_init calls (outputs_replyReader hws hdepth h)

/-- A status and a string in three pieces. -/
theorem outputs_redisReader_ok :
    outputs (RedisReader.step fun _ => false) (RedisReader.output fun _ => false) {}
        [.feed [43, 79, 75], .get, .feed [13, 10, 36, 49, 13, 10, 65], .get, .get,
          .feed [13, 10], .get] =
      (outputs Arrivals.step Arrivals.output ⟨0, frames [.status [79, 75], .bulk [65]]⟩
        [.feed [43, 79, 75], .get, .feed [13, 10, 36, 49, 13, 10, 65], .get, .get,
          .feed [13, 10], .get]).map some :=
  outputs_redisReader (by simp only [Resp.ValidAll, Resp.Value.Valid]; decide)
    (by simp [Resp.Value.depth])
    (show [43, 79, 75] ++ [13, 10, 36, 49, 13, 10, 65] ++ [13, 10] ++ [] =
      Resp.bytesOf [.status [79, 75], .bulk [65]] from by decide)

/-! ### Failure -/

/-- The outputs are the answers that are not null. -/
lemma outputs_output (r : RedisReader) (calls : List (Call UInt8)) :
    outputs (RedisReader.step strtod) (RedisReader.output strtod) r calls =
      (outputs (RedisReader.step strtod) (RedisReader.answer strtod) r calls).filterMap
        RedisReader.notNull := by
  induction calls generalizing r with
  | nil => rfl
  | cons call calls ih =>
      cases call with
      | feed buf => exact ih (redisReaderFeed r buf).2
      | get =>
          have hstep : RedisReader.step strtod r .get = some (redisReaderGetReply strtod r).2 := rfl
          rw [outputs_cons hstep, outputs_cons hstep, ih, List.filterMap_append]
          rw [RedisReader.output, RedisReader.answer]
          rcases (redisReaderGetReply strtod r).1 with _ | _ | w <;> rfl

/-- After an error every call answers `REDIS_ERR`. -/
lemma answers_setError (e : ReaderError) (calls : List (Call UInt8)) :
    ∃ n, outputs (RedisReader.step strtod) (RedisReader.answer strtod) (.setError e) calls =
      List.replicate n none := by
  induction calls with
  | nil => exact ⟨0, rfl⟩
  | cons call calls ih =>
      cases call with
      | feed buf => exact ih
      | get =>
          obtain ⟨n, hn⟩ := ih
          exact ⟨n + 1, congrArg (none :: ·) hn⟩

/-- While a value that is too deep arrives, a call waits or fails. -/
lemma answer_tooDeep {w : Resp.Value} (hw : w.Valid (takesDouble strtod)) (hdepth : 8 < w.depth)
    {p v : Bytes} (hp : (replyReader strtod).Pending (some rootStack) (some s, u) p)
    (h : p ++ v = w.bytes) {answer : Option (Option RedisReply) × RedisReader}
    (hanswer : Answer strtod s u answer) :
    (∃ e, answer = (none, .setError e)) ∨ v ≠ [] ∧ ∃ s' u', answer.1 = some none ∧
      Reading answer.2 s' u' ∧
        (replyReader strtod).Pending (some rootStack) (some s', u') p := by
  have hfail : FailsAt strtod rootStack (w.bytes ++ []) :=
    read_tooDeep w hw { idx := -1 } [] [] rfl (by simp) (by rw [List.length_nil]; omega)
  rw [List.append_nil, ← h] at hfail
  obtain ⟨u₁, hfail⟩ := hfail
  have hread : (replyReader strtod).read (some s) u =
      (replyReader strtod).read (some rootStack) p := hp.read
  cases hanswer with
  | reply r' w' u' hok hr' =>
      rw [read_append_of_some (hread.symm.trans hok) v] at hfail
      simp at hfail
  | waits r' s' u' hnone hr' =>
      refine .inr ⟨?_, s', u', rfl, hr', ?_⟩
      · rintro rfl
        rw [List.append_nil, ← hread, hnone] at hfail
        simp at hfail
      · have hpending := hp.get_none (by rw [← hread, hnone])
        rwa [hnone] at hpending
  | error r' e u' herror hr' => exact .inl ⟨e, by rw [hr']⟩

/-- While a value that is too deep arrives, calls answer null; then one fails, and so do all that
follow. -/
lemma answers_tooDeep {w : Resp.Value} (hw : w.Valid (takesDouble strtod)) (hdepth : 8 < w.depth)
    (hr : Reading r s u) {p : Bytes}
    (hp : (replyReader strtod).Pending (some rootStack) (some s, u) p) {calls : List (Call UInt8)}
    (h : p ++ calls.flatMap Call.incoming = w.bytes) (more : List (Call UInt8)) :
    ∃ k n, k ≤ (outputs (RedisReader.step strtod) (RedisReader.answer strtod) r calls).length ∧
      outputs (RedisReader.step strtod) (RedisReader.answer strtod) r (calls ++ .get :: more) =
        List.replicate k (some none) ++ List.replicate n none := by
  have hget : ∀ r : RedisReader,
      RedisReader.step strtod r .get = some (redisReaderGetReply strtod r).2 := fun _ => rfl
  have hfails : ∀ {r : RedisReader} {e : ReaderError},
      redisReaderGetReply strtod r = (none, .setError e) → ∀ calls : List (Call UInt8),
        ∃ n, outputs (RedisReader.step strtod) (RedisReader.answer strtod) r (.get :: calls) =
          List.replicate n none := by
    intro r e he calls
    obtain ⟨n, hn⟩ := @answers_setError strtod e calls
    refine ⟨n + 1, ?_⟩
    rw [outputs_cons (hget r), RedisReader.answer, he, hn]
    rfl
  induction calls generalizing r s u p with
  | nil =>
      rcases answer_tooDeep hw hdepth hp h (redisReaderGetReply_spec hr) with ⟨e, he⟩ | ⟨hne, -⟩
      · obtain ⟨n, hn⟩ := hfails he more
        exact ⟨0, n, Nat.zero_le _, hn⟩
      · exact absurd rfl hne
  | cons call calls ih =>
      cases call with
      | feed buf =>
          obtain ⟨r', hfeed, hr'⟩ := redisReaderFeed_spec hr buf
          have hstep : RedisReader.step strtod r (.feed buf) = some r' := by
            rw [RedisReader.step, hfeed]
          rw [List.flatMap_cons, Call.incoming, ← List.append_assoc] at h
          rw [List.cons_append, outputs_cons hstep, outputs_cons hstep]
          exact ih hr' (hp.feed buf) h
      | get =>
          rcases answer_tooDeep hw hdepth hp h (redisReaderGetReply_spec hr) with
            ⟨e, he⟩ | ⟨-, s', u', hnull, hr', hp'⟩
          · obtain ⟨n, hn⟩ := hfails he (calls ++ .get :: more)
            exact ⟨0, n, Nat.zero_le _, hn⟩
          · obtain ⟨k, n, hk, houtputs⟩ := ih hr' hp' h
            refine ⟨k + 1, n, ?_, ?_⟩
            · rw [outputs_cons (hget r), List.length_append, Nat.add_comm]
              exact Nat.add_le_add_left hk 1
            · rw [List.cons_append, outputs_cons (hget r), RedisReader.answer, hnull, houtputs]
              rfl

/-- **How deep a reply may be.** A value that arrives in any pieces, with any calls in between, is
answered once, by the next call at the latest, if there are at most eight aggregates around each
other. Otherwise none of the calls answers a reply: some of those before its end answer null, and
all from then on `REDIS_ERR`, whatever follows. -/
theorem reads_iff {w : Resp.Value} (hw : w.Valid (takesDouble strtod)) {calls : List (Call UInt8)}
    (h : calls.flatMap Call.incoming = w.bytes) :
    (outputs (RedisReader.step strtod) (RedisReader.output strtod) {} (calls ++ [.get]) =
        [some (replyOf w)] ↔ w.depth ≤ 8) ∧
      (8 < w.depth → ∀ more, ∃ k n,
        k ≤ (outputs (RedisReader.step strtod) (RedisReader.answer strtod) {} calls).length ∧
        outputs (RedisReader.step strtod) (RedisReader.answer strtod) {} (calls ++ .get :: more) =
          List.replicate k (some none) ++ List.replicate n none) := by
  have hpending : (replyReader strtod).Pending (some rootStack) (some rootStack, []) [] :=
    Pending.refl _ []
  refine ⟨⟨fun hout => ?_, fun hdepth => ?_⟩, fun hdepth =>
    answers_tooDeep hw hdepth reading_init hpending h⟩
  · by_contra hlt
    obtain ⟨k, n, -, hanswers⟩ :=
      answers_tooDeep hw (Nat.lt_of_not_le hlt) reading_init hpending h []
    rw [outputs_output, hanswers, List.filterMap_append] at hout
    have hmem : some (replyOf w) ∈
        (List.replicate k (some none)).filterMap RedisReader.notNull ++
          (List.replicate n none).filterMap RedisReader.notNull :=
      hout ▸ List.mem_singleton_self _
    simp [RedisReader.notNull] at hmem
  · have hincoming : (calls ++ [Call.get]).flatMap Call.incoming ++ [] = Resp.bytesOf [w] := by
      simp [List.flatMap_append, Call.incoming, h, Resp.bytesOf]
    have hsingle : outputs Arrivals.step Arrivals.output ⟨0, frames [w]⟩ (calls ++ [Call.get]) =
        [replyOf w] :=
      Arrivals.outputs_single w.bytes (replyOf w) (by rw [h, Nat.zero_add])
    have hvalid : Resp.ValidAll (takesDouble strtod) [w] := by simp [Resp.ValidAll, hw]
    have hread := outputs_replyReader hvalid (by simpa using hdepth) hincoming
    rw [hsingle] at hread
    exact outputs_of_replyReader reading_init _ hread

/-- Nine arrays around each other, in two pieces: null, and then `REDIS_ERR`. -/
example :
    (outputs (RedisReader.step fun _ => false) (RedisReader.answer fun _ => false) {}
      [.feed (List.replicate 8 [42, 49, 13, 10]).flatten, .get, .feed [42, 49, 13, 10, 95, 13, 10],
        .get, .get]).map (Option.map Option.isSome) = [some false, none, none] := by decide +kernel

/-- The two elements of an array, whose second one arrives late. -/
theorem reads_iff_pair :
    (outputs (RedisReader.step fun _ => false) (RedisReader.output fun _ => false) {}
          ([.feed [42, 50, 13, 10, 58, 55], .get, .feed [13, 10, 95, 13, 10]] ++ [.get]) =
        [some (replyOf (.aggregate .array [.integer 7, .null]))] ↔
      (Resp.Value.aggregate .array [.integer 7, .null]).depth ≤ 8) :=
  (reads_iff (w := .aggregate .array [.integer 7, .null])
    (by simp [Resp.ValidAll, Resp.Value.Valid, Resp.Aggregate.width]) (by decide)).1

end CKGameServer
