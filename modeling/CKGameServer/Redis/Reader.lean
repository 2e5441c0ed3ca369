import CKGameServer.Library.Incremental
import CKGameServer.Library.Resp
import CKGameServer.Redis.Numbers

/-!
The reader of replies as it takes its input (`redisReaderGetReply`, `processItem`).

* `Token`, `bodyToken`: what stands behind a type byte, once it is complete.
* `replyReader`: the reader as one that takes a type byte, or what stands behind it, at a time.
* `Reading`: where the structure of the source stands.
* `redisReaderGetReply_spec`: the loop of the source goes on as `replyReader` does.
-/

namespace CKGameServer

open Memory Incremental

/-! ### Tokens -/

section SeekNewline

variable {u v : Bytes} {n : ℕ}

lemma seekNewline_append (h : seekNewline u = some n) (v : Bytes) :
    seekNewline (u ++ v) = some n := by
  induction u generalizing n with
  | nil => cases h
  | cons c u ih =>
      cases u with
      | nil => cases h
      | cons d u =>
          rw [seekNewline] at h
          rw [List.cons_append, List.cons_append, seekNewline]
          split_ifs at h ⊢ with hend
          · exact h
          · obtain ⟨m, hm, rfl⟩ := Option.map_eq_some_iff.mp h
            rw [← List.cons_append, ih hm, Option.map_some]

lemma seekNewline_lt (h : seekNewline u = some n) : n + 2 ≤ u.length := by
  induction u generalizing n with
  | nil => cases h
  | cons c u ih =>
      cases u with
      | nil => cases h
      | cons d u =>
          rw [seekNewline] at h
          split at h
          · obtain rfl := Option.some.inj h
            simp
          · obtain ⟨m, hm, rfl⟩ := Option.map_eq_some_iff.mp h
            have := ih hm
            rw [List.length_cons]
            omega

/-- The end of a line is found. -/
lemma seekNewline_line (hline : Resp.IsLine u) (v : Bytes) :
    seekNewline (u ++ (Resp.newline ++ v)) = some u.length := by
  induction u with
  | nil => rfl
  | cons c u ih =>
      have hrest : Resp.IsLine u := fun h => hline (h.trans (List.suffix_cons c u).isInfix)
      cases u with
      | nil =>
          rw [List.singleton_append, Resp.newline, List.cons_append, seekNewline,
            if_neg fun h => absurd h.2 (by decide)]
          exact congrArg (Option.map (· + 1)) (ih hrest)
      | cons d u =>
          have hne : ¬(c = 13 ∧ d = 10) := by
            rintro ⟨rfl, rfl⟩
            exact hline ⟨[], u, rfl⟩
          rw [List.cons_append, List.cons_append, seekNewline, if_neg hne, ← List.cons_append,
            ih hrest]
          rfl

end SeekNewline

/-- What stands behind a type byte: an object, an error, or the number of elements that follow. -/
inductive Token where
  | object (obj : RedisReply)
  | opens (elements : ℤ)
  | error (e : ReaderError)

section Tokens

variable (strtod : Bytes → Bool)

/-- The token of a line. -/
def lineToken (type : ReplyType) (line : Bytes) : Token :=
  match RedisReader.lineObject strtod type line with
  | .error e => .error e
  | .ok obj => .object obj

/-- The token of a bulk string: its length, and how many bytes it takes, the line of the length
among them. -/
def bulkToken (u : Bytes) (n : ℕ) : Option (Token × ℕ) :=
  match string2ll (u.take n) with
  | none => some (.error .badBulkLength, n + 2)
  | some len =>
    if len < -1 then some (.error .bulkLengthOutOfRange, n + 2)
    else if len = -1 then some (.object { type := .nil }, n + 2)
    else if n + 2 + (len.toNat + 2) ≤ u.length then
      some (.object { type := .string, str := some ((u.drop (n + 2)).take len.toNat) },
        n + 2 + (len.toNat + 2))
    else none

/-- The token of the head of an aggregate. -/
def aggregateToken (type : ReplyType) (line : Bytes) : Token :=
  match string2ll line with
  | none => .error .badMultiBulkLength
  | some elements =>
    if elements < -1 then .error .multiBulkLengthOutOfRange
    else if elements = -1 then .object { type := .nil }
    else
      let elements := if type = .map then elements * 2 else elements
      if 0 < elements then .opens elements else .object { type }

/-- What stands behind a type byte, and how many bytes it takes; `none` as long as it is not
complete. -/
def bodyToken (type : ReplyType) (u : Bytes) : Option (Token × ℕ) :=
  (seekNewline u).bind fun n =>
    if type = .string then bulkToken u n
    else if type.isAggregate then some (aggregateToken type (u.take n), n + 2)
    else some (lineToken strtod type (u.take n), n + 2)

variable {strtod} {type : ReplyType} {u : Bytes} {t : Token} {k : ℕ}

lemma bulkToken_spec {n : ℕ} (hn : n + 2 ≤ u.length) (h : bulkToken u n = some (t, k)) :
    0 < k ∧ k ≤ u.length ∧ ∀ v, bulkToken (u ++ v) n = some (t, k) := by
  rw [bulkToken] at h
  have htake : ∀ v, (u ++ v).take n = u.take n := fun v =>
    List.take_append_of_le_length (by omega)
  cases hlen : string2ll (u.take n) with
  | none =>
      rw [hlen] at h
      obtain ⟨rfl, rfl⟩ := Prod.mk.inj (Option.some.inj h)
      refine ⟨by omega, hn, fun v => ?_⟩
      rw [bulkToken, htake, hlen]
  | some len =>
      rw [hlen] at h
      simp only at h
      split_ifs at h with h1 h2 h3
      · obtain ⟨rfl, rfl⟩ := Prod.mk.inj (Option.some.inj h)
        refine ⟨by omega, hn, fun v => ?_⟩
        simp only [bulkToken, htake, hlen, if_pos h1]
      · obtain ⟨rfl, rfl⟩ := Prod.mk.inj (Option.some.inj h)
        refine ⟨by omega, hn, fun v => ?_⟩
        simp only [bulkToken, htake, hlen, if_neg h1, if_pos h2]
      · obtain ⟨rfl, rfl⟩ := Prod.mk.inj (Option.some.inj h)
        refine ⟨by omega, h3, fun v => ?_⟩
        have hle : n + 2 + (len.toNat + 2) ≤ (u ++ v).length := by
          rw [List.length_append]
          omega
        have htext : ((u ++ v).drop (n + 2)).take len.toNat =
            (u.drop (n + 2)).take len.toNat := by
          rw [List.drop_append_of_le_length hn,
            List.take_append_of_le_length (by rw [List.length_drop]; omega)]
        simp only [bulkToken, htake, hlen, if_neg h1, if_neg h2, if_pos hle, htext]

/-- A complete token takes bytes, and is the same whatever follows. -/
lemma bodyToken_spec (h : bodyToken strtod type u = some (t, k)) :
    0 < k ∧ k ≤ u.length ∧ ∀ v, bodyToken strtod type (u ++ v) = some (t, k) := by
  obtain ⟨n, hn, h⟩ := Option.bind_eq_some_iff.mp h
  have hlt := seekNewline_lt hn
  have htake : ∀ v, (u ++ v).take n = u.take n := fun v =>
    List.take_append_of_le_length (by omega)
  split_ifs at h with hstring haggregate
  · obtain ⟨hpos, hle, happend⟩ := bulkToken_spec hlt h
    refine ⟨hpos, hle, fun v => ?_⟩
    rw [bodyToken, seekNewline_append hn, Option.bind_some, if_pos hstring, happend]
  · obtain ⟨rfl, rfl⟩ := Prod.mk.inj (Option.some.inj h)
    refine ⟨by omega, hlt, fun v => ?_⟩
    rw [bodyToken, seekNewline_append hn, Option.bind_some, if_neg hstring, if_pos haggregate,
      htake]
  · obtain ⟨rfl, rfl⟩ := Prod.mk.inj (Option.some.inj h)
    refine ⟨by omega, hlt, fun v => ?_⟩
    rw [bodyToken, seekNewline_append hn, Option.bind_some, if_neg hstring, if_neg haggregate,
      htake]

end Tokens

/-! ### The reader of tokens -/

/-- The stack from its top down. -/
abbrev ReadStack := List RedisReadTask

/-- The stack between replies. -/
def rootStack : ReadStack := [{ idx := -1 }]

/-- The stack behind an object, with the reply if it was the last of it. -/
def afterObject (obj : RedisReply) (cur : RedisReadTask) (rest : ReadStack) :
    Option (Except ReaderError RedisReply) × Option ReadStack :=
  match moveToNextTask obj cur rest with
  | (some reply, _) => (some (.ok reply), some rootStack)
  | (none, stack) => (none, some stack)

/-- The stack behind a token. -/
def afterToken (cur : RedisReadTask) (rest : ReadStack) :
    Token → Option (Except ReaderError RedisReply) × Option ReadStack
  | .object obj => afterObject obj cur rest
  | .opens elements => (none, some ({ idx := 0 } :: { cur with elements, obj := [] } :: rest))
  | .error e => (some (.error e), none)

/-- The stack behind a type byte. An aggregate has no place on top of a full stack. -/
def afterType (cur : RedisReadTask) (rest : ReadStack) (byte : UInt8) :
    Option (Except ReaderError RedisReply) × Option ReadStack :=
  match RedisReader.readType byte with
  | none => (some (.error (.replyTypeByte byte)), none)
  | some type =>
    if type.isAggregate ∧ rest.length = 8 then (some (.error .nestedTooDeep), none)
    else (none, some ({ cur with type := some type } :: rest))

/-- A step of the reader: a type byte, or what stands behind it. After an error there is none. -/
def readerStep (strtod : Bytes → Bool) (s : Option ReadStack) (u : Bytes) :
    Option (Option (Except ReaderError RedisReply) × Option ReadStack × Bytes) :=
  match s with
  | none | some [] => none
  | some (cur :: rest) =>
    match cur.type with
    | none =>
      match u with
      | [] => none
      | byte :: u =>
        some ((afterType cur rest byte).1, (afterType cur rest byte).2, u)
    | some type =>
      (bodyToken strtod type u).map fun t =>
        ((afterToken cur rest t.1).1, (afterToken cur rest t.1).2, u.drop t.2)

lemma readerStep_spec {strtod : Bytes → Bool} {s s' : Option ReadStack} {u u' : Bytes}
    {o : Option (Except ReaderError RedisReply)} (h : readerStep strtod s u = some (o, s', u')) :
    u'.length < u.length ∧ ∀ v, readerStep strtod s (u ++ v) = some (o, s', u' ++ v) := by
  rw [readerStep.eq_def] at h
  split at h
  · cases h
  · cases h
  · rename_i cur rest
    split at h
    · rename_i htype
      split at h
      · cases h
      · rename_i byte u
        obtain ⟨rfl, rfl, rfl⟩ : _ ∧ _ ∧ u = u' := by simpa using h
        refine ⟨by simp, fun v => ?_⟩
        rw [readerStep.eq_def, List.cons_append]
        simp only [htype]
    · rename_i type htype
      obtain ⟨⟨t, k⟩, ht, heq⟩ := Option.map_eq_some_iff.mp h
      obtain ⟨rfl, rfl, rfl⟩ : _ ∧ _ ∧ u.drop k = u' := by simpa using heq
      obtain ⟨hpos, hle, happend⟩ := bodyToken_spec ht
      refine ⟨by rw [List.length_drop]; omega, fun v => ?_⟩
      rw [readerStep.eq_def]
      simp only [htype, happend, Option.map_some, List.drop_append_of_le_length hle]

/-- **The reader of replies**, token by token. -/
def replyReader (strtod : Bytes → Bool) :
    Incremental (Option ReadStack) UInt8 (Except ReaderError RedisReply) where
  step := readerStep strtod
  cost _ u := u.length
  cost_lt h := (readerStep_spec h).1
  step_append h := (readerStep_spec h).2

/-! ### The structure of the source -/

/-- The stack with which `redisReaderGetReply` begins. -/
def ReadStack.top (s : ReadStack) : ReadStack := if s = [] then rootStack else s

/-- An aggregate on top of the stack has a place for its elements. -/
def HasPlace : ReadStack → Prop
  | [] => True
  | cur :: rest => ∀ type, cur.type = some type → type.isAggregate → rest.length ≠ 8

/-- Between items the reader has the stack `s`, and waits for the rest of what begins with `u`. -/
structure Between (r : RedisReader) (s : ReadStack) (u : Bytes) : Prop where
  err : r.err = none
  reply : r.reply = none
  rstack : r.rstack = s
  unread : r.unread = u
  pos : r.pos ≤ r.buf.length
  hasPlace : HasPlace s

/-- The reader has read a reply, and `u` stands behind it. -/
structure Done (r : RedisReader) (w : RedisReply) (u : Bytes) : Prop where
  err : r.err = none
  reply : r.reply = some w
  rstack : r.rstack = []
  unread : r.unread = u
  pos : r.pos ≤ r.buf.length

/-- What an item does, and how `replyReader` goes on. -/
inductive Item (strtod : Bytes → Bool) (s : ReadStack) (u : Bytes) : Bool × RedisReader → Prop
  | next (r : RedisReader) (s' : ReadStack) (u' : Bytes) (hs : s' ≠ [])
      (hread : (replyReader strtod).read (some s) u = (replyReader strtod).read (some s') u')
      (hlt : u'.length < u.length) (hr : Between r s' u') : Item strtod s u (true, r)
  | reply (r : RedisReader) (w : RedisReply) (u' : Bytes)
      (hread : (replyReader strtod).read (some s) u = (some (.ok w), some rootStack, u'))
      (hr : Done r w u') : Item strtod s u (true, r)
  | waits (r : RedisReader) (s' : ReadStack) (hs : s' ≠ []) (u' : Bytes)
      (hread : (replyReader strtod).read (some s) u = (none, some s', u'))
      (hr : Between r s' u') : Item strtod s u (false, r)
  | error (r : RedisReader) (e : ReaderError) (u' : Bytes)
      (hread : (replyReader strtod).read (some s) u = (some (.error e), none, u'))
      (hr : r = RedisReader.setError e) : Item strtod s u (false, r)

/-! ### Items -/

variable {strtod : Bytes → Bool} {r : RedisReader} {cur : RedisReadTask} {rest s : ReadStack}
  {u : Bytes} {type : ReplyType}

/-- The stack behind an object: empty where the object is the reply. -/
lemma moveToNextTask_cases (obj : RedisReply) (cur : RedisReadTask) (rest : ReadStack) :
    (∃ w, moveToNextTask obj cur rest = (some w, [])) ∨
      ∃ idx prv rest', moveToNextTask obj cur rest = (none, { idx } :: prv :: rest') := by
  induction rest generalizing obj cur with
  | nil => exact .inl ⟨obj, rfl⟩
  | cons prv rest ih =>
      rw [moveToNextTask]
      split
      · exact ih _ _
      · exact .inr ⟨_, _, _, rfl⟩

/-- An item that ends in an object. -/
lemma item_created {obj : RedisReply} {k : ℕ} (hr : Between r s u) (hk : 0 < k) (hle : k ≤ u.length)
    (hstep : readerStep strtod (some s) u =
      some ((afterObject obj cur rest).1, (afterObject obj cur rest).2, u.drop k)) :
    Item strtod s u (true, { r with pos := r.pos + k }.created obj cur rest) := by
  obtain ⟨herr, hreply, hrstack, hunread, hpos, -⟩ := hr
  have hlength : u.length = r.buf.length - r.pos := by
    rw [← hunread, RedisReader.unread, List.length_drop]
  have hdrop : r.buf.drop (r.pos + k) = u.drop k := by
    rw [← hunread, RedisReader.unread, List.drop_drop]
  rcases moveToNextTask_cases obj cur rest with ⟨w, hmove⟩ | ⟨idx, prv, rest', hmove⟩
  · rw [afterObject, hmove] at hstep
    refine .reply _ w (u.drop k) (read_of_step_some hstep) ⟨herr, ?_, ?_, hdrop, ?_⟩
    · exact congrArg Prod.fst hmove
    · exact congrArg Prod.snd hmove
    · show r.pos + k ≤ r.buf.length
      omega
  · rw [afterObject, hmove] at hstep
    refine .next _ ({ idx } :: prv :: rest') (u.drop k) (by simp) (read_of_step hstep)
      (by rw [List.length_drop]; omega) ⟨herr, ?_, ?_, hdrop, ?_, fun _ h => by cases h⟩
    · exact congrArg Prod.fst hmove
    · exact congrArg Prod.snd hmove
    · show r.pos + k ≤ r.buf.length
      omega

/-- An item that is not complete. -/
lemma item_waits (hr : Between r s u) (hs : s ≠ []) (hstep : readerStep strtod (some s) u = none) :
    Item strtod s u (false, r) :=
  .waits r s hs u (read_of_step_none hstep) hr

/-- An item that ends in an error. -/
lemma item_error {e : ReaderError} {u' : Bytes}
    (hstep : readerStep strtod (some s) u = some (some (.error e), none, u')) :
    Item strtod s u (false, RedisReader.setError e) :=
  .error _ e u' (read_of_step_some hstep) rfl

/-- The step on what stands behind a type byte. -/
lemma readerStep_typed (htype : cur.type = some type) :
    readerStep strtod (some (cur :: rest)) u =
      (bodyToken strtod type u).map fun t =>
        ((afterToken cur rest t.1).1, (afterToken cur rest t.1).2, u.drop t.2) := by
  rw [readerStep.eq_def]
  simp only [htype]

lemma item_processLineItem (hr : Between r (cur :: rest) u) (htype : cur.type = some type)
    (hstring : type ≠ .string) (haggregate : type.isAggregate = false) :
    Item strtod (cur :: rest) u (r.processLineItem strtod type cur rest) := by
  have hstep : readerStep strtod (some (cur :: rest)) u = _ := readerStep_typed htype
  rw [RedisReader.processLineItem, RedisReader.readLine, hr.unread]
  rw [bodyToken] at hstep
  cases hn : seekNewline u with
  | none =>
      rw [hn] at hstep
      exact item_waits hr (by simp) hstep
  | some n =>
      have hlt := seekNewline_lt hn
      rw [hn, Option.bind_some, if_neg hstring, haggregate, if_neg (by simp), Option.map_some,
        lineToken] at hstep
      simp only [Option.map_some]
      cases hobj : RedisReader.lineObject strtod type (u.take n) with
      | error e =>
          rw [hobj] at hstep
          exact item_error hstep
      | ok obj =>
          rw [hobj] at hstep
          exact item_created hr (by omega) hlt hstep

lemma item_processBulkItem (hr : Between r (cur :: rest) u) (htype : cur.type = some .string) :
    Item strtod (cur :: rest) u (r.processBulkItem cur rest) := by
  have hstep : readerStep strtod (some (cur :: rest)) u = _ := readerStep_typed htype
  have hlength : u.length = r.buf.length - r.pos := by
    rw [← hr.unread, RedisReader.unread, List.length_drop]
  have hpos := hr.pos
  rw [RedisReader.processBulkItem, hr.unread]
  rw [bodyToken] at hstep
  cases hn : seekNewline u with
  | none =>
      rw [hn] at hstep
      exact item_waits hr (by simp) hstep
  | some n =>
      have hlt := seekNewline_lt hn
      rw [hn, Option.bind_some, if_pos rfl, bulkToken] at hstep
      simp only
      cases hlen : string2ll (u.take n) with
      | none =>
          rw [hlen] at hstep
          exact item_error hstep
      | some len =>
          rw [hlen] at hstep
          simp only at hstep ⊢
          split_ifs at hstep ⊢ with h1 h2 h3 h4 h4
          · exact item_error hstep
          · exact item_created hr (by omega) hlt hstep
          · exact item_created hr (by omega) (by omega) hstep
          · omega
          · omega
          · exact item_waits hr (by simp) hstep

lemma item_processAggregateItem (hr : Between r (cur :: rest) u) (htype : cur.type = some type)
    (haggregate : type.isAggregate = true) :
    Item strtod (cur :: rest) u (r.processAggregateItem type cur rest) := by
  have hstep : readerStep strtod (some (cur :: rest)) u = _ := readerStep_typed htype
  have hlength : u.length = r.buf.length - r.pos := by
    rw [← hr.unread, RedisReader.unread, List.length_drop]
  have hpos := hr.pos
  have hstring : type ≠ .string := by rintro rfl; cases haggregate
  rw [RedisReader.processAggregateItem, if_neg (hr.hasPlace type htype haggregate),
    RedisReader.readLine, hr.unread]
  rw [bodyToken] at hstep
  cases hn : seekNewline u with
  | none =>
      rw [hn] at hstep
      exact item_waits hr (by simp) hstep
  | some n =>
      have hlt := seekNewline_lt hn
      rw [hn, Option.bind_some, if_neg hstring, if_pos haggregate, Option.map_some,
        aggregateToken] at hstep
      simp only [Option.map_some]
      cases hlen : string2ll (u.take n) with
      | none =>
          rw [hlen] at hstep
          exact item_error hstep
      | some len =>
          rw [hlen] at hstep
          simp only at hstep ⊢
          generalize (if type = ReplyType.map then len * 2 else len) = elements at hstep ⊢
          split_ifs at hstep ⊢ with h1 h2 h3
          · exact item_error hstep
          · exact item_created hr (by omega) hlt hstep
          · refine .next _ _ (u.drop (n + 2)) (by simp) (read_of_step hstep)
              (by rw [List.length_drop]; omega)
              ⟨hr.err, hr.reply, rfl, ?_, ?_, fun _ h => by cases h⟩
            · rw [← hr.unread, RedisReader.unread, RedisReader.unread, List.drop_drop]
            · show r.pos + (n + 2) ≤ r.buf.length
              omega
          · exact item_created hr (by omega) hlt hstep

lemma item_processTyped (hr : Between r (cur :: rest) u) (htype : cur.type = some type) :
    Item strtod (cur :: rest) u (r.processTyped strtod type cur rest) := by
  cases type with
  | string => exact item_processBulkItem hr htype
  | array => exact item_processAggregateItem hr htype rfl
  | map => exact item_processAggregateItem hr htype rfl
  | set => exact item_processAggregateItem hr htype rfl
  | integer => exact item_processLineItem hr htype (by decide) rfl
  | nil => exact item_processLineItem hr htype (by decide) rfl
  | status => exact item_processLineItem hr htype (by decide) rfl
  | error => exact item_processLineItem hr htype (by decide) rfl
  | double => exact item_processLineItem hr htype (by decide) rfl
  | bool => exact item_processLineItem hr htype (by decide) rfl

/-- What follows a step is what follows before it. -/
lemma Item.of_read {s' : ReadStack} {u' : Bytes} {p : Bool × RedisReader} (h : Item strtod s' u' p)
    (hread : (replyReader strtod).read (some s) u = (replyReader strtod).read (some s') u')
    (hlt : u'.length ≤ u.length) : Item strtod s u p := by
  cases h with
  | next r s₁ u₁ hs h hlt' hr => exact .next r s₁ u₁ hs (hread.trans h) (by omega) hr
  | reply r w u₁ h hr => exact .reply r w u₁ (hread.trans h) hr
  | waits r s₁ hs u₁ h hr => exact .waits r s₁ hs u₁ (hread.trans h) hr
  | error r e u₁ h hr => exact .error r e u₁ (hread.trans h) hr

/-- **An item** is read as by `replyReader`. -/
lemma item_processItem (hr : Between r s u) (hs : s ≠ []) :
    Item strtod s u (r.processItem strtod) := by
  obtain ⟨cur, rest, rfl⟩ := List.exists_cons_of_ne_nil hs
  rw [RedisReader.processItem, hr.rstack]
  simp only
  cases htype : cur.type with
  | some type => exact item_processTyped hr htype
  | none =>
      simp only
      rw [hr.unread]
      cases u with
      | nil => exact item_waits hr hs (by rw [readerStep.eq_def]; simp only [htype])
      | cons byte u =>
          have hstep : readerStep strtod (some (cur :: rest)) (byte :: u) =
              some ((afterType cur rest byte).1, (afterType cur rest byte).2, u) := by
            rw [readerStep.eq_def]
            simp only [htype]
          simp only
          rw [afterType] at hstep
          cases hbyte : RedisReader.readType byte with
          | none =>
              rw [hbyte] at hstep
              exact item_error hstep
          | some type =>
              rw [hbyte] at hstep
              simp only at hstep ⊢
              split_ifs at hstep with hfull
              · have hprocess : ∀ r' : RedisReader, r'.processTyped strtod type
                    { cur with type := some type } rest =
                      (false, RedisReader.setError .nestedTooDeep) := by
                  intro r'
                  cases type <;>
                    first
                    | exact absurd hfull.1 (by decide)
                    | rw [RedisReader.processTyped, RedisReader.processAggregateItem,
                        if_pos hfull.2]
                rw [hprocess]
                exact item_error hstep
              · refine (item_processTyped ?_ rfl).of_read (read_of_step hstep) (by simp)
                have hunread := hr.unread
                have hlength : (byte :: u).length = r.buf.length - r.pos := by
                  rw [← hunread, RedisReader.unread, List.length_drop]
                rw [List.length_cons] at hlength
                have hpos := hr.pos
                refine ⟨hr.err, hr.reply, rfl, ?_, ?_, ?_⟩
                · show r.buf.drop (r.pos + 1) = u
                  rw [← List.drop_drop]
                  exact congrArg (List.drop 1) hunread
                · show r.pos + 1 ≤ r.buf.length
                  omega
                · rintro type' htype' haggregate hlength'
                  obtain rfl := Option.some.inj htype'
                  exact hfull ⟨haggregate, hlength'⟩

/-! ### The loop -/

/-- Where the loop stops, and what `replyReader` has read. -/
inductive Items (strtod : Bytes → Bool) (s : ReadStack) (u : Bytes) : RedisReader → Prop
  | reply (r : RedisReader) (w : RedisReply) (u' : Bytes)
      (hread : (replyReader strtod).read (some s) u = (some (.ok w), some rootStack, u'))
      (hr : Done r w u') : Items strtod s u r
  | waits (r : RedisReader) (s' : ReadStack) (hs : s' ≠ []) (u' : Bytes)
      (hread : (replyReader strtod).read (some s) u = (none, some s', u'))
      (hr : Between r s' u') : Items strtod s u r
  | error (r : RedisReader) (e : ReaderError) (u' : Bytes)
      (hread : (replyReader strtod).read (some s) u = (some (.error e), none, u'))
      (hr : r = RedisReader.setError e) : Items strtod s u r

lemma Items.of_read {s' : ReadStack} {u' : Bytes} (h : Items strtod s' u' r)
    (hread : (replyReader strtod).read (some s) u = (replyReader strtod).read (some s') u') :
    Items strtod s u r := by
  cases h with
  | reply w u₁ h hr => exact .reply r w u₁ (hread.trans h) hr
  | waits s₁ hs u₁ h hr => exact .waits r s₁ hs u₁ (hread.trans h) hr
  | error e u₁ h hr => exact .error r e u₁ (hread.trans h) hr

/-- Nothing is read where nothing has arrived. -/
lemma readerStep_nil (s : ReadStack) : readerStep strtod (some s) [] = none := by
  cases s with
  | nil => rfl
  | cons cur rest =>
      rw [readerStep.eq_def]
      cases htype : cur.type <;> simp only [htype]
      rfl

/-- **The loop** reads as `replyReader` does. -/
lemma items_processItems (fuel : ℕ) (hr : Between r s u) (hs : s ≠ []) (hfuel : u.length ≤ fuel) :
    Items strtod s u (r.processItems strtod fuel) := by
  induction fuel generalizing r s u with
  | zero =>
      obtain rfl := List.length_eq_zero_iff.mp (Nat.le_zero.mp hfuel)
      exact .waits r s hs [] (read_of_step_none (readerStep_nil s)) hr
  | succ fuel ih =>
      have hitem : Item strtod s u (r.processItem strtod) := item_processItem hr hs
      rw [RedisReader.processItems, if_neg (by rw [hr.rstack]; exact hs)]
      generalize r.processItem strtod = p at hitem ⊢
      cases hitem with
      | next r' s' u' hs' hread hlt hr' =>
          exact (ih hr' hs' (by omega)).of_read hread
      | reply r' w u' hread hr' =>
          rw [if_pos rfl]
          refine .reply _ w u' hread ?_
          cases fuel with
          | zero => exact hr'
          | succ fuel =>
              rw [RedisReader.processItems, if_pos hr'.rstack]
              exact hr'
      | waits r' s' hs' u' hread hr' => exact .waits r' s' hs' u' hread hr'
      | error r' e u' hread hr' => exact .error r' e u' hread hr'

/-! ### The call -/

/-- Between two calls the reader has the stack `s`, and has not read `u`. -/
structure Reading (r : RedisReader) (s : ReadStack) (u : Bytes) : Prop where
  err : r.err = none
  reply : r.reply = none
  rstack : ReadStack.top r.rstack = s
  unread : r.unread = u
  pos : r.pos ≤ r.buf.length
  hasPlace : HasPlace s

/-- What a call answers, and what `replyReader` has read. -/
inductive Answer (strtod : Bytes → Bool) (s : ReadStack) (u : Bytes) :
    Option (Option RedisReply) × RedisReader → Prop
  | reply (r : RedisReader) (w : RedisReply) (u' : Bytes)
      (hread : (replyReader strtod).read (some s) u = (some (.ok w), some rootStack, u'))
      (hr : Reading r rootStack u') : Answer strtod s u (some (some w), r)
  | waits (r : RedisReader) (s' : ReadStack) (u' : Bytes)
      (hread : (replyReader strtod).read (some s) u = (none, some s', u'))
      (hr : Reading r s' u') : Answer strtod s u (some none, r)
  | error (r : RedisReader) (e : ReaderError) (u' : Bytes)
      (hread : (replyReader strtod).read (some s) u = (some (.error e), none, u'))
      (hr : r = RedisReader.setError e) : Answer strtod s u (none, r)

lemma between_begin (hr : Reading r s u) : Between r.begin s u := by
  obtain ⟨herr, hreply, hrstack, hunread, hpos, hplace⟩ := hr
  rw [ReadStack.top] at hrstack
  rw [RedisReader.begin]
  split_ifs at hrstack ⊢
  · exact ⟨herr, hreply, hrstack, hunread, hpos, hplace⟩
  · exact ⟨herr, hreply, hrstack, hunread, hpos, hplace⟩

/-- What is left of the buffer when a reply is given out. -/
lemma emit_done {w : RedisReply} (hr : Done r w u) :
    ∃ r', r.emit = (some (some w), r') ∧ Reading r' rootStack u := by
  obtain ⟨herr, hreply, hrstack, hunread, hpos⟩ := hr
  rw [RedisReader.emit, if_neg (by simp [herr])]
  by_cases hlong : 1024 ≤ r.pos
  · simp only [if_pos hlong, if_pos hrstack, hreply]
    exact ⟨_, rfl, herr, rfl, by rw [ReadStack.top, if_pos hrstack], hunread, Nat.zero_le _,
      fun _ h => by cases h⟩
  · simp only [if_neg hlong, if_pos hrstack, hreply]
    exact ⟨_, rfl, herr, rfl, by rw [ReadStack.top, if_pos hrstack], hunread, hpos,
      fun _ h => by cases h⟩

lemma emit_between (hr : Between r s u) (hs : s ≠ []) :
    ∃ r', r.emit = (some none, r') ∧ Reading r' s u := by
  obtain ⟨herr, hreply, hrstack, hunread, hpos, hplace⟩ := hr
  have hne : r.rstack ≠ [] := by rwa [hrstack]
  have htop : ReadStack.top r.rstack = s := by rw [ReadStack.top, if_neg hne, hrstack]
  rw [RedisReader.emit, if_neg (by simp [herr])]
  by_cases hlong : 1024 ≤ r.pos
  · simp only [if_pos hlong, if_neg hne]
    exact ⟨_, rfl, herr, hreply, htop, hunread, Nat.zero_le _, hplace⟩
  · simp only [if_neg hlong, if_neg hne]
    exact ⟨_, rfl, herr, hreply, htop, hunread, hpos, hplace⟩

/-- **A call of `redisReaderGetReply`** reads as `replyReader` does. -/
theorem redisReaderGetReply_spec (hr : Reading r s u) :
    Answer strtod s u (redisReaderGetReply strtod r) := by
  have hbetween := between_begin hr
  rw [redisReaderGetReply, if_neg (by simp [hr.err])]
  by_cases hbuf : r.buf = []
  · have hnil : u = [] := by rw [← hr.unread, RedisReader.unread, hbuf, List.drop_nil]
    subst hnil
    rw [if_pos hbuf]
    exact .waits r s [] (read_of_step_none (readerStep_nil s)) hr
  · have hs : s ≠ [] := by
      rw [← hr.rstack, ReadStack.top]
      split
      · exact List.cons_ne_nil _ _
      · assumption
    rw [if_neg hbuf, hr.unread]
    have hitems : Items strtod s u (r.begin.processItems strtod u.length) :=
      items_processItems u.length hbetween hs le_rfl
    generalize r.begin.processItems strtod u.length = r' at hitems ⊢
    cases hitems with
    | reply w u' hread hr' =>
        obtain ⟨r₁, hemit, hr₁⟩ := emit_done hr'
        rw [hemit]
        exact .reply r₁ w u' hread hr₁
    | waits s' hs' u' hread hr' =>
        obtain ⟨r₁, hemit, hr₁⟩ := emit_between hr' hs'
        rw [hemit]
        exact .waits r₁ s' u' hread hr₁
    | error e u' hread hr' =>
        subst hr'
        exact .error _ e u' hread rfl

/-- Bytes that arrive. -/
lemma redisReaderFeed_spec (hr : Reading r s u) (buf : Bytes) :
    ∃ r', redisReaderFeed r buf = (true, r') ∧ Reading r' s (u ++ buf) := by
  obtain ⟨herr, hreply, hrstack, hunread, hpos, hplace⟩ := hr
  refine ⟨{ r with buf := r.buf ++ buf }, by rw [redisReaderFeed, herr], herr, hreply, hrstack, ?_,
    by simp only [List.length_append]; omega, hplace⟩
  show (r.buf ++ buf).drop r.pos = u ++ buf
  rw [List.drop_append_of_le_length hpos, ← hunread, RedisReader.unread]

end CKGameServer
