import Mathlib.Data.List.AList
import CKGameServer.Model.RedisTaskDefine

/-!
`CRedisConn.h` and the Redis server behind it, as far as the server uses them.

* `Store`: the keys of the database, each with a string or a hash.
* `Store.get`, `Store.hget`, `Store.hset`, `Store.hgetall`, `Store.multiExec`: the commands.
  Each takes the outcome of the command, `true` where Redis answers it and `false` where the
  reply is an error; `none` is the answer `false` of the wrapper.
* `stoi`, `stoull`: the conversions of `<string>`.
-/

namespace CKGameServer

open Memory

/-! ### Numbers in strings -/

/-- `std::stoi`. -/
def stoi (s : Bytes) : Except Fault Int32 :=
  match Decimal.parse s with
  | none => .error .invalidArgument
  | some n => if -2 ^ 31 ≤ n ∧ n < 2 ^ 31 then .ok (Int32.ofInt n) else .error .outOfRange

/-- `std::stoull`. -/
def stoull (s : Bytes) : Except Fault UInt64 :=
  match Decimal.parse s with
  | none => .error .invalidArgument
  | some n => if n.natAbs < 2 ^ 64 then .ok (UInt64.ofInt n) else .error .outOfRange

/-- `std::to_string` of an `int`. -/
def toString32 (x : Int32) : Bytes := Decimal.toDecimal x.toInt

/-- A written `int` reads back. -/
@[simp] lemma stoi_toString32 (x : Int32) : stoi (toString32 x) = .ok x := by
  have hlow := x.le_toInt
  have hhigh := x.toInt_lt
  rw [stoi, toString32, Decimal.parse_toDecimal]
  simp only [Int32.ofInt_toInt]
  rw [if_pos ⟨by omega, by omega⟩]

lemma toString32_injective : Function.Injective toString32 := fun x y h => by
  have := congrArg stoi h
  rwa [stoi_toString32, stoi_toString32, Except.ok.injEq] at this

/-! ### Exceptions -/

lemma exists_of_map_eq_ok {α β : Type} {f : α → β} {x : Except Fault α} {b : β}
    (h : x.map f = .ok b) : ∃ a, x = .ok a ∧ f a = b := by
  cases x with
  | error e => cases h
  | ok a => exact ⟨a, rfl, Except.ok.inj h⟩

lemma exists_of_bind_eq_ok {α β : Type} {f : α → Except Fault β} {x : Except Fault α} {b : β}
    (h : (x >>= f) = .ok b) : ∃ a, x = .ok a ∧ f a = .ok b := by
  cases x with
  | error e => cases h
  | ok a => exact ⟨a, rfl, h⟩

/-- A property of a value is checked by computing the value. -/
instance decidableExistsOk {α : Type} (x : Except Fault α) (P : α → Prop) [DecidablePred P] :
    Decidable (∃ a, x = .ok a ∧ P a) :=
  match x with
  | .error _ => isFalse (by simp)
  | .ok a => decidable_of_iff (P a) (by simp)

instance decidableIsOk {α : Type} (x : Except Fault α) : Decidable (∃ a, x = .ok a) :=
  match x with
  | .error _ => isFalse (by simp)
  | .ok a => isTrue ⟨a, rfl⟩

/-! ### The database -/

/-- A Redis hash: fields with their values. -/
abbrev Hash := AList fun _ : Bytes => Bytes

/-- What a key holds. -/
inductive RedisValue where
  | str (value : Bytes)
  | hash (fields : Hash)

/-- The keys of the database. -/
abbrev Store := Bytes → Option RedisValue

/-- `std::map<std::string, std::string>`, in the order of its keys. -/
abbrev ValueMap := List (Bytes × Bytes)

/-- A string up to its first zero, as a C function sees it. -/
def cstr (s : Bytes) : Bytes := s.takeWhile (· ≠ 0)

/-- No zero is part of what a C function sees. -/
lemma zero_notMem_cstr (s : Bytes) : (0 : UInt8) ∉ cstr s := fun h => by
  simpa using List.mem_takeWhile_imp h

/-- A string without a zero is what a C function sees of it. -/
lemma cstr_eq_self {s : Bytes} (h : (0 : UInt8) ∉ s) : cstr s = s :=
  List.takeWhile_eq_self_iff.mpr fun c hc => by
    simp only [ne_eq, decide_not, Bool.not_eq_true', decide_eq_false_iff_not]
    rintro rfl
    exact h hc

@[simp] lemma cstr_toString32 (x : Int32) : cstr (toString32 x) = toString32 x :=
  cstr_eq_self (Decimal.zero_notMem_toDecimal _)

/-- `std::map::insert`: a key that is there already keeps its value. -/
def ValueMap.insert (k v : Bytes) : ValueMap → ValueMap
  | [] => [(k, v)]
  | (k', v') :: m =>
    if k = k' then (k', v') :: m
    else if k < k' then (k, v) :: (k', v') :: m
    else (k', v') :: ValueMap.insert k v m

/-- `_getArryToMap`. -/
def getArryToMap (h : Hash) : ValueMap :=
  h.entries.foldl (fun m e => ValueMap.insert (cstr e.1) (cstr e.2) m) []

namespace Store

variable (db : Store) (reply : Bool)

/-- The hash a key holds. -/
def hashAt (key : Bytes) : Option Hash :=
  match db (cstr key) with
  | some (.hash h) => some h
  | _ => none

/-- `CRedisConn::get`. A missing key and a key that is no string are both answered `false`. -/
def get (key : Bytes) : Option Bytes :=
  if reply then
    match db (cstr key) with
    | some (.str v) => some (cstr v)
    | _ => none
  else none

/-- `CRedisConn::hget`. -/
def hget (key field : Bytes) : Option Bytes :=
  if reply then (db.hashAt key).bind fun h => (h.lookup (cstr field)).map cstr else none

/-- `CRedisConn::hgetall`: `false` also where the key does not exist. -/
def hgetall (key : Bytes) : Option ValueMap :=
  if reply then
    (db.hashAt key).bind fun h => if h.entries = [] then none else some (getArryToMap h)
  else none

/-- `HSET key field value`. A key that holds a string is left as it is. -/
def hset (key field value : Bytes) : Store :=
  if reply then
    match db (cstr key) with
    | none => Function.update db (cstr key)
        (some (.hash (AList.singleton (cstr field) (cstr value))))
    | some (.hash h) => Function.update db (cstr key)
        (some (.hash (h.insert (cstr field) (cstr value))))
    | some (.str _) => db
  else db

/-- The `HSET` commands of a list, one after the other, the `k`-th with the reply `replies k`. -/
def hsetAll (replies : ℕ → Bool) : Store → List (Bytes × Bytes × Bytes) → Store
  | db, [] => db
  | db, (key, field, value) :: cmds =>
    hsetAll (fun k => replies (k + 1)) (db.hset (replies 0) key field value) cmds

/-- `MULTI`, the `HSET` commands `cmds`, `EXEC`. The replies are those of `MULTI`, of the
commands as they are queued, and of `EXEC`. A command that is not queued makes `EXEC` discard
the transaction; where `MULTI` itself fails the commands run at once. -/
def multiExec (replies : ℕ → Bool) (cmds : List (Bytes × Bytes × Bytes)) : Store :=
  if replies 0 then
    if (List.range (cmds.length + 1)).all fun k => replies (k + 1) then
      db.hsetAll (fun _ => true) cmds
    else db
  else db.hsetAll (fun k => replies (k + 1)) cmds

end Store

end CKGameServer
