import Mathlib.Algebra.Order.BigOperators.Group.List
import CKGameServer.Model.Hiredis
import CKGameServer.Redis.Replies

/-!
The commands for Redis (`redisvFormatCommand`).

* `Piece`, `words`: a format is words between blanks, and a word is literal bytes and arguments.
* `formatLoop_words`: the loop goes over a format word by word.
* `countDigits_eq`, `length_bulkString`: the length that is counted is the length that is written;
  `intTotlen_eq`, `intPos_eq`: so it is for the `int`s of the source, up to overflow.
* `redisvFormatCommand_words`: a format makes the command whose arguments are its words.
* `outputs_commands`: a reader of the protocol gets back these arguments, whatever bytes they hold.
* `redisvFormatCommand_isCommand`: the assertion never fails, every command that is made is an array
  of strings, and for one of less than `2 ^ 31` bytes no counter overflows.
-/

namespace CKGameServer

open Memory Incremental Runs

/-! ### Lengths -/

lemma length_toDecimalNat (n : ℕ) : (Decimal.toDecimalNat n).length = Nat.log 10 n + 1 := by
  rw [Decimal.toDecimalNat]
  split_ifs with h
  · simp [h]
  · rw [List.length_reverse, List.length_map, Nat.length_digits 10 n (by omega) h]

lemma log_div_10000 {n : ℕ} (h : 10000 ≤ n) : Nat.log 10 n = Nat.log 10 (n / 10000) + 4 := by
  have hpos : 4 ≤ Nat.log 10 n := Nat.le_log_of_pow_le (by omega) (by omega)
  have hdiv : n / 10000 = n / 10 / 10 / 10 / 10 := by simp only [Nat.div_div_eq_div_mul]
  rw [hdiv, Nat.log_div_base, Nat.log_div_base, Nat.log_div_base, Nat.log_div_base]
  omega

lemma countDigitsLoop_eq (fuel : ℕ) {n : ℕ} (hfuel : n ≤ fuel) :
    countDigitsLoop fuel n = Nat.log 10 n + 1 := by
  induction fuel generalizing n with
  | zero =>
      obtain rfl := Nat.le_zero.mp hfuel
      rfl
  | succ fuel ih =>
      rw [countDigitsLoop]
      split_ifs with h1 h2 h3 h4
      · rw [Nat.log_of_lt h1]
      · rw [Nat.log_eq_of_pow_le_of_lt_pow (m := 1) (by omega) (by omega)]
      · rw [Nat.log_eq_of_pow_le_of_lt_pow (m := 2) (by omega) (by omega)]
      · rw [Nat.log_eq_of_pow_le_of_lt_pow (m := 3) (by omega) (by omega)]
      · rw [ih (by omega), log_div_10000 (n := n) (by omega)]

/-- `countDigits` counts the digits that are written. -/
lemma countDigits_eq (n : ℕ) : countDigits n = (Decimal.toDecimalNat n).length := by
  rw [countDigits, countDigitsLoop_eq n le_rfl, length_toDecimalNat]

lemma length_bulkString (s : Bytes) : (bulkString s).length = bulklen s.length := by
  simp only [bulkString, bulklen, countDigits_eq, List.length_append, List.length_cons,
    Resp.newline, List.length_nil]
  omega

/-- A command at protocol level. -/
lemma bytes_command (argv : List Bytes) :
    (Resp.command argv).bytes =
      42 :: Decimal.toDecimalNat argv.length ++ Resp.newline ++ argv.flatMap bulkString := by
  have hbulks : Resp.bytesOf (argv.map .bulk) = argv.flatMap bulkString := by
    induction argv with
    | nil => rfl
    | cons s argv ih =>
        rw [List.map_cons, Resp.bytesOf, ih, List.flatMap_cons, Resp.Value.bytes, bulkString,
          Resp.typed, Decimal.toDecimal_natCast]
        simp only [List.append_assoc]
  rw [Resp.command, Resp.Value.bytes, hbulks, List.length_map, Resp.Aggregate.width, Nat.div_one,
    Decimal.toDecimal_natCast]
  rfl

/-- The length of a command. -/
lemma length_command (argv : List Bytes) : (Resp.command argv).bytes.length =
    1 + countDigits argv.length + 2 + (argv.flatMap bulkString).length := by
  rw [bytes_command]
  simp only [List.length_append, List.length_cons, countDigits_eq, Resp.newline, List.length_nil]
  omega

/-- A command is longer than each of its arguments, and has no more arguments than bytes. -/
lemma lt_of_length_command {argv : List Bytes} {n : ℕ}
    (h : (Resp.command argv).bytes.length < n) :
    argv.length < n ∧ ∀ s ∈ argv, s.length < n := by
  have hbulks : (argv.flatMap bulkString).length = (argv.map fun s => bulklen s.length).sum := by
    rw [List.length_flatMap]
    simp only [length_bulkString]
  rw [length_command, hbulks] at h
  constructor
  · have hle := List.length_le_sum_of_one_le (argv.map fun s => bulklen s.length) fun i hi => by
      obtain ⟨s, -, rfl⟩ := List.mem_map.mp hi
      rw [bulklen]
      omega
    rw [List.length_map] at hle
    omega
  · intro s hs
    have hle := List.le_sum_of_mem (List.mem_map_of_mem (f := fun s => bulklen s.length) hs)
    simp only [bulklen] at hle h
    omega

/-- What has been counted of the arguments, up to overflow. -/
lemma intTotlen_eq (argv : List Bytes) :
    intTotlen argv = Int32.ofNat (argv.flatMap bulkString).length := by
  have hfold : ∀ n : ℕ, argv.foldl
      (fun totlen s => totlen + Int32.ofNat (bulklen s.length)) (Int32.ofNat n) =
        Int32.ofNat (n + (argv.flatMap bulkString).length) := by
    induction argv with
    | nil => exact fun n => rfl
    | cons s argv ih =>
        intro n
        rw [List.foldl_cons, ← Int32.ofNat_add, ih, List.flatMap_cons, List.length_append,
          length_bulkString, Nat.add_assoc]
  exact (hfold 0).trans (by rw [Nat.zero_add])

/-- What has been written of them, up to overflow. -/
lemma intPos_eq (argc : ℕ) (argv : List Bytes) :
    intPos argc argv =
      Int32.ofNat (1 + countDigits argc + 2 + (argv.flatMap bulkString).length) := by
  have hfold : ∀ n : ℕ, argv.foldl
      (fun pos s =>
        pos + Int32.ofNat (36 :: Decimal.toDecimalNat s.length ++ Resp.newline).length +
          Int32.ofNat s.length + 1 + 1) (Int32.ofNat n) =
        Int32.ofNat (n + (argv.flatMap bulkString).length) := by
    induction argv with
    | nil => exact fun n => rfl
    | cons s argv ih =>
        intro n
        have hnext : Int32.ofNat n +
            Int32.ofNat (36 :: Decimal.toDecimalNat s.length ++ Resp.newline).length +
              Int32.ofNat s.length + 1 + 1 =
            Int32.ofNat (n + (36 :: Decimal.toDecimalNat s.length ++ Resp.newline).length +
              s.length + 1 + 1) := by simp only [Int32.ofNat_add]; rfl
        rw [List.foldl_cons, hnext, ih, List.flatMap_cons]
        simp only [bulkString, List.length_append, List.length_cons, Resp.newline, List.length_nil]
        congr 1
        omega
  rw [intPos, hfold, countDigits_eq]
  simp only [List.length_append, List.length_cons, Resp.newline, List.length_nil]
  congr 1
  omega

/-! ### One argument -/

lemma dropWhile_append_of_ne_nil {p : UInt8 → Bool} {s : Bytes} (h : s.dropWhile p ≠ [])
    (t : Bytes) : (s ++ t).dropWhile p = s.dropWhile p ++ t := by
  rw [List.dropWhile_append, if_neg (by simpa using h)]

lemma skipPrecision_append {p : Bytes} (h : skipPrecision p ≠ []) (t : Bytes) :
    skipPrecision (p ++ t) = skipPrecision p ++ t := by
  cases p with
  | nil => exact absurd rfl h
  | cons c p =>
      rw [skipPrecision] at h ⊢
      rw [List.cons_append, skipPrecision]
      split_ifs at h ⊢
      · exact dropWhile_append_of_ne_nil h t
      · rfl

lemma skipModifiers_append {p : Bytes} (h : skipModifiers p ≠ []) (t : Bytes) :
    skipModifiers (p ++ t) = skipModifiers p ++ t := by
  have hdigits : (p.dropWhile isFlag).dropWhile Decimal.isDigit ≠ [] := fun hnil => by
    rw [skipModifiers, hnil] at h
    exact h rfl
  have hflags : p.dropWhile isFlag ≠ [] := fun hnil => by
    rw [hnil] at hdigits
    exact hdigits rfl
  rw [skipModifiers, dropWhile_append_of_ne_nil hflags, dropWhile_append_of_ne_nil hdigits]
  exact skipPrecision_append h t

/-- A conversion ends with its letter. -/
lemma conversion_append {p : Bytes} {type : NumberType} (h : conversion p = .ok (type, p.length))
    (t : Bytes) : conversion (p ++ t) = .ok (type, p.length) := by
  rcases p with _ | ⟨c, _ | ⟨d, _ | ⟨e, p⟩⟩⟩
  · simp [conversion] at h
  · simp only [conversion, List.cons_append] at h ⊢
    grind
  · simp only [conversion, List.cons_append] at h ⊢
    grind
  · simp only [conversion, List.cons_append] at h ⊢
    grind

/-! ### Formats in words -/

/-- The format of a number without its `%`, which `va_arg` takes as `type`. -/
structure IsSpec (spec : Bytes) (type : NumberType) : Prop where
  conversion_eq : conversion (skipModifiers spec) = .ok (type, (skipModifiers spec).length)
  short : spec.length < 13

/-- A part of a word of a format: a byte that stands for itself, `%%`, or an argument. -/
inductive Piece where
  | lit (c : UInt8)
  | percent
  | string (s : Bytes)
  | block (s : Bytes)
  | number (spec : Bytes) (type : NumberType) (bits : UInt64)

namespace Piece

/-- How it is written in the format. -/
def text : Piece → Bytes
  | .lit c => [c]
  | .percent => [37, 37]
  | .string _ => [37, 115]
  | .block _ => [37, 98]
  | .number spec _ _ => 37 :: spec

/-- The argument it takes. -/
def args : Piece → List FormatArg
  | .lit _ | .percent => []
  | .string s => [.string s]
  | .block s => [.block s]
  | .number _ type bits => [.number type bits]

/-- What it puts into the command. -/
def value (vsnprintf : Bytes → UInt64 → Bytes) : Piece → Bytes
  | .lit c => [c]
  | .percent => [37]
  | .string s => cstr s
  | .block s => s
  | .number spec _ bits => vsnprintf (37 :: spec) bits

/-- A byte that stands for itself is no blank and no `%`, and the format of a number is one. -/
def Valid : Piece → Prop
  | .lit c => c ≠ 32 ∧ c ≠ 37
  | .percent | .string _ | .block _ => True
  | .number spec type _ => IsSpec spec type

end Piece

/-- A word of a format. Several blanks have empty words between them. -/
abbrev Word := List Piece

/-- A format. -/
def formatText (words : List Word) : Bytes :=
  [32].intercalate (words.map (·.flatMap Piece.text))

/-- The arguments that go with it. -/
def formatArgs (words : List Word) : List FormatArg := words.flatMap (·.flatMap Piece.args)

/-- The words, with what is put into them. -/
def formatArgv (vsnprintf : Bytes → UInt64 → Bytes) (words : List Word) : List Bytes :=
  (words.filter (· ≠ [])).map (·.flatMap (Piece.value vsnprintf))

/-! ### The loop -/

variable {vsnprintf : Bytes → UInt64 → Bytes}

/-- Bytes that have been read already are passed over. -/
lemma formatLoop_skip (u format : Bytes) (ap : List FormatArg) (st : FormatState) :
    formatLoop vsnprintf u.length (u ++ format) ap st = formatLoop vsnprintf 0 format ap st := by
  induction u with
  | nil => rfl
  | cons c u ih =>
      rw [List.length_cons, List.cons_append, formatLoop]
      exact ih

lemma length_skipModifiers_le (p : Bytes) : (skipModifiers p).length ≤ p.length := by
  have hprecision : ∀ q : Bytes, (skipPrecision q).length ≤ q.length := by
    intro q
    cases q with
    | nil => exact le_rfl
    | cons c q =>
        rw [skipPrecision]
        split_ifs
        · exact (List.dropWhile_suffix _).length_le.trans (Nat.le_succ _)
        · exact le_rfl
  exact (hprecision _).trans
    ((List.dropWhile_suffix _).length_le.trans (List.dropWhile_suffix _).length_le)

/-- The format of a number does not begin like another one. -/
lemma IsSpec.head_ne {spec : Bytes} {type : NumberType} (h : IsSpec spec type) {c : UInt8}
    (hc : c = 115 ∨ c = 98 ∨ c = 37) : spec.head? ≠ some c := by
  intro hhead
  obtain ⟨spec, rfl⟩ : ∃ t, spec = c :: t := by
    cases spec with
    | nil => cases hhead
    | cons d t => exact ⟨t, by rw [Option.some.inj hhead]⟩
  have hconversion := h.conversion_eq
  rcases hc with rfl | rfl | rfl <;>
    simp [skipModifiers, skipPrecision, conversion, isFlag, isIntfmt, isDoublefmt,
      Decimal.isDigit] at hconversion

lemma IsSpec.ne_nil {spec : Bytes} {type : NumberType} (h : IsSpec spec type) : spec ≠ [] := by
  rintro rfl
  exact absurd h.conversion_eq (by simp [skipModifiers, skipPrecision, conversion])

/-- A number is written as its format says. -/
lemma formatArg_number {spec : Bytes} {type : NumberType} (h : IsSpec spec type) (format : Bytes)
    (bits : UInt64) (ap : List FormatArg) :
    formatArg vsnprintf (spec ++ format) (.number type bits :: ap) =
      .ok (vsnprintf (37 :: spec) bits, spec.length, ap) := by
  have hne : skipModifiers spec ≠ [] := fun hnil => by
    have hconversion := h.conversion_eq
    rw [hnil] at hconversion
    cases hconversion
  have hhead : ∀ c : UInt8, c = 115 ∨ c = 98 ∨ c = 37 → (spec ++ format).head? ≠ some c := by
    intro c hc
    rw [List.head?_append_of_ne_nil _ h.ne_nil]
    exact h.head_ne hc
  have hlen : (spec ++ format).length - (skipModifiers spec ++ format).length +
      (skipModifiers spec).length = spec.length := by
    have hle := length_skipModifiers_le spec
    simp only [List.length_append]
    omega
  unfold formatArg
  rw [if_neg (hhead _ (by simp)), if_neg (hhead _ (by simp)), if_neg (hhead _ (by simp)),
    skipModifiers_append hne, conversion_append h.conversion_eq]
  simp only [if_true, hlen]
  rw [if_pos (by have := h.short; omega), List.take_left]

/-- A piece of a word. -/
lemma formatLoop_piece {p : Piece} (hp : p.Valid) (format : Bytes) (ap : List FormatArg)
    (st : FormatState) :
    formatLoop vsnprintf 0 (p.text ++ format) (p.args ++ ap) st =
      formatLoop vsnprintf 0 format ap (st.put (p.value vsnprintf)) := by
  cases p with
  | lit c =>
      rw [Piece.text, List.singleton_append, formatLoop, if_pos (.inl hp.2), if_neg hp.1]
      rfl
  | percent => rfl
  | string s => rfl
  | block s => rfl
  | number spec type bits =>
      have hne : spec ++ format ≠ [] := by simp [IsSpec.ne_nil hp]
      rw [Piece.text, List.cons_append, formatLoop, if_neg (by simp [hne]), Piece.args,
        List.singleton_append, formatArg_number hp]
      exact formatLoop_skip spec format ap _

/-- The state behind a word. -/
def FormatState.putWord (vsnprintf : Bytes → UInt64 → Bytes) (st : FormatState) (w : Word) :
    FormatState :=
  w.foldl (fun st p => st.put (p.value vsnprintf)) st

lemma FormatState.putWord_eq (st : FormatState) {w : Word} (hw : w ≠ []) :
    st.putWord vsnprintf w =
      { st with curarg := st.curarg ++ w.flatMap (Piece.value vsnprintf), touched := true } := by
  induction w generalizing st with
  | nil => exact absurd rfl hw
  | cons p w ih =>
      rw [putWord, List.foldl_cons]
      by_cases hnil : w = []
      · subst hnil
        simp [put]
      · rw [← putWord, ih _ hnil]
        simp [put]

lemma formatLoop_word (vsnprintf : Bytes → UInt64 → Bytes) {w : Word} (hw : ∀ p ∈ w, p.Valid)
    (format : Bytes) (ap : List FormatArg) (st : FormatState) :
    formatLoop vsnprintf 0 (w.flatMap Piece.text ++ format) (w.flatMap Piece.args ++ ap) st =
      formatLoop vsnprintf 0 format ap (st.putWord vsnprintf w) := by
  induction w generalizing st with
  | nil => rfl
  | cons p w ih =>
      rw [List.flatMap_cons, List.flatMap_cons, List.append_assoc, List.append_assoc,
        formatLoop_piece (hw p List.mem_cons_self),
        ih fun q hq => hw q (List.mem_cons_of_mem p hq)]
      rfl

/-- Between two words no argument has been begun. -/
structure FormatState.Between (st : FormatState) : Prop where
  curarg : st.curarg = []
  touched : st.touched = false

/-- The end of a word. -/
lemma FormatState.Between.close_putWord {st : FormatState} (hst : st.Between)
    (vsnprintf : Bytes → UInt64 → Bytes) (w : Word) :
    (st.putWord vsnprintf w).close.Between ∧
      (st.putWord vsnprintf w).close.curargv = st.curargv ++ formatArgv vsnprintf [w] := by
  by_cases hw : w = []
  · subst hw
    have hclose : st.close = st := by rw [close, hst.touched]; rfl
    rw [putWord, List.foldl_nil, hclose]
    exact ⟨hst, by simp [formatArgv]⟩
  · rw [putWord_eq st hw, hst.curarg]
    exact ⟨⟨rfl, rfl⟩, by simp [close, formatArgv, hw]⟩

/-- The loop goes over the words. -/
lemma formatLoop_words (vsnprintf : Bytes → UInt64 → Bytes) {words : List Word}
    (hwords : ∀ w ∈ words, ∀ p ∈ w, p.Valid) (ap : List FormatArg) {st : FormatState}
    (hst : st.Between) :
    ∃ st', formatLoop vsnprintf 0 (formatText words) (formatArgs words ++ ap) st = .ok st' ∧
      st'.close.curargv = st.curargv ++ formatArgv vsnprintf words := by
  induction words generalizing st with
  | nil =>
      refine ⟨st, by simp [formatText, formatLoop], ?_⟩
      rw [FormatState.close, hst.touched]
      simp [formatArgv]
  | cons w words ih =>
      have hw := hwords w List.mem_cons_self
      obtain ⟨hbetween, hargv⟩ := hst.close_putWord vsnprintf w
      cases words with
      | nil =>
          refine ⟨st.putWord vsnprintf w, ?_, hargv⟩
          have hword := formatLoop_word vsnprintf hw [] ap st
          simpa [formatText, formatArgs, formatLoop] using hword
      | cons w' words =>
          obtain ⟨st', hloop, hclose⟩ :=
            ih (fun v hv => hwords v (List.mem_cons_of_mem w hv)) hbetween
          refine ⟨st', ?_, ?_⟩
          · have htext : formatText (w :: w' :: words) =
                w.flatMap Piece.text ++ 32 :: formatText (w' :: words) := by
              simp [formatText, List.intercalate_cons_cons]
            have hargs : formatArgs (w :: w' :: words) =
                w.flatMap Piece.args ++ formatArgs (w' :: words) := rfl
            rw [htext, hargs, List.append_assoc, formatLoop_word vsnprintf hw, formatLoop,
              if_pos (.inl (by decide)), if_pos rfl]
            exact hloop
          · rw [hclose, hargv, List.append_assoc]
            congr 1
            simp only [formatArgv, ← List.map_append, ← List.filter_append, List.singleton_append]

/-! ### The command -/

/-- The counted length of the arguments so far. -/
def FormatState.Counted (st : FormatState) : Prop :=
  st.totlen = (st.curargv.map fun s => bulklen s.length).sum

lemma FormatState.Counted.close {st : FormatState} (h : st.Counted) : st.close.Counted := by
  rw [FormatState.close]
  split_ifs
  · rw [Counted, List.map_append, List.sum_append, ← h]
    simp
  · exact h

lemma formatLoop_counted {k : ℕ} {format : Bytes} {ap : List FormatArg} {st st' : FormatState}
    (hst : st.Counted) (h : formatLoop vsnprintf k format ap st = .ok st') : st'.Counted := by
  fun_induction formatLoop vsnprintf k format ap st with
  | case1 k ap st =>
      obtain rfl := Except.ok.inj h
      exact hst
  | case2 ap st k c format ih => exact ih hst h
  | case3 ap st format hc ih => exact ih hst.close h
  | case4 ap st c format hc hblank ih => exact ih hst h
  | case5 ap st c format hc e harg => cases h
  | case6 ap st c format hc s k ap' harg ih => exact ih hst h

/-- What is written of the arguments is as long as has been counted. -/
lemma redisvFormatCommand_of_formatLoop {format : Bytes} {ap : List FormatArg} {st : FormatState}
    (h : formatLoop vsnprintf 0 format ap {} = .ok st) :
    redisvFormatCommand vsnprintf format ap = .ok (Resp.command st.close.curargv).bytes := by
  have hcounted : st.close.Counted := (formatLoop_counted (by rfl) h).close
  have hlength : (st.close.curargv.flatMap bulkString).length = st.close.totlen := by
    rw [hcounted, List.length_flatMap]
    simp only [length_bulkString]
  rw [redisvFormatCommand, h, bytes_command]
  simp only
  rw [if_pos]
  simp only [List.length_append, List.length_cons, hlength, countDigits_eq, Resp.newline,
    List.length_nil]
  omega

/-- **A command from a format.** A format makes the command that has its words as arguments, where
each `%` has been replaced by what is given for it, whatever bytes that holds. -/
theorem redisvFormatCommand_words (vsnprintf : Bytes → UInt64 → Bytes) {words : List Word}
    (hwords : ∀ w ∈ words, ∀ p ∈ w, p.Valid) (ap : List FormatArg) :
    redisvFormatCommand vsnprintf (formatText words) (formatArgs words ++ ap) =
      .ok (Resp.command (formatArgv vsnprintf words)).bytes := by
  obtain ⟨st, hloop, hargv⟩ :=
    formatLoop_words vsnprintf hwords ap (show FormatState.Between {} from ⟨rfl, rfl⟩)
  rw [redisvFormatCommand_of_formatLoop hloop, hargv]
  rfl

lemma valid_command {isDouble : Bytes → Bool} {argv : List Bytes} (hlength : argv.length < 2 ^ 31)
    (hargs : ∀ s ∈ argv, s.length < 2 ^ 31) : (Resp.command argv).Valid isDouble := by
  refine ⟨by rwa [List.length_map], one_dvd _, validAll_iff.mpr fun w hw => ?_⟩
  obtain ⟨s, hs, rfl⟩ := List.mem_map.mp hw
  exact hargs s hs

lemma depth_command (argv : List Bytes) : (Resp.command argv).depth = 1 := by
  have hall : Resp.depthOf (argv.map .bulk) = 0 := by
    induction argv with
    | nil => rfl
    | cons s argv ih => rw [List.map_cons, Resp.depthOf, ih]; rfl
  rw [Resp.command, Resp.Value.depth, hall]

/-- **Commands on the wire.** Commands of less than `2 ^ 31` bytes that have been made from formats,
one after the other in any pieces, are read back as the words of the formats, whatever bytes have
been put into these. -/
theorem outputs_commands (vsnprintf : Bytes → UInt64 → Bytes) (strtod : Bytes → Bool)
    {cmds : List (List Word × List FormatArg)}
    (hvalid : ∀ cmd ∈ cmds, ∀ w ∈ cmd.1, ∀ p ∈ w, p.Valid)
    (hlength : ∀ cmd ∈ cmds, (Resp.command (formatArgv vsnprintf cmd.1)).bytes.length < 2 ^ 31) :
    ∃ stream : List Bytes,
      (cmds.map fun cmd => redisvFormatCommand vsnprintf (formatText cmd.1)
        (formatArgs cmd.1 ++ cmd.2)) = stream.map .ok ∧
      ∀ (calls : List (Call UInt8)) (rest : Bytes),
        calls.flatMap Call.incoming ++ rest = stream.flatten →
        outputs (RedisReader.step strtod) (RedisReader.output strtod) {} calls =
          (outputs Arrivals.step Arrivals.output
            ⟨0, frames (cmds.map fun cmd => Resp.command (formatArgv vsnprintf cmd.1))⟩ calls).map
              some := by
  refine ⟨cmds.map fun cmd => (Resp.command (formatArgv vsnprintf cmd.1)).bytes, ?_, ?_⟩
  · rw [List.map_map]
    exact List.map_congr_left fun cmd hcmd => redisvFormatCommand_words _ (hvalid cmd hcmd) cmd.2
  · intro calls rest h
    have hbytes : ∀ ws : List Resp.Value, Resp.bytesOf ws = (ws.map Resp.Value.bytes).flatten := by
      intro ws
      induction ws with
      | nil => rfl
      | cons w ws ih => rw [Resp.bytesOf, ih, List.map_cons, List.flatten_cons]
    have hall : calls.flatMap Call.incoming ++ rest =
        Resp.bytesOf (cmds.map fun cmd => Resp.command (formatArgv vsnprintf cmd.1)) := by
      rw [h, hbytes, List.map_map]
      rfl
    refine outputs_of_replyReader reading_init calls
      (outputs_replyReader (validAll_iff.mpr fun w hw => ?_) (fun w hw => ?_) hall)
    · obtain ⟨cmd, hcmd, rfl⟩ := List.mem_map.mp hw
      obtain ⟨hargc, hargs⟩ := lt_of_length_command (hlength cmd hcmd)
      exact valid_command hargc hargs
    · obtain ⟨cmd, hcmd, rfl⟩ := List.mem_map.mp hw
      rw [depth_command]
      omega

/-- A key with a blank and a line end in it. -/
theorem outputs_commands_blank :
    ∃ stream : List Bytes,
      ([([[.lit 71, .lit 69, .lit 84], [.string [32, 13, 10]]], [])].map
        fun cmd : List Word × List FormatArg =>
          redisvFormatCommand (fun _ _ => []) (formatText cmd.1) (formatArgs cmd.1 ++ cmd.2)) =
        stream.map .ok ∧
      ∀ (calls : List (Call UInt8)) (rest : Bytes),
        calls.flatMap Call.incoming ++ rest = stream.flatten →
        outputs (RedisReader.step fun _ => false) (RedisReader.output fun _ => false) {} calls =
          (outputs Arrivals.step Arrivals.output
            ⟨0, frames [Resp.command [[71, 69, 84], [32, 13, 10]]]⟩ calls).map some :=
  outputs_commands (fun _ _ => []) (fun _ => false) (by simp [Piece.Valid]) (by decide)

lemma conversion_ne_assertion (p : Bytes) : conversion p ≠ .error .assertion := by
  cases p with
  | nil => simp [conversion]
  | cons c p =>
      rw [conversion]
      split_ifs <;> simp

lemma formatArg_ne_assertion (format : Bytes) (ap : List FormatArg) :
    formatArg vsnprintf format ap ≠ .error .assertion := by
  intro h
  unfold formatArg at h
  split_ifs at h
  · split at h <;> cases h
  · split at h <;> cases h
  · split at h
    · rename_i e hconversion
      obtain rfl := Except.error.inj h
      exact conversion_ne_assertion _ hconversion
    · split at h
      · grind
      · cases h

lemma formatLoop_ne_assertion (vsnprintf : Bytes → UInt64 → Bytes) (k : ℕ) (format : Bytes)
    (ap : List FormatArg) (st : FormatState) :
    formatLoop vsnprintf k format ap st ≠ .error .assertion := by
  fun_induction formatLoop vsnprintf k format ap st with
  | case1 k ap st => simp
  | case2 ap st k c format ih => exact ih
  | case3 ap st format hc ih => exact ih
  | case4 ap st c format hc hblank ih => exact ih
  | case5 ap st c format hc e harg =>
      intro h
      obtain rfl := Except.error.inj h
      exact formatArg_ne_assertion _ _ harg
  | case6 ap st c format hc s k ap' harg ih => exact ih

/-- The counters of a command of less than `2 ^ 31` bytes stand, at each argument, for what has been
counted and written, and in the end for the length of the command. -/
lemma counters_of_length {argv : List Bytes} (h : (Resp.command argv).bytes.length < 2 ^ 31)
    (k : ℕ) :
    (intTotlen (argv.take k)).toInt = ((argv.take k).flatMap bulkString).length ∧
      (intPos argv.length (argv.take k)).toInt =
        1 + countDigits argv.length + 2 + ((argv.take k).flatMap bulkString).length := by
  have hle : ((argv.take k).flatMap bulkString).length ≤ (argv.flatMap bulkString).length := by
    conv_rhs => rw [← List.take_append_drop k argv, List.flatMap_append, List.length_append]
    exact Nat.le_add_right _ _
  rw [length_command] at h
  rw [intTotlen_eq, intPos_eq, Int32.toInt_ofNat_of_lt (by omega),
    Int32.toInt_ofNat_of_lt (by omega)]
  exact ⟨rfl, by push_cast; rfl⟩

/-- **What a format makes.** Whatever the format and the arguments are, the assertion on the length
holds, and a command that is made is an array of strings. Where it has less than `2 ^ 31` bytes, the
`int`s of the source do not overflow at any argument, and are the length of the command in the
end. -/
theorem redisvFormatCommand_isCommand (vsnprintf : Bytes → UInt64 → Bytes) (format : Bytes)
    (ap : List FormatArg) :
    redisvFormatCommand vsnprintf format ap ≠ .error .assertion ∧
      ∀ cmd, redisvFormatCommand vsnprintf format ap = .ok cmd →
        ∃ argv, cmd = (Resp.command argv).bytes ∧ (cmd.length < 2 ^ 31 →
          (∀ k, (intTotlen (argv.take k)).toInt = ((argv.take k).flatMap bulkString).length ∧
            (intPos argv.length (argv.take k)).toInt =
              1 + countDigits argv.length + 2 + ((argv.take k).flatMap bulkString).length) ∧
          (intPos argv.length argv).toInt = cmd.length ∧
          intPos argv.length argv =
            intTotlen argv + Int32.ofNat (1 + countDigits argv.length + 2)) := by
  cases hloop : formatLoop vsnprintf 0 format ap {} with
  | error e =>
      have hne := formatLoop_ne_assertion vsnprintf 0 format ap {}
      rw [hloop] at hne
      rw [redisvFormatCommand, hloop]
      exact ⟨hne ∘ congrArg _ ∘ Except.error.inj, fun cmd h => by cases h⟩
  | ok st =>
      rw [redisvFormatCommand_of_formatLoop hloop]
      refine ⟨by simp, fun cmd h => ⟨_, (Except.ok.inj h).symm, fun hlength => ?_⟩⟩
      obtain rfl := Except.ok.inj h
      refine ⟨counters_of_length hlength, ?_, ?_⟩
      · rw [intPos_eq, ← length_command, Int32.toInt_ofNat_of_lt hlength]
      · rw [intPos_eq, intTotlen_eq, ← Int32.ofNat_add, Nat.add_comm]

end CKGameServer
