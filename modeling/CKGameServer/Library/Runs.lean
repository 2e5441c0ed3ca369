import Mathlib.Data.List.Basic

/-!
Runs of a labelled step function.

A system is a function `step : σ → ε → Option σ`: it takes a state and an event, and answers
the next state, or `none` where the run ends there (an exception nobody catches, a memory
access the language does not define).

* `run`: the state a list of events leads to.
* `Always`: a property of states holds at every state a run passes through.
* `Along`: a property of steps holds at every event of a run, in the state it fires in.
* `always_of_along`: a property kept by the steps that meet a condition holds along every run
  all of whose steps meet it; `always_of_step` is the case of no condition.
* `exists_run_of_along`: a run whose steps are all taken comes to its end.
* `along_iff_along`: where two properties of steps agree in the states a run can be in, one
  holds along a run exactly when the other does; `along_iff_along_of_along`: the same for runs
  whose steps meet a condition.
* `always_iff_along`, `always_iff_along_of_along`: the forms of it for a property of states.
* `along_iff_of_simulation`: through a simulation two properties of steps, one for each system,
  hold along the same runs; `exists_run_of_steps`: a system whose steps are runs of another.
* `withHistory`: the system with a history beside its state; `run_withHistory`: it has the same
  runs.
* `always_budget`: a bound on what the steps of a run cost; `length_add_le_of_along`: on the length
  of a run.
* `outputs`: what the steps of a run put out; `run_simulates`: along a simulation two systems
  run together and put out the same; `run_projects`: so do a system and a part of it, where a step
  of the one is a step of the other or none.
-/

namespace Runs

variable {σ ε : Type*} (step : σ → ε → Option σ)

/-- The state the events lead to from `s`; `none` once a step has ended the run. -/
def run : σ → List ε → Option σ
  | s, [] => some s
  | s, e :: es => (step s e).bind fun s' => run s' es

/-- `P` holds at `s` and at every state the events lead through. -/
def Always (P : σ → Prop) : σ → List ε → Prop
  | s, [] => P s
  | s, e :: es => P s ∧ ∀ s', step s e = some s' → Always P s' es

/-- Every event meets `Q` in the state it fires in. -/
def Along (Q : σ → ε → Prop) : σ → List ε → Prop
  | _, [] => True
  | s, e :: es => Q s e ∧ ∀ s', step s e = some s' → Along Q s' es

variable {step} {P I : σ → Prop} {Q C D : σ → ε → Prop}

@[simp] lemma run_nil (s : σ) : run step s [] = some s := rfl

@[simp] lemma run_cons (s : σ) (e : ε) (es : List ε) :
    run step s (e :: es) = (step s e).bind fun s' => run step s' es := rfl

/-- A run over two lists of events is the run over the second from the end of the first. -/
lemma run_append (s : σ) (es es' : List ε) :
    run step s (es ++ es') = (run step s es).bind fun s' => run step s' es' := by
  induction es generalizing s with
  | nil => rfl
  | cons e es ih => simp only [List.cons_append, run_cons, ih, Option.bind_assoc]

lemma Always.head {s : σ} {es : List ε} (h : Always step P s es) : P s := by
  cases es with
  | nil => exact h
  | cons e es => exact h.1

lemma Always.mono {R : σ → Prop} {s : σ} {es : List ε} (h : Always step P s es)
    (hPR : ∀ s, P s → R s) : Always step R s es := by
  induction es generalizing s with
  | nil => exact hPR s h
  | cons e es ih => exact ⟨hPR s h.1, fun s' h' => ih (h.2 s' h')⟩

/-- Two properties that agree wherever a third holds, which holds throughout the run. -/
lemma always_congr {R : σ → Prop} (hiff : ∀ s, I s → (P s ↔ R s)) {s : σ} {es : List ε}
    (hI : Always step I s es) : Always step P s es ↔ Always step R s es := by
  induction es generalizing s with
  | nil => exact hiff s hI
  | cons e es ih =>
      refine and_congr (hiff s hI.1) (forall_congr' fun s' => ?_)
      exact imp_congr_right fun h' => ih (hI.2 s' h')

/-- A property that holds throughout a run holds at its end. -/
lemma Always.of_run {s s' : σ} {es : List ε} (h : Always step P s es)
    (hr : run step s es = some s') : P s' := by
  induction es generalizing s with
  | nil =>
      rw [run_nil, Option.some.injEq] at hr
      exact hr ▸ h
  | cons e es ih =>
      obtain ⟨t, ht, hr'⟩ := Option.bind_eq_some_iff.mp hr
      exact ih (h.2 t ht) hr'

/-- A property of steps that holds along a run holds of the step after any prefix of it. -/
lemma Along.of_run {s s' : σ} {e : ε} {pre post : List ε}
    (h : Along step Q s (pre ++ e :: post)) (hr : run step s pre = some s') : Q s' e := by
  induction pre generalizing s with
  | nil =>
      rw [run_nil, Option.some.injEq] at hr
      exact hr ▸ h.1
  | cons d pre ih =>
      obtain ⟨t, ht, hr'⟩ := Option.bind_eq_some_iff.mp hr
      exact ih (h.2 t ht) hr'

/-- A property of steps holds along a run if every event of it meets it in every state. -/
lemma Along.of_forall_mem {s : σ} {es : List ε} (h : ∀ e ∈ es, ∀ s, Q s e) :
    Along step Q s es := by
  induction es generalizing s with
  | nil => trivial
  | cons e es ih =>
      exact ⟨h e List.mem_cons_self s, fun _ _ =>
        ih fun e' he' => h e' (List.mem_cons_of_mem e he')⟩

/-- A property of steps that holds along a run holds along its beginning. -/
lemma Along.of_append {s : σ} {pre post : List ε} (h : Along step Q s (pre ++ post)) :
    Along step Q s pre := by
  induction pre generalizing s with
  | nil => trivial
  | cons e pre ih => exact ⟨h.1, fun s' h' => ih (h.2 s' h')⟩

/-- A property of steps that holds along a run holds along the rest of it. -/
lemma Along.of_append_run {s s' : σ} {pre post : List ε} (h : Along step Q s (pre ++ post))
    (hr : run step s pre = some s') : Along step Q s' post := by
  induction pre generalizing s with
  | nil =>
      rw [run_nil, Option.some.injEq] at hr
      exact hr ▸ h
  | cons e pre ih =>
      obtain ⟨t, ht, hr'⟩ := Option.bind_eq_some_iff.mp hr
      exact ih (h.2 t ht) hr'

/-- What holds of every step that is taken, from a property the steps keep, holds along every run
that comes to its end. -/
theorem along_of_run (hstep : ∀ s e s', P s → step s e = some s' → Q s e ∧ P s')
    {s s' : σ} {es : List ε} (hs : P s) (h : run step s es = some s') : Along step Q s es := by
  induction es generalizing s with
  | nil => trivial
  | cons e es ih =>
      obtain ⟨t, ht, hrest⟩ := Option.bind_eq_some_iff.mp h
      refine ⟨(hstep s e t hs ht).1, fun t' ht' => ?_⟩
      obtain rfl := Option.some.inj (ht.symm.trans ht')
      exact ih (hstep s e t hs ht).2 hrest

/-- Two properties of steps that hold along a run hold together. -/
lemma Along.and {s : σ} {es : List ε} (h : Along step Q s es) (h' : Along step C s es) :
    Along step (fun s e => Q s e ∧ C s e) s es := by
  induction es generalizing s with
  | nil => trivial
  | cons e es ih => exact ⟨⟨h.1, h'.1⟩, fun t ht => ih (h.2 t ht) (h'.2 t ht)⟩

/-- A property of steps is checked along a run by running it. -/
instance Along.decidable [∀ s e, Decidable (Q s e)] : ∀ s es, Decidable (Along step Q s es)
  | _, [] => isTrue trivial
  | s, e :: es =>
    have : DecidablePred fun s' => Along step Q s' es := fun s' => Along.decidable s' es
    inferInstanceAs (Decidable (Q s e ∧ ∀ s', s' ∈ step s e → Along step Q s' es))

instance Always.decidable [DecidablePred P] : ∀ s es, Decidable (Always step P s es)
  | s, [] => inferInstanceAs (Decidable (P s))
  | s, e :: es =>
    have : DecidablePred fun s' => Always step P s' es := fun s' => Always.decidable s' es
    inferInstanceAs (Decidable (P s ∧ ∀ s', s' ∈ step s e → Always step P s' es))

/-- The invariant rule, with a condition on the steps. -/
theorem always_of_along (hstep : ∀ s e s', P s → C s e → step s e = some s' → P s')
    {s : σ} {es : List ε} (hs : P s) (h : Along step C s es) : Always step P s es := by
  induction es generalizing s with
  | nil => exact hs
  | cons e es ih => exact ⟨hs, fun s' h' => ih (hstep s e s' hs h.1 h') (h.2 s' h')⟩

/-- The invariant rule. -/
theorem always_of_step (hstep : ∀ s e s', P s → step s e = some s' → P s')
    {s : σ} (es : List ε) (hs : P s) : Always step P s es := by
  induction es generalizing s with
  | nil => exact hs
  | cons e es ih => exact ⟨hs, fun s' h' => ih (hstep s e s' hs h')⟩

/-- A property of steps that follows from an invariant and a condition holds along every run
whose steps meet the condition. -/
theorem along_of_along (hQ : ∀ s e, P s → C s e → Q s e)
    (hstep : ∀ s e s', P s → C s e → step s e = some s' → P s')
    {s : σ} {es : List ε} (hs : P s) (h : Along step C s es) : Along step Q s es := by
  induction es generalizing s with
  | nil => trivial
  | cons e es ih =>
      exact ⟨hQ s e hs h.1, fun s' h' => ih (hstep s e s' hs h.1 h') (h.2 s' h')⟩

/-- The progress rule: a run whose steps meet a condition under which they are taken, from states
with a property they keep, comes to its end. -/
theorem exists_run_of_along (hstep : ∀ s e, P s → C s e → ∃ s', step s e = some s' ∧ P s')
    {s : σ} {es : List ε} (hs : P s) (h : Along step C s es) : ∃ s', run step s es = some s' := by
  induction es generalizing s with
  | nil => exact ⟨s, rfl⟩
  | cons e es ih =>
      obtain ⟨t, ht, hPt⟩ := hstep s e hs h.1
      rw [run_cons, ht, Option.bind_some]
      exact ih hPt (h.2 t ht)

/-- Along a run whose steps meet `D`, two properties of steps that agree wherever `P` holds, the
first of them keeping `P`, hold together or not at all. -/
theorem along_iff_along_of_along (hiff : ∀ s e, P s → D s e → (Q s e ↔ C s e))
    (hstep : ∀ s e s', P s → D s e → Q s e → step s e = some s' → P s')
    {s : σ} {es : List ε} (hs : P s) (hD : Along step D s es) :
    Along step Q s es ↔ Along step C s es := by
  induction es generalizing s with
  | nil => exact Iff.rfl
  | cons e es ih =>
      obtain ⟨hd, hDrest⟩ := hD
      constructor
      · rintro ⟨hq, hrest⟩
        exact ⟨(hiff s e hs hd).mp hq, fun s' h' =>
          (ih (hstep s e s' hs hd hq h') (hDrest s' h')).mp (hrest s' h')⟩
      · rintro ⟨hc, hrest⟩
        have hq := (hiff s e hs hd).mpr hc
        exact ⟨hq, fun s' h' => (ih (hstep s e s' hs hd hq h') (hDrest s' h')).mpr (hrest s' h')⟩

lemma along_true (s : σ) (es : List ε) : Along step (fun _ _ => True) s es :=
  Along.of_forall_mem fun _ _ _ => trivial

/-- Two properties of steps that agree wherever `P` holds, the first of them keeping `P`, hold
along the same runs. -/
theorem along_iff_along (hiff : ∀ s e, P s → (Q s e ↔ C s e))
    (hstep : ∀ s e s', P s → Q s e → step s e = some s' → P s')
    {s : σ} (es : List ε) (hs : P s) : Along step Q s es ↔ Along step C s es :=
  along_iff_along_of_along (fun s e h _ => hiff s e h) (fun s e s' h _ => hstep s e s' h) hs
    (along_true s es)

/-- A property of states holds throughout a run exactly when every step of the run leads from
it to it again. -/
lemma always_iff_along_keeps {s : σ} (es : List ε) (hs : P s) :
    Always step P s es ↔ Along step (fun s e => ∀ s', step s e = some s' → P s') s es := by
  induction es generalizing s with
  | nil => exact ⟨fun _ => trivial, fun _ => hs⟩
  | cons e es ih =>
      constructor
      · rintro ⟨-, hrest⟩
        exact ⟨fun s' h' => (hrest s' h').head, fun s' h' =>
          (ih (hrest s' h').head).mp (hrest s' h')⟩
      · rintro ⟨hkeep, hrest⟩
        exact ⟨hs, fun s' h' => (ih (hkeep s' h')).mpr (hrest s' h')⟩

/-- **The exact condition for a property of states.** If, under an invariant `I` of the steps that
meet `D`, such a step keeps `P` exactly when it meets `C`, then `P` holds throughout a run of such
steps exactly when all of them meet `C`. -/
theorem always_iff_along_of_along (hI : ∀ s e s', I s → D s e → step s e = some s' → I s')
    (hiff : ∀ s e, I s → D s e → P s → ((∀ s', step s e = some s' → P s') ↔ C s e))
    {s : σ} {es : List ε} (hIs : I s) (hs : P s) (hD : Along step D s es) :
    Always step P s es ↔ Along step C s es := by
  rw [always_iff_along_keeps es hs]
  exact along_iff_along_of_along (P := fun s => I s ∧ P s) (fun s e h hd => hiff s e h.1 hd h.2)
    (fun s e s' h hd hkeep h' => ⟨hI s e s' h.1 hd h', hkeep s' h'⟩) ⟨hIs, hs⟩ hD

/-- The exact condition under an invariant of every step. -/
theorem always_iff_along (hI : ∀ s e s', I s → step s e = some s' → I s')
    (hiff : ∀ s e, I s → P s → ((∀ s', step s e = some s' → P s') ↔ C s e))
    {s : σ} (es : List ε) (hIs : I s) (hs : P s) :
    Always step P s es ↔ Along step C s es :=
  always_iff_along_of_along (fun s e s' h _ => hI s e s' h) (fun s e h _ => hiff s e h) hIs hs
    (along_true s es)

/-! ### Two systems -/

section Simulation

variable {τ δ : Type*} {step' : τ → δ → Option τ} {R : σ → τ → Prop} {f : ε → δ}
  {C' : τ → δ → Prop}

/-- **Properties of runs through a simulation.** Where related states take the same steps, to
related states again, two properties of steps that agree on related states hold along the same
runs. -/
theorem along_iff_of_simulation (hiff : ∀ s t e, R s t → (Q s e ↔ C' t (f e)))
    (hstep : ∀ s t e, R s t → Option.Rel R (step s e) (step' t (f e)))
    {s : σ} {t : τ} (hR : R s t) (es : List ε) :
    Along step Q s es ↔ Along step' C' t (es.map f) := by
  induction es generalizing s t with
  | nil => exact Iff.rfl
  | cons e es ih =>
      rw [List.map_cons, Along, Along, hiff s t e hR]
      refine and_congr_right fun _ => ?_
      have hrel := hstep s t e hR
      generalize step s e = next at hrel ⊢
      generalize step' t (f e) = next' at hrel ⊢
      cases hrel with
      | none => exact iff_of_true (fun _ h => by cases h) fun _ h => by cases h
      | some hR' =>
          constructor
          · intro hrest t' ht'
            obtain rfl := Option.some.inj ht'
            exact (ih hR').mp (hrest _ rfl)
          · intro hrest s' hs'
            obtain rfl := Option.some.inj hs'
            exact (ih hR').mpr (hrest _ rfl)

/-- Where every step is a run of another system, so is every run. -/
theorem exists_run_of_steps (f : σ → τ)
    (hstep : ∀ s e s', step s e = some s' → ∃ ds, run step' (f s) ds = some (f s'))
    {s s' : σ} {es : List ε} (h : run step s es = some s') :
    ∃ ds, run step' (f s) ds = some (f s') := by
  induction es generalizing s with
  | nil =>
      obtain rfl := Option.some.inj h
      exact ⟨[], rfl⟩
  | cons e es ih =>
      obtain ⟨t, ht, hrest⟩ := Option.bind_eq_some_iff.mp h
      obtain ⟨ds, hds⟩ := hstep s e t ht
      obtain ⟨ds', hds'⟩ := ih hrest
      exact ⟨ds ++ ds', by rw [run_append, hds, Option.bind_some, hds']⟩

end Simulation

/-! ### Histories -/

section History

variable {η : Type*} (step) (next : σ × η → ε → σ → η)

/-- The system with a history beside its state, which every step that is taken carries on. -/
def withHistory (s : σ × η) (e : ε) : Option (σ × η) :=
  (step s.1 e).map fun s' => (s', next s e s')

/-- What holds after every step with the history. -/
lemma forall_withHistory {s : σ × η} {e : ε} {R : σ × η → Prop} :
    (∀ s', withHistory step next s e = some s' → R s') ↔
      ∀ t, step s.1 e = some t → R (t, next s e t) := by
  constructor
  · intro h t ht
    exact h _ (by rw [withHistory, ht, Option.map_some])
  · rintro h s' hs'
    obtain ⟨t, ht, rfl⟩ := Option.map_eq_some_iff.mp hs'
    exact h t ht

/-- The history watches: the runs are those of the system itself. -/
theorem run_withHistory (s : σ × η) (es : List ε) :
    (run (withHistory step next) s es).map Prod.fst = run step s.1 es := by
  induction es generalizing s with
  | nil => rfl
  | cons e es ih =>
      rw [run_cons, run_cons, withHistory]
      cases step s.1 e with
      | none => rfl
      | some s' => exact ih (s', next s e s')

end History

/-! ### Budgets -/

section Budget

variable {work : σ → ℕ} {cost load : σ → ε → ℕ}

/-- What the steps have cost so far, and what has come in. -/
def spend (cost load : σ → ε → ℕ) (s : σ × ℕ × ℕ) (e : ε) (_ : σ) : ℕ × ℕ :=
  (s.2.1 + cost s.1 e, s.2.2 + load s.1 e)

/-- **The budget rule.** Where every step is paid for by the work it does away with and by what comes
in with it, so is every run. -/
theorem always_budget
    (hstep : ∀ s e s', step s e = some s' → cost s e + work s' ≤ work s + load s e)
    (s : σ) (es : List ε) :
    Always (withHistory step (spend cost load)) (fun t => t.2.1 + work t.1 ≤ work s + t.2.2)
      (s, 0, 0) es := by
  refine always_of_step (fun t e t' ht h => ?_) es (by simp)
  obtain ⟨s', hs', rfl⟩ := Option.map_eq_some_iff.mp h
  have hpaid := hstep t.1 e s' hs'
  simp only [spend]
  omega

/-- A run whose steps all do away with work is no longer than the work there was. -/
theorem length_add_le_of_along {step : σ → ε → Option σ} {C : σ → ε → Prop}
    (hstep : ∀ s e s', C s e → step s e = some s' → work s' < work s)
    {s s' : σ} {es : List ε} (h : Along step C s es) (hr : run step s es = some s') :
    es.length + work s' ≤ work s := by
  induction es generalizing s with
  | nil =>
      obtain rfl := Option.some.inj hr
      simp
  | cons e es ih =>
      obtain ⟨t, ht, hrest⟩ := Option.bind_eq_some_iff.mp hr
      have hless := hstep s e t h.1 ht
      have hlater := ih (h.2 t ht) hrest
      rw [List.length_cons]
      omega

end Budget

/-! ### Outputs -/

section Outputs

variable {ω : Type*} (step) (out : σ → ε → Option ω)

/-- What the events of a run put out, in order, each in the state it fires in. -/
def outputs : σ → List ε → List ω
  | _, [] => []
  | s, e :: es => (out s e).toList ++ (step s e).elim [] fun s' => outputs s' es

@[simp] lemma outputs_nil (s : σ) : outputs step out s [] = [] := rfl

variable {step out}

lemma outputs_cons {s s' : σ} {e : ε} (h : step s e = some s') (es : List ε) :
    outputs step out s (e :: es) = (out s e).toList ++ outputs step out s' es := by
  rw [outputs, h, Option.elim_some]

variable {τ δ ω' : Type*} {step' : τ → δ → Option τ} {out' : τ → δ → Option ω'}
  {R : σ → τ → Prop} {f : ε → δ} {g : ω' → ω}

/-- **Simulation.** Where every step that meets `C` is matched by a step of the other system
from related states to related states, with the same output up to `g`, the runs are matched
too. -/
theorem run_simulates
    (hstep : ∀ s t e, R s t → C s e → out s e = (out' t (f e)).map g ∧
      ∃ s' t', step s e = some s' ∧ step' t (f e) = some t' ∧ R s' t')
    {s : σ} {t : τ} {es : List ε} (hR : R s t) (h : Along step C s es) :
    ∃ s' t', run step s es = some s' ∧ run step' t (es.map f) = some t' ∧ R s' t' ∧
      outputs step out s es = (outputs step' out' t (es.map f)).map g := by
  induction es generalizing s t with
  | nil => exact ⟨s, t, rfl, rfl, hR, rfl⟩
  | cons e es ih =>
      obtain ⟨hout, s₁, t₁, hs, ht, hR₁⟩ := hstep s t e hR h.1
      obtain ⟨s', t', hrun, hrun', hR', houts⟩ := ih hR₁ (h.2 s₁ hs)
      refine ⟨s', t', ?_, ?_, hR', ?_⟩
      · rw [run_cons, hs, Option.bind_some, hrun]
      · rw [List.map_cons, run_cons, ht, Option.bind_some, hrun']
      · rw [List.map_cons, outputs_cons hs, outputs_cons ht, hout, houts, List.map_append,
          Option.toList_map]

/-- What a run puts out, and then another from its end. -/
lemma outputs_append {s s' : σ} {es : List ε} (h : run step s es = some s') (es' : List ε) :
    outputs step out s (es ++ es') = outputs step out s es ++ outputs step out s' es' := by
  induction es generalizing s with
  | nil =>
      obtain rfl := Option.some.inj h
      rfl
  | cons e es ih =>
      obtain ⟨t, ht, hrest⟩ := Option.bind_eq_some_iff.mp h
      rw [List.cons_append, outputs_cons ht, outputs_cons ht, ih hrest, List.append_assoc]

/-- One event at most puts out what it puts out. -/
lemma outputs_toList (s : σ) (e : Option ε) :
    outputs step out s e.toList = (e.bind (out s)).toList := by
  cases e with
  | none => rfl
  | some e => cases h : step s e <;> simp [outputs, h]

/-- **A part of a system.** Where each step that meets `C` is one of another system or none, as `op`
says, and puts out what `g` lets through of its output, a run is one of the other system, which puts
out the same up to `g`. -/
theorem run_projects {op : σ → ε → Option δ} {out' : τ → δ → Option ω'} {g : ω' → Option ω}
    (hstep : ∀ s t e s', R s t → C s e → step s e = some s' →
      out s e = ((op s e).bind (out' t)).bind g ∧
      ∃ t', run step' t (op s e).toList = some t' ∧ R s' t')
    {s s' : σ} {t : τ} {es : List ε} (hR : R s t) (h : Along step C s es)
    (hrun : run step s es = some s') :
    ∃ t', run step' t (outputs step op s es) = some t' ∧ R s' t' ∧
      outputs step out s es = (outputs step' out' t (outputs step op s es)).filterMap g := by
  induction es generalizing s t with
  | nil =>
      obtain rfl := Option.some.inj hrun
      exact ⟨t, rfl, hR, rfl⟩
  | cons e es ih =>
      obtain ⟨s₁, hs, hrest⟩ := Option.bind_eq_some_iff.mp hrun
      obtain ⟨hout, t₁, ht, hR₁⟩ := hstep s t e s₁ hR h.1 hs
      obtain ⟨t', hrun', hR', houts⟩ := ih hR₁ (h.2 s₁ hs) hrest
      refine ⟨t', ?_, hR', ?_⟩
      · rw [outputs_cons hs, run_append, ht, Option.bind_some, hrun']
      · have hfirst : (out s e).toList = (((op s e).bind (out' t)).toList).filterMap g := by
          rw [hout]
          cases (op s e).bind (out' t) with
          | none => rfl
          | some x => cases hx : g x <;> simp [hx]
        rw [outputs_cons hs, outputs_cons hs, outputs_append ht, outputs_toList,
          List.filterMap_append, houts, hfirst]

end Outputs

end Runs
