/-
# MediaArchiver.Lib.Machine -- deterministic machines, guarded runs and what they keep

A machine is a step function on a state; everything the environment decides (which message
arrives, whether a call fails, which row a query keeps) is part of the event, so one list of
events is one run and "every interleaving" is "every list".

The rules below are the only inductions over runs that the development needs:

* `invariant` -- a predicate that every guarded step keeps holds after every guarded run;
* `Machine.Along` -- the guard holds at each step of the run, in the state that step starts from
  (`along_iff`);
* `along_comap` -- the same for a machine whose events are given by those of another kind;
* `invariant_past` -- the same where guard and predicate look at the events so far;
* `reaches` -- what a measure goes down to is reached;
* `always_iff` -- a property holds in all states of a run exactly if its steps meet the guard;
* `alongPast_iff` -- the same for a property of the events so far;
* `stable_outputs` -- what the steps of a run emit, described relative to its final state.

Nothing here knows what the machine is.
-/
import Mathlib.Data.List.Basic

namespace MediaArchiver.Lib

universe u v w

/-- The guard holds of every event, given those before it. -/
def AlongPast {ε : Type v} (guard : List ε → ε → Prop) : List ε → List ε → Prop
  | _, [] => True
  | past, e :: es => guard past e ∧ AlongPast guard (past ++ [e]) es

instance decidableAlongPast {ε : Type v} {guard : List ε → ε → Prop}
    [∀ past e, Decidable (guard past e)] (past es : List ε) : Decidable (AlongPast guard past es) :=
  match es with
  | [] => isTrue trivial
  | e :: es =>
      have : Decidable (AlongPast guard (past ++ [e]) es) := decidableAlongPast (past ++ [e]) es
      inferInstanceAs (Decidable (guard past e ∧ AlongPast guard (past ++ [e]) es))

/-- No guard is one that always holds. -/
theorem alongPast_true {ε : Type v} (past es : List ε) : AlongPast (fun _ _ => True) past es := by
  induction es generalizing past with
  | nil => trivial
  | cons e es ih => exact ⟨trivial, ih _⟩

/-- A property of all prefixes of a list of events whose failures are the events that break the guard. -/
theorem alongPast_iff {ε : Type v} {I P : List ε → Prop} {guard : List ε → ε → Prop} {es : List ε}
    (hgood : ∀ past, past <+: es → I past → P past)
    (hstep : ∀ past e, past ++ [e] <+: es → I past → guard past e → I (past ++ [e]))
    (hguard : ∀ past e, past ++ [e] <+: es → I past → P (past ++ [e]) → guard past e) (hnil : I []) :
    (∀ past, past <+: es → P past) ↔ AlongPast guard [] es := by
  suffices hall : ∀ past rest, past ++ rest = es → I past →
      ((∀ more, more <+: rest → P (past ++ more)) ↔ AlongPast guard past rest) from
    hall [] es rfl hnil
  intro past rest
  induction rest generalizing past with
  | nil =>
    intro hes hpast
    refine iff_of_true (fun more hmore => ?_) trivial
    obtain rfl := List.prefix_nil.mp hmore
    rw [List.append_nil]
    exact hgood past ⟨[], hes⟩ hpast
  | cons e rest ih =>
    intro hes hpast
    have hnext : past ++ [e] ++ rest = es := by rw [List.append_assoc]; exact hes
    have hbegin : past ++ [e] <+: es := ⟨rest, hnext⟩
    constructor
    · intro hall
      have he : guard past e := hguard past e hbegin hpast (hall [e] ⟨rest, rfl⟩)
      refine ⟨he, (ih _ hnext (hstep past e hbegin hpast he)).mp fun more hmore => ?_⟩
      rw [List.append_assoc]
      exact hall (e :: more) (List.cons_prefix_cons.mpr ⟨rfl, hmore⟩)
    · rintro ⟨he, hrest⟩ more hmore
      rcases more with _ | ⟨e', more⟩
      · rw [List.append_nil]
        exact hgood past ⟨e :: rest, hes⟩ hpast
      · obtain ⟨rfl, hmore'⟩ := List.cons_prefix_cons.mp hmore
        have hlater := (ih _ hnext (hstep past e' hbegin hpast he)).mpr hrest more hmore'
        rwa [List.append_assoc] at hlater

/-- A deterministic machine. The choices of the environment are carried by the events. -/
structure Machine (σ : Type u) (ε : Type v) where
  step : σ → ε → σ

namespace Machine

variable {σ : Type u} {ε : Type v} (M : Machine σ ε)

/-- The state after a list of events. -/
def run (s : σ) (es : List ε) : σ := es.foldl M.step s

/-- The guard holds at every step of the run, in the state the step starts from. -/
def Along (guard : σ → ε → Prop) : σ → List ε → Prop
  | _, [] => True
  | s, e :: es => guard s e ∧ Along guard (M.step s e) es

@[simp] theorem run_nil (s : σ) : M.run s [] = s := rfl

@[simp] theorem run_cons (s : σ) (e : ε) (es : List ε) :
    M.run s (e :: es) = M.run (M.step s e) es := rfl

theorem run_append (s : σ) (es fs : List ε) :
    M.run s (es ++ fs) = M.run (M.run s es) fs := by
  simp only [run, List.foldl_append]

@[simp] theorem along_nil (guard : σ → ε → Prop) (s : σ) : M.Along guard s [] := trivial

@[simp] theorem along_cons (guard : σ → ε → Prop) (s : σ) (e : ε) (es : List ε) :
    M.Along guard s (e :: es) ↔ guard s e ∧ M.Along guard (M.step s e) es := Iff.rfl

theorem along_append (guard : σ → ε → Prop) (s : σ) (es fs : List ε) :
    M.Along guard s (es ++ fs) ↔ M.Along guard s es ∧ M.Along guard (M.run s es) fs := by
  induction es generalizing s with
  | nil => simp
  | cons e es ih => simp [ih, and_assoc]

/-- A guard holds along a run exactly if it holds of each event in the state after those before it. -/
theorem along_iff {guard : σ → ε → Prop} {s : σ} {es : List ε} :
    M.Along guard s es ↔ ∀ past e, past ++ [e] <+: es → guard (M.run s past) e := by
  induction es generalizing s with
  | nil =>
    refine iff_of_true trivial fun past e hpast => ?_
    exact absurd (List.prefix_nil.mp hpast) (by simp)
  | cons e es ih =>
    rw [along_cons, ih]
    constructor
    · rintro ⟨he, hes⟩ past e' hpast
      rcases past with _ | ⟨e'', past⟩
      · obtain ⟨rfl, -⟩ := List.cons_prefix_cons.mp hpast
        exact he
      · obtain ⟨rfl, hrest⟩ := List.cons_prefix_cons.mp hpast
        exact hes past e' hrest
    · intro hall
      refine ⟨hall [] e ⟨es, rfl⟩, fun past e' hpast => ?_⟩
      exact hall (e :: past) e' (List.cons_prefix_cons.mpr ⟨rfl, hpast⟩)

/-- A guard on the states is one on the events so far. -/
theorem alongPast_of_along {guard : σ → ε → Prop} {s : σ} {es : List ε} (h : M.Along guard s es) :
    AlongPast (fun past e => guard (M.run s past) e) [] es := by
  suffices hall : ∀ past, M.Along guard (M.run s past) es →
      AlongPast (fun past e => guard (M.run s past) e) past es from hall [] h
  clear h
  induction es with
  | nil => exact fun _ _ => trivial
  | cons e es ih =>
    intro past hpast
    refine ⟨hpast.1, ih (past ++ [e]) ?_⟩
    rw [run_append]
    exact hpast.2

instance decidableAlong {guard : σ → ε → Prop} [∀ s e, Decidable (guard s e)] (s : σ)
    (es : List ε) : Decidable (M.Along guard s es) :=
  match es with
  | [] => isTrue trivial
  | e :: es =>
      have : Decidable (M.Along guard (M.step s e) es) := decidableAlong (M.step s e) es
      inferInstanceAs (Decidable (guard s e ∧ M.Along guard (M.step s e) es))

/-- A guard that does not look at the state holds along a run as soon as it holds of its events. -/
theorem along_of_forall {guard : ε → Prop} {es : List ε} (h : ∀ e ∈ es, guard e) (s : σ) :
    M.Along (fun _ e => guard e) s es := by
  induction es generalizing s with
  | nil => trivial
  | cons e es ih =>
    exact ⟨h e List.mem_cons_self, ih (fun e' he => h e' (List.mem_cons_of_mem _ he)) _⟩

/-- No guard is one that always holds. -/
theorem along_true (s : σ) (es : List ε) : M.Along (fun _ _ => True) s es :=
  M.along_of_forall (fun _ _ => trivial) s

/-- Invariant rule: what every guarded step keeps, every guarded run keeps. -/
theorem invariant {P : σ → Prop} {guard : σ → ε → Prop}
    (hstep : ∀ s e, P s → guard s e → P (M.step s e))
    {s : σ} {es : List ε} (hs : P s) (hg : M.Along guard s es) : P (M.run s es) := by
  induction es generalizing s with
  | nil => exact hs
  | cons e es ih => exact ih (hstep s e hs hg.1) hg.2

/-- Invariant rule for runs without a guard. -/
theorem invariant_always {P : σ → Prop} (hstep : ∀ s e, P s → P (M.step s e))
    {s : σ} (hs : P s) (es : List ε) : P (M.run s es) := by
  induction es generalizing s with
  | nil => exact hs
  | cons e es ih => exact ih (hstep s e hs)

/-- Invariant rule for guards and predicates that look at the events so far. -/
theorem invariant_past {P : List ε → σ → Prop} {guard : List ε → ε → Prop} {s : σ}
    (hstep : ∀ past e, P past (M.run s past) → guard past e →
      P (past ++ [e]) (M.step (M.run s past) e))
    (hs : P [] s) {es : List ε} (hg : AlongPast guard [] es) : P es (M.run s es) := by
  suffices hall : ∀ past es, P past (M.run s past) → AlongPast guard past es →
      P (past ++ es) (M.run s (past ++ es)) from hall [] es hs hg
  intro past es
  induction es generalizing past with
  | nil =>
    intro hpast _
    rwa [List.append_nil]
  | cons e es ih =>
    intro hpast hg
    have hnext : P (past ++ [e]) (M.run s (past ++ [e])) := by
      rw [run_append]
      exact hstep past e hpast hg.1
    have hrun := ih (past ++ [e]) hnext hg.2
    rwa [List.append_assoc] at hrun

/-- Progress rule: as long as `P` holds no step raises the rank, and a useful one lowers it, unless it is one
that `R` is about. So either such a step is taken, or `P` holds to the end and the rank has paid for the
useful steps. -/
theorem happens_or_keeps {P : σ → Prop} {R guard : σ → ε → Prop} (rank : σ → Nat) (useful : ε → Bool)
    (hstep : ∀ s e, P s → guard s e →
      R s e ∨ P (M.step s e) ∧ rank (M.step s e) + (useful e).toNat ≤ rank s)
    {s : σ} {es : List ε} (hs : P s) (hg : M.Along guard s es) :
    (∃ past e rest, es = past ++ e :: rest ∧ R (M.run s past) e) ∨
      P (M.run s es) ∧ rank (M.run s es) + es.countP useful ≤ rank s := by
  induction es generalizing s with
  | nil => exact Or.inr ⟨hs, Nat.le_refl _⟩
  | cons e es ih =>
    rcases hstep s e hs hg.1 with hnow | ⟨hnext, hrank⟩
    · exact Or.inl ⟨[], e, es, rfl, hnow⟩
    rcases ih hnext hg.2 with ⟨past, e', rest, rfl, hlater⟩ | ⟨hend, hpaid⟩
    · exact Or.inl ⟨e :: past, e', rest, rfl, hlater⟩
    refine Or.inr ⟨hend, ?_⟩
    rw [List.countP_cons]
    cases huseful : useful e <;> simp [huseful] at hrank ⊢ <;> omega

/-- A run with enough useful steps gets to `Q`. -/
theorem reaches {P Q : σ → Prop} {guard : σ → ε → Prop} (rank : σ → Nat) (useful : ε → Bool)
    (hstep : ∀ s e, P s → guard s e →
      Q (M.step s e) ∨ P (M.step s e) ∧ rank (M.step s e) + (useful e).toNat ≤ rank s)
    {s : σ} {es : List ε} (hs : P s) (hg : M.Along guard s es) (hcount : rank s < es.countP useful) :
    ∃ past, past <+: es ∧ Q (M.run s past) := by
  rcases M.happens_or_keeps (R := fun s e => Q (M.step s e)) rank useful hstep hs hg with
    ⟨past, e, rest, rfl, hreached⟩ | ⟨-, hpaid⟩
  · refine ⟨past ++ [e], ⟨rest, by simp⟩, ?_⟩
    rw [run_append]
    exact hreached
  · omega

/-- A property of all states of a run whose failures are the steps that break the guard: in every
reachable state it follows from the invariant, and no step keeps it without the guard. -/
theorem always_iff {I P : σ → Prop} {guard : σ → ε → Prop} (hgood : ∀ s, I s → P s)
    (hstep : ∀ s e, I s → guard s e → I (M.step s e))
    (hguard : ∀ s e, I s → P (M.step s e) → guard s e) {s : σ} (hs : I s) (es : List ε) :
    (∀ past, past <+: es → P (M.run s past)) ↔ M.Along guard s es := by
  induction es generalizing s with
  | nil =>
    refine iff_of_true (fun past hpast => ?_) trivial
    obtain rfl := List.prefix_nil.mp hpast
    exact hgood s hs
  | cons e es ih =>
    constructor
    · intro hall
      have he : guard s e := hguard s e hs (hall [e] ⟨es, rfl⟩)
      refine ⟨he, (ih (hstep s e hs he)).mp fun past hpast => ?_⟩
      exact hall (e :: past) (List.cons_prefix_cons.mpr ⟨rfl, hpast⟩)
    · rintro ⟨he, hes⟩ past hpast
      rcases past with _ | ⟨e', past⟩
      · exact hgood s hs
      · obtain ⟨rfl, hrest⟩ := List.cons_prefix_cons.mp hpast
        exact (ih (hstep s e' hs he)).mpr hes past hrest

/-! ## Events that stand for others -/

section Comap

variable {ε' : Type w} (f : ε' → ε)

/-- The machine under events that stand for its own. -/
def comap : Machine σ ε' where
  step s e := M.step s (f e)

@[simp] theorem run_comap (s : σ) (es : List ε') : (M.comap f).run s es = M.run s (es.map f) := by
  induction es generalizing s with
  | nil => rfl
  | cons e es ih => exact ih _

/-- A guard on the events is one on what they stand for. -/
theorem along_comap {guard : σ → ε' → Prop} {s : σ} {es : List ε'}
    (h : (M.comap f).Along guard s es) :
    M.Along (fun s e => ∃ e', f e' = e ∧ guard s e') s (es.map f) := by
  induction es generalizing s with
  | nil => trivial
  | cons e es ih => exact ⟨⟨e, rfl, h.1⟩, ih h.2⟩

end Comap

/-! ## What a run emits -/

section Outputs

variable {α : Type w} (emit : σ → ε → Option α)

/-- What the steps of a run emit, in order. -/
def outputs : σ → List ε → List α
  | _, [] => []
  | s, e :: es => (emit s e).toList ++ outputs (M.step s e) es

theorem outputs_append (s : σ) (es fs : List ε) :
    M.outputs emit s (es ++ fs) = M.outputs emit s es ++ M.outputs emit (M.run s es) fs := by
  induction es generalizing s with
  | nil => rfl
  | cons e es ih => simp only [List.cons_append, outputs, ih, run_cons, List.append_assoc]

/-- The output of one more step. -/
theorem outputs_concat (s : σ) (es : List ε) (e : ε) :
    M.outputs emit s (es ++ [e]) = M.outputs emit s es ++ (emit (M.run s es) e).toList := by
  rw [outputs_append]
  simp only [outputs, List.append_nil]

/-- Under an invariant, a description of an output that later steps keep true holds of every output
of the run in the run's final state. -/
theorem stable_outputs {P : σ → Prop} {Q : σ → α → Prop} {guard : σ → ε → Prop}
    (hstep : ∀ s e, P s → guard s e → P (M.step s e))
    (hkeep : ∀ s e a, Q s a → Q (M.step s e) a)
    (hemit : ∀ s e a, P s → guard s e → emit s e = some a → Q (M.step s e) a)
    {s : σ} {es : List ε} (hs : P s) (hg : M.Along guard s es) :
    ∀ a ∈ M.outputs emit s es, Q (M.run s es) a := by
  induction es generalizing s with
  | nil => intro a ha; simp [outputs] at ha
  | cons e es ih =>
    intro a ha
    rcases List.mem_append.mp ha with hnow | hlater
    · have hQ : Q (M.step s e) a := hemit s e a hs hg.1 (by simpa using hnow)
      exact M.invariant_always (P := fun s => Q s a) (fun s e h => hkeep s e a h) hQ es
    · exact ih (hstep s e hs hg.1) hg.2 a hlater

end Outputs

end Machine

end MediaArchiver.Lib
