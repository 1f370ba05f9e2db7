import Mathlib.Data.List.Basic
import Mathlib.Tactic.Common

/-!
# Runs of a partial step function

A machine is a partial function `step : σ → ε → Option σ`: `none` says that the
event cannot happen in the state.  `Run step ok` is the finite runs of the
machine all of whose steps meet the side condition `ok`, which is a condition on
the state *before* the step and on the event.

## Main results

* `Run.invariant` — what every admitted step preserves holds along every run.
* `Run.always_iff` — a condition that is exact for one step is exact for runs.
* `Run.length_add_measure_le` — a measure that every admitted step decreases
  bounds the length of every run.
-/

namespace Library

universe u v

variable {σ : Type u} {ε : Type v}

/-- The finite runs of `step` whose steps all satisfy `ok`. -/
inductive Run (step : σ → ε → Option σ) (ok : σ → ε → Prop) :
    σ → List ε → σ → Prop
  | nil (s : σ) : Run step ok s [] s
  | cons {s t u : σ} {e : ε} {es : List ε} (meets : ok s e)
      (takes : step s e = some t) (rest : Run step ok t es u) :
      Run step ok s (e :: es) u

/-- A state is reachable when some admitted run leads to it from an initial
state. -/
def Reachable (step : σ → ε → Option σ) (ok : σ → ε → Prop) (init : σ → Prop)
    (s : σ) : Prop :=
  ∃ s₀ es, init s₀ ∧ Run step ok s₀ es s

/-- Play a list of events; `none` when one of them is not admitted. -/
def execute (step : σ → ε → Option σ) (ok : σ → ε → Prop) [∀ s e, Decidable (ok s e)] :
    σ → List ε → Option σ
  | s, [] => some s
  | s, e :: es => if ok s e then (step s e).bind fun t => execute step ok t es else none

namespace Run

variable {step : σ → ε → Option σ} {ok ok' : σ → ε → Prop}
variable {s t u : σ} {e : ε} {es fs : List ε}

theorem single (meets : ok s e) (takes : step s e = some t) :
    Run step ok s [e] t :=
  .cons meets takes (.nil t)

/-- What `execute` plays is a run. -/
theorem of_execute [∀ s e, Decidable (ok s e)] (plays : execute step ok s es = some t) :
    Run step ok s es t := by
  induction es generalizing s with
  | nil =>
      obtain rfl := Option.some.inj plays
      exact .nil s
  | cons e es ih =>
      rw [execute, Option.ite_none_right_eq_some] at plays
      obtain ⟨meets, plays⟩ := plays
      obtain ⟨u, takes, rest⟩ := Option.bind_eq_some_iff.mp plays
      exact .cons meets takes (ih rest)

theorem append (first : Run step ok s es t) (second : Run step ok t fs u) :
    Run step ok s (es ++ fs) u := by
  induction first with
  | nil => exact second
  | cons meets takes _ ih => exact .cons meets takes (ih second)

theorem snoc (run : Run step ok s es t) (meets : ok t e)
    (takes : step t e = some u) : Run step ok s (es ++ [e]) u :=
  run.append (.single meets takes)

/-- The events of a run determine where it leads. -/
theorem unique (first : Run step ok s es t) (second : Run step ok' s es u) : t = u := by
  induction first with
  | nil =>
      cases second
      rfl
  | cons _ takes _ ih =>
      cases second with
      | cons _ takes' rest =>
          obtain rfl := Option.some.inj (takes.symm.trans takes')
          exact ih rest

/-- Weakening the side condition keeps the run. -/
theorem mono (weaker : ∀ s e, ok s e → ok' s e) (run : Run step ok s es t) :
    Run step ok' s es t := by
  induction run with
  | nil s => exact .nil s
  | cons meets takes _ ih => exact .cons (weaker _ _ meets) takes ih

/-- **Invariants.**  What every admitted step preserves holds along runs. -/
theorem invariant (Inv : σ → Prop)
    (preserves : ∀ s e t, Inv s → ok s e → step s e = some t → Inv t)
    (run : Run step ok s es t) (start : Inv s) : Inv t := by
  induction run with
  | nil => exact start
  | cons meets takes _ ih => exact ih (preserves _ _ _ start meets takes)

/-- **Ranking.**  A measure that every admitted step decreases bounds the
length of a run by the drop of the measure. -/
theorem length_add_measure_le {μ : σ → ℕ}
    (decreases : ∀ s e t, ok s e → step s e = some t → μ t < μ s)
    (run : Run step ok s es t) : es.length + μ t ≤ μ s := by
  induction run with
  | nil => simp
  | cons meets takes _ ih =>
      have drop := decreases _ _ _ meets takes
      simp only [List.length_cons]
      omega

/-- **Exact conditions.**  When a step from a state of the invariant keeps the invariant if
it is admitted and leaves `Q` if it is not, then `Q` holds in every state of a run exactly
when all its steps are admitted. -/
theorem always_iff {Q Inv : σ → Prop} (safe : ∀ s, Inv s → Q s)
    (preserves : ∀ s e t, Inv s → ok s e → step s e = some t → Inv t)
    (breaks : ∀ s e t, Inv s → ¬ ok s e → step s e = some t → ¬ Q t)
    (run : Run step (fun _ _ => True) s es t) (start : Inv s) :
    (∀ fs u, fs <+: es → Run step (fun _ _ => True) s fs u → Q u) ↔ Run step ok s es t := by
  induction run with
  | nil s =>
      refine ⟨fun _ => .nil s, fun _ fs u before part => ?_⟩
      obtain rfl := List.prefix_nil.mp before
      cases part
      exact safe s start
  | @cons s t u e es _ takes rest ih =>
      constructor
      · intro always
        have meets : ok s e := by
          by_contra fails
          exact breaks s e t start fails takes
            (always [e] t (List.prefix_append _ _) (.single trivial takes))
        refine .cons meets takes ((ih (preserves s e t start meets takes)).mp ?_)
        intro fs v before part
        exact always (e :: fs) v ((List.prefix_cons_inj e).mpr before) (.cons trivial takes part)
      · intro admitted fs v before part
        cases part with
        | nil => exact safe s start
        | cons _ takes' part =>
            obtain ⟨rfl, shorter⟩ := List.cons_prefix_cons.mp before
            cases admitted with
            | cons meets takes'' admitted =>
                obtain rfl := Option.some.inj (takes.symm.trans takes')
                obtain rfl := Option.some.inj (takes.symm.trans takes'')
                exact (ih (preserves _ _ _ start meets takes)).mpr admitted _ v shorter part

end Run

namespace Reachable

variable {step : σ → ε → Option σ} {ok ok' : σ → ε → Prop} {init : σ → Prop}
variable {s t : σ} {e : ε}

theorem of_init (start : init s) : Reachable step ok init s :=
  ⟨s, [], start, .nil s⟩

theorem next (reached : Reachable step ok init s) (meets : ok s e)
    (takes : step s e = some t) : Reachable step ok init t := by
  obtain ⟨s₀, es, start, run⟩ := reached
  exact ⟨s₀, es ++ [e], start, run.snoc meets takes⟩

theorem run {es : List ε} (reached : Reachable step ok init s)
    (run : Run step ok s es t) : Reachable step ok init t := by
  obtain ⟨s₀, fs, start, before⟩ := reached
  exact ⟨s₀, fs ++ es, start, before.append run⟩

/-- **Invariants of reachable states.**  A step need only preserve the invariant
from states that are themselves reachable, so one invariant may rest on another
that is already known to hold. -/
theorem invariant (Inv : σ → Prop) (initially : ∀ s, init s → Inv s)
    (preserves : ∀ s e t, Reachable step ok init s → Inv s → ok s e →
      step s e = some t → Inv t)
    (reached : Reachable step ok init s) : Inv s := by
  obtain ⟨s₀, es, start, run⟩ := reached
  have preservesBoth : ∀ s e t, Reachable step ok init s ∧ Inv s → ok s e →
      step s e = some t → Reachable step ok init t ∧ Inv t :=
    fun s e t known meets takes =>
      ⟨known.1.next meets takes, preserves s e t known.1 known.2 meets takes⟩
  exact (run.invariant (fun s => Reachable step ok init s ∧ Inv s) preservesBoth
    ⟨of_init start, initially s₀ start⟩).2

end Reachable

end Library
