import Mathlib.Data.List.Basic

/-! Runs of a deterministic machine, and conditions on their moves.

Where a move keeps a property of the state exactly if it meets a condition, the property
holds in every state of a run exactly if every move of the run meets the condition
(`throughout_iff`). -/
namespace Data.Runs
variable {σ μ : Type} (step : σ → μ → σ)

/-- In every state of the run. -/
def Throughout (P : σ → Prop) (s : σ) (moves : List μ) : Prop :=
  ∀ front, front <+: moves → P (front.foldl step s)

/-- Of every move of the run, in the state in which it is made. -/
def AtEvery (C : σ → μ → Prop) (s : σ) (moves : List μ) : Prop :=
  ∀ front m, front ++ [m] <+: moves → C (front.foldl step s) m

variable {step} {P : σ → Prop} {C : σ → μ → Prop} {s : σ}

theorem throughout_nil : Throughout step P s [] ↔ P s := by
  constructor
  · exact fun h => h [] List.nil_prefix
  · intro h front hfront
    rw [List.prefix_nil.mp hfront]
    exact h

theorem throughout_cons (m : μ) (rest : List μ) :
    Throughout step P s (m :: rest) ↔ P s ∧ Throughout step P (step s m) rest := by
  constructor
  · intro h
    refine ⟨h [] List.nil_prefix, fun front hfront => ?_⟩
    exact h (m :: front) (List.cons_prefix_cons.mpr ⟨rfl, hfront⟩)
  · intro h front hfront
    cases front with
    | nil => exact h.1
    | cons m' front =>
      obtain ⟨rfl, hrest⟩ := List.cons_prefix_cons.mp hfront
      exact h.2 front hrest

theorem atEvery_nil : AtEvery step C s [] := by
  intro front m hfront
  exact absurd (List.prefix_nil.mp hfront) (List.append_ne_nil_of_right_ne_nil _ (List.cons_ne_nil m []))

theorem atEvery_cons (m : μ) (rest : List μ) :
    AtEvery step C s (m :: rest) ↔ C s m ∧ AtEvery step C (step s m) rest := by
  constructor
  · intro h
    refine ⟨h [] m (List.cons_prefix_cons.mpr ⟨rfl, List.nil_prefix⟩), fun front m' hfront => ?_⟩
    exact h (m :: front) m' (List.cons_prefix_cons.mpr ⟨rfl, hfront⟩)
  · intro h front m' hfront
    cases front with
    | nil =>
      obtain ⟨rfl, -⟩ := List.cons_prefix_cons.mp hfront
      exact h.1
    | cons m'' front =>
      obtain ⟨rfl, hrest⟩ := List.cons_prefix_cons.mp hfront
      exact h.2 front m' hrest

/-- **A property holds throughout a run exactly if every move of it is as it should be**,
where that is what a move takes to keep the property. The invariant needs no condition. -/
theorem throughout_iff {I : σ → Prop} (hinv : ∀ s m, I s → I (step s m))
    (hexact : ∀ s m, I s → P s → (P (step s m) ↔ C s m)) (hI : I s) (hP : P s) (moves : List μ) :
    Throughout step P s moves ↔ AtEvery step C s moves := by
  induction moves generalizing s with
  | nil => exact iff_of_true (throughout_nil.mpr hP) atEvery_nil
  | cons m rest ih =>
    rw [throughout_cons, atEvery_cons, ← hexact s m hI hP]
    constructor
    · intro h
      have hnext : P (step s m) := h.2 [] List.nil_prefix
      exact ⟨hnext, (ih (hinv s m hI) hnext).mp h.2⟩
    · exact fun h => ⟨hP, (ih (hinv s m hI) h.1).mpr h.2⟩

end Data.Runs
