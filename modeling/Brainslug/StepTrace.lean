import Mathlib.Data.List.Basic

/-! Runs and traces of deterministic step functions, and the rules that carry a state invariant or the view of an
abstract state along them. -/

/-- One step of a run: the state it found, the call made and the state it left. -/
structure TraceStep (S A : Type*) where
  before : S
  call : A
  after : S

namespace StepTrace

variable {S A : Type*} (step : S → A → S)

def trace : S → List A → List (TraceStep S A)
  | _, [] => []
  | s, a :: calls => ⟨s, a, step s a⟩ :: trace (step s a) calls

@[simp] theorem trace_nil (s : S) : trace step s [] = [] := rfl

@[simp] theorem trace_cons (s : S) (a : A) (calls : List A) :
    trace step s (a :: calls) = ⟨s, a, step s a⟩ :: trace step (step s a) calls := rfl

theorem after_eq {s : S} {calls : List A} {t : TraceStep S A} (ht : t ∈ trace step s calls) :
    t.after = step t.before t.call := by
  induction calls generalizing s with
  | nil => cases ht
  | cons a calls ih =>
      rcases List.mem_cons.mp ht with rfl | ht
      · rfl
      · exact ih ht

/-- **Invariant rule.** An invariant that every permitted step preserves holds before each step of a
run whose steps are all permitted. -/
theorem invariant_before {Inv : S → Prop} {Permitted : S → A → Prop}
    (hstep : ∀ s a, Inv s → Permitted s a → Inv (step s a)) {s : S} (hs : Inv s) {calls : List A}
    (hcalls : ∀ t ∈ trace step s calls, Permitted t.before t.call) :
    ∀ t ∈ trace step s calls, Inv t.before := by
  induction calls generalizing s with
  | nil => intro t ht; cases ht
  | cons a calls ih =>
      have hnext : Inv (step s a) := hstep s a hs (hcalls _ List.mem_cons_self)
      intro t ht
      rcases List.mem_cons.mp ht with rfl | ht
      · exact hs
      · exact ih hnext (fun t ht => hcalls t (List.mem_cons_of_mem _ ht)) t ht

/-- The state that a run ends in. -/
def run (s : S) (calls : List A) : S := calls.foldl step s

@[simp] theorem run_nil (s : S) : run step s [] = s := rfl

@[simp] theorem run_cons (s : S) (a : A) (calls : List A) :
    run step s (a :: calls) = run step (step s a) calls := rfl

/-- **Run rule.** An invariant that every step preserves holds of the state that a run ends in. -/
theorem run_invariant {Inv : S → Prop} (hstep : ∀ s a, Inv s → Inv (step s a)) {s : S} (hs : Inv s)
    (calls : List A) : Inv (run step s calls) := by
  induction calls generalizing s with
  | nil => exact hs
  | cons a calls ih => exact ih (hstep s a hs)

/-- **Refinement rule.** When every step succeeds and does to the view of a state what an abstract step does,
a run does what the abstract run does. -/
theorem foldlM_refines {ε T : Type*} {f : S → A → Except ε S} {g : T → A → T} (view : S → T) {calls : List A}
    (hstep : ∀ a ∈ calls, ∀ s, ∃ s', f s a = .ok s' ∧ view s' = g (view s) a) (s : S) :
    ∃ s', calls.foldlM f s = .ok s' ∧ view s' = calls.foldl g (view s) := by
  induction calls generalizing s with
  | nil => exact ⟨s, rfl, rfl⟩
  | cons a calls ih =>
      obtain ⟨hfirst, hrest⟩ := List.forall_mem_cons.mp hstep
      obtain ⟨s1, hs1, hview1⟩ := hfirst s
      obtain ⟨s', hs', hview'⟩ := ih hrest s1
      refine ⟨s', ?_, by rw [hview', hview1, List.foldl_cons]⟩
      rw [List.foldlM_cons, hs1]
      exact hs'

/-- A run stays in a state that no call changes. -/
theorem trace_of_fixed {s : S} (hfixed : ∀ a, step s a = s) (calls : List A) :
    trace step s calls = calls.map fun a => ⟨s, a, s⟩ := by
  induction calls with
  | nil => rfl
  | cons a calls ih => rw [trace_cons, hfixed, ih, List.map_cons]

theorem run_of_fixed {s : S} (hfixed : ∀ a, step s a = s) (calls : List A) : run step s calls = s := by
  induction calls with
  | nil => rfl
  | cons a calls ih => rw [run_cons, hfixed, ih]

end StepTrace
