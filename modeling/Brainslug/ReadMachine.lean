import Mathlib.Data.List.Basic

/-! Readers that take a text as far as they need it, in buffers that may be cut anywhere, and machines that read it one
element at a time: their runs, the rule that carries an invariant along a run, and the rules for a state that gathers
the text that it reads. -/

/-- What a machine does with an element. When it has read what it reads, it may leave the element for others. -/
inductive Verdict (S : Type*) where
  | next (s : S)
  | failed
  | done (takes : Bool)

/-- How a text leaves a reader: waiting for more of it, or with what it did not take. -/
inductive Outcome (S C : Type*) where
  | waiting (s : S)
  | failed
  | done (s : S) (rest : List C)

namespace ReadMachine

/-! ### Readers -/

section

variable {S C : Type*} (read : S → List C → Outcome S C)

/-- More text arrives. -/
def resume : Outcome S C → List C → Outcome S C
  | .waiting s, text => read s text
  | .failed, _ => .failed
  | .done s rest, text => .done s (rest ++ text)

/-- One buffer after the other. -/
def runBuffers (s : S) (buffers : List (List C)) : Outcome S C := buffers.foldl (resume read) (.waiting s)

/-- A text can be read in two parts. -/
def Resumable : Prop := ∀ s text text', read s (text ++ text') = resume read (read s text) text'

variable {read}

theorem Resumable.resume_append (h : Resumable read) (o : Outcome S C) (text text' : List C) :
    resume read o (text ++ text') = resume read (resume read o text) text' := by
  cases o with
  | waiting s => exact h s text text'
  | failed => rfl
  | done s rest => rw [resume, resume, resume, List.append_assoc]

/-- **Buffers do not matter**: where a text is cut does not change how it leaves the reader. -/
theorem Resumable.runBuffers_eq (h : Resumable read) {s : S} (hnil : read s [] = .waiting s) (buffers : List (List C)) :
    runBuffers read s buffers = read s buffers.flatten := by
  have hfold : ∀ o : Outcome S C, resume read o [] = o → buffers.foldl (resume read) o = resume read o buffers.flatten := by
    induction buffers with
    | nil => exact fun o ho => ho.symm
    | cons buffer buffers ih =>
        intro o ho
        have hnext : resume read (resume read o buffer) [] = resume read o buffer := by
          rw [← h.resume_append, List.append_nil]
        rw [List.foldl_cons, ih _ hnext, List.flatten_cons, h.resume_append]
  exact hfold (.waiting s) hnil

end

/-! ### Machines -/

variable {S C : Type*} (step : S → C → Verdict S)

def run (s : S) : List C → Outcome S C
  | [] => .waiting s
  | c :: rest =>
      match step s c with
      | .next s' => run s' rest
      | .failed => .failed
      | .done true => .done s rest
      | .done false => .done s (c :: rest)

theorem run_cons_next {s s' : S} {c : C} (h : step s c = .next s') (rest : List C) :
    run step s (c :: rest) = run step s' rest := by
  rw [run, h]

/-- **Machines can stop anywhere.** -/
theorem resumable_run : Resumable (run step) := by
  intro s text text'
  induction text generalizing s with
  | nil => rfl
  | cons c text ih =>
      rw [List.cons_append, run, run]
      split
      · exact ih _
      · rfl
      · rfl
      · rfl

/-- From one state to another the machine reads a text. -/
def Reads (s : S) (text : List C) (s' : S) : Prop := run step s text = .waiting s'

variable {step}

namespace Reads

variable {s s' s'' : S} {text text' : List C}

theorem refl (s : S) : Reads step s [] s := rfl

theorem single {c : C} (h : step s c = .next s') : Reads step s [c] s' := run_cons_next step h []

theorem trans (h : Reads step s text s') (h' : Reads step s' text' s'') : Reads step s (text ++ text') s'' := by
  rw [Reads, resumable_run step, h]
  exact h'

theorem cons {c : C} (h : step s c = .next s') (h' : Reads step s' text s'') : Reads step s (c :: text) s'' :=
  (single h).trans h'

theorem run_append (h : Reads step s text s') (rest : List C) : run step s (text ++ rest) = run step s' rest := by
  rw [resumable_run step, h]
  rfl

/-- **Gathering rule.** A state that gathers what it reads, up to a length. -/
theorem gather (state : List C → S) (max : Nat) {Ok : C → Prop}
    (hstep : ∀ text c, Ok c → text.length < max → step (state text) c = .next (state (text ++ [c])))
    {text : List C} (gathered : List C) (hok : ∀ c ∈ text, Ok c) (hlength : gathered.length + text.length ≤ max) :
    Reads step (state gathered) text (state (gathered ++ text)) := by
  induction text generalizing gathered with
  | nil =>
      rw [List.append_nil]
      exact refl _
  | cons c text ih =>
      obtain ⟨hc, htext⟩ := List.forall_mem_cons.mp hok
      rw [List.length_cons] at hlength
      rw [List.append_cons]
      refine cons (hstep gathered c hc (by omega)) (ih _ htext ?_)
      rw [List.length_append, List.length_singleton]
      omega

/-- **Folding rule.** A state that computes along what it reads. -/
theorem fold {A : Type*} (state : A → S) {update : A → C → A} {Ok : C → Prop}
    (hstep : ∀ a c, Ok c → step (state a) c = .next (state (update a c))) {text : List C} (a : A)
    (hok : ∀ c ∈ text, Ok c) : Reads step (state a) text (state (text.foldl update a)) := by
  induction text generalizing a with
  | nil => exact refl _
  | cons c text ih =>
      obtain ⟨hc, htext⟩ := List.forall_mem_cons.mp hok
      exact cons (hstep a c hc) (ih _ htext)

end Reads

/-- **Invariant rule.** What every step keeps holds of the state that a text was read in. -/
theorem run_invariant (Inv : S → Prop) (hstep : ∀ s c s', Inv s → step s c = .next s' → Inv s') {s : S} (hs : Inv s)
    {text : List C} {s' : S} {rest : List C} (h : run step s text = .done s' rest) :
    Inv s' ∧ ∃ c takes, step s' c = .done takes := by
  induction text generalizing s with
  | nil => cases h
  | cons c text ih =>
      rw [run] at h
      split at h
      · next s'' hnext => exact ih (hstep s c s'' hs hnext) h
      · cases h
      · next hdone =>
          obtain ⟨rfl, -⟩ := Outcome.done.inj h
          exact ⟨hs, c, true, hdone⟩
      · next hdone =>
          obtain ⟨rfl, -⟩ := Outcome.done.inj h
          exact ⟨hs, c, false, hdone⟩

end ReadMachine
