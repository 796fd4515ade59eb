import Mathlib.Data.List.TakeWhile

/-! Cursors: what is left of an input, and a position that every element taken off it advances. A reader that
only takes elements off the front consumes a text, and the positions follow from the texts. -/

structure Cursor (C P : Type*) where
  rest : List C
  position : P

namespace Cursor

variable {C P : Type*} (advance : P → C → P)

/-- From one cursor to another a text was taken off. -/
structure Consumes (s : Cursor C P) (text : List C) (s' : Cursor C P) : Prop where
  rest_eq : s.rest = text ++ s'.rest
  position_eq : s'.position = text.foldl advance s.position

/-- The next element, and the cursor behind it. -/
def next (s : Cursor C P) : Option (C × Cursor C P) :=
  match s.rest with
  | [] => none
  | c :: rest => some (c, ⟨rest, advance s.position c⟩)

/-- The longest run of elements with a property, and the cursor behind it. -/
def takeWhile (p : C → Bool) (s : Cursor C P) : List C × Cursor C P :=
  (s.rest.takeWhile p, ⟨s.rest.dropWhile p, (s.rest.takeWhile p).foldl advance s.position⟩)

variable {advance}

namespace Consumes

variable {s s' s'' : Cursor C P} {text text' : List C}

theorem refl (s : Cursor C P) : Consumes advance s [] s := ⟨rfl, rfl⟩

theorem trans (h : Consumes advance s text s') (h' : Consumes advance s' text' s'') :
    Consumes advance s (text ++ text') s'' where
  rest_eq := by rw [h.rest_eq, h'.rest_eq, List.append_assoc]
  position_eq := by rw [h'.position_eq, h.position_eq, List.foldl_append]

/-- What was taken off determines the cursor. -/
theorem eq (h : Consumes advance s text s') : s = ⟨text ++ s'.rest, s.position⟩ ∧
    s' = ⟨s'.rest, text.foldl advance s.position⟩ := by
  constructor
  · rw [← h.rest_eq]
  · rw [← h.position_eq]

theorem length_le (h : Consumes advance s text s') : s'.rest.length ≤ s.rest.length := by
  rw [h.rest_eq, List.length_append]
  omega

theorem length_lt (h : Consumes advance s text s') (htext : text ≠ []) : s'.rest.length < s.rest.length := by
  have hpos := List.length_pos_iff.mpr htext
  rw [h.rest_eq, List.length_append]
  omega

end Consumes

theorem consumes_next {s s' : Cursor C P} {c : C} (h : s.next advance = some (c, s')) :
    Consumes advance s [c] s' := by
  unfold next at h
  split at h
  · cases h
  · obtain ⟨rfl, rfl⟩ := Prod.mk.inj (Option.some.inj h)
    exact ⟨‹_›, rfl⟩

theorem next_cons (c : C) (rest : List C) (position : P) :
    (⟨c :: rest, position⟩ : Cursor C P).next advance = some (c, ⟨rest, advance position c⟩) := rfl

theorem consumes_takeWhile (p : C → Bool) (s : Cursor C P) :
    Consumes advance s (s.takeWhile advance p).1 (s.takeWhile advance p).2 :=
  ⟨(List.takeWhile_append_dropWhile).symm, rfl⟩

theorem forall_mem_takeWhile {p : C → Bool} {s : Cursor C P} : ∀ c ∈ (s.takeWhile advance p).1, p c = true :=
  fun _ hc => List.mem_takeWhile_imp hc

theorem forall_head?_takeWhile {p : C → Bool} {s : Cursor C P} :
    ∀ c ∈ (s.takeWhile advance p).2.rest.head?, p c = false := by
  intro c hc
  have hhead := List.head?_dropWhile_not p s.rest
  change (s.rest.dropWhile p).head? = some c at hc
  simpa [hc] using hhead

theorem head?_takeWhile {p : C → Bool} {s : Cursor C P} :
    (s.takeWhile advance p).1.head? = s.rest.head?.filter p := by
  change (s.rest.takeWhile p).head? = _
  cases s.rest with
  | nil => rfl
  | cons c rest => by_cases hc : p c = true <;> simp [Option.filter, hc]

/-- A run stops at an element without the property. -/
theorem takeWhile_append {p : C → Bool} {text rest : List C} (htext : ∀ c ∈ text, p c = true)
    (hrest : ∀ c ∈ rest.head?, p c = false) (position : P) :
    (⟨text ++ rest, position⟩ : Cursor C P).takeWhile advance p = (text, ⟨rest, text.foldl advance position⟩) := by
  have htake : (text ++ rest).takeWhile p = text := by
    rw [List.takeWhile_append_of_pos htext]
    cases rest with
    | nil => simp
    | cons c rest => simp [hrest c rfl]
  have hdrop : (text ++ rest).dropWhile p = rest := by
    rw [List.dropWhile_append_of_pos htext]
    cases rest with
    | nil => rfl
    | cons c rest => simp [hrest c rfl]
  simp only [takeWhile, htake, hdrop]

end Cursor
