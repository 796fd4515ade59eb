import Mathlib.Data.Nat.SuccPred
import Mathlib.Order.Interval.Set.OrdConnected
import Mathlib.Order.SuccPred.Archimedean

/-! Walks in a linear order that step to the adjacent element if it is in a given set and stay otherwise. Such
a walk crosses no gap of the set. -/

namespace OrderWalk

variable {α : Type*} [LinearOrder α]

section Forward

variable [SuccOrder α]

open scoped Classical in
/-- One step up. -/
noncomputable def forward (s : Set α) (x : α) : α := if Order.succ x ∈ s then Order.succ x else x

variable {s : Set α} {x y : α}

theorem forward_of_mem (h : Order.succ x ∈ s) : forward s x = Order.succ x := by
  rw [forward, if_pos h]

theorem forward_of_notMem (h : Order.succ x ∉ s) : forward s x = x := by
  rw [forward, if_neg h]

theorem forward_mem (hx : x ∈ s) : forward s x ∈ s := by
  by_cases hsucc : Order.succ x ∈ s
  · rwa [forward_of_mem hsucc]
  · rwa [forward_of_notMem hsucc]

/-- A step leaves no element of the set out. -/
theorem Icc_forward_subset (hx : x ∈ s) : Set.Icc x (forward s x) ⊆ s := by
  intro z hz
  by_cases hsucc : Order.succ x ∈ s
  · rw [forward_of_mem hsucc] at hz
    rcases hz.1.eq_or_lt with rfl | hlt
    · exact hx
    · have hle : Order.succ x ≤ z := Order.succ_le_of_lt hlt
      rwa [le_antisymm hz.2 hle]
  · rw [forward_of_notMem hsucc] at hz
    rwa [le_antisymm hz.2 hz.1]

theorem le_forward (s : Set α) (x : α) : x ≤ forward s x := by
  by_cases hsucc : Order.succ x ∈ s
  · rw [forward_of_mem hsucc]
    exact Order.le_succ x
  · exact (forward_of_notMem hsucc).ge

/-- However long the walk, it has stayed in the set. -/
theorem Icc_iterate_subset (hx : x ∈ s) (n : ℕ) : x ≤ (forward s)^[n] x ∧ Set.Icc x ((forward s)^[n] x) ⊆ s := by
  induction n generalizing x with
  | zero =>
      refine ⟨le_rfl, fun z hz => ?_⟩
      rwa [le_antisymm hz.2 hz.1]
  | succ n ih =>
      obtain ⟨hle, hsub⟩ := ih (forward_mem hx)
      refine ⟨(le_forward s x).trans hle, fun z hz => ?_⟩
      rcases le_total z (forward s x) with hz' | hz'
      · exact Icc_forward_subset hx ⟨hz.1, hz'⟩
      · exact hsub ⟨hz', hz.2⟩

/-- **Reachability.** A walk gets to a later element exactly when nothing is missing up to it. -/
theorem exists_iterate_eq_iff [IsSuccArchimedean α] (hx : x ∈ s) (hxy : x ≤ y) :
    (∃ n, (forward s)^[n] x = y) ↔ Set.Icc x y ⊆ s := by
  constructor
  · rintro ⟨n, rfl⟩
    exact (Icc_iterate_subset hx n).2
  · intro hsub
    induction hxy using Succ.rec with
    | rfl => exact ⟨0, rfl⟩
    | succ z hxz ih =>
        obtain ⟨n, hn⟩ := ih (fun w hw => hsub ⟨hw.1, hw.2.trans (Order.le_succ z)⟩)
        have hz : Order.succ z ∈ s := hsub ⟨hxz.trans (Order.le_succ z), le_rfl⟩
        exact ⟨n + 1, by rw [Function.iterate_succ_apply', hn, forward_of_mem hz]⟩

/-- Without gaps a step goes to the nearest later element. -/
theorem forward_eq_of_isLeast (hs : s.OrdConnected) (hx : x ∈ s) (hy : IsLeast (s ∩ Set.Ioi x) y) :
    forward s x = y := by
  have hlt : x < y := hy.1.2
  have hsucc : Order.succ x ∈ s := hs.out hx hy.1.1 ⟨Order.le_succ x, Order.succ_le_of_lt hlt⟩
  have hle : y ≤ Order.succ x := hy.2 ⟨hsucc, Order.lt_succ_of_not_isMax hlt.not_isMax⟩
  rw [forward_of_mem hsucc]
  apply le_antisymm
  · exact Order.succ_le_of_lt hlt
  · exact hle

/-- A walk stays when nothing comes later. -/
theorem forward_eq_self (h : s ∩ Set.Ioi x = ∅) : forward s x = x := by
  by_cases hsucc : Order.succ x ∈ s
  · rw [forward_of_mem hsucc]
    have hle : ¬x < Order.succ x := fun hlt => Set.eq_empty_iff_forall_notMem.mp h (Order.succ x) ⟨hsucc, hlt⟩
    exact le_antisymm (not_lt.mp hle) (Order.le_succ x)
  · exact forward_of_notMem hsucc

end Forward

section Backward

variable [PredOrder α]

/-- One step down: a step up in the dual order. -/
noncomputable def backward (s : Set α) (x : α) : α :=
  OrderDual.ofDual (forward (Set.preimage OrderDual.ofDual s) (OrderDual.toDual x))

variable {s : Set α} {x y : α}

theorem backward_of_mem (h : Order.pred x ∈ s) : backward s x = Order.pred x :=
  forward_of_mem (α := αᵒᵈ) h

theorem backward_of_notMem (h : Order.pred x ∉ s) : backward s x = x :=
  forward_of_notMem (α := αᵒᵈ) h

theorem iterate_backward (s : Set α) (x : α) (n : ℕ) :
    (backward s)^[n] x = OrderDual.ofDual ((forward (Set.preimage OrderDual.ofDual s))^[n] (OrderDual.toDual x)) := by
  induction n generalizing x with
  | zero => rfl
  | succ n ih => exact ih (backward s x)

theorem Icc_iterate_backward_subset (hx : x ∈ s) (n : ℕ) :
    (backward s)^[n] x ≤ x ∧ Set.Icc ((backward s)^[n] x) x ⊆ s := by
  obtain ⟨hle, hsub⟩ := Icc_iterate_subset (α := αᵒᵈ) (s := Set.preimage OrderDual.ofDual s) hx n
  rw [iterate_backward]
  exact ⟨hle, fun z hz => hsub ⟨hz.2, hz.1⟩⟩

theorem exists_iterate_backward_eq_iff [IsPredArchimedean α] (hx : x ∈ s) (hyx : y ≤ x) :
    (∃ n, (backward s)^[n] x = y) ↔ Set.Icc y x ⊆ s := by
  have h := exists_iterate_eq_iff (α := αᵒᵈ) (s := Set.preimage OrderDual.ofDual s) hx (y := OrderDual.toDual y) hyx
  constructor
  · rintro ⟨n, hn⟩
    rw [iterate_backward] at hn
    exact fun z hz => h.mp ⟨n, hn⟩ ⟨hz.2, hz.1⟩
  · intro hsub
    obtain ⟨n, hn⟩ := h.mpr fun z hz => hsub ⟨hz.2, hz.1⟩
    exact ⟨n, (iterate_backward s x n).trans hn⟩

theorem backward_eq_of_isGreatest (hs : s.OrdConnected) (hx : x ∈ s) (hy : IsGreatest (s ∩ Set.Iio x) y) :
    backward s x = y :=
  forward_eq_of_isLeast (α := αᵒᵈ) hs.dual hx hy

theorem backward_eq_self (h : s ∩ Set.Iio x = ∅) : backward s x = x :=
  forward_eq_self (α := αᵒᵈ) h

end Backward

section Both

variable [SuccOrder α] [PredOrder α] {s : Set α} {x : α}

/-- **Gaps.** From an element of the set the walks in the two directions get to all of the set exactly when the
set has no gap. -/
theorem reaches_all_iff [IsSuccArchimedean α] [IsPredArchimedean α] (hx : x ∈ s) :
    (∀ y ∈ s, (∃ n, (forward s)^[n] x = y) ∨ ∃ n, (backward s)^[n] x = y) ↔ s.OrdConnected := by
  constructor
  · intro hall
    refine (Set.ordConnected_iff_uIcc_subset_left hx).mpr fun y hy => ?_
    rcases hall y hy with ⟨n, rfl⟩ | ⟨n, rfl⟩
    · obtain ⟨hle, hsub⟩ := Icc_iterate_subset hx n
      rwa [Set.uIcc_of_le hle]
    · obtain ⟨hle, hsub⟩ := Icc_iterate_backward_subset hx n
      rwa [Set.uIcc_of_ge hle]
  · intro hs y hy
    rcases le_total x y with hxy | hyx
    · exact Or.inl ((exists_iterate_eq_iff hx hxy).mpr (hs.out hx hy))
    · exact Or.inr ((exists_iterate_backward_eq_iff hx hyx).mpr (hs.out hy hx))

/-- A step down undoes a step up that moved. -/
theorem backward_forward (hx : x ∈ s) (hmoved : forward s x ≠ x) : backward s (forward s x) = x := by
  have hsucc : Order.succ x ∈ s := not_not.mp fun h => hmoved (forward_of_notMem h)
  rw [forward_of_mem hsucc] at hmoved ⊢
  have hmax : ¬IsMax x := fun h => hmoved (Order.succ_eq_iff_isMax.mpr h)
  have hpred : Order.pred (Order.succ x) = x := Order.pred_succ_of_not_isMax hmax
  rw [backward_of_mem (hpred.symm ▸ hx), hpred]

end Both

end OrderWalk
