import Mathlib.Data.List.Basic
import Mathlib.Logic.Function.Iterate

/-! Append-only stores with refusal. An element is offered to a list and appended unless some
stored element clashes with it; nothing is ever removed or changed. A refused offer stays refused,
because what blocks it stays, and an accepted one blocks its own repetition: hence offering the
same elements again changes nothing. -/

namespace Offer

variable {α : Type*} (clash : α → α → Prop)

def Blocked (stored : List α) (x : α) : Prop := ∃ y ∈ stored, clash y x

instance [DecidableRel clash] (stored : List α) : DecidablePred (Blocked clash stored) :=
  fun x => inferInstanceAs (Decidable (∃ y ∈ stored, clash y x))

variable {clash} in
theorem Blocked.mono {stored stored' : List α} {x : α} (hsub : stored ⊆ stored')
    (h : Blocked clash stored x) : Blocked clash stored' x := by
  obtain ⟨y, hy, hclash⟩ := h
  exact ⟨y, hsub hy, hclash⟩

variable [DecidableRel clash]

def offer (stored : List α) (x : α) : List α := if Blocked clash stored x then stored else stored ++ [x]

def offerAll (stored : List α) (xs : List α) : List α := xs.foldl (offer clash) stored

@[simp] theorem offerAll_nil (stored : List α) : offerAll clash stored [] = stored := rfl

@[simp] theorem offerAll_cons (stored : List α) (x : α) (xs : List α) :
    offerAll clash stored (x :: xs) = offerAll clash (offer clash stored x) xs := rfl

theorem offer_of_blocked {stored : List α} {x : α} (h : Blocked clash stored x) :
    offer clash stored x = stored := if_pos h

theorem offer_of_free {stored : List α} {x : α} (h : ¬Blocked clash stored x) :
    offer clash stored x = stored ++ [x] := if_neg h

theorem isPrefix_offer (stored : List α) (x : α) : stored <+: offer clash stored x := by
  by_cases h : Blocked clash stored x
  · exact ⟨[], by rw [List.append_nil, offer_of_blocked clash h]⟩
  · rw [offer_of_free clash h]
    exact List.prefix_append _ _

theorem mem_offer_iff {stored : List α} {x z : α} :
    z ∈ offer clash stored x ↔ z ∈ stored ∨ (z = x ∧ ¬Blocked clash stored x) := by
  by_cases h : Blocked clash stored x
  · simp [offer_of_blocked clash h, h]
  · simp [offer_of_free clash h, h]

/-- An offer blocks nothing else than what clashes with it. -/
theorem blocked_offer_iff {stored : List α} {x z : α} (hfree : ¬clash x z) :
    Blocked clash (offer clash stored x) z ↔ Blocked clash stored z := by
  constructor
  · rintro ⟨y, hy, hclash⟩
    rcases (mem_offer_iff clash).mp hy with hy | ⟨rfl, -⟩
    · exact ⟨y, hy, hclash⟩
    · exact absurd hclash hfree
  · exact fun h => h.mono (isPrefix_offer clash stored x).subset

/-- **Nothing is lost.** What was stored is an initial segment of what is stored afterwards. -/
theorem isPrefix_offerAll (stored xs : List α) : stored <+: offerAll clash stored xs := by
  induction xs generalizing stored with
  | nil => exact List.prefix_rfl
  | cons x xs ih => exact (isPrefix_offer clash stored x).trans (ih _)

theorem blocked_offer {x : α} (hself : clash x x) (stored : List α) :
    Blocked clash (offer clash stored x) x := by
  by_cases h : Blocked clash stored x
  · rwa [offer_of_blocked clash h]
  · rw [offer_of_free clash h]
    exact ⟨x, List.mem_append_right _ (List.mem_singleton.mpr rfl), hself⟩

theorem blocked_offerAll {xs : List α} (hself : ∀ x ∈ xs, clash x x) (stored : List α) :
    ∀ x ∈ xs, Blocked clash (offerAll clash stored xs) x := by
  induction xs generalizing stored with
  | nil => intro x hx; cases hx
  | cons x xs ih =>
      intro y hy
      rcases List.mem_cons.mp hy with rfl | hy
      · exact (blocked_offer clash (hself y List.mem_cons_self) stored).mono
          (isPrefix_offerAll clash _ xs).subset
      · exact ih (fun z hz => hself z (List.mem_cons_of_mem _ hz)) _ y hy

theorem offerAll_of_blocked {stored xs : List α} (h : ∀ x ∈ xs, Blocked clash stored x) :
    offerAll clash stored xs = stored := by
  induction xs with
  | nil => rfl
  | cons x xs ih =>
      rw [offerAll_cons, offer_of_blocked clash (h x List.mem_cons_self)]
      exact ih fun y hy => h y (List.mem_cons_of_mem _ hy)

/-- **Offering again changes nothing.** -/
theorem offerAll_offerAll {xs : List α} (hself : ∀ x ∈ xs, clash x x) (stored : List α) :
    offerAll clash (offerAll clash stored xs) xs = offerAll clash stored xs :=
  offerAll_of_blocked clash (blocked_offerAll clash hself stored)

theorem forall_mem_offerAll {P : α → Prop} {stored xs : List α} (hstored : ∀ y ∈ stored, P y)
    (hxs : ∀ x ∈ xs, P x) : ∀ y ∈ offerAll clash stored xs, P y := by
  induction xs generalizing stored with
  | nil => exact hstored
  | cons x xs ih =>
      refine ih (fun y hy => ?_) (fun y hy => hxs y (List.mem_cons_of_mem _ hy))
      rcases (mem_offer_iff clash).mp hy with hy | ⟨rfl, -⟩
      · exact hstored y hy
      · exact hxs y List.mem_cons_self

theorem pairwise_offerAll {stored xs : List α} (h : stored.Pairwise fun y x => ¬clash y x) :
    (offerAll clash stored xs).Pairwise fun y x => ¬clash y x := by
  induction xs generalizing stored with
  | nil => exact h
  | cons x xs ih =>
      apply ih
      by_cases hb : Blocked clash stored x
      · rwa [offer_of_blocked clash hb]
      · rw [offer_of_free clash hb, List.pairwise_append]
        refine ⟨h, List.pairwise_singleton _ _, fun y hy z hz hclash => ?_⟩
        rw [List.mem_singleton] at hz
        subst hz
        exact hb ⟨y, hy, hclash⟩

/-- When the offered elements do not clash among themselves, each is stored or refused by what was
there at the start. -/
theorem mem_offerAll_iff {stored xs : List α} (hxs : xs.Pairwise fun x x' => ¬clash x x') {z : α} :
    z ∈ offerAll clash stored xs ↔ z ∈ stored ∨ (z ∈ xs ∧ ¬Blocked clash stored z) := by
  induction xs generalizing stored with
  | nil => simp
  | cons x xs ih =>
      obtain ⟨hx, hxs⟩ := List.pairwise_cons.mp hxs
      have hself : (z = x ∧ ¬Blocked clash stored x) ↔ (z = x ∧ ¬Blocked clash stored z) := by
        apply and_congr_right
        intro heq
        rw [heq]
      have hrest : (z ∈ xs ∧ ¬Blocked clash (offer clash stored x) z) ↔ (z ∈ xs ∧ ¬Blocked clash stored z) := by
        apply and_congr_right
        intro hz
        rw [blocked_offer_iff clash (hx z hz)]
      calc z ∈ offerAll clash stored (x :: xs)
        _ ↔ z ∈ offer clash stored x ∨ (z ∈ xs ∧ ¬Blocked clash (offer clash stored x) z) := ih hxs
        _ ↔ (z ∈ stored ∨ (z = x ∧ ¬Blocked clash stored z)) ∨ (z ∈ xs ∧ ¬Blocked clash stored z) := by
            rw [mem_offer_iff, hself, hrest]
        _ ↔ z ∈ stored ∨ (z ∈ x :: xs ∧ ¬Blocked clash stored z) := by
            rw [or_assoc, List.mem_cons, or_and_right]

end Offer
