import Mathlib.Data.List.TakeWhile
import Mathlib.Tactic.Push

/-! A filter whose test can fail, run as one loop that the first failure ends. What was accepted before the
failure is kept, what comes after it is never looked at. -/

namespace Aborting

variable {α ε : Type*} (test : α → Except ε Bool)

/-- The elements accepted, behind those accepted before, and the failure that ended the loop, if any. -/
def filterLoop (kept : List α) : List α → List α × Option ε
  | [] => (kept, none)
  | x :: xs =>
      match test x with
      | .ok accept => filterLoop (if accept then kept ++ [x] else kept) xs
      | .error e => (kept, some e)

def readable (x : α) : Bool := (test x).toOption.isSome

def accepted (x : α) : Bool := (test x).toOption.getD false

variable {test}

theorem readable_of_accepted {x : α} (h : accepted test x = true) : readable test x = true := by
  unfold accepted at h
  unfold readable
  cases hx : test x with
  | error e => simp [hx, Except.toOption] at h
  | ok accept => rfl

/-- The loop keeps what is accepted in front of the first failure. -/
theorem filterLoop_fst (kept xs : List α) :
    (filterLoop test kept xs).1 = kept ++ (xs.takeWhile (readable test)).filter (accepted test) := by
  induction xs generalizing kept with
  | nil => simp [filterLoop]
  | cons x xs ih =>
      rw [filterLoop, List.takeWhile_cons]
      cases hx : test x with
      | error e => simp [readable, hx, Except.toOption]
      | ok accept => cases accept <;> simp [ih, readable, accepted, hx, Except.toOption]

/-- **When nothing is lost.** The loop filters the whole list exactly when no element is accepted behind one
on which the test fails. -/
theorem filterLoop_eq_filter_iff (xs : List α) :
    (filterLoop test [] xs).1 = xs.filter (accepted test) ↔
      xs.Pairwise fun x later => readable test x = false → accepted test later = false := by
  rw [filterLoop_fst, List.nil_append]
  induction xs with
  | nil => simp
  | cons x xs ih =>
      rw [List.takeWhile_cons, List.pairwise_cons]
      cases hx : readable test x with
      | true =>
          cases haccepted : accepted test x <;> simp [haccepted, ih]
      | false =>
          have hnot : accepted test x = false := by
            by_contra haccepted
            rw [Bool.not_eq_false] at haccepted
            rw [readable_of_accepted haccepted] at hx
            cases hx
          rw [List.filter_cons_of_neg (by simp [hnot])]
          constructor
          · intro hnil
            have hnone : ∀ later ∈ xs, accepted test later = false := by
              simpa using List.filter_eq_nil_iff.mp hnil.symm
            exact ⟨fun later hlater _ => hnone later hlater,
              List.pairwise_of_forall_mem_list fun _ _ later hlater _ => hnone later hlater⟩
          · rintro ⟨hnone, -⟩
            exact (List.filter_eq_nil_iff.mpr fun later hlater => by simp [hnone later hlater rfl]).symm

/-- **When the order does not matter.** Rearranging the list only rearranges the result exactly when the test
fails on no element, or accepts none. -/
theorem filterLoop_perm_iff (xs : List α) :
    (∀ ys, ys.Perm xs → (filterLoop test [] ys).1.Perm (filterLoop test [] xs).1) ↔
      (∀ x ∈ xs, readable test x = true) ∨ ∀ x ∈ xs, accepted test x = false := by
  constructor
  · intro hperm
    by_contra hnot
    push Not at hnot
    obtain ⟨⟨x, hx, hxr⟩, y, hy, hya⟩ := hnot
    replace hxr : readable test x = false := Bool.eq_false_iff.mpr hxr
    replace hya : accepted test y = true := by simpa using hya
    obtain ⟨s, t, rfl⟩ := List.append_of_mem hx
    -- with a failure in front nothing is kept, with an accepted element in front something is
    have hfirst := hperm _ List.perm_middle.symm
    have hempty : (filterLoop test [] (x :: (s ++ t))).1 = [] := by
      simp [filterLoop_fst, hxr]
    obtain ⟨s', t', heq⟩ := List.append_of_mem hy
    have hsecond := hperm (y :: (s' ++ t')) (by rw [heq]; exact List.perm_middle.symm)
    have hkept : y ∈ (filterLoop test [] (y :: (s' ++ t'))).1 := by
      simp [filterLoop_fst, readable_of_accepted hya, hya]
    rw [hempty] at hfirst
    rw [List.nil_perm.mp hfirst, List.perm_nil] at hsecond
    rw [hsecond] at hkept
    cases hkept
  · rintro (hall | hnone) ys hys
    · have htake : ∀ zs : List α, zs.Perm xs → zs.takeWhile (readable test) = zs := fun zs hzs =>
        List.takeWhile_eq_self_iff.mpr fun z hz => hall z (hzs.mem_iff.mp hz)
      rw [filterLoop_fst, filterLoop_fst, htake ys hys, htake xs (List.Perm.refl xs)]
      exact hys.filter (accepted test)
    · have hnil : ∀ zs : List α, zs.Perm xs → (filterLoop test [] zs).1 = [] := by
        intro zs hzs
        rw [filterLoop_fst, List.nil_append, List.filter_eq_nil_iff]
        intro z hz
        simp [hnone z (hzs.mem_iff.mp ((List.takeWhile_prefix _).subset hz))]
      rw [hnil ys hys, hnil xs (List.Perm.refl xs)]

end Aborting
