import Mathlib.Data.List.Basic
import Mathlib.Data.List.Induction

/-! Association lists kept in insertion order: the first entry of a key is its entry, assigning to a
known key overwrites the value in place and assigning to an unknown one appends. Assigning a whole
sequence of entries leaves one entry for each key, in order of first occurrence, holding the last
value assigned. -/

namespace Assoc

variable {κ ν : Type*} [DecidableEq κ]

/-- Append a default entry when the key has none. -/
def ensure (k : κ) (fallback : ν) (l : List (κ × ν)) : List (κ × ν) :=
  if k ∈ l.map Prod.fst then l else l ++ [(k, fallback)]

def overwrite (k : κ) (v : ν) : List (κ × ν) → List (κ × ν)
  | [] => []
  | (k', v') :: l => if k' = k then (k', v) :: l else (k', v') :: overwrite k v l

def assign (l : List (κ × ν)) (k : κ) (v : ν) : List (κ × ν) :=
  if k ∈ l.map Prod.fst then overwrite k v l else l ++ [(k, v)]

def assignAll (l : List (κ × ν)) (entries : List (κ × ν)) : List (κ × ν) :=
  entries.foldl (fun l entry => assign l entry.1 entry.2) l

theorem keys_overwrite (k : κ) (v : ν) (l : List (κ × ν)) :
    (overwrite k v l).map Prod.fst = l.map Prod.fst := by
  induction l with
  | nil => rfl
  | cons entry l ih =>
      obtain ⟨k', v'⟩ := entry
      by_cases h : k' = k <;> simp [overwrite, h, ih]

theorem overwrite_append_singleton (k : κ) (v fallback : ν) (l : List (κ × ν)) (h : k ∉ l.map Prod.fst) :
    overwrite k v (l ++ [(k, fallback)]) = l ++ [(k, v)] := by
  induction l with
  | nil => simp [overwrite]
  | cons entry l ih =>
      obtain ⟨k', v'⟩ := entry
      simp only [List.map_cons, List.mem_cons, not_or] at h
      simp [overwrite, Ne.symm h.1, ih h.2]

/-- Looking the key up, appending it when missing, and writing through the entry found is
assignment, whatever the appended default is. -/
theorem overwrite_ensure (k : κ) (v fallback : ν) (l : List (κ × ν)) :
    overwrite k v (ensure k fallback l) = assign l k v := by
  by_cases h : k ∈ l.map Prod.fst
  · simp only [ensure, assign, if_pos h]
  · simp only [ensure, assign, if_neg h, overwrite_append_singleton k v fallback l h]

theorem lookup_overwrite_self (k : κ) (v : ν) (l : List (κ × ν)) (h : k ∈ l.map Prod.fst) :
    (overwrite k v l).lookup k = some v := by
  induction l with
  | nil => simp at h
  | cons entry l ih =>
      obtain ⟨k', v'⟩ := entry
      by_cases hk : k' = k
      · simp [overwrite, hk]
      · have hmem : k ∈ l.map Prod.fst := by simpa [Ne.symm hk] using h
        have hbeq : (k == k') = false := beq_false_of_ne (Ne.symm hk)
        simp [overwrite, hk, List.lookup_cons, hbeq, ih hmem]

theorem lookup_overwrite_ne {k k' : κ} (hne : k' ≠ k) (v : ν) (l : List (κ × ν)) :
    (overwrite k v l).lookup k' = l.lookup k' := by
  induction l with
  | nil => rfl
  | cons entry l ih =>
      obtain ⟨k'', v''⟩ := entry
      by_cases hk : k'' = k
      · subst hk
        have hbeq : (k' == k'') = false := beq_false_of_ne hne
        simp [overwrite, List.lookup_cons, hbeq]
      · simp [overwrite, hk, List.lookup_cons, ih]

theorem lookup_eq_none_of_notMem {k : κ} {l : List (κ × ν)} (h : k ∉ l.map Prod.fst) : l.lookup k = none := by
  rw [List.lookup_eq_none_iff]
  intro entry hentry
  have hne : k ≠ entry.1 := fun heq => h (List.mem_map.mpr ⟨entry, hentry, heq.symm⟩)
  simpa using hne

theorem lookup_assign_self (l : List (κ × ν)) (k : κ) (v : ν) : (assign l k v).lookup k = some v := by
  by_cases h : k ∈ l.map Prod.fst
  · rw [assign, if_pos h, lookup_overwrite_self k v l h]
  · rw [assign, if_neg h, List.lookup_append, lookup_eq_none_of_notMem h]
    simp

theorem lookup_assign_ne {k k' : κ} (hne : k' ≠ k) (l : List (κ × ν)) (v : ν) :
    (assign l k v).lookup k' = l.lookup k' := by
  by_cases h : k ∈ l.map Prod.fst
  · rw [assign, if_pos h, lookup_overwrite_ne hne]
  · rw [assign, if_neg h, List.lookup_append]
    cases l.lookup k' <;> simp [hne]

theorem overwrite_of_lookup {k : κ} {v : ν} {l : List (κ × ν)} (h : l.lookup k = some v) : overwrite k v l = l := by
  induction l with
  | nil => rfl
  | cons entry l ih =>
      obtain ⟨k', v'⟩ := entry
      by_cases hk : k' = k
      · subst hk
        rw [List.lookup_cons_self, Option.some.injEq] at h
        rw [overwrite, if_pos rfl, h]
      · rw [List.lookup_cons, beq_false_of_ne (Ne.symm hk)] at h
        rw [overwrite, if_neg hk, ih h]

/-- Assigning changes nothing exactly when the key has the value already. -/
theorem assign_eq_self_iff (l : List (κ × ν)) (k : κ) (v : ν) : assign l k v = l ↔ l.lookup k = some v := by
  constructor
  · intro heq
    rw [← heq, lookup_assign_self]
  · intro h
    by_cases hmem : k ∈ l.map Prod.fst
    · rw [assign, if_pos hmem, overwrite_of_lookup h]
    · rw [lookup_eq_none_of_notMem hmem] at h
      cases h

theorem keys_assign (l : List (κ × ν)) (k : κ) (v : ν) :
    (assign l k v).map Prod.fst = if k ∈ l.map Prod.fst then l.map Prod.fst else l.map Prod.fst ++ [k] := by
  by_cases h : k ∈ l.map Prod.fst
  · rw [assign, if_pos h, if_pos h, keys_overwrite]
  · rw [assign, if_neg h, if_neg h, List.map_append, List.map_singleton]

theorem nodup_keys_assign {l : List (κ × ν)} (h : (l.map Prod.fst).Nodup) (k : κ) (v : ν) :
    ((assign l k v).map Prod.fst).Nodup := by
  rw [keys_assign]
  split_ifs with hmem
  · exact h
  · refine List.nodup_append.mpr ⟨h, by simp, ?_⟩
    rintro a ha b hb rfl
    exact hmem (List.mem_singleton.mp hb ▸ ha)

@[simp] theorem assignAll_nil (l : List (κ × ν)) : assignAll l [] = l := rfl

theorem assignAll_concat (l entries : List (κ × ν)) (k : κ) (v : ν) :
    assignAll l (entries ++ [(k, v)]) = assign (assignAll l entries) k v := by
  rw [assignAll, List.foldl_append]
  rfl

theorem eraseDups_concat (ks : List κ) (k : κ) :
    (ks ++ [k]).eraseDups = if k ∈ ks then ks.eraseDups else ks.eraseDups ++ [k] := by
  rw [List.eraseDups_append]
  by_cases h : k ∈ ks <;> simp [List.removeAll, h, List.eraseDups_cons]

/-- **One entry for each key, in order of first occurrence.** -/
theorem keys_assignAll (entries : List (κ × ν)) :
    (assignAll [] entries).map Prod.fst = (entries.map Prod.fst).eraseDups := by
  induction entries using List.reverseRecOn with
  | nil => rfl
  | append_singleton entries entry ih =>
      obtain ⟨k, v⟩ := entry
      rw [assignAll_concat, keys_assign, ih, List.map_append, List.map_singleton, eraseDups_concat]
      simp only [List.mem_eraseDups]

theorem nodup_keys_assignAll (entries : List (κ × ν)) : ((assignAll [] entries).map Prod.fst).Nodup := by
  induction entries using List.reverseRecOn with
  | nil => exact List.Pairwise.nil
  | append_singleton entries entry ih =>
      obtain ⟨k, v⟩ := entry
      rw [assignAll_concat, keys_assign]
      split_ifs with hk
      · exact ih
      · refine List.nodup_append.mpr ⟨ih, List.pairwise_singleton _ _, fun a ha b hb heq => hk ?_⟩
        rw [← List.mem_singleton.mp hb, ← heq]
        exact ha

theorem mem_overwrite {k : κ} {v : ν} {l : List (κ × ν)} {entry : κ × ν} (h : entry ∈ overwrite k v l) :
    entry = (k, v) ∨ entry ∈ l := by
  induction l with
  | nil => cases h
  | cons entry' l ih =>
      rw [overwrite] at h
      split_ifs at h with hk
      · rcases List.mem_cons.mp h with rfl | h
        · exact Or.inl (congrArg (·, v) hk)
        · exact Or.inr (List.mem_cons_of_mem _ h)
      · rcases List.mem_cons.mp h with rfl | h
        · exact Or.inr List.mem_cons_self
        · exact (ih h).imp_right (List.mem_cons_of_mem _)

theorem mem_assign {k : κ} {v : ν} {l : List (κ × ν)} {entry : κ × ν} (h : entry ∈ assign l k v) :
    entry = (k, v) ∨ entry ∈ l := by
  unfold assign at h
  split_ifs at h
  · exact mem_overwrite h
  · exact (List.mem_append.mp h).symm.imp_left List.mem_singleton.mp

/-- Only entries that were assigned are there. -/
theorem mem_of_mem_assignAll {entries : List (κ × ν)} {entry : κ × ν} (h : entry ∈ assignAll [] entries) :
    entry ∈ entries := by
  induction entries using List.reverseRecOn with
  | nil => cases h
  | append_singleton entries last ih =>
      rw [assignAll_concat] at h
      rw [List.mem_append]
      obtain hlast | h := mem_assign h
      · exact Or.inr (List.mem_singleton.mpr hlast)
      · exact Or.inl (ih h)

/-- **The last value assigned to a key is the one it keeps.** -/
theorem lookup_assignAll (entries : List (κ × ν)) (k : κ) :
    (assignAll [] entries).lookup k = entries.reverse.lookup k := by
  induction entries using List.reverseRecOn with
  | nil => rfl
  | append_singleton entries entry ih =>
      obtain ⟨k', v⟩ := entry
      rw [assignAll_concat, List.reverse_concat, List.lookup_cons]
      by_cases h : k = k'
      · subst h
        simp [lookup_assign_self]
      · have hbeq : (k == k') = false := beq_false_of_ne h
        simp [lookup_assign_ne h, ih, hbeq]

theorem assignAll_of_nodup (l entries : List (κ × ν)) (h : ((l ++ entries).map Prod.fst).Nodup) :
    assignAll l entries = l ++ entries := by
  induction entries generalizing l with
  | nil => simp
  | cons entry entries ih =>
      obtain ⟨k, v⟩ := entry
      have hk : k ∉ l.map Prod.fst := by
        rw [List.map_append, List.map_cons, List.nodup_append] at h
        exact fun hmem => h.2.2 k hmem k List.mem_cons_self rfl
      have hassign : assign l k v = l ++ [(k, v)] := if_neg hk
      have hstep : assignAll l ((k, v) :: entries) = assignAll (assign l k v) entries := rfl
      rw [hstep, hassign, ih _ (by simpa using h), List.append_assoc, List.singleton_append]

end Assoc
