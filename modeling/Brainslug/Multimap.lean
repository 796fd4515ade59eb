import Mathlib.Data.List.Basic
import Mathlib.Data.List.Perm.Basic

/-! Multimaps, as the lists of their entries in the order of their iteration. Keys are the same when a function of
them is. Changing the value of a key leaves it with that value alone; a series of changes leaves all other entries. -/

namespace Multimap

variable {K V C : Type*} [DecidableEq C] (canonical : K → C)

def hasKey (key : K) (entry : K × V) : Bool := canonical entry.1 = canonical key

/-- The first entry of the key gets the value and keeps its own spelling of the key, the others are removed. Without
any the key is added. -/
def changeValue : List (K × V) → K → V → List (K × V)
  | [], key, value => [(key, value)]
  | entry :: dict, key, value =>
      if hasKey canonical key entry then (entry.1, value) :: dict.filter (!hasKey canonical key ·)
      else entry :: changeValue dict key value

def changeAll (dict changes : List (K × V)) : List (K × V) :=
  changes.foldl (fun dict change => changeValue canonical dict change.1 change.2) dict

/-- The key stands there once, with a value. -/
def Single (dict : List (K × V)) (change : K × V) : Prop :=
  ∃ key, dict.filter (hasKey canonical change.1) = [(key, change.2)]

variable {canonical} {dict changes : List (K × V)} {key : K} {value : V}

theorem filter_hasKey_filter_not (dict : List (K × V)) (key : K) :
    (dict.filter (!hasKey canonical key ·)).filter (hasKey canonical key) = [] := by
  rw [List.filter_filter]
  exact List.filter_eq_nil_iff.mpr fun entry _ => by simp

/-- **What a change leaves of its key.** -/
theorem single_changeValue (dict : List (K × V)) (key : K) (value : V) :
    Single canonical (changeValue canonical dict key value) (key, value) := by
  induction dict with
  | nil => exact ⟨key, by simp [changeValue, hasKey]⟩
  | cons entry dict ih =>
      unfold changeValue
      split_ifs with hkey
      · have hchanged : hasKey canonical key (entry.1, value) = true := hkey
        exact ⟨entry.1, by rw [List.filter_cons_of_pos hchanged, filter_hasKey_filter_not]⟩
      · obtain ⟨stored, hfilter⟩ := ih
        exact ⟨stored, by rwa [List.filter_cons_of_neg (by simpa using hkey)]⟩

/-- **What a change leaves of everything else.** -/
theorem filter_changeValue_not (dict : List (K × V)) (key : K) (value : V) :
    (changeValue canonical dict key value).filter (!hasKey canonical key ·) = dict.filter (!hasKey canonical key ·) := by
  induction dict with
  | nil => simp [changeValue, hasKey]
  | cons entry dict ih =>
      unfold changeValue
      split_ifs with hkey
      · have hchanged : hasKey canonical key (entry.1, value) = true := hkey
        rw [List.filter_cons_of_neg (by simp [hchanged]), List.filter_cons_of_neg (by simp [hkey]), List.filter_filter]
        simp only [Bool.and_self]
      · rw [List.filter_cons_of_pos (by simpa using hkey), List.filter_cons_of_pos (by simpa using hkey), ih]

theorem single_changeValue_of_ne {change : K × V} (hne : canonical change.1 ≠ canonical key)
    (h : Single canonical dict change) : Single canonical (changeValue canonical dict key value) change := by
  obtain ⟨stored, hfilter⟩ := h
  have hother (dict : List (K × V)) : (dict.filter (!hasKey canonical key ·)).filter (hasKey canonical change.1) =
      dict.filter (hasKey canonical change.1) := by
    rw [List.filter_filter]
    refine List.filter_congr fun entry _ => ?_
    by_cases hentry : canonical entry.1 = canonical change.1 <;> simp [hasKey, hentry, hne]
  exact ⟨stored, by rw [← hother, filter_changeValue_not, hother, hfilter]⟩

/-- A change to the value that the key has alone changes nothing. -/
theorem changeValue_of_single (h : Single canonical dict (key, value)) : changeValue canonical dict key value = dict := by
  obtain ⟨stored, hfilter⟩ := h
  induction dict with
  | nil => cases hfilter
  | cons entry dict ih =>
      unfold changeValue
      split_ifs with hkey
      · rw [List.filter_cons_of_pos hkey] at hfilter
        obtain ⟨hentry, hrest⟩ := List.cons.inj hfilter
        have hnone : ∀ other ∈ dict, (!hasKey canonical key other) = true := fun other hother => by
          simpa using List.filter_eq_nil_iff.mp hrest other hother
        rw [List.filter_eq_self.mpr hnone, hentry]
      · rw [List.filter_cons_of_neg (by simpa using hkey)] at hfilter
        rw [ih hfilter]

theorem mem_changeValue_of_ne {entry : K × V} (hne : canonical entry.1 ≠ canonical key) :
    entry ∈ changeValue canonical dict key value ↔ entry ∈ dict := by
  have hother (dict : List (K × V)) : entry ∈ dict.filter (!hasKey canonical key ·) ↔ entry ∈ dict := by
    simp [hasKey, hne]
  rw [← hother, filter_changeValue_not, hother]

theorem value_of_mem_changeValue {entry : K × V} (hkey : canonical entry.1 = canonical key)
    (h : entry ∈ changeValue canonical dict key value) : entry.2 = value := by
  obtain ⟨stored, hfilter⟩ : Single canonical _ (key, value) := single_changeValue dict key value
  have hmem : entry ∈ [(stored, value)] := hfilter ▸ List.mem_filter.mpr ⟨h, decide_eq_true hkey⟩
  exact congrArg Prod.snd (List.mem_singleton.mp hmem)

/-! ### Series of changes -/

theorem single_changeAll_of_ne {change : K × V} (hne : ∀ other ∈ changes, canonical change.1 ≠ canonical other.1)
    (h : Single canonical dict change) : Single canonical (changeAll canonical dict changes) change := by
  induction changes generalizing dict with
  | nil => exact h
  | cons other changes ih =>
      obtain ⟨hother, hchanges⟩ := List.forall_mem_cons.mp hne
      exact ih hchanges (single_changeValue_of_ne hother h)

/-- **Every change counts**, when each key is changed once. -/
theorem single_changeAll (dict : List (K × V))
    (hkeys : changes.Pairwise fun change other => canonical change.1 ≠ canonical other.1) :
    ∀ change ∈ changes, Single canonical (changeAll canonical dict changes) change := by
  induction changes generalizing dict with
  | nil => exact List.forall_mem_nil _
  | cons first changes ih =>
      obtain ⟨hfirst, hchanges⟩ := List.pairwise_cons.mp hkeys
      intro change hchange
      rcases List.mem_cons.mp hchange with heq | hchange
      · have hsingle : Single canonical (changeValue canonical dict first.1 first.2) first :=
          single_changeValue dict first.1 first.2
        have hall : Single canonical (changeAll canonical (changeValue canonical dict first.1 first.2) changes) first :=
          single_changeAll_of_ne hfirst hsingle
        exact heq ▸ hall
      · exact ih _ hchanges change hchange

/-- **Changes that are there already change nothing.** -/
theorem changeAll_of_single (h : ∀ change ∈ changes, Single canonical dict change) :
    changeAll canonical dict changes = dict := by
  induction changes with
  | nil => rfl
  | cons first changes ih =>
      obtain ⟨hfirst, hchanges⟩ := List.forall_mem_cons.mp h
      rw [changeAll, List.foldl_cons, changeValue_of_single hfirst]
      exact ih hchanges

/-- The order of the entries does not matter for what is there. -/
theorem Single.perm {dict' : List (K × V)} {change : K × V} (h : Single canonical dict change) (hperm : dict'.Perm dict) :
    Single canonical dict' change := by
  obtain ⟨stored, hfilter⟩ := h
  exact ⟨stored, List.perm_singleton.mp (hfilter ▸ hperm.filter _)⟩

/-- **What holds of all entries after a series of changes**: it holds of what is changed to, so the other entries
decide. -/
theorem forall_mem_changeAll {P : K × V → Prop}
    (hchanges : ∀ change ∈ changes, ∀ key, canonical key = canonical change.1 → P (key, change.2)) :
    (∀ entry ∈ changeAll canonical dict changes, P entry) ↔
      ∀ entry ∈ dict, (∀ change ∈ changes, canonical entry.1 ≠ canonical change.1) → P entry := by
  induction changes generalizing dict with
  | nil => simp [changeAll]
  | cons first changes ih =>
      obtain ⟨hfirst, hchanges⟩ := List.forall_mem_cons.mp hchanges
      rw [changeAll, List.foldl_cons]
      refine (ih hchanges).trans ⟨?_, ?_⟩
      · intro h entry hentry hne
        obtain ⟨hne, hothers⟩ := List.forall_mem_cons.mp hne
        exact h entry ((mem_changeValue_of_ne hne).mpr hentry) hothers
      · intro h entry hentry hothers
        by_cases hkey : canonical entry.1 = canonical first.1
        · have hfirst := hfirst entry.1 hkey
          rwa [← value_of_mem_changeValue hkey hentry] at hfirst
        · exact h entry ((mem_changeValue_of_ne hkey).mp hentry) (List.forall_mem_cons.mpr ⟨hkey, hothers⟩)

end Multimap
