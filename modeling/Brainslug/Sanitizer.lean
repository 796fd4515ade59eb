import Brainslug.ResourceHandler

/-! What `sanitizeQueryParams` keeps of the query parameters: for each column, the first value that was
supplied under the key of the column. Which columns there are depends on the keys alone. -/

namespace Brainslug

namespace ResourceHandler

variable (keys : List (String × String))

theorem lookup_eq_some_iff_mem {keys : List (String × String)} (hnodup : (keys.map Prod.fst).Nodup)
    {key column : String} : keys.lookup key = some column ↔ (key, column) ∈ keys := by
  induction keys with
  | nil => simp
  | cons entry keys ih =>
      obtain ⟨key', column'⟩ := entry
      obtain ⟨hnot, hnodup⟩ := List.nodup_cons.mp hnodup
      by_cases hkey : key = key'
      · subst hkey
        have hmem : (key, column) ∉ keys := fun h => hnot (List.mem_map.mpr ⟨_, h, rfl⟩)
        simp [hmem, eq_comm]
      · rw [List.lookup_cons, beq_false_of_ne hkey, List.mem_cons]
        simp [hkey, ih hnodup]

theorem getElem?_sanitizeParam (sq : SanitizedParams) (entry : String × String) (column : String) :
    (sanitizeParam keys sq entry)[column]? =
      sq[column]?.or (if keys.lookup entry.1 == some column then some entry.2 else none) := by
  unfold sanitizeParam
  cases hkey : keys.lookup entry.1 with
  | none => simp
  | some sanitizedKey =>
      dsimp only
      rw [Std.TreeMap.getElem?_insertIfNew]
      by_cases hcolumn : sanitizedKey = column
      · subst hcolumn
        by_cases hmem : sanitizedKey ∈ sq <;> simp [hmem]
      · simp [hcolumn]

theorem getElem?_foldl_sanitizeParam (dirtyParams : QueryParams) (sq : SanitizedParams) (column : String) :
    (dirtyParams.foldl (sanitizeParam keys) sq)[column]? =
      sq[column]?.or ((dirtyParams.find? fun entry => keys.lookup entry.1 == some column).map Prod.snd) := by
  induction dirtyParams generalizing sq with
  | nil => simp
  | cons entry dirtyParams ih =>
      rw [List.foldl_cons, ih, getElem?_sanitizeParam, Option.or_assoc, List.find?_cons]
      cases keys.lookup entry.1 == some column <;> rfl

/-- **A column holds the first value supplied under its key.** -/
theorem getElem?_sanitizeQueryParams (dirtyParams : QueryParams) (column : String) :
    (sanitizeQueryParams keys dirtyParams)[column]? =
      (dirtyParams.find? fun entry => keys.lookup entry.1 == some column).map Prod.snd := by
  rw [sanitizeQueryParams, getElem?_foldl_sanitizeParam, Std.TreeMap.getElem?_emptyc, Option.none_or]

theorem mem_sanitizeQueryParams (dirtyParams : QueryParams) (column : String) :
    column ∈ sanitizeQueryParams keys dirtyParams ↔
      ∃ entry ∈ dirtyParams, keys.lookup entry.1 = some column := by
  rw [Std.TreeMap.mem_iff_isSome_getElem?, getElem?_sanitizeQueryParams, Option.isSome_map, List.find?_isSome]
  simp only [beq_iff_eq]

theorem supplied_of_getElem? {dirtyParams : QueryParams} {column value : String}
    (h : (sanitizeQueryParams keys dirtyParams)[column]? = some value) :
    ∃ key, keys.lookup key = some column ∧ (key, value) ∈ dirtyParams := by
  rw [getElem?_sanitizeQueryParams, Option.map_eq_some_iff] at h
  obtain ⟨⟨key, value'⟩, hfind, rfl⟩ := h
  have hkey := List.find?_some hfind
  exact ⟨key, by simpa using hkey, List.mem_of_find?_eq_some hfind⟩

/-- When no key occurs twice, every recognised parameter is kept. -/
theorem mem_toList_sanitizeQueryParams {h : ResourceHandler} {dirtyParams : QueryParams}
    (hnodup : (dirtyParams.map Prod.fst).Nodup) {column value : String} :
    (column, value) ∈ (sanitizeQueryParams h.keys dirtyParams).toList ↔
      ∃ key, (key, column) ∈ h.keys ∧ (key, value) ∈ dirtyParams := by
  rw [Std.TreeMap.mem_toList_iff_getElem?_eq_some]
  constructor
  · intro hvalue
    obtain ⟨key, hkey, hmem⟩ := supplied_of_getElem? h.keys hvalue
    exact ⟨key, (lookup_eq_some_iff_mem h.keys_nodup).mp hkey, hmem⟩
  · rintro ⟨key, hkey, hmem⟩
    have hlookup := (lookup_eq_some_iff_mem h.keys_nodup).mpr hkey
    have hcolumn : column ∈ sanitizeQueryParams h.keys dirtyParams :=
      (mem_sanitizeQueryParams h.keys dirtyParams column).mpr ⟨_, hmem, hlookup⟩
    obtain ⟨value', hvalue'⟩ := Option.isSome_iff_exists.mp (Std.TreeMap.mem_iff_isSome_getElem?.mp hcolumn)
    obtain ⟨key', hkey', hmem'⟩ := supplied_of_getElem? h.keys hvalue'
    -- the columns are distinct, so that both values stand under the same key, which occurs once
    have hpair : (key', column) = (key, column) :=
      List.inj_on_of_nodup_map h.columns_nodup ((lookup_eq_some_iff_mem h.keys_nodup).mp hkey') hkey rfl
    obtain ⟨rfl, -⟩ := Prod.mk.inj hpair
    have hentry : (key', value') = (key', value) := List.inj_on_of_nodup_map hnodup hmem' hmem rfl
    obtain ⟨-, rfl⟩ := Prod.mk.inj hentry
    exact hvalue'

end ResourceHandler

end Brainslug
