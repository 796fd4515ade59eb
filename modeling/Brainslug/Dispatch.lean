import Brainslug.Http

/-! Which handler a request reaches: the one registered first for the longest path in front of the request's. The
server compares texts, and walks back from the request in the order of texts; paths are compared part by part. -/

namespace Brainslug

/-- In a list in strict order, a search from the end finds the greatest element with a property. -/
theorem find?_reverse_eq_some_iff {α : Type*} {r : α → α → Prop} (hasymm : ∀ a b, r a b → ¬ r b a) {p : α → Bool}
    {l : List α} (hl : l.Pairwise r) {a : α} :
    l.reverse.find? p = some a ↔ a ∈ l ∧ p a = true ∧ ∀ b ∈ l, p b = true → ¬ r a b := by
  induction l generalizing a with
  | nil => simp
  | cons x l ih =>
      obtain ⟨hx, hl⟩ := List.pairwise_cons.mp hl
      rw [List.reverse_cons, List.find?_append]
      cases hfind : l.reverse.find? p with
      | some c =>
          obtain ⟨hc, hpc, hgreatest⟩ := (ih hl).mp hfind
          rw [Option.some_or]
          constructor
          · intro h
            obtain rfl := Option.some.inj h
            exact ⟨List.mem_cons_of_mem x hc, hpc,
              List.forall_mem_cons.mpr ⟨fun _ => hasymm x _ (hx _ hc), hgreatest⟩⟩
          · rintro ⟨ha, hpa, hall⟩
            have hall' := (List.forall_mem_cons.mp hall).2
            rcases List.mem_cons.mp ha with rfl | ha
            · exact absurd (hx c hc) (hall' c hc hpc)
            · exact hfind.symm.trans ((ih hl).mpr ⟨ha, hpa, hall'⟩)
      | none =>
          have hnone : ∀ b ∈ l, ¬ p b = true := fun b hb => List.find?_eq_none.mp hfind b (List.mem_reverse.mpr hb)
          rw [Option.none_or, List.find?_singleton]
          constructor
          · intro h
            split_ifs at h with hpx
            obtain rfl := Option.some.inj h
            refine ⟨List.mem_cons_self, hpx, List.forall_mem_cons.mpr ⟨fun _ hxx => hasymm x x hxx hxx, ?_⟩⟩
            exact fun b hb hpb => absurd hpb (hnone b hb)
          · rintro ⟨ha, hpa, -⟩
            rcases List.mem_cons.mp ha with rfl | ha
            · exact if_pos hpa
            · exact absurd hpa (hnone a ha)

namespace HTTPServer

/-- The parts of a path. -/
def pathOf (resource : String) : List (List Char) := resource.toList.splitOn '/'

theorem intercalate_append {sep : List Char} {parts parts' : List (List Char)} (hparts : parts ≠ []) (hparts' : parts' ≠ []) :
    sep.intercalate (parts ++ parts') = sep.intercalate parts ++ sep ++ sep.intercalate parts' := by
  induction parts with
  | nil => exact absurd rfl hparts
  | cons part parts ih =>
      cases parts with
      | nil =>
          rw [List.singleton_append, List.intercalate_cons_of_ne_nil hparts', List.intercalate_singleton]
      | cons next parts =>
          rw [List.cons_append, List.cons_append, List.intercalate_cons_cons, ← List.cons_append,
            ih (List.cons_ne_nil _ _), List.intercalate_cons_cons]
          simp only [List.append_assoc]

theorem pathOf_prefix_iff (registered resource : String) : pathOf registered <+: pathOf resource ↔
    resource.toList = registered.toList ∨ ∃ rest, resource.toList = registered.toList ++ '/' :: rest := by
  constructor
  · rintro ⟨parts, hparts⟩
    have hresource : ['/'].intercalate (pathOf resource) = resource.toList := List.intercalate_splitOn '/'
    have hregistered : ['/'].intercalate (pathOf registered) = registered.toList := List.intercalate_splitOn '/'
    rw [← hparts] at hresource
    rcases eq_or_ne parts [] with rfl | hne
    · rw [List.append_nil, hregistered] at hresource
      exact Or.inl hresource.symm
    · have hregistered_ne : pathOf registered ≠ [] := List.splitOn_ne_nil '/' _
      rw [intercalate_append hregistered_ne hne, hregistered, List.append_assoc] at hresource
      exact Or.inr ⟨_, hresource.symm⟩
  · rintro (heq | ⟨rest, heq⟩)
    · exact ⟨[], (List.append_nil _).trans (congrArg (List.splitOn '/') heq.symm)⟩
    · have hsplit : pathOf resource = pathOf registered ++ List.splitOn '/' rest :=
        (congrArg (List.splitOn '/') heq).trans (List.splitOn_append_cons_self ..)
      exact ⟨_, hsplit.symm⟩

theorem matchesResource_iff (registered resource : String) :
    matchesResource registered resource = true ↔ pathOf registered <+: pathOf resource := by
  rw [pathOf_prefix_iff, matchesResource, Bool.and_eq_true, List.isPrefixOf_iff_prefix]
  constructor
  · rintro ⟨⟨rest, hrest⟩, hnext⟩
    rw [← hrest, ← String.length_toList, List.drop_left] at hnext
    cases rest with
    | nil => exact Or.inl (by rw [← hrest, List.append_nil])
    | cons c rest => exact Or.inr ⟨rest, by rw [← hrest, beq_iff_eq.mp hnext]⟩
  · rintro (heq | ⟨rest, heq⟩)
    · refine ⟨heq ▸ List.prefix_refl _, ?_⟩
      rw [heq, ← String.length_toList, List.drop_length]
    · refine ⟨heq ▸ List.prefix_append .., ?_⟩
      rw [heq, ← String.length_toList, List.drop_left]
      rfl

theorem compare_eq_lt (s t : String) : compare s t = .lt ↔ s < t := compareOfLessAndEq_eq_lt

/-- A path comes in front of the paths that it leads to. -/
theorem not_lt_of_pathOf {registered resource : String} (h : pathOf registered <+: pathOf resource) :
    ¬ resource < registered := by
  have hprefix : registered.toList <+: resource.toList := by
    rcases (pathOf_prefix_iff registered resource).mp h with heq | ⟨rest, heq⟩
    · exact heq ▸ List.prefix_refl _
    · exact heq ▸ List.prefix_append ..
  exact hprefix.le

/-- Of two paths in front of a third, the greater text is the longer path. -/
theorem not_lt_iff_pathOf {registered other resource : String} (h : pathOf registered <+: pathOf resource)
    (h' : pathOf other <+: pathOf resource) : ¬ registered < other ↔ pathOf other <+: pathOf registered := by
  constructor
  · intro hnot
    rcases List.prefix_or_prefix_of_prefix h' h with hprefix | hprefix
    · exact hprefix
    · have heq : registered = other := by
        exact le_antisymm (not_lt.mp (not_lt_of_pathOf hprefix)) (not_lt.mp hnot)
      exact heq ▸ List.prefix_refl _
  · exact not_lt_of_pathOf

variable {α : Type}

/-- A search back from the request meets the longest of the paths in front of it first. -/
theorem findRequestHandler_eq_some_iff (resources : Std.TreeMap String α) (resource : String) (handler : α) :
    findRequestHandler resources resource = some handler ↔
      ∃ registered, resources[registered]? = some handler ∧ pathOf registered <+: pathOf resource ∧
        ∀ other ∈ resources, pathOf other <+: pathOf resource → pathOf other <+: pathOf registered := by
  have hsorted := (Std.TreeMap.ordered_keys_toList (t := resources)).filter fun entry => entry.1 ≤ resource
  have hasymm : ∀ a b : String × α, compare a.1 b.1 = .lt → ¬ compare b.1 a.1 = .lt :=
    fun a b => Std.OrientedCmp.not_lt_of_lt
  have hfind (entry : String × α) := find?_reverse_eq_some_iff hasymm hsorted
    (p := fun entry => matchesResource entry.1 resource) (a := entry)
  rw [findRequestHandler, Option.map_eq_some_iff]
  constructor
  · rintro ⟨⟨registered, handler⟩, hfound, rfl⟩
    obtain ⟨hmem, hmatches, hgreatest⟩ := (hfind _).mp hfound
    have hprefix := (matchesResource_iff registered resource).mp hmatches
    refine ⟨registered, Std.TreeMap.mem_toList_iff_getElem?_eq_some.mp (List.mem_filter.mp hmem).1, hprefix, ?_⟩
    intro other hother hfront
    obtain ⟨value, hvalue⟩ := Option.isSome_iff_exists.mp (Std.TreeMap.mem_iff_isSome_getElem?.mp hother)
    have hbelow : other ≤ resource := not_lt.mp (not_lt_of_pathOf hfront)
    have hnot := hgreatest (other, value)
      (List.mem_filter.mpr ⟨Std.TreeMap.mem_toList_iff_getElem?_eq_some.mpr hvalue, decide_eq_true hbelow⟩)
      ((matchesResource_iff other resource).mpr hfront)
    exact (not_lt_iff_pathOf hprefix hfront).mp (mt (compare_eq_lt registered other).mpr hnot)
  · rintro ⟨registered, hvalue, hprefix, hlongest⟩
    have hbelow : registered ≤ resource := not_lt.mp (not_lt_of_pathOf hprefix)
    refine ⟨(registered, handler), (hfind _).mpr ⟨?_, (matchesResource_iff registered resource).mpr hprefix, ?_⟩, rfl⟩
    · exact List.mem_filter.mpr ⟨Std.TreeMap.mem_toList_iff_getElem?_eq_some.mpr hvalue, decide_eq_true hbelow⟩
    · rintro ⟨other, value⟩ hmem hmatches
      have hother : resources[other]? = some value :=
        Std.TreeMap.mem_toList_iff_getElem?_eq_some.mp (List.mem_filter.mp hmem).1
      have hfront := (matchesResource_iff other resource).mp hmatches
      have hshorter := hlongest other
        (Std.TreeMap.mem_iff_isSome_getElem?.mpr (Option.isSome_iff_exists.mpr ⟨value, hother⟩)) hfront
      exact mt (compare_eq_lt registered other).mp ((not_lt_iff_pathOf hprefix hfront).mpr hshorter)

/-- `addResource`, called for one resource after the other. -/
def addResources (entries : List (String × α)) : Std.TreeMap String α :=
  entries.foldl (fun resources entry => addResource resources entry.1 entry.2) ∅

theorem getElem?_foldl_addResource (entries : List (String × α)) (resources : Std.TreeMap String α)
    (registered : String) :
    (entries.foldl (fun resources entry => addResource resources entry.1 entry.2) resources)[registered]? =
      resources[registered]?.or
        ((entries.find? fun entry => stripTrailingSlash entry.1 == registered).map Prod.snd) := by
  induction entries generalizing resources with
  | nil => simp
  | cons entry entries ih =>
      rw [List.foldl_cons, ih, addResource, Std.TreeMap.getElem?_insertIfNew, List.find?_cons]
      by_cases hsame : stripTrailingSlash entry.1 = registered
      · subst hsame
        by_cases hmem : stripTrailingSlash entry.1 ∈ resources <;> simp [hmem]
      · have hbeq := beq_false_of_ne hsame
        simp [hsame, hbeq]

/-- The handler that was registered first keeps the resource. -/
theorem getElem?_addResources (entries : List (String × α)) (registered : String) :
    (addResources entries)[registered]? =
      (entries.find? fun entry => stripTrailingSlash entry.1 == registered).map Prod.snd := by
  rw [addResources, getElem?_foldl_addResource, Std.TreeMap.getElem?_emptyc, Option.none_or]

theorem mem_addResources (entries : List (String × α)) (registered : String) :
    registered ∈ addResources entries ↔ ∃ entry ∈ entries, stripTrailingSlash entry.1 = registered := by
  rw [Std.TreeMap.mem_iff_isSome_getElem?, getElem?_addResources, Option.isSome_map, List.find?_isSome]
  simp only [beq_iff_eq]

/-- **Dispatch.** Whatever resources were registered, in whatever order, a request reaches the handler that was
registered first for the longest registered path in front of the path of the request. -/
theorem dispatch_iff (entries : List (String × α)) (resource : String) (handler : α) :
    findRequestHandler (addResources entries) resource = some handler ↔
      ∃ registered,
        (entries.find? fun entry => stripTrailingSlash entry.1 == registered).map Prod.snd = some handler ∧
          pathOf registered <+: pathOf resource ∧
          ∀ entry ∈ entries, pathOf (stripTrailingSlash entry.1) <+: pathOf resource →
            pathOf (stripTrailingSlash entry.1) <+: pathOf registered := by
  rw [findRequestHandler_eq_some_iff]
  refine exists_congr fun registered => and_congr ?_ (and_congr_right fun _ => ?_)
  · rw [getElem?_addResources]
  · constructor
    · intro h entry hentry
      exact h _ ((mem_addResources entries _).mpr ⟨entry, hentry, rfl⟩)
    · intro h other hother
      obtain ⟨entry, hentry, rfl⟩ := (mem_addResources entries other).mp hother
      exact h entry hentry

end HTTPServer

end Brainslug
