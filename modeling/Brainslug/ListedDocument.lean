import Brainslug.Resources

/-! The document that lists rows. Each row becomes an object by assigning its columns in order, so a
repeated name keeps its place and takes the last value; rows that arrive before a failure are dropped
with the document they went into. -/

namespace Brainslug

def Json.UnknownElement.ofColumn : Option String → Json.UnknownElement
  | some value => .string value
  | none => .null

theorem Json.UnknownElement.ofColumn_injective : Function.Injective ofColumn := by
  intro value value' h
  cases value with
  | none =>
      cases value' with
      | none => rfl
      | some text => cases h
  | some text =>
      cases value' with
      | none => cases h
      | some text' => exact congrArg some (UnknownElement.string.inj h)

/-- The value in the last column of a name, if there is one of that name. -/
def RowCall.lastColumn (call : RowCall) (name : String) : Option (Option String) := List.lookup name call.reverse

namespace Lister

open Json (UnknownElement)

theorem setColumn_eq (item : Json.Object) (column : String × Option String) :
    setColumn item column = Assoc.assign item column.1 (.ofColumn column.2) := by
  unfold setColumn
  cases h : column.2 with
  | none => exact Json.Object.set_eq_assign item column.1 .null
  | some value => exact Json.Object.set_eq_assign item column.1 (.string value)

theorem item_eq (call : RowCall) :
    item call = Assoc.assignAll [] (call.map fun column => (column.1, UnknownElement.ofColumn column.2)) := by
  rw [item, Assoc.assignAll, List.foldl_map]
  exact List.foldl_ext _ _ _ fun item column _ => setColumn_eq item column

theorem keys_item (call : RowCall) : (item call).map Prod.fst = (call.map Prod.fst).eraseDups := by
  rw [item_eq, Assoc.keys_assignAll, List.map_map]
  rfl

theorem lookup_map_ofColumn (call : RowCall) (name : String) :
    (call.map fun column => (column.1, UnknownElement.ofColumn column.2)).lookup name =
      (List.lookup name call).map UnknownElement.ofColumn := by
  induction call with
  | nil => rfl
  | cons column call ih =>
      obtain ⟨name', value⟩ := column
      rw [List.map_cons, List.lookup_cons, List.lookup_cons]
      cases name == name' with
      | true => rfl
      | false => exact ih

theorem lookup_item (call : RowCall) (name : String) :
    (item call).lookup name = (call.lastColumn name).map UnknownElement.ofColumn := by
  rw [item_eq, Assoc.lookup_assignAll, ← List.map_reverse, lookup_map_ofColumn]
  rfl

theorem item_of_nodup {call : RowCall} (h : (call.map Prod.fst).Nodup) :
    item call = call.map fun column => (column.1, UnknownElement.ofColumn column.2) := by
  rw [item_eq, Assoc.assignAll_of_nodup _ _ (by simpa [Function.comp_def] using h), List.nil_append]

theorem item_inj {call call' : RowCall} (h : (call.map Prod.fst).Nodup) (h' : (call'.map Prod.fst).Nodup)
    (heq : item call = item call') : call = call' := by
  rw [item_of_nodup h, item_of_nodup h'] at heq
  have hinj : Function.Injective fun column : String × Option String =>
      (column.1, UnknownElement.ofColumn column.2) := by
    rintro ⟨name, value⟩ ⟨name', value'⟩ hpair
    have hname : name = name' := congrArg Prod.fst hpair
    have hvalue : value = value' := UnknownElement.ofColumn_injective (congrArg Prod.snd hpair)
    rw [hname, hvalue]
  exact hinj.list_map heq

theorem foldl_callback (calls : List RowCall) (l : Lister) :
    calls.foldl callback l = { l with content := l.content ++ calls.map fun call => .object (item call) } := by
  induction calls generalizing l with
  | nil => simp
  | cons call calls ih => simp [ih, callback]

def document (calls : List RowCall) : Json.Object :=
  [("content", .array (calls.map fun call => .object (item call))), ("error", .null)]

theorem finish_doc (calls : List RowCall) :
    ((calls.foldl callback initial).finish).doc = document calls := by
  rw [foldl_callback, initial, List.nil_append]
  rfl

theorem document_inj {calls calls' : List RowCall} (h : ∀ call ∈ calls, (call.map Prod.fst).Nodup)
    (h' : ∀ call ∈ calls', (call.map Prod.fst).Nodup) (heq : document calls = document calls') : calls = calls' := by
  simp only [document, List.cons.injEq, Prod.mk.injEq, UnknownElement.array.injEq, true_and, and_true] at heq
  induction calls generalizing calls' with
  | nil => exact (List.map_eq_nil_iff.mp heq.symm).symm
  | cons call calls ih =>
      cases calls' with
      | nil => cases heq
      | cons call' calls' =>
          simp only [List.map_cons, List.cons.injEq, UnknownElement.object.injEq] at heq
          rw [item_inj (h call List.mem_cons_self) (h' call' List.mem_cons_self) heq.1,
            ih (fun c hc => h c (List.mem_cons_of_mem _ hc)) (fun c hc => h' c (List.mem_cons_of_mem _ hc)) heq.2]

end Lister

namespace ResourceHandler

theorem respond_eq (executed : Executed) :
    respond executed = if executed.ok then
      [⟨200, "OK", .json (Lister.document executed.calls), true⟩] else [] := by
  simp only [respond, Lister.finish_doc]
  rfl

/-- An item of the document shows a row: one member for each distinct column name, in order of first
occurrence, null when the last column of the name was NULL and that text otherwise. -/
structure Shows (call : RowCall) (item : Json.Object) : Prop where
  names : item.map Prod.fst = (call.map Prod.fst).eraseDups
  null : ∀ name ∈ call.map Prod.fst, item.lookup name = some .null ↔ call.lastColumn name = some none
  text : ∀ name value, call.lastColumn name = some (some value) → item.lookup name = some (.string value)

theorem shows_item (call : RowCall) : Shows call (Lister.item call) where
  names := Lister.keys_item call
  null name _ := by
    rw [Lister.lookup_item, Option.map_eq_some_iff]
    constructor
    · rintro ⟨value, hvalue, hnull⟩
      rw [hvalue, Json.UnknownElement.ofColumn_injective (hnull.trans (rfl : _ = Json.UnknownElement.ofColumn none))]
    · intro hlast
      exact ⟨none, hlast, rfl⟩
  text name value hlast := by
    rw [Lister.lookup_item, hlast]
    rfl

/-- **The listed document is faithful and never partial.** If the database call succeeds, the one response
carries a null error and one item for each row, in order, that shows the row; if it fails, nothing is
sent. Two successful calls whose rows have distinct column names give the same document only if they
delivered the same rows. -/
theorem list_faithful (h : ResourceHandler) (db : DB) (request : Request) (executed : Executed)
    (hexecuted : (db.execute h.listStatement "" .bound ∅).result = .ok executed) :
    (executed.ok = true → ∃ items : List Json.Object,
        (h.list db request).result =
          .ok [⟨200, "OK", .json [("content", .array (items.map .object)), ("error", .null)], true⟩] ∧
        List.Forall₂ Shows executed.calls items) ∧
      (executed.ok = false → (h.list db request).result = .ok []) ∧
      ∀ (h' : ResourceHandler) (db' : DB) (request' : Request) (executed' : Executed) (r r' : Response),
        (db'.execute h'.listStatement "" .bound ∅).result = .ok executed' →
        (h.list db request).result = .ok [r] → (h'.list db' request').result = .ok [r'] →
        (∀ call ∈ executed.calls ++ executed'.calls, (call.map Prod.fst).Nodup) →
        r.payload = r'.payload → executed.calls = executed'.calls := by
  rw [list_eq, callDb_of_ok _ _ hexecuted, respond_eq]
  refine ⟨fun hok => ⟨executed.calls.map Lister.item, ?_, ?_⟩, fun hfails => ?_, ?_⟩
  · rw [if_pos hok, List.map_map]
    rfl
  · rw [List.forall₂_map_right_iff, List.forall₂_same]
    exact fun call _ => shows_item call
  · rw [if_neg (by simp [hfails])]
  · intro h' db' request' executed' r r' hexecuted' hr hr' hnodup hsame
    rw [list_eq, callDb_of_ok _ _ hexecuted', respond_eq] at hr'
    cases hok : executed.ok with
    | false => simp [hok] at hr
    | true =>
        cases hok' : executed'.ok with
        | false => simp [hok'] at hr'
        | true =>
            simp only [hok, hok', if_true, Except.ok.injEq, List.cons.injEq, and_true] at hr hr'
            subst hr hr'
            exact Lister.document_inj (fun call hcall => hnodup call (List.mem_append_left _ hcall))
              (fun call hcall => hnodup call (List.mem_append_right _ hcall)) (Payload.json.inj hsame)

def movieRows : List RowCall :=
  [[("id", some "1"), ("coverUrl", none)], [("id", some "2"), ("name", none), ("name", some "Twilight")]]

theorem list_faithful_movieRows :
    ∃ items : List Json.Object,
      (moviesResourceHandler.list (.ofOutcomes fun _ _ => ⟨movieRows, true, ""⟩)
          ⟨"/movies", "list", [("list", "")]⟩).result =
        .ok [⟨200, "OK", .json [("content", .array (items.map .object)), ("error", .null)], true⟩] ∧
      List.Forall₂ Shows movieRows items :=
  (list_faithful moviesResourceHandler (.ofOutcomes fun _ _ => ⟨movieRows, true, ""⟩)
    ⟨"/movies", "list", [("list", "")]⟩ ⟨movieRows, true, ""⟩ rfl).1 rfl

end ResourceHandler

end Brainslug
