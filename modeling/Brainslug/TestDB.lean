import Brainslug.AbortingFilter
import Brainslug.Elements

/-! `TestDB`: a database that is one JSON document, asked for all items of its source or for the items with a
given member. A query goes through the shared document with the non-const operators of the library, so
it is given the database and returns it as it leaves it. -/

namespace Brainslug

open Json

structure TestDB where
  doc : Object
  source : String

namespace TestDB

/-- The constructor with `createDoc`. For each name of a file, what comes of reading it: nothing when it does
not open, else a document, or what the reader throws. -/
def construct (files : String → Option (Except Exception Object)) (source : String) : Except Exception TestDB :=
  if source = "" then .ok ⟨[], source⟩
  else
    match files (source ++ ".json") with
    | none => .ok ⟨[], source⟩
    | some read => read.map fun doc => ⟨doc, source⟩

def unrecognizedSource (fromSource : String) : UnknownElement :=
  .string ("unrecognized db source: " ++ fromSource)

def select (db : TestDB) (fromSource : String) : Object :=
  if fromSource = db.source then db.doc else Object.set [] "error" (unrecognizedSource fromSource)

/-- What the loop asks of an item: it is an object, with a string under the key, that is the value. -/
def matchItem (key value : String) (element : UnknownElement) : Except Exception Bool := do
  let item ← element.castToObject
  let member ← item.get key
  let itemValue ← member.castToString
  return itemValue == value

/-- `const json::Array& content = (*doc())["content"]`: the document afterwards, and the array. -/
def contentOf (doc : Object) : Object × List UnknownElement :=
  let doc := doc.ensure "content"
  let content := ((doc.lookup "content").getD .null).convertToArray
  (Assoc.overwrite "content" (.array content) doc, content)

def selectWhere (db : TestDB) (fromSource : String) (query : String × String) : Object × TestDB :=
  let resultsDoc := Object.set [] "content" (.array [])
  if fromSource = db.source then
    let stored := contentOf db.doc
    let found := Aborting.filterLoop (matchItem query.1 query.2) [] stored.2
    -- the exception was caught outside the loop
    let resultsDoc := found.2.elim resultsDoc fun e => resultsDoc.set "error" (.string e.message)
    let resultsDoc := resultsDoc.set "content" (.array found.1)
    (if found.2.isSome then resultsDoc else resultsDoc.set "error" .null, { db with doc := stored.1 })
  else
    let resultsDoc := resultsDoc.set "error" (unrecognizedSource fromSource)
    (resultsDoc.set "content" (.array []), db)

theorem selectWhere_self (db : TestDB) (query : String × String) :
    (db.selectWhere db.source query).1 =
      [("content", .array (Aborting.filterLoop (matchItem query.1 query.2) [] (contentOf db.doc).2).1),
       ("error", ((Aborting.filterLoop (matchItem query.1 query.2) [] (contentOf db.doc).2).2.elim .null
          fun e => .string e.message))] := by
  unfold selectWhere
  rw [if_pos rfl]
  dsimp only
  cases (Aborting.filterLoop (matchItem query.1 query.2) [] (contentOf db.doc).2).2 with
  | none => rfl
  | some e => rfl

theorem contentOf_of_array {doc : Object} {items : List UnknownElement}
    (h : doc.lookup "content" = some (.array items)) : (contentOf doc).2 = items := by
  have hmem : "content" ∈ doc.map Prod.fst := by
    by_contra hnot
    rw [Assoc.lookup_eq_none_of_notMem hnot] at h
    cases h
  have hensure : doc.ensure "content" = doc := if_pos hmem
  simp only [contentOf, hensure, h]
  rfl

/-! ### The items that match -/

def hasString (key : String) (element : UnknownElement) : Bool :=
  match element with
  | .object item =>
      match item.lookup key with
      | some (.string _) => true
      | _ => false
  | _ => false

def hasValue (key value : String) (element : UnknownElement) : Bool :=
  match element with
  | .object item =>
      match item.lookup key with
      | some (.string itemValue) => itemValue == value
      | _ => false
  | _ => false

theorem matchItem_toOption (key value : String) (element : UnknownElement) :
    (matchItem key value element).toOption =
      if hasString key element then some (hasValue key value element) else none := by
  cases element with
  | object item =>
      change (Object.get item key >>= fun member =>
        member.castToString >>= fun itemValue => pure (itemValue == value)).toOption = _
      cases hmember : item.lookup key with
      | none =>
          simp only [Object.get, hasString, hmember]
          rfl
      | some member =>
          simp only [Object.get, hasString, hasValue, hmember]
          cases member <;> rfl
  | _ => rfl

theorem readable_matchItem (key value : String) :
    Aborting.readable (matchItem key value) = hasString key := by
  funext element
  rw [Aborting.readable, matchItem_toOption]
  cases hasString key element <;> rfl

theorem hasString_of_hasValue {key value : String} {element : UnknownElement}
    (h : hasValue key value element = true) : hasString key element = true := by
  cases element with
  | object item =>
      unfold hasValue at h
      unfold hasString
      cases hmember : item.lookup key with
      | none => simp [hmember] at h
      | some member =>
          cases member with
          | string itemValue => simp only [hmember]
          | _ => simp [hmember] at h
  | _ => cases h

theorem accepted_matchItem (key value : String) :
    Aborting.accepted (matchItem key value) = hasValue key value := by
  funext element
  rw [Aborting.accepted, matchItem_toOption]
  cases hstring : hasString key element with
  | true => rfl
  | false =>
      cases hvalue : hasValue key value element with
      | true => rw [hasString_of_hasValue hvalue] at hstring; cases hstring
      | false => rfl

/-! ### Queries on the database's own source -/

/-- The content is, in order, the sublist of the items with the value. -/
def KeepsMatches (db : TestDB) (items : List UnknownElement) (key value : String) : Prop :=
  (db.selectWhere db.source (key, value)).1.lookup "content" = some (.array (items.filter (hasValue key value)))

/-- Storing the items in another order only permutes the content. -/
def OnlyPermutes (db : TestDB) (items : List UnknownElement) (key value : String) : Prop :=
  ∀ (db' : TestDB) (items' : List UnknownElement), db'.doc.lookup "content" = some (.array items') →
    items'.Perm items → ∃ content content',
      (db.selectWhere db.source (key, value)).1.lookup "content" = some (.array content) ∧
      (db'.selectWhere db'.source (key, value)).1.lookup "content" = some (.array content') ∧ content'.Perm content

variable {db : TestDB} {items : List UnknownElement}

theorem lookup_content_selectWhere (hitems : db.doc.lookup "content" = some (.array items)) (key value : String) :
    (db.selectWhere db.source (key, value)).1.lookup "content" =
      some (.array (Aborting.filterLoop (matchItem key value) [] items).1) := by
  rw [selectWhere_self, contentOf_of_array hitems, List.lookup_cons_self]

theorem keepsMatches_iff (hitems : db.doc.lookup "content" = some (.array items)) (key value : String) :
    db.KeepsMatches items key value ↔
      items.Pairwise fun item later => hasString key item = false → hasValue key value later = false := by
  rw [KeepsMatches, lookup_content_selectWhere hitems, ← readable_matchItem key value,
    ← accepted_matchItem key value, ← Aborting.filterLoop_eq_filter_iff, Option.some.injEq, UnknownElement.array.injEq]

theorem onlyPermutes_iff (hitems : db.doc.lookup "content" = some (.array items)) (key value : String) :
    db.OnlyPermutes items key value ↔
      (∀ item ∈ items, hasString key item = true) ∨ ∀ item ∈ items, hasValue key value item = false := by
  rw [← readable_matchItem key value, ← accepted_matchItem key value, ← Aborting.filterLoop_perm_iff]
  constructor
  · intro hall items' hperm
    have hitems' : (TestDB.mk [("content", .array items')] db.source).doc.lookup "content" = some (.array items') :=
      List.lookup_cons_self
    obtain ⟨content, content', hcontent, hcontent', hsame⟩ := hall _ items' hitems' hperm
    rw [lookup_content_selectWhere hitems, Option.some.injEq, UnknownElement.array.injEq] at hcontent
    rw [lookup_content_selectWhere hitems', Option.some.injEq, UnknownElement.array.injEq] at hcontent'
    rw [hcontent, hcontent']
    exact hsame
  · intro hall db' items' hitems' hperm
    exact ⟨_, _, lookup_content_selectWhere hitems key value, lookup_content_selectWhere hitems' key value,
      hall items' hperm⟩

/-- **When a query loses no match.** The content holds every item with the value exactly when none of them
stands behind an item without a string under the key. Permuting the items only permutes the content exactly
when every item has a string under the key, or none has the value. -/
theorem selectWhere_content_iff (db : TestDB) (items : List UnknownElement) (key value : String)
    (hitems : db.doc.lookup "content" = some (.array items)) :
    (db.KeepsMatches items key value ↔
      items.Pairwise fun item later => hasString key item = false → hasValue key value later = false) ∧
    (db.OnlyPermutes items key value ↔
      (∀ item ∈ items, hasString key item = true) ∨ ∀ item ∈ items, hasValue key value item = false) :=
  ⟨keepsMatches_iff hitems key value, onlyPermutes_iff hitems key value⟩

def showItems : List UnknownElement :=
  [.object [("name", .string "Desperate Housewives")],
    .object [("id", .string "2"), ("name", .string "Sex and the City")]]

def showsWithoutId : TestDB where
  doc := [("content", .array showItems), ("error", .null)]
  source := "tvshows"

theorem selectWhere_content_iff_showsWithoutId :
    (showsWithoutId.KeepsMatches showItems "id" "2" ↔
      showItems.Pairwise fun item later => hasString "id" item = false → hasValue "id" "2" later = false) ∧
    (showsWithoutId.OnlyPermutes showItems "id" "2" ↔
      (∀ item ∈ showItems, hasString "id" item = true) ∨ ∀ item ∈ showItems, hasValue "id" "2" item = false) :=
  selectWhere_content_iff showsWithoutId showItems "id" "2" rfl

/-- The show asked for is lost behind the one without an id, and found in front of it. -/
theorem showsWithoutId_lost :
    ¬showsWithoutId.KeepsMatches showItems "id" "2" ∧ ¬showsWithoutId.OnlyPermutes showItems "id" "2" := by
  have hitems : showsWithoutId.doc.lookup "content" = some (.array showItems) := rfl
  rw [keepsMatches_iff hitems, onlyPermutes_iff hitems]
  constructor <;> decide

end TestDB

end Brainslug
