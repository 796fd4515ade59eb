import Brainslug.JsonRoundTrip
import Brainslug.StoredDocument

/-! Source files of test databases. If the file holds what the library prints of the document of a database, after
whatever it was asked, the constructor loads that document, unless a name in it should have been escaped. -/

namespace Brainslug

open Json

namespace Json.Reader

/-- Reading into an empty object is reading an element that is an object. -/
theorem readObject_nil_iff (format : NumberFormat) (text : List Char) (object : Object) :
    readObject format [] text = .ok object ↔ read format text = .ok (.object object) := by
  constructor
  · intro h
    obtain ⟨tokens, hscan, h1⟩ := exists_of_bind_ok h
    obtain ⟨⟨object', rest⟩, hparse, hend⟩ := exists_of_bind_ok h1
    obtain ⟨members, pre, rfl, rfl, hspells, hwell, hnodup⟩ := (sound format _).object (by exact List.nodup_nil) hparse
    cases rest with
    | nil =>
        obtain rfl := Except.ok.inj hend
        rw [List.append_nil] at hscan
        exact read_of_spells hscan hspells (wellFormed_object.mpr ⟨hnodup, hwell⟩)
    | cons token rest => cases hend
  · intro h
    obtain ⟨tokens, hscan, hspells, hwell⟩ := spells_of_read h
    obtain ⟨hnodup, hmembers⟩ := wellFormed_object.mp hwell
    have hparse := (complete format (fuelFor tokens)).object [] [] hspells hmembers hnodup (by unfold fuelFor; omega)
    rw [List.append_nil] at hparse
    rw [readObject, bind_of_eq_ok hscan, bind_of_eq_ok hparse]
    rfl

end Json.Reader

/-! ### Assigned members -/

namespace Json

theorem membersWellFormed_iff {members : List (String × UnknownElement)} :
    membersWellFormed members ↔ ∀ member ∈ members, member.2.WellFormed := by
  induction members with
  | nil =>
      rw [membersWellFormed]
      exact iff_of_true trivial (List.forall_mem_nil _)
  | cons member members ih => rw [membersWellFormed, List.forall_mem_cons, ih]

theorem membersNumbers_eq (members : List (String × UnknownElement)) :
    membersNumbers members = members.flatMap fun member => member.2.numbers := by
  induction members with
  | nil => rfl
  | cons member members ih => rw [membersNumbers, ih, List.flatMap_cons]

theorem membersNames_eq (members : List (String × UnknownElement)) :
    membersNames members = members.flatMap fun member => member.1 :: member.2.names := by
  induction members with
  | nil => rfl
  | cons member members ih => rw [membersNames, ih, List.flatMap_cons]

theorem wellFormed_assign {object : Object} (h : (UnknownElement.object object).WellFormed) (name : String)
    {element : UnknownElement} (helement : element.WellFormed) :
    (UnknownElement.object (Assoc.assign object name element)).WellFormed := by
  obtain ⟨hnodup, hmembers⟩ := Reader.wellFormed_object.mp h
  refine Reader.wellFormed_object.mpr ⟨Assoc.nodup_keys_assign hnodup name element, membersWellFormed_iff.mpr ?_⟩
  intro member hmember
  obtain heq | hmem := Assoc.mem_assign hmember
  · rw [heq]
    exact helement
  · exact membersWellFormed_iff.mp hmembers member hmem

theorem mem_numbers_assign {object : Object} {name : String} {element : UnknownElement} {bits : UInt64}
    (h : bits ∈ (UnknownElement.object (Assoc.assign object name element)).numbers) :
    bits ∈ element.numbers ∨ bits ∈ (UnknownElement.object object).numbers := by
  rw [UnknownElement.numbers, membersNumbers_eq] at h ⊢
  obtain ⟨member, hmember, hbits⟩ := List.mem_flatMap.mp h
  obtain rfl | hmem := Assoc.mem_assign hmember
  · exact Or.inl hbits
  · exact Or.inr (List.mem_flatMap.mpr ⟨member, hmem, hbits⟩)

theorem mem_names_assign {object : Object} {name name' : String} {element : UnknownElement}
    (h : name' ∈ (UnknownElement.object (Assoc.assign object name element)).names) :
    name' = name ∨ name' ∈ element.names ∨ name' ∈ (UnknownElement.object object).names := by
  rw [UnknownElement.names, membersNames_eq] at h
  obtain ⟨member, hmember, hname⟩ := List.mem_flatMap.mp h
  obtain rfl | hmem := Assoc.mem_assign hmember
  · exact (List.mem_cons.mp hname).imp_right Or.inl
  · rw [UnknownElement.names, membersNames_eq]
    exact Or.inr (Or.inr (List.mem_flatMap.mpr ⟨member, hmem, hname⟩))

end Json

namespace TestDB

variable (format : NumberFormat) (exceptionOf : Reader.Failure → Exception)

/-- What the constructor finds in its file, when the library reads it. -/
def readFiles (texts : String → Option (List Char)) (name : String) : Option (Except Exception Object) :=
  (texts name).map fun text => (Reader.readObject format [] text).mapError exceptionOf

variable {format exceptionOf}

theorem construct_readFiles {texts : String → Option (List Char)} {source : String} (hsource : source ≠ "")
    {text : List Char} (htext : texts (source ++ ".json") = some text) (doc : Object) :
    construct (readFiles format exceptionOf texts) source = .ok ⟨doc, source⟩ ↔
      Reader.read format text = .ok (.object doc) := by
  have hfile : readFiles format exceptionOf texts (source ++ ".json") =
      some ((Reader.readObject format [] text).mapError exceptionOf) := by rw [readFiles, htext, Option.map_some]
  rw [← Reader.readObject_nil_iff]
  simp only [construct, if_neg hsource, hfile]
  cases Reader.readObject format [] text with
  | error e => exact iff_of_false (fun h => by cases h) (fun h => by cases h)
  | ok object => simp [Except.mapError, Except.map]

theorem contentOf_of_not_hasContent {db : TestDB} (h : ¬ db.HasContent) : (contentOf db.doc).2 = [] := by
  rw [contentOf, Object.ensure, Assoc.ensure]
  dsimp only
  split_ifs with hmem
  · cases hlookup : db.doc.lookup "content" with
    | none => rfl
    | some element =>
        cases element with
        | array items => exact absurd ⟨items, hlookup⟩ h
        | _ => rfl
  · rw [List.lookup_append, Assoc.lookup_eq_none_of_notMem hmem]
    rfl

/-- What queries may store is an empty content. -/
theorem settled_cases (db : TestDB) :
    db.settled = db ∨ db.settled.doc = Assoc.assign db.doc "content" (.array []) := by
  by_cases hcontent : db.HasContent
  · exact Or.inl (settled_of_hasContent hcontent)
  · right
    rw [settled_doc, contentOf_of_not_hasContent hcontent]

/-- Queries leave the document as the library can hold it, with the numbers that it had, and they bring no names
but the one of the content. -/
theorem run_members (db : TestDB) (queries : List Query) (hwell : (UnknownElement.object db.doc).WellFormed) :
    (UnknownElement.object (StepTrace.run next db queries).doc).WellFormed ∧
      (∀ bits ∈ (UnknownElement.object (StepTrace.run next db queries).doc).numbers,
        bits ∈ (UnknownElement.object db.doc).numbers) ∧
      ∀ name ∈ (UnknownElement.object (StepTrace.run next db queries).doc).names,
        name = "content" ∨ name ∈ (UnknownElement.object db.doc).names := by
  have hunchanged : (UnknownElement.object db.doc).WellFormed ∧
      (∀ bits ∈ (UnknownElement.object db.doc).numbers, bits ∈ (UnknownElement.object db.doc).numbers) ∧
      ∀ name ∈ (UnknownElement.object db.doc).names, name = "content" ∨ name ∈ (UnknownElement.object db.doc).names :=
    ⟨hwell, fun _ hbits => hbits, fun _ hname => Or.inr hname⟩
  rw [run_eq]
  split_ifs
  · obtain hsame | hdoc := settled_cases db
    · rw [hsame]
      exact hunchanged
    · have hempty : (UnknownElement.array []).WellFormed := Reader.wellFormed_array.mpr trivial
      rw [hdoc]
      refine ⟨wellFormed_assign hwell "content" hempty, fun bits hbits => ?_, fun name hname => ?_⟩
      · exact (mem_numbers_assign hbits).resolve_left List.not_mem_nil
      · exact (mem_names_assign hname).imp_right fun hname => hname.resolve_left List.not_mem_nil
  · exact hunchanged

theorem source_run (db : TestDB) (queries : List Query) : (StepTrace.run next db queries).source = db.source := by
  rw [run_eq]
  split_ifs <;> rfl

/-- **Source files load as they were printed.** From the printed document of a database, after any queries, the
constructor makes the same database, exactly when no name in the document should have been escaped; and queries
bring no such name. -/
theorem construct_saved_iff (format : NumberFormat) (exceptionOf : Reader.Failure → Exception) (db : TestDB)
    (queries : List Query) (hsource : db.source ≠ "") (hwell : (UnknownElement.object db.doc).WellFormed)
    (hnumbers : ∀ bits ∈ (UnknownElement.object db.doc).numbers, Reader.RoundTrips format bits)
    (texts : String → Option (List Char)) (hsaved : texts (db.source ++ ".json") =
      some (Writer.write format (.object (StepTrace.run next db queries).doc))) :
    (construct (readFiles format exceptionOf texts) db.source = .ok (StepTrace.run next db queries) ↔
      ∀ name ∈ (UnknownElement.object (StepTrace.run next db queries).doc).names, Plain name) ∧
    ((∀ name ∈ (UnknownElement.object db.doc).names, Plain name) →
      ∀ name ∈ (UnknownElement.object (StepTrace.run next db queries).doc).names, Plain name) := by
  obtain ⟨hwell', hsame, hnames⟩ := run_members db queries hwell
  have hnumbers' : ∀ bits ∈ (UnknownElement.object (StepTrace.run next db queries).doc).numbers,
      Reader.RoundTrips format bits := fun bits hbits => hnumbers bits (hsame bits hbits)
  have hmk : StepTrace.run next db queries = ⟨(StepTrace.run next db queries).doc, db.source⟩ := by
    rw [← source_run db queries]
  constructor
  · rw [hmk, construct_readFiles hsource hsaved]
    exact ⟨Reader.plain_of_read_write hwell' hnumbers', Reader.read_write_of_plain hwell' hnumbers'⟩
  · intro hplain name hname
    have hcontent : Plain "content" := by decide
    obtain rfl | hmem := hnames name hname
    · exact hcontent
    · exact hplain name hmem

/-- A document with a number and without items. -/
def countedShows : TestDB := ⟨[("count", .number 0x4000000000000000), ("content", .null)], "tvshows"⟩

/-- After a show was asked for. -/
def askedForShow : TestDB := StepTrace.run next countedShows [.selectWhere "tvshows" ("id", "2")]

/-- The file with the document. -/
def showsFile (name : String) : Option (List Char) :=
  if name = "tvshows.json" then some (Writer.write .wholeNumbers (.object askedForShow.doc)) else none

theorem construct_saved_iff_shows :
    (construct (readFiles .wholeNumbers (fun _ => ⟨""⟩) showsFile) "tvshows" = .ok askedForShow ↔
      ∀ name ∈ (UnknownElement.object askedForShow.doc).names, Plain name) ∧
    ((∀ name ∈ (UnknownElement.object countedShows.doc).names, Plain name) →
      ∀ name ∈ (UnknownElement.object askedForShow.doc).names, Plain name) :=
  construct_saved_iff .wholeNumbers (fun _ => ⟨""⟩) countedShows [.selectWhere "tvshows" ("id", "2")] (by decide)
    (by simp [countedShows, UnknownElement.WellFormed, membersWellFormed])
    (List.forall_mem_singleton.mpr Reader.roundTrips_two) showsFile rfl

end TestDB

end Brainslug
