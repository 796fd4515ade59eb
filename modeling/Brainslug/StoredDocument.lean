import Brainslug.StepTrace
import Brainslug.TestDB

/-! The document of a test database under its queries. A query by key reaches for the content with operators
that insert and convert, so the first one on the database's own source leaves a document with an array as
content, and no later query changes that document any more. -/

namespace Brainslug.TestDB

open Json

/-- The queries of a test database. -/
inductive Query where
  | select (fromSource : String)
  | selectWhere (fromSource : String) (query : String × String)

/-- The answer to a query, and the database that the query leaves. -/
def ask (db : TestDB) : Query → Object × TestDB
  | .select fromSource => (db.select fromSource, db)
  | .selectWhere fromSource query => db.selectWhere fromSource query

def answer (db : TestDB) (q : Query) : Object := (db.ask q).1

def next (db : TestDB) (q : Query) : TestDB := (db.ask q).2

/-- The document has an array as content. -/
def HasContent (db : TestDB) : Prop := ∃ items, db.doc.lookup "content" = some (.array items)

/-- The database once its content was reached for. -/
def settled (db : TestDB) : TestDB := { db with doc := (contentOf db.doc).1 }

/-- The query goes by key through the items of the source. -/
def Query.filters (source : String) : Query → Bool
  | .select _ => false
  | .selectWhere fromSource _ => fromSource == source

/-! ### One query -/

/-- Inserting and converting amount to assigning the array that is found, or an empty one. -/
theorem settled_doc (db : TestDB) :
    db.settled.doc = Assoc.assign db.doc "content" (.array (contentOf db.doc).2) := by
  rw [← Assoc.overwrite_ensure "content" _ .null db.doc]
  rfl

theorem lookup_settled (db : TestDB) : db.settled.doc.lookup "content" = some (.array (contentOf db.doc).2) := by
  rw [settled_doc, Assoc.lookup_assign_self]

theorem hasContent_settled (db : TestDB) : db.settled.HasContent := ⟨_, db.lookup_settled⟩

theorem settled_doc_eq_iff (db : TestDB) : db.settled.doc = db.doc ↔ db.HasContent := by
  rw [settled_doc, Assoc.assign_eq_self_iff]
  constructor
  · intro h
    exact ⟨_, h⟩
  · rintro ⟨items, hitems⟩
    rw [contentOf_of_array hitems, hitems]

theorem settled_of_hasContent {db : TestDB} (h : db.HasContent) : db.settled = db := by
  have hdoc := (settled_doc_eq_iff db).mpr h
  rw [settled] at hdoc ⊢
  dsimp only at hdoc
  rw [hdoc]

/-- **One query.** It settles the document if it goes by key through the database's own source. -/
theorem next_eq (db : TestDB) (q : Query) : db.next q = if q.filters db.source then db.settled else db := by
  cases q with
  | select fromSource => rfl
  | selectWhere fromSource query =>
      by_cases hsource : fromSource = db.source
      · have hfilters : (Query.selectWhere fromSource query).filters db.source = true := beq_iff_eq.mpr hsource
        rw [if_pos hfilters, next, ask, selectWhere, if_pos hsource]
        rfl
      · have hfilters : ¬(Query.selectWhere fromSource query).filters db.source = true :=
          fun h => hsource (beq_iff_eq.mp h)
        rw [if_neg hfilters, next, ask, selectWhere, if_neg hsource]

theorem next_settled (db : TestDB) (q : Query) : db.settled.next q = db.settled := by
  rw [next_eq, settled_of_hasContent db.hasContent_settled, ite_self]

/-- A query by key reaches the same items before and after. -/
theorem answer_settled_selectWhere (db : TestDB) (fromSource : String) (query : String × String) :
    db.settled.answer (.selectWhere fromSource query) = db.answer (.selectWhere fromSource query) := by
  by_cases hsource : fromSource = db.source
  · subst hsource
    have hsettled := selectWhere_self db.settled query
    rw [contentOf_of_array db.lookup_settled, ← selectWhere_self db query] at hsettled
    exact hsettled
  · have hother : ¬fromSource = db.settled.source := hsource
    simp only [answer, ask, selectWhere, if_neg hsource, if_neg hother]

theorem answer_select_self (db : TestDB) : db.answer (.select db.source) = db.doc := if_pos rfl

theorem answer_settled_select (db : TestDB) {fromSource : String} (hsource : fromSource ≠ db.source) :
    db.settled.answer (.select fromSource) = db.answer (.select fromSource) := by
  have hother : fromSource ≠ db.settled.source := hsource
  simp only [answer, ask, select, if_neg hsource, if_neg hother]

/-- A settled document answers as before, except when it is asked for as a whole. -/
theorem answer_settled_eq_iff (db : TestDB) (q : Query) :
    db.settled.answer q = db.answer q ↔ db.HasContent ∨ q ≠ .select db.source := by
  cases q with
  | select fromSource =>
      by_cases hsource : fromSource = db.source
      · subst hsource
        have hsettled : db.settled.answer (.select db.source) = db.settled.doc := answer_select_self db.settled
        rw [hsettled, answer_select_self, settled_doc_eq_iff]
        simp
      · refine ⟨fun _ => Or.inr fun heq => ?_, fun _ => answer_settled_select db hsource⟩
        exact hsource (Query.select.inj heq)
  | selectWhere fromSource query =>
      exact ⟨fun _ => Or.inr Query.noConfusion, fun _ => answer_settled_selectWhere db fromSource query⟩

/-! ### Sequences of queries -/

/-- The sequence leaves the stored document as it was. -/
def KeepsDoc (db : TestDB) (queries : List Query) : Prop := (StepTrace.run next db queries).doc = db.doc

/-- Each query of the sequence is answered as it would be at the start. -/
def KeepsAnswers (db : TestDB) (queries : List Query) : Prop :=
  ∀ t ∈ StepTrace.trace next db queries, t.before.answer t.call = db.answer t.call

/-- After a sequence of queries the document is settled if one of them went by key through it. -/
theorem run_eq (db : TestDB) (queries : List Query) :
    StepTrace.run next db queries = if queries.any (Query.filters db.source) then db.settled else db := by
  induction queries with
  | nil => rfl
  | cons q queries ih =>
      rw [StepTrace.run_cons, next_eq, List.any_cons]
      cases q.filters db.source with
      | true =>
          rw [if_pos rfl, Bool.true_or, if_pos rfl]
          exact StepTrace.run_of_fixed next (next_settled db) queries
      | false =>
          rw [if_neg Bool.false_ne_true, Bool.false_or, ih]

theorem keepsDoc_iff (db : TestDB) (queries : List Query) :
    db.KeepsDoc queries ↔ db.HasContent ∨ ∀ q ∈ queries, q.filters db.source = false := by
  rw [KeepsDoc, run_eq]
  cases hany : queries.any (Query.filters db.source) with
  | true =>
      obtain ⟨q, hq, hfilters⟩ := List.any_eq_true.mp hany
      rw [if_pos rfl, settled_doc_eq_iff]
      refine ⟨Or.inl, fun h => h.resolve_right fun hnone => ?_⟩
      rw [hnone q hq] at hfilters
      cases hfilters
  | false =>
      rw [if_neg Bool.false_ne_true]
      refine ⟨fun _ => Or.inr fun q hq => ?_, fun _ => rfl⟩
      exact Bool.eq_false_iff.mpr (List.any_eq_false.mp hany q hq)

theorem keepsAnswers_iff (db : TestDB) (queries : List Query) :
    db.KeepsAnswers queries ↔ db.HasContent ∨
      queries.Pairwise fun earlier later => earlier.filters db.source = true → later ≠ .select db.source := by
  unfold KeepsAnswers
  induction queries with
  | nil => simp
  | cons q queries ih =>
      rw [StepTrace.trace_cons, List.forall_mem_cons, and_iff_right rfl, next_eq, List.pairwise_cons]
      cases q.filters db.source with
      | true =>
          -- from here on the document is settled
          rw [if_pos rfl, StepTrace.trace_of_fixed next (next_settled db), List.forall_mem_map]
          simp only [answer_settled_eq_iff, forall_const]
          constructor
          · intro hall
            by_cases hcontent : db.HasContent
            · exact Or.inl hcontent
            · have hnone : ∀ later ∈ queries, later ≠ .select db.source :=
                fun later hlater => (hall later hlater).resolve_left hcontent
              exact Or.inr ⟨hnone, List.pairwise_of_forall_mem_list fun _ _ later hlater _ => hnone later hlater⟩
          · rintro (hcontent | ⟨hnone, -⟩) later hlater
            · exact Or.inl hcontent
            · exact Or.inr (hnone later hlater)
      | false =>
          rw [if_neg Bool.false_ne_true, ih]
          simp

/-- **When queries do not disturb the database.** The stored document stays as it was exactly when it has an
array as content or no query goes by key through the database's own source, and the answers do not
depend on the queries before them exactly when it has one or no such query comes before one for the whole
document. -/
theorem undisturbed_iff (db : TestDB) (queries : List Query) :
    (db.KeepsDoc queries ↔ db.HasContent ∨ ∀ q ∈ queries, q.filters db.source = false) ∧
      (db.KeepsAnswers queries ↔ db.HasContent ∨
        queries.Pairwise fun earlier later => earlier.filters db.source = true → later ≠ .select db.source) :=
  ⟨keepsDoc_iff db queries, keepsAnswers_iff db queries⟩

/-- Without a file for the movies, asking for a movie stores a content, and the document shows it from then on. -/
theorem emptyMovies_disturbed :
    ∃ db, construct (fun _ => none) "movies" = .ok db ∧
      ¬db.KeepsDoc [.selectWhere "movies" ("id", "1")] ∧
      ¬db.KeepsAnswers [.selectWhere "movies" ("id", "1"), .select "movies"] := by
  refine ⟨⟨[], "movies"⟩, rfl, ?_, ?_⟩
  · intro hkeeps
    cases hkeeps
  · intro hkeeps
    have hlast := hkeeps _ (List.mem_cons_of_mem _ List.mem_cons_self)
    cases hlast

end Brainslug.TestDB
