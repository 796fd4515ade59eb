import Brainslug.ListedDocument
import Brainslug.Sanitizer

/-! Views as filters of lists. Over a database that evaluates its selects, a view shows the rows that
agree with the recognised parameters. It filters the list by its reported fields as far as every
reported field is a recognised key, which the episodes handler misses for two of them. -/

namespace Brainslug

open Sql

/-- The database evaluates the selects it is called with: the call returns true and delivers, in order,
the rows for which all the parameters hold. -/
def Evaluates (db : DB) (cells : Cells) (tables : Database) : Prop :=
  ∀ (query errorMessage : String) (sel : Select) (params : SanitizedParams) (calls : List RowCall),
    parse query = some (.select sel []) → tables.select cells sel params.toList = .ok calls →
      ∃ executed, (db.execute query errorMessage .bound params).result = .ok executed ∧
        executed.ok = true ∧ executed.calls = calls

namespace ResourceHandler

def contentOf (result : Except Fault (List Response)) : Option (List Json.UnknownElement) :=
  match result with
  | .ok [⟨_, _, .json doc, _⟩] =>
      match doc.lookup "content" with
      | some (.array content) => some content
      | _ => none
  | _ => none

variable (h : ResourceHandler) (cells : Cells)

/-- The fields that the list reports, with the columns they show. -/
def reportedFields : List (String × String) := h.select.items.map Prod.swap

def shown (row : Row) : Json.UnknownElement := .object (Lister.item (h.schema.project cells h.select row))

/-- For every parameter whose key is one of the fields, the row has that value in the column of the field. -/
def Meets (fields : List (String × String)) (params : QueryParams) (row : Row) : Prop :=
  ∀ field ∈ fields, ∀ param ∈ params, param.1 = field.1 →
    cells.eq (h.schema.affinityOf field.2) (h.schema.cell row field.2) param.2 = true

instance (fields : List (String × String)) (params : QueryParams) : DecidablePred (h.Meets cells fields params) :=
  fun row => by unfold Meets; infer_instance

/-- The view shows, in order, the items of the list in which every reported field that is a parameter has
the value of the parameter. -/
def ViewFilters (db : DB) (rows : List Row) (listed viewed : Request) : Prop :=
  contentOf (h.list db listed).result = some (rows.map (h.shown cells)) ∧
    contentOf (h.view db viewed).result =
      some ((rows.filter (h.Meets cells h.reportedFields viewed.queryParams)).map (h.shown cells))

variable {h cells} {db : DB} {tables : Database} {rows : List Row}

theorem meets_append {fields fields' : List (String × String)} {params : QueryParams} {row : Row} :
    h.Meets cells (fields ++ fields') params row ↔
      h.Meets cells fields params row ∧ h.Meets cells fields' params row := by
  simp only [Meets, List.mem_append, or_imp, forall_and]

theorem Meets.mono {fields fields' : List (String × String)} (hsub : fields ⊆ fields') {params : QueryParams}
    {row : Row} (hmeets : h.Meets cells fields' params row) : h.Meets cells fields params row :=
  fun field hfield => hmeets field (hsub hfield)

theorem holds_sanitizeQueryParams_iff {params : QueryParams} (hnodup : (params.map Prod.fst).Nodup) (row : Row) :
    h.schema.Holds cells (sanitizeQueryParams h.keys params).toList row ↔ h.Meets cells h.keys params row := by
  constructor
  · rintro hholds ⟨key, column⟩ hkey ⟨key', value⟩ hparam rfl
    exact hholds (column, value) ((mem_toList_sanitizeQueryParams hnodup).mpr ⟨_, hkey, hparam⟩)
  · rintro hmeets ⟨column, value⟩ hmem
    obtain ⟨key, hkey, hparam⟩ := (mem_toList_sanitizeQueryParams hnodup).mp hmem
    exact hmeets (key, column) hkey (key, value) hparam rfl

theorem select_eq (htable : tables h.schema.name = some ⟨h.schema, rows⟩) {conditions : List (String × String)}
    (hcolumns : ∀ c ∈ conditions.map Prod.fst, c ∈ h.keys.map Prod.snd) :
    tables.select cells h.select conditions =
      .ok ((rows.filter (h.schema.Holds cells conditions)).map (h.schema.project cells h.select)) := by
  have hdeclared : ∀ c ∈ h.select.items.map Prod.fst ++ conditions.map Prod.fst, c ∈ h.schema.names := by
    intro c hc
    rcases List.mem_append.mp hc with hc | hc
    · exact h.columns_declared c (List.mem_append_left _ hc)
    · exact h.columns_declared c (List.mem_append_right _ (hcolumns c hc))
  unfold Database.select
  rw [h.select_table, htable]
  exact if_pos hdeclared

theorem parse_list (h : ResourceHandler) : parse h.listStatement = some (.select h.select []) :=
  h.parse_listStatement

theorem contentOf_callDb (hdb : Evaluates db cells tables) (htable : tables h.schema.name = some ⟨h.schema, rows⟩)
    {query : String} (hparse : parse query = some (.select h.select [])) {sq : SanitizedParams}
    (hcolumns : ∀ c ∈ sq.toList.map Prod.fst, c ∈ h.keys.map Prod.snd) :
    contentOf (callDb db (query, sq)).result =
      some ((rows.filter (h.schema.Holds cells sq.toList)).map (h.shown cells)) := by
  obtain ⟨executed, hexecuted, hok, hcalls⟩ := hdb query "" h.select sq _ hparse (select_eq htable hcolumns)
  rw [callDb_of_ok db (query, sq) hexecuted, respond_eq, if_pos hok, hcalls]
  simp only [contentOf, Lister.document, List.lookup_cons_self, List.map_map]
  rfl

theorem contentOf_list (hdb : Evaluates db cells tables) (htable : tables h.schema.name = some ⟨h.schema, rows⟩)
    (request : Request) : contentOf (h.list db request).result = some (rows.map (h.shown cells)) := by
  rw [list_eq, contentOf_callDb hdb htable h.parse_list (by intro c hc; cases hc)]
  congr 2
  exact List.filter_eq_self.mpr fun row _ => decide_eq_true fun c hc => by cases hc

/-- **A view shows the rows that agree with the recognised parameters.** -/
theorem contentOf_view (hdb : Evaluates db cells tables) (htable : tables h.schema.name = some ⟨h.schema, rows⟩)
    {request : Request} (hnodup : (request.queryParams.map Prod.fst).Nodup) :
    contentOf (h.view db request).result =
      some ((rows.filter (h.Meets cells h.keys request.queryParams)).map (h.shown cells)) := by
  have hcongr : rows.filter (h.schema.Holds cells (h.sanitized request).toList) =
      rows.filter (h.Meets cells h.keys request.queryParams) :=
    List.filter_congr fun row _ => decide_eq_decide.mpr (holds_sanitizeQueryParams_iff hnodup row)
  have hcolumns : ∀ c ∈ (h.sanitized request).toList.map Prod.fst,
      c ∈ h.keys.map Prod.snd := by
    intro c hc
    obtain ⟨⟨column, value⟩, hmem, rfl⟩ := List.mem_map.mp hc
    obtain ⟨key, hkey, -⟩ := (mem_toList_sanitizeQueryParams hnodup).mp hmem
    exact List.mem_map.mpr ⟨_, hkey, rfl⟩
  rw [view_eq, ← hcongr]
  split_ifs with hempty
  · -- without a recognised parameter the view is the list
    have hnil : (h.sanitized request).toList = [] := by
      rw [← List.isEmpty_iff, Std.TreeMap.isEmpty_toList, hempty]
    rw [contentOf_callDb hdb htable h.parse_list (by intro c hc; cases hc), hnil]
    rfl
  · exact contentOf_callDb hdb htable h.parse_viewStatement hcolumns

/-- Two filters, one implying the other, select the same images only if they select the same elements. -/
theorem map_filter_eq_iff {α β : Type} (f : α → β) {P Q : α → Prop} [DecidablePred P] [DecidablePred Q]
    (hPQ : ∀ x, P x → Q x) (xs : List α) :
    (xs.filter Q).map f = (xs.filter P).map f ↔ ∀ x ∈ xs, Q x → P x := by
  constructor
  · intro heq x hx hQ
    have hsub : (xs.filter P).Sublist (xs.filter Q) :=
      List.monotone_filter_right xs fun y hy => decide_eq_true (hPQ y (of_decide_eq_true hy))
    have hlen : (xs.filter P).length = (xs.filter Q).length := by
      simpa using congrArg List.length heq.symm
    have hmem : x ∈ xs.filter P := by
      rw [hsub.eq_of_length hlen]
      exact List.mem_filter.mpr ⟨hx, decide_eq_true hQ⟩
    exact of_decide_eq_true (List.mem_filter.mp hmem).2
  · intro hall
    congr 1
    exact List.filter_congr fun x hx => decide_eq_decide.mpr ⟨hall x hx, hPQ x⟩

theorem viewFilters_iff_meets (hkeys : h.keys ⊆ h.reportedFields) (hdb : Evaluates db cells tables)
    (htable : tables h.schema.name = some ⟨h.schema, rows⟩) {viewed : Request}
    (hnodup : (viewed.queryParams.map Prod.fst).Nodup) (listed : Request) :
    h.ViewFilters cells db rows listed viewed ↔
      ∀ row ∈ rows, h.Meets cells h.keys viewed.queryParams row →
        h.Meets cells h.reportedFields viewed.queryParams row := by
  rw [ViewFilters, contentOf_list hdb htable, contentOf_view hdb htable hnodup]
  simp only [Option.some.injEq, true_and]
  exact map_filter_eq_iff (h.shown cells) (fun row hmeets => hmeets.mono hkeys) rows

end ResourceHandler

namespace Resource

theorem keys_subset (r : Resource) : r.handler.keys ⊆ r.handler.reportedFields := by
  cases r <;> decide

/-- The reported fields of the episodes that are not recognised as keys. -/
def unrecognizedFields : List (String × String) := [("name", "episode_name"), ("imdbId", "episode_imdbid")]

theorem reportedFields_subset {r : Resource} (h : r ≠ .episodes) : r.handler.reportedFields ⊆ r.handler.keys := by
  cases r with
  | episodes => exact absurd rfl h
  | movies => decide
  | movieSources => decide
  | tvShows => decide
  | seasons => decide

theorem reportedFields_episodes :
    ∀ field, field ∈ Resource.episodes.handler.reportedFields ↔
      field ∈ Resource.episodes.handler.keys ++ unrecognizedFields := by
  have hsub : Resource.episodes.handler.reportedFields ⊆ Resource.episodes.handler.keys ++ unrecognizedFields := by
    decide
  have hsup : Resource.episodes.handler.keys ++ unrecognizedFields ⊆ Resource.episodes.handler.reportedFields := by
    decide
  exact fun field => ⟨fun h => hsub h, fun h => hsup h⟩

/-- **When a view is a filter of the list.** Always for the movies, their sources, the shows and the
seasons. For the episodes exactly when the rows that agree with the recognised parameters also agree with
a given name and a given imdbId. -/
theorem viewFilters_iff (r : Resource) (cells : Cells) (tables : Database) (rows : List Row) (db : DB)
    (listed viewed : Request) (hdb : Evaluates db cells tables)
    (htable : tables r.handler.schema.name = some ⟨r.handler.schema, rows⟩)
    (hnodup : (viewed.queryParams.map Prod.fst).Nodup) :
    r.handler.ViewFilters cells db rows listed viewed ↔
      (r = .episodes → ∀ row ∈ rows, r.handler.Meets cells r.handler.keys viewed.queryParams row →
        r.handler.Meets cells unrecognizedFields viewed.queryParams row) := by
  rw [ResourceHandler.viewFilters_iff_meets r.keys_subset hdb htable hnodup]
  by_cases hr : r = .episodes
  · subst hr
    have hsplit : ∀ row, Resource.episodes.handler.Meets cells Resource.episodes.handler.reportedFields
        viewed.queryParams row ↔ Resource.episodes.handler.Meets cells
          (Resource.episodes.handler.keys ++ unrecognizedFields) viewed.queryParams row := by
      intro row
      simp only [ResourceHandler.Meets, reportedFields_episodes]
    simp only [hsplit, ResourceHandler.meets_append]
    constructor
    · exact fun hall _ row hrow hmeets => (hall row hrow hmeets).2
    · exact fun hall row hrow hmeets => ⟨hmeets, hall trivial row hrow hmeets⟩
  · exact ⟨fun _ h => absurd h hr, fun _ row _ hmeets => hmeets.mono (reportedFields_subset hr)⟩

end Resource

/-! ### A database that evaluates its selects -/

def DB.evaluating (cells : Cells) (tables : Database) : DB where
  execute query errorMessage _ params := Effect.pure <|
    match parse query with
    | some (.select sel []) =>
        match tables.select cells sel params.toList with
        | .ok calls => ⟨calls, true, errorMessage⟩
        | .error message => ⟨[], false, message⟩
    | _ => ⟨[], false, "not a select"⟩

theorem evaluates_evaluating (cells : Cells) (tables : Database) : Evaluates (.evaluating cells tables) cells tables := by
  intro query errorMessage sel params calls hparse hselect
  refine ⟨⟨calls, true, errorMessage⟩, ?_, rfl, rfl⟩
  simp only [DB.evaluating, Effect.pure, hparse, hselect]

namespace Resource

def twoEpisodes : List Row :=
  [[.integer 1, .integer 1, .integer 1, .integer 1, .text "Pilot", .null, .null],
   [.integer 2, .integer 2, .integer 1, .integer 1, .text "The story begins!", .null, .null]]

def twoEpisodesTables (name : String) : Option Table :=
  if name = "episodes" then some ⟨episodesResourceHandler.schema, twoEpisodes⟩ else none

def viewPilot : Request := ⟨"/episodes", "view&season=1&name=Pilot", [("view", ""), ("season", "1"), ("name", "Pilot")]⟩

theorem viewFilters_iff_viewPilot :
    Resource.episodes.handler.ViewFilters Cells.decimal (.evaluating Cells.decimal twoEpisodesTables) twoEpisodes
        ⟨"/episodes", "list", [("list", "")]⟩ viewPilot ↔
      (Resource.episodes = .episodes → ∀ row ∈ twoEpisodes,
        Resource.episodes.handler.Meets Cells.decimal Resource.episodes.handler.keys viewPilot.queryParams row →
          Resource.episodes.handler.Meets Cells.decimal unrecognizedFields viewPilot.queryParams row) :=
  viewFilters_iff .episodes Cells.decimal twoEpisodesTables twoEpisodes (.evaluating Cells.decimal twoEpisodesTables)
    ⟨"/episodes", "list", [("list", "")]⟩ viewPilot (evaluates_evaluating _ _) rfl (by decide)

/-- The view of the episodes with a given name shows the other episodes of the season too. -/
theorem viewPilot_not_filtered :
    ¬Resource.episodes.handler.ViewFilters Cells.decimal (.evaluating Cells.decimal twoEpisodesTables) twoEpisodes
      ⟨"/episodes", "list", [("list", "")]⟩ viewPilot := by
  rintro ⟨-, hview⟩
  have htable : twoEpisodesTables Resource.episodes.handler.schema.name =
      some ⟨Resource.episodes.handler.schema, twoEpisodes⟩ := rfl
  rw [ResourceHandler.contentOf_view (evaluates_evaluating Cells.decimal twoEpisodesTables) htable (by decide)] at hview
  have hlen := congrArg (fun content => content.map List.length) hview
  simp only [Option.map_some, List.length_map] at hlen
  exact absurd hlen (by decide)

end Resource

end Brainslug
