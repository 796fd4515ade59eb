import Brainslug.StartUp

/-! Referential integrity across a start-up. The rows of the test data that refer to movies and shows find
them, because a refused movie or show is refused by one with its id. A season can also be refused by
another season with its number and show, and two of the episodes name a season of another show. -/

namespace Brainslug

open Sql

/-- Every row of the child table has a row of the parent table with its value. -/
def References (d : Database) (child : ResourceHandler) (column : String) (parent : ResourceHandler)
    (parentColumn : String) : Prop :=
  ∀ row ∈ (child.tableIn d).rows, ∃ p ∈ (parent.tableIn d).rows,
    parent.schema.cell p parentColumn = child.schema.cell row column

instance (d : Database) (child : ResourceHandler) (column : String) (parent : ResourceHandler) (parentColumn : String) :
    Decidable (References d child column parent parentColumn) := by unfold References; infer_instance

/-- The references between the five tables, and the show of an episode being that of its season. -/
structure ReferentialIntegrity (d : Database) : Prop where
  movieOfSource : References d movieSourcesResourceHandler "movie_id" moviesResourceHandler "movie_id"
  showOfSeason : References d seasonsResourceHandler "tvshow_id" tvShowsResourceHandler "show_id"
  seasonOfEpisode : References d episodesResourceHandler "season_id" seasonsResourceHandler "season_id"
  showOfEpisode : References d episodesResourceHandler "tvshow_id" tvShowsResourceHandler "show_id"
  sameShow : ∀ episode ∈ (episodesResourceHandler.tableIn d).rows,
    ∀ season ∈ (seasonsResourceHandler.tableIn d).rows,
    seasonsResourceHandler.schema.cell season "season_id" = episodesResourceHandler.schema.cell episode "season_id" →
      seasonsResourceHandler.schema.cell season "tvshow_id" = episodesResourceHandler.schema.cell episode "tvshow_id"

namespace FrontendServer

variable {d : Database} {h : ResourceHandler}

theorem mem_handlers (r : Resource) : r.handler ∈ handlers := by
  cases r <;> simp [handlers, Resource.handler]

theorem seedRows_pairwise : ∀ h ∈ handlers, h.seedRows.Pairwise fun row row' => ¬h.schema.Clash row row' := by
  decide

/-- The rows of a table after the start-up: the rows before it, and those of the test data that no row
before it refuses. -/
theorem mem_rows_started (hwf : WellFormed handlers d) (hmem : h ∈ handlers) {row : Row} :
    row ∈ (h.tableIn (started handlers d)).rows ↔ row ∈ (h.tableIn d).rows ∨
      (row ∈ h.seedRows ∧ ¬Offer.Blocked h.schema.Clash (h.tableIn d).rows row) := by
  obtain ⟨hschema, -⟩ := hwf.tableIn hmem
  have hrows : (h.tableIn (started handlers d)).rows =
      Offer.offerAll h.schema.Clash (h.tableIn d).rows h.seedRows := by
    rw [ResourceHandler.tableIn, started_self names_nodup hwf hmem, Option.getD_some, Table.offer]
    simp only [hschema]
  rw [hrows, Offer.mem_offerAll_iff h.schema.Clash (seedRows_pairwise h hmem)]

theorem exists_of_mem_seedRows (hwf : WellFormed handlers d) (hmem : h ∈ handlers) {column : String}
    (hkeys : h.schema.keys = [[column]]) {row : Row} (hrow : row ∈ h.seedRows) :
    ∃ p ∈ (h.tableIn (started handlers d)).rows, h.schema.cell p column = h.schema.cell row column := by
  by_cases hblocked : Offer.Blocked h.schema.Clash (h.tableIn d).rows row
  · obtain ⟨p, hp, key, hkey, hagree⟩ := hblocked
    rw [hkeys, List.mem_singleton] at hkey
    subst hkey
    exact ⟨p, (mem_rows_started hwf hmem).mpr (Or.inl hp), (hagree column (List.mem_singleton.mpr rfl)).2⟩
  · exact ⟨row, (mem_rows_started hwf hmem).mpr (Or.inr ⟨hrow, hblocked⟩), rfl⟩

theorem references_started (hwf : WellFormed handlers d) {child parent : ResourceHandler} (hchild : child ∈ handlers)
    (hparent : parent ∈ handlers) {column parentColumn : String} (hbefore : References d child column parent parentColumn)
    (hseeds : ∀ row ∈ child.seedRows, ¬Offer.Blocked child.schema.Clash (child.tableIn d).rows row →
      ∃ p ∈ (parent.tableIn (started handlers d)).rows,
        parent.schema.cell p parentColumn = child.schema.cell row column) :
    References (started handlers d) child column parent parentColumn := by
  intro row hrow
  rcases (mem_rows_started hwf hchild).mp hrow with hold | ⟨hseed, hfree⟩
  · obtain ⟨p, hp, heq⟩ := hbefore row hold
    exact ⟨p, (mem_rows_started hwf hparent).mpr (Or.inl hp), heq⟩
  · exact hseeds row hseed hfree

theorem references_started_of_seeds (hwf : WellFormed handlers d) {child parent : ResourceHandler}
    (hchild : child ∈ handlers) (hparent : parent ∈ handlers) {column parentColumn : String}
    (hkeys : parent.schema.keys = [[parentColumn]]) (hbefore : References d child column parent parentColumn)
    (hseeds : ∀ row ∈ child.seedRows, ∃ p ∈ parent.seedRows,
      parent.schema.cell p parentColumn = child.schema.cell row column) :
    References (started handlers d) child column parent parentColumn := by
  refine references_started hwf hchild hparent hbefore fun row hrow _ => ?_
  obtain ⟨p, hp, heq⟩ := hseeds row hrow
  obtain ⟨p', hp', heq'⟩ := exists_of_mem_seedRows hwf hparent hkeys hp
  exact ⟨p', hp', heq'.trans heq⟩

/-- Every episode of the test data that is not refused has its season, stored before or of the test data
and not refused either, with its show. -/
def SeedEpisodesFit (d : Database) : Prop :=
  ∀ episode ∈ episodesResourceHandler.seedRows,
    ¬Offer.Blocked episodesResourceHandler.schema.Clash (episodesResourceHandler.tableIn d).rows episode →
    ∃ season, (season ∈ (seasonsResourceHandler.tableIn d).rows ∨ (season ∈ seasonsResourceHandler.seedRows ∧
        ¬Offer.Blocked seasonsResourceHandler.schema.Clash (seasonsResourceHandler.tableIn d).rows season)) ∧
      seasonsResourceHandler.schema.cell season "season_id" = episodesResourceHandler.schema.cell episode "season_id" ∧
      seasonsResourceHandler.schema.cell season "tvshow_id" = episodesResourceHandler.schema.cell episode "tvshow_id"

def HasSeason (d : Database) (episode : Row) : Prop :=
  ∃ season ∈ (seasonsResourceHandler.tableIn d).rows,
    seasonsResourceHandler.schema.cell season "season_id" = episodesResourceHandler.schema.cell episode "season_id" ∧
    seasonsResourceHandler.schema.cell season "tvshow_id" = episodesResourceHandler.schema.cell episode "tvshow_id"

theorem seedEpisodesFit_iff (hwf : WellFormed handlers d) :
    SeedEpisodesFit d ↔ ∀ episode ∈ episodesResourceHandler.seedRows,
      ¬Offer.Blocked episodesResourceHandler.schema.Clash (episodesResourceHandler.tableIn d).rows episode →
        HasSeason (started handlers d) episode := by
  have hmem : seasonsResourceHandler ∈ handlers := mem_handlers .seasons
  simp only [SeedEpisodesFit, HasSeason, mem_rows_started hwf hmem]

theorem hasSeason_of_integrity (hri : ReferentialIntegrity d) {episode : Row}
    (hepisode : episode ∈ (episodesResourceHandler.tableIn d).rows) : HasSeason d episode := by
  obtain ⟨season, hseason, heq⟩ := hri.seasonOfEpisode episode hepisode
  exact ⟨season, hseason, heq, hri.sameShow episode hepisode season hseason heq⟩

theorem hasSeason_started (hwf : WellFormed handlers d) (hri : ReferentialIntegrity d) (hfit : SeedEpisodesFit d)
    {episode : Row} (hepisode : episode ∈ (episodesResourceHandler.tableIn (started handlers d)).rows) :
    HasSeason (started handlers d) episode := by
  have hepisodes : episodesResourceHandler ∈ handlers := mem_handlers .episodes
  have hseasons : seasonsResourceHandler ∈ handlers := mem_handlers .seasons
  rcases (mem_rows_started hwf hepisodes).mp hepisode with hold | ⟨hseed, hfree⟩
  · obtain ⟨season, hseason, heq⟩ := hasSeason_of_integrity hri hold
    exact ⟨season, (mem_rows_started hwf hseasons).mpr (Or.inl hseason), heq⟩
  · exact (seedEpisodesFit_iff hwf).mp hfit episode hseed hfree

theorem integrity_started (hwf : WellFormed handlers d) (hri : ReferentialIntegrity d) (hfit : SeedEpisodesFit d) :
    ReferentialIntegrity (started handlers d) := by
  have hmovies : moviesResourceHandler ∈ handlers := mem_handlers .movies
  have hsources : movieSourcesResourceHandler ∈ handlers := mem_handlers .movieSources
  have hshows : tvShowsResourceHandler ∈ handlers := mem_handlers .tvShows
  have hseasons : seasonsResourceHandler ∈ handlers := mem_handlers .seasons
  have hepisodes : episodesResourceHandler ∈ handlers := mem_handlers .episodes
  have hshowOfSeason : References (started handlers d) seasonsResourceHandler "tvshow_id" tvShowsResourceHandler "show_id" :=
    references_started_of_seeds hwf hseasons hshows rfl hri.showOfSeason (by decide)
  refine ⟨?_, hshowOfSeason, ?_, ?_, ?_⟩
  · exact references_started_of_seeds hwf hsources hmovies rfl hri.movieOfSource (by decide)
  · intro episode hepisode
    obtain ⟨season, hseason, hid, -⟩ := hasSeason_started hwf hri hfit hepisode
    exact ⟨season, hseason, hid⟩
  · intro episode hepisode
    obtain ⟨season, hseason, -, hshow⟩ := hasSeason_started hwf hri hfit hepisode
    obtain ⟨p, hp, heq⟩ := hshowOfSeason season hseason
    exact ⟨p, hp, heq.trans hshow⟩
  · intro episode hepisode season hseason hid
    -- the season is the one the episode has, since their ids agree
    obtain ⟨season', hseason', hid', hshow'⟩ := hasSeason_started hwf hri hfit hepisode
    obtain ⟨hschema, hconsistent⟩ := (wellFormed_started names_nodup hwf).tableIn hseasons
    have hkey : (seasonsResourceHandler.tableIn (started handlers d)).schema.primaryKey = some "season_id" := by
      rw [hschema]
      rfl
    have hcell : (seasonsResourceHandler.tableIn (started handlers d)).schema.cell season "season_id" =
        (seasonsResourceHandler.tableIn (started handlers d)).schema.cell season' "season_id" := by
      rw [hschema, hid, hid']
    rw [hconsistent.eq_of_primaryKey hkey hseason hseason' hcell]
    exact hshow'

/-- **When start-up preserves referential integrity.** Exactly when every episode of the test data is refused,
or finds a season with its season id and its show among the stored seasons and those of the test data
that are not refused. -/
theorem construct_integrity_iff (lib : Library) (hstores : ∀ h ∈ handlers, lib.Stores h) (s : lib.State)
    (hwf : WellFormed handlers (lib.file s)) (hri : ReferentialIntegrity (lib.file s)) :
    ∃ s', construct lib s = .ok s' ∧ (ReferentialIntegrity (lib.file s') ↔ SeedEpisodesFit (lib.file s)) := by
  obtain ⟨s', hs', hfile⟩ := construct_refines hstores s
  refine ⟨s', hs', ?_⟩
  rw [hfile]
  refine ⟨fun hri' => ?_, integrity_started hwf hri⟩
  rw [seedEpisodesFit_iff hwf]
  intro episode hseed hfree
  have hepisodes : episodesResourceHandler ∈ handlers := mem_handlers .episodes
  exact hasSeason_of_integrity hri' ((mem_rows_started hwf hepisodes).mpr (Or.inr ⟨hseed, hfree⟩))

theorem integrity_usedCache : ReferentialIntegrity usedCache where
  movieOfSource := by decide
  showOfSeason := by decide
  seasonOfEpisode := by decide
  showOfEpisode := by decide
  sameShow := by decide

theorem construct_integrity_iff_usedCache :
    ∃ d' : Database, construct (sqlEngine .decimal) usedCache = .ok d' ∧
      (ReferentialIntegrity d' ↔ SeedEpisodesFit usedCache) :=
  construct_integrity_iff (sqlEngine .decimal) (fun h _ => stores_sqlEngine .decimal h) usedCache wellFormed_usedCache
    integrity_usedCache

theorem integrity_noTables : ReferentialIntegrity noTables where
  movieOfSource row hrow := by cases hrow
  showOfSeason row hrow := by cases hrow
  seasonOfEpisode row hrow := by cases hrow
  showOfEpisode row hrow := by cases hrow
  sameShow episode hepisode := by cases hepisode

/-- In a new file the fourth episode refers to a show that is not there. -/
theorem integrity_lost :
    ReferentialIntegrity noTables ∧
      ∃ d' : Database, construct (sqlEngine .decimal) noTables = .ok d' ∧ ¬ReferentialIntegrity d' := by
  have hstores : ∀ h ∈ handlers, (sqlEngine .decimal).Stores h := fun h _ => stores_sqlEngine .decimal h
  obtain ⟨d', hd', rfl⟩ := construct_refines hstores noTables
  refine ⟨integrity_noTables, _, hd', fun hri => ?_⟩
  have hwf := wellFormed_noTables handlers
  have hepisodes : episodesResourceHandler ∈ handlers := mem_handlers .episodes
  have hshows : tvShowsResourceHandler ∈ handlers := mem_handlers .tvShows
  have hseed : ∃ episode ∈ episodesResourceHandler.seedRows,
      episodesResourceHandler.schema.cell episode "tvshow_id" = .integer 3 := by decide
  obtain ⟨episode, hmem, hshow⟩ := hseed
  have hfree : ¬Offer.Blocked episodesResourceHandler.schema.Clash
      (episodesResourceHandler.tableIn noTables).rows episode := by
    rintro ⟨row, hrow, -⟩
    cases hrow
  obtain ⟨p, hp, heq⟩ := hri.showOfEpisode episode ((mem_rows_started hwf hepisodes).mpr (Or.inr ⟨hmem, hfree⟩))
  have hshowSeeds : ∀ p ∈ tvShowsResourceHandler.seedRows,
      tvShowsResourceHandler.schema.cell p "show_id" ≠ .integer 3 := by decide
  rcases (mem_rows_started hwf hshows).mp hp with hold | ⟨hseed, -⟩
  · cases hold
  · exact hshowSeeds p hseed (heq.trans hshow)

end FrontendServer

end Brainslug
