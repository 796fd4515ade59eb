import Brainslug.ResourceHandler

/-! The five resources: the tables, the query keys, the statements and the test data of each handler. -/

set_option maxRecDepth 20000

namespace Brainslug

open Sql

namespace MoviesResourceHandler

def sanitizedKeys : List (String × String) :=
  [("id", "movie_id"), ("name", "movie_name"), ("coverUrl", "movie_coverurl"), ("imdbId", "movie_imdbid")]

def declaration : Schema where
  name := "movies"
  columns := [⟨"movie_id", .integer, false⟩, ⟨"movie_name", .text, true⟩, ⟨"movie_imdbid", .text, false⟩,
    ⟨"movie_coverurl", .text, false⟩]
  primaryKey := some "movie_id"
  uniques := []
  foreignKeys := []

def insert (id : Nat) (name imdbid coverurl : String) : Insert where
  table := "movies"
  columns := ["movie_id", "movie_name", "movie_imdbid", "movie_coverurl"]
  values := [.integer id, .text name, .text imdbid, .text coverurl]

end MoviesResourceHandler

def moviesResourceHandler : ResourceHandler where
  createStatement := "create table if not exists movies (movie_id integer primary key asc autoincrement, movie_name text not null, movie_imdbid text, movie_coverurl text);"
  createFailure := "Unable to initialize movies table in cache db. Reason: "
  keys := MoviesResourceHandler.sanitizedKeys
  viewStatement := "select movie_id as id, movie_name as name, movie_imdbid as imdbId, movie_coverurl as coverUrl from movies"
  testData :=
    ["insert into movies(movie_id,movie_name,movie_imdbid,movie_coverurl) values (1, 'Sex and the City', 'tt10000774', 'http://www.pursepage.com/wp-content/uploads/2008/01/sex-and-the-city-movie-poster.jpg');",
     "insert into movies(movie_id,movie_name,movie_imdbid,movie_coverurl) values (2, 'Twilight', 'tt1099212', 'http://juiceboxdotcom.com/wp-content/themes/mimbo2.2/images//twilight-movie-poster.jpg');"]
  schema := MoviesResourceHandler.declaration
  select := ⟨[("movie_id", "id"), ("movie_name", "name"), ("movie_imdbid", "imdbId"), ("movie_coverurl", "coverUrl")],
    "movies"⟩
  inserts :=
    [MoviesResourceHandler.insert 1 "Sex and the City" "tt10000774"
       "http://www.pursepage.com/wp-content/uploads/2008/01/sex-and-the-city-movie-poster.jpg",
     MoviesResourceHandler.insert 2 "Twilight" "tt1099212"
       "http://juiceboxdotcom.com/wp-content/themes/mimbo2.2/images//twilight-movie-poster.jpg"]
  parse_createStatement := (parse_ofList _).trans rfl
  parse_viewStatement := (parse_ofList _).trans rfl
  parse_listStatement := (parse_append _ _).trans rfl
  parse_testData := congrArg₂ List.cons ((parse_ofList _).trans rfl) (congrArg₂ List.cons ((parse_ofList _).trans rfl) rfl)
  keys_nodup := by decide
  columns_nodup := by decide
  select_table := rfl
  columns_declared := by decide
  primaryKey_isSome := rfl
  inserts_accepted := by decide

namespace MovieSourcesResourceHandler

def sanitizedKeys : List (String × String) := [("id", "msrc_id"), ("url", "msrc_url"), ("movie", "movie_id")]

def declaration : Schema where
  name := "moviesources"
  columns := [⟨"msrc_id", .integer, false⟩, ⟨"movie_id", .integer, true⟩, ⟨"msrc_url", .text, false⟩]
  primaryKey := some "msrc_id"
  uniques := []
  foreignKeys := [⟨"movie_id", "movies", "movie_id"⟩]

def insert (id movie : Nat) (url : String) : Insert where
  table := "moviesources"
  columns := ["msrc_id", "movie_id", "msrc_url"]
  values := [.integer id, .integer movie, .text url]

end MovieSourcesResourceHandler

def movieSourcesResourceHandler : ResourceHandler where
  createStatement := "create table if not exists moviesources (msrc_id integer primary key asc autoincrement, movie_id integer not null, msrc_url text, foreign key(movie_id) references movies(movie_id));"
  createFailure := "Unable to initialize movie_sources table in cache db. Reason: "
  keys := MovieSourcesResourceHandler.sanitizedKeys
  viewStatement := "select msrc_id as id, msrc_url as url, movie_id as movie from moviesources"
  testData :=
    ["insert into moviesources(msrc_id,movie_id,msrc_url) values(1, 1, 'http://movies.apple.com/media/us/iphone/2010/ads/apple-iphone4-meet_her-us-20100711_r848-9cie.mov');",
     "insert into moviesources(msrc_id,movie_id,msrc_url) values(2, 2, 'http://movies.apple.com/media/us/iphone/2010/ads/apple-iphone4-meet_her-us-20100711_r848-9cie.mov');"]
  schema := MovieSourcesResourceHandler.declaration
  select := ⟨[("msrc_id", "id"), ("msrc_url", "url"), ("movie_id", "movie")], "moviesources"⟩
  inserts :=
    [MovieSourcesResourceHandler.insert 1 1
       "http://movies.apple.com/media/us/iphone/2010/ads/apple-iphone4-meet_her-us-20100711_r848-9cie.mov",
     MovieSourcesResourceHandler.insert 2 2
       "http://movies.apple.com/media/us/iphone/2010/ads/apple-iphone4-meet_her-us-20100711_r848-9cie.mov"]
  parse_createStatement := (parse_ofList _).trans rfl
  parse_viewStatement := (parse_ofList _).trans rfl
  parse_listStatement := (parse_append _ _).trans rfl
  parse_testData := congrArg₂ List.cons ((parse_ofList _).trans rfl) (congrArg₂ List.cons ((parse_ofList _).trans rfl) rfl)
  keys_nodup := by decide
  columns_nodup := by decide
  select_table := rfl
  columns_declared := by decide
  primaryKey_isSome := rfl
  inserts_accepted := by decide

namespace TVShowsResourceHandler

def sanitizedKeys : List (String × String) :=
  [("id", "show_id"), ("coverUrl", "show_coverurl"), ("name", "show_name"), ("imdbId", "show_imdbid")]

def declaration : Schema where
  name := "tvshows"
  columns := [⟨"show_id", .integer, false⟩, ⟨"show_name", .text, true⟩, ⟨"show_imdbid", .text, false⟩,
    ⟨"show_coverurl", .text, false⟩]
  primaryKey := some "show_id"
  uniques := []
  foreignKeys := []

def insert (id : Nat) (name imdbid coverurl : String) : Insert where
  table := "tvshows"
  columns := ["show_id", "show_name", "show_imdbid", "show_coverurl"]
  values := [.integer id, .text name, .text imdbid, .text coverurl]

end TVShowsResourceHandler

def tvShowsResourceHandler : ResourceHandler where
  createStatement := "create table if not exists tvshows (show_id integer primary key asc autoincrement, show_name text not null, show_imdbid text, show_coverurl text);"
  createFailure := "Unable to initialize tvshows table in cache db. Reason: "
  keys := TVShowsResourceHandler.sanitizedKeys
  viewStatement := "select show_id as id, show_imdbid as imdbId, show_name as name, show_coverurl as coverUrl from tvshows"
  testData :=
    ["insert into tvshows (show_id,show_name,show_imdbid,show_coverurl) values (1, 'Desperate Housewives', 'tt0410975', 'http://getvideoartwork.com/gallery/main.php?g2_view=core.DownloadItem&g2_itemId=8131&g2_serialNumber=2');",
     "insert into tvshows (show_id,show_name,show_imdbid,show_coverurl) values (2, 'Sex and the City', 'tt0159206', 'http://getvideoartwork.com/gallery/main.php?g2_view=core.DownloadItem&g2_itemId=70729&g2_serialNumber=1');"]
  schema := TVShowsResourceHandler.declaration
  select := ⟨[("show_id", "id"), ("show_imdbid", "imdbId"), ("show_name", "name"), ("show_coverurl", "coverUrl")],
    "tvshows"⟩
  inserts :=
    [TVShowsResourceHandler.insert 1 "Desperate Housewives" "tt0410975"
       "http://getvideoartwork.com/gallery/main.php?g2_view=core.DownloadItem&g2_itemId=8131&g2_serialNumber=2",
     TVShowsResourceHandler.insert 2 "Sex and the City" "tt0159206"
       "http://getvideoartwork.com/gallery/main.php?g2_view=core.DownloadItem&g2_itemId=70729&g2_serialNumber=1"]
  parse_createStatement := (parse_ofList _).trans rfl
  parse_viewStatement := (parse_ofList _).trans rfl
  parse_listStatement := (parse_append _ _).trans rfl
  parse_testData := congrArg₂ List.cons ((parse_ofList _).trans rfl) (congrArg₂ List.cons ((parse_ofList _).trans rfl) rfl)
  keys_nodup := by decide
  columns_nodup := by decide
  select_table := rfl
  columns_declared := by decide
  primaryKey_isSome := rfl
  inserts_accepted := by decide

namespace SeasonsResourceHandler

def sanitizedKeys : List (String × String) :=
  [("id", "season_id"), ("number", "season_number"), ("coverUrl", "season_coverurl"), ("tvShow", "tvshow_id")]

def declaration : Schema where
  name := "seasons"
  columns := [⟨"season_id", .integer, false⟩, ⟨"season_number", .integer, true⟩, ⟨"season_coverurl", .text, false⟩,
    ⟨"tvshow_id", .integer, true⟩]
  primaryKey := some "season_id"
  uniques := [["season_number", "tvshow_id"]]
  foreignKeys := [⟨"tvshow_id", "tvshows", "show_id"⟩]

def insert (id number : Nat) (coverurl : String) (tvshow : Nat) : Insert where
  table := "seasons"
  columns := ["season_id", "season_number", "season_coverurl", "tvshow_id"]
  values := [.integer id, .integer number, .text coverurl, .integer tvshow]

end SeasonsResourceHandler

def seasonsResourceHandler : ResourceHandler where
  createStatement := "create table if not exists seasons (season_id integer primary key asc autoincrement, season_number integer not null, season_coverurl text, tvshow_id integer not null, foreign key(tvshow_id) references tvshows(show_id), unique (season_number,tvshow_id));"
  createFailure := "Unable to initialize seasons table in cache db. Reason: "
  keys := SeasonsResourceHandler.sanitizedKeys
  viewStatement := "select season_id as id, season_number as number, season_coverurl as coverUrl, tvshow_id as tvShow from seasons"
  testData :=
    ["insert into seasons(season_id,season_number,season_coverurl,tvshow_id) values (1,1,'http://getvideoartwork.com/gallery/main.php?g2_view=core.DownloadItem&g2_itemId=8131&g2_serialNumber=2',1);",
     "insert into seasons(season_id,season_number,season_coverurl,tvshow_id) values (2,2,'http://getvideoartwork.com/gallery/main.php?g2_view=core.DownloadItem&g2_itemId=8131&g2_serialNumber=2',1);",
     "insert into seasons(season_id,season_number,season_coverurl,tvshow_id) values (3,3,'http://getvideoartwork.com/gallery/main.php?g2_view=core.DownloadItem&g2_itemId=8131&g2_serialNumber=3',2);",
     "insert into seasons(season_id,season_number,season_coverurl,tvshow_id) values (4,4,'http://getvideoartwork.com/gallery/main.php?g2_view=core.DownloadItem&g2_itemId=8131&g2_serialNumber=2',2);"]
  schema := SeasonsResourceHandler.declaration
  select := ⟨[("season_id", "id"), ("season_number", "number"), ("season_coverurl", "coverUrl"), ("tvshow_id", "tvShow")],
    "seasons"⟩
  inserts :=
    [SeasonsResourceHandler.insert 1 1
       "http://getvideoartwork.com/gallery/main.php?g2_view=core.DownloadItem&g2_itemId=8131&g2_serialNumber=2" 1,
     SeasonsResourceHandler.insert 2 2
       "http://getvideoartwork.com/gallery/main.php?g2_view=core.DownloadItem&g2_itemId=8131&g2_serialNumber=2" 1,
     SeasonsResourceHandler.insert 3 3
       "http://getvideoartwork.com/gallery/main.php?g2_view=core.DownloadItem&g2_itemId=8131&g2_serialNumber=3" 2,
     SeasonsResourceHandler.insert 4 4
       "http://getvideoartwork.com/gallery/main.php?g2_view=core.DownloadItem&g2_itemId=8131&g2_serialNumber=2" 2]
  parse_createStatement := (parse_ofList _).trans rfl
  parse_viewStatement := (parse_ofList _).trans rfl
  parse_listStatement := (parse_append _ _).trans rfl
  parse_testData := congrArg₂ List.cons ((parse_ofList _).trans rfl) (congrArg₂ List.cons ((parse_ofList _).trans rfl)
    (congrArg₂ List.cons ((parse_ofList _).trans rfl) (congrArg₂ List.cons ((parse_ofList _).trans rfl) rfl)))
  keys_nodup := by decide
  columns_nodup := by decide
  select_table := rfl
  columns_declared := by decide
  primaryKey_isSome := rfl
  inserts_accepted := by decide

namespace EpisodesResourceHandler

def sanitizedKeys : List (String × String) :=
  [("id", "episode_id"), ("number", "episode_number"), ("tvShow", "tvshow_id"), ("season", "season_id")]

def declaration : Schema where
  name := "episodes"
  columns := [⟨"episode_id", .integer, false⟩, ⟨"episode_number", .integer, true⟩, ⟨"tvshow_id", .integer, true⟩,
    ⟨"season_id", .integer, true⟩, ⟨"episode_name", .text, false⟩, ⟨"episode_imdbid", .text, false⟩,
    ⟨"episode_imageurl", .text, false⟩]
  primaryKey := some "episode_id"
  uniques := [["episode_number", "season_id", "tvshow_id"]]
  foreignKeys := [⟨"season_id", "seasons", "season_id"⟩, ⟨"tvshow_id", "tvshows", "tvshow_id"⟩]

def insert (id number : Nat) (name : String) (tvshow season : Nat) : Insert where
  table := "episodes"
  columns := ["episode_id", "episode_number", "episode_name", "tvshow_id", "season_id"]
  values := [.integer id, .integer number, .text name, .integer tvshow, .integer season]

end EpisodesResourceHandler

def episodesResourceHandler : ResourceHandler where
  createStatement := "create table if not exists episodes (episode_id integer primary key asc autoincrement, episode_number integer not null, tvshow_id integer not null, season_id integer not null, episode_name text, episode_imdbid text, episode_imageurl text, foreign key(season_id) references seasons(season_id), foreign key(tvshow_id) references tvshows(tvshow_id), unique (episode_number,season_id,tvshow_id));"
  createFailure := "Unable to initialize episodes table in cache db. Reason: "
  keys := EpisodesResourceHandler.sanitizedKeys
  viewStatement := "select episode_id as id, episode_name as name, episode_imdbid as imdbId, episode_number as number, season_id as season, tvshow_id as tvShow from episodes"
  testData :=
    ["insert into episodes(episode_id,episode_number,episode_name,tvshow_id,season_id) values (1,1,'Pilot',1,1);",
     "insert into episodes(episode_id,episode_number,episode_name,tvshow_id,season_id) values (2,2,'The story begins!',1,1);",
     "insert into episodes(episode_id,episode_number,episode_name,tvshow_id,season_id) values (3,1,'The story continues!',2,1);",
     "insert into episodes(episode_id,episode_number,episode_name,tvshow_id,season_id) values (4,1,'Pilot!',3,2);"]
  schema := EpisodesResourceHandler.declaration
  select := ⟨[("episode_id", "id"), ("episode_name", "name"), ("episode_imdbid", "imdbId"), ("episode_number", "number"),
    ("season_id", "season"), ("tvshow_id", "tvShow")], "episodes"⟩
  inserts :=
    [EpisodesResourceHandler.insert 1 1 "Pilot" 1 1, EpisodesResourceHandler.insert 2 2 "The story begins!" 1 1,
     EpisodesResourceHandler.insert 3 1 "The story continues!" 2 1, EpisodesResourceHandler.insert 4 1 "Pilot!" 3 2]
  parse_createStatement := (parse_ofList _).trans rfl
  parse_viewStatement := (parse_ofList _).trans rfl
  parse_listStatement := (parse_append _ _).trans rfl
  parse_testData := congrArg₂ List.cons ((parse_ofList _).trans rfl) (congrArg₂ List.cons ((parse_ofList _).trans rfl)
    (congrArg₂ List.cons ((parse_ofList _).trans rfl) (congrArg₂ List.cons ((parse_ofList _).trans rfl) rfl)))
  keys_nodup := by decide
  columns_nodup := by decide
  select_table := rfl
  columns_declared := by decide
  primaryKey_isSome := rfl
  inserts_accepted := by decide

/-- The resources of the server. -/
inductive Resource where
  | movies
  | movieSources
  | tvShows
  | seasons
  | episodes
  deriving DecidableEq

def Resource.handler : Resource → ResourceHandler
  | .movies => moviesResourceHandler
  | .movieSources => movieSourcesResourceHandler
  | .tvShows => tvShowsResourceHandler
  | .seasons => seasonsResourceHandler
  | .episodes => episodesResourceHandler

end Brainslug
