import Brainslug.SqlEngine
import Brainslug.StepTrace

/-! The constructor of `FrontendServer` on the file of the cache. Each handler creates its table when it is
constructed, then each inserts its test data. A statement that fails leaves the file as it was, and the
results of the inserts are not looked at, so the rows of the test data are offered to the tables. -/

namespace Brainslug

open Sql

/-- How the constructor can end the process: `exit(1)` after a message, or a fault nobody catches. -/
inductive Termination where
  | exit (message : String)
  | fault (fault : Fault)

namespace ResourceHandler

variable (lib : Library)

/-- `db->execute(text, errMsg)`, without callback and parameters. -/
def executeOn (s : lib.State) (text : String) : Effect Executed :=
  (SQLiteDB (lib.on s)).execute text "" .empty ∅

/-- The constructor of a handler. -/
def construct (s : lib.State) (h : ResourceHandler) : Except Termination lib.State :=
  let executing := executeOn lib s h.createStatement
  match executing.result with
  | .error fault => .error (.fault fault)
  | .ok executed =>
      if executed.ok then .ok (executing.leaves lib s)
      else .error (.exit (h.createFailure ++ executed.errorMessage))

/-- One statement of the test data; what it returns is ignored. -/
def insertTestData (s : lib.State) (text : String) : Except Termination lib.State :=
  let executing := executeOn lib s text
  match executing.result with
  | .error fault => .error (.fault fault)
  | .ok _ => .ok (executing.leaves lib s)

def initTestData (s : lib.State) (h : ResourceHandler) : Except Termination lib.State :=
  h.testData.foldlM (insertTestData lib) s

end ResourceHandler

def startUp (lib : Library) (handlers : List ResourceHandler) (s : lib.State) : Except Termination lib.State := do
  let s ← handlers.foldlM (ResourceHandler.construct lib) s
  handlers.foldlM (ResourceHandler.initTestData lib) s

namespace FrontendServer

/-- The handlers, in the order of the members and of the calls of `initTestData`. -/
def handlers : List ResourceHandler :=
  [moviesResourceHandler, movieSourcesResourceHandler, tvShowsResourceHandler, seasonsResourceHandler,
    episodesResourceHandler]

def construct (lib : Library) (s : lib.State) : Except Termination lib.State := startUp lib handlers s

/-- `k` starts one after the other. -/
def runs (lib : Library) : Nat → lib.State → Except Termination lib.State
  | 0, s => .ok s
  | k + 1, s => do
      let s ← runs lib k s
      construct lib s

end FrontendServer

/-! ### The start-up as offers -/

namespace ResourceHandler

variable {lib : Library} {h : ResourceHandler}

/-- A text that reports no rows is executed as it stands, and nothing is thrown. -/
theorem executeOn_of_no_rows {s : lib.State} {text : String} {statement : Statement}
    (hparse : parse text = some statement) (hrows : ((lib.on s).exec text).rows = []) :
    (executeOn lib s text).sql = [.exec text] ∧ ∃ calls message,
      (executeOn lib s text).result = .ok ⟨calls, ((lib.on s).exec text).failure.isNone, message⟩ := by
  have hempty : (∅ : SanitizedParams).isEmpty = true := Std.TreeMap.isEmpty_emptyc
  constructor
  · simp only [executeOn, SQLiteDB, SQLiteDB.execute, if_neg (ne_of_parse hparse), hempty]
    rfl
  · have hreported : (lib.on s).rowsReported text ∅ = 0 := by
      simp [SQLite.rowsReported, hrows]
    have hcompletes : (lib.on s).completes text ∅ = ((lib.on s).exec text).failure.isNone := by
      simp [SQLite.completes]
    obtain ⟨calls, hresult, -⟩ :=
      SQLiteDB.execute_returns (ne_of_parse hparse) (Or.inr hreported : ExecuteCallback.empty = .bound ∨ _) ""
    rw [hcompletes] at hresult
    exact ⟨calls, _, hresult⟩

theorem leaves_executeOn {s : lib.State} {text : String} (h : (executeOn lib s text).sql = [.exec text]) :
    (executeOn lib s text).leaves lib s = lib.after s (.exec text) := by
  rw [Effect.leaves, h, List.foldl_cons, List.foldl_nil]

theorem construct_refines (hstores : lib.Stores h) (s : lib.State) :
    ∃ s', construct lib s h = .ok s' ∧ lib.file s' = (lib.file s).create h.schema := by
  have hexec := hstores.exec_create s
  obtain ⟨hsql, calls, message, hresult⟩ :=
    executeOn_of_no_rows (s := s) h.parse_createStatement (congrArg ExecRun.rows hexec)
  rw [hexec] at hresult
  refine ⟨lib.after s (.exec h.createStatement), ?_, hstores.after_create s⟩
  simp only [construct, hresult, Option.isNone_none, if_true, leaves_executeOn hsql]

theorem insertTestData_refines (hstores : lib.Stores h) {entry : String × Insert}
    (hentry : entry ∈ h.testData.zip h.inserts) (s : lib.State) :
    ∃ s', insertTestData lib s entry.1 = .ok s' ∧ lib.file s' = (lib.file s).afterInsert entry.2 := by
  obtain ⟨hsql, calls, message, hresult⟩ :=
    executeOn_of_no_rows (parse_of_mem_zip h entry hentry) (hstores.exec_insert s entry hentry)
  refine ⟨lib.after s (.exec entry.1), ?_, hstores.after_insert s entry hentry⟩
  simp only [insertTestData, hresult, leaves_executeOn hsql]

theorem length_testData (h : ResourceHandler) : h.testData.length = h.inserts.length := by
  simpa using congrArg List.length h.parse_testData

theorem initTestData_refines (hstores : lib.Stores h) (s : lib.State) :
    ∃ s', initTestData lib s h = .ok s' ∧ lib.file s' = h.inserts.foldl Database.afterInsert (lib.file s) := by
  have htexts : (h.testData.zip h.inserts).map Prod.fst = h.testData := List.map_fst_zip h.length_testData.le
  have hinserts : (h.testData.zip h.inserts).map Prod.snd = h.inserts := List.map_snd_zip h.length_testData.ge
  obtain ⟨s', hs', hfile⟩ := StepTrace.foldlM_refines lib.file
    (f := fun s entry => insertTestData lib s entry.1) (g := fun d entry => d.afterInsert entry.2)
    (fun entry hentry s => insertTestData_refines hstores hentry s) s
  refine ⟨s', ?_, ?_⟩
  · rw [initTestData, ← htexts, List.foldlM_map]
    exact hs'
  · rw [hfile, ← hinserts, List.foldl_map, hinserts]

def seedRows (h : ResourceHandler) : List Row := h.inserts.map h.schema.rowOf

theorem fits_of_mem_seedRows {h : ResourceHandler} : ∀ row ∈ h.seedRows, h.schema.Fits row := by
  intro row hrow
  obtain ⟨ins, hins, rfl⟩ := List.mem_map.mp hrow
  exact (h.inserts_accepted ins hins).2.2.2

/-- The table of the handler in a file, if need be as it is created. -/
def tableIn (h : ResourceHandler) (d : Database) : Table := (d h.schema.name).getD ⟨h.schema, []⟩

end ResourceHandler

section

variable {hs : List ResourceHandler}

def started (hs : List ResourceHandler) (d : Database) : Database :=
  (hs.flatMap (·.inserts)).foldl Database.afterInsert (hs.foldl (fun d h => d.create h.schema) d)

/-- **The start-up never ends the process.** It creates the tables and attempts the inserts. -/
theorem startUp_refines {lib : Library} (hstores : ∀ h ∈ hs, lib.Stores h) (s : lib.State) :
    ∃ s', startUp lib hs s = .ok s' ∧ lib.file s' = started hs (lib.file s) := by
  obtain ⟨s1, hs1, hfile1⟩ := StepTrace.foldlM_refines lib.file (f := ResourceHandler.construct lib)
    (g := fun d h => d.create h.schema) (fun h hmem s => ResourceHandler.construct_refines (hstores h hmem) s) s
  obtain ⟨s', hs', hfile'⟩ := StepTrace.foldlM_refines lib.file (f := ResourceHandler.initTestData lib)
    (g := fun d h => h.inserts.foldl Database.afterInsert d)
    (fun h hmem s => ResourceHandler.initTestData_refines (hstores h hmem) s) s1
  refine ⟨s', ?_, ?_⟩
  · rw [startUp, hs1]
    exact hs'
  · rw [hfile', hfile1, started, List.foldl_flatMap]

theorem foldl_create_of_notMem {n : String} (hn : n ∉ hs.map (·.schema.name)) (d : Database) :
    hs.foldl (fun d h => d.create h.schema) d n = d n := by
  induction hs generalizing d with
  | nil => rfl
  | cons h hs ih =>
      rw [List.map_cons, List.mem_cons, not_or] at hn
      rw [List.foldl_cons, ih hn.2, Database.create_of_ne hn.1]

theorem foldl_create_self (hnames : (hs.map (·.schema.name)).Nodup) {h : ResourceHandler} (hmem : h ∈ hs)
    (d : Database) : hs.foldl (fun d h => d.create h.schema) d h.schema.name = some (h.tableIn d) := by
  induction hs generalizing d with
  | nil => cases hmem
  | cons h' hs ih =>
      obtain ⟨hnot, hnames⟩ := List.nodup_cons.mp hnames
      rw [List.foldl_cons]
      rcases List.mem_cons.mp hmem with rfl | hmem
      · rw [foldl_create_of_notMem hnot, Database.create_self]
        rfl
      · have hne : h.schema.name ≠ h'.schema.name := fun heq => hnot (List.mem_map.mpr ⟨h, hmem, heq⟩)
        rw [ih hnames hmem, ResourceHandler.tableIn, Database.create_of_ne hne]
        rfl

theorem filter_inserts (hnames : (hs.map (·.schema.name)).Nodup) {h : ResourceHandler} (hmem : h ∈ hs) :
    (hs.flatMap (·.inserts)).filter (·.table = h.schema.name) = h.inserts := by
  have hown : ∀ h' : ResourceHandler, h'.inserts.filter (·.table = h.schema.name) =
      if h'.schema.name = h.schema.name then h'.inserts else [] := by
    intro h'
    split_ifs with heq
    · exact List.filter_eq_self.mpr fun ins hins =>
        decide_eq_true ((h'.inserts_accepted ins hins).1.trans heq)
    · exact List.filter_eq_nil_iff.mpr fun ins hins => by
        simpa [(h'.inserts_accepted ins hins).1] using heq
  induction hs with
  | nil => cases hmem
  | cons h' hs ih =>
      obtain ⟨hnot, hnames⟩ := List.nodup_cons.mp hnames
      rw [List.flatMap_cons, List.filter_append, hown]
      rcases List.mem_cons.mp hmem with rfl | hmem
      · have hrest : (hs.flatMap (·.inserts)).filter (·.table = h.schema.name) = [] := by
          rw [List.filter_eq_nil_iff]
          intro ins hins htable
          obtain ⟨h'', hh'', hins⟩ := List.mem_flatMap.mp hins
          exact hnot (List.mem_map.mpr ⟨h'', hh'',
            (h''.inserts_accepted ins hins).1.symm.trans (of_decide_eq_true htable)⟩)
        rw [if_pos rfl, hrest, List.append_nil]
      · have hne : h'.schema.name ≠ h.schema.name := fun heq => hnot (List.mem_map.mpr ⟨h, hmem, heq.symm⟩)
        rw [if_neg hne, ih hnames hmem, List.nil_append]

/-! ### Files that can be started from -/

/-- Each table of the handlers is absent, or has the declared schema and rows within its constraints. -/
def WellFormed (hs : List ResourceHandler) (d : Database) : Prop :=
  ∀ h ∈ hs, ∀ t, d h.schema.name = some t → t.schema = h.schema ∧ t.Consistent

theorem WellFormed.tableIn {d : Database} (hwf : WellFormed hs d) {h : ResourceHandler} (hmem : h ∈ hs) :
    (h.tableIn d).schema = h.schema ∧ (h.tableIn d).Consistent := by
  unfold ResourceHandler.tableIn
  cases ht : d h.schema.name with
  | none => exact ⟨rfl, ⟨(fun _ hrow => nomatch hrow), List.Pairwise.nil⟩⟩
  | some t => exact hwf h hmem t ht

/-- **A table after the start-up.** The rows of the test data were offered to it. -/
theorem started_self (hnames : (hs.map (·.schema.name)).Nodup) {d : Database} (hwf : WellFormed hs d)
    {h : ResourceHandler} (hmem : h ∈ hs) : started hs d h.schema.name = some ((h.tableIn d).offer h.seedRows) := by
  obtain ⟨hschema, -⟩ := hwf.tableIn hmem
  rw [started, Database.foldl_afterInsert (foldl_create_self hnames hmem d), filter_inserts hnames hmem, hschema]
  · rfl
  · intro ins hins htable
    have hown : ins ∈ h.inserts := by
      rw [← filter_inserts hnames hmem]
      exact List.mem_filter.mpr ⟨hins, decide_eq_true htable⟩
    rw [hschema]
    exact (h.inserts_accepted ins hown).2

theorem started_of_notMem {d : Database} {n : String} (hn : n ∉ hs.map (·.schema.name)) : started hs d n = d n := by
  rw [started, Database.foldl_afterInsert_of_ne, foldl_create_of_notMem hn]
  rintro ins hins rfl
  obtain ⟨h, hmem, hins⟩ := List.mem_flatMap.mp hins
  exact hn (List.mem_map.mpr ⟨h, hmem, (h.inserts_accepted ins hins).1.symm⟩)

theorem wellFormed_started (hnames : (hs.map (·.schema.name)).Nodup) {d : Database} (hwf : WellFormed hs d) :
    WellFormed hs (started hs d) := by
  intro h hmem t ht
  obtain ⟨hschema, hconsistent⟩ := hwf.tableIn hmem
  rw [started_self hnames hwf hmem, Option.some.injEq] at ht
  subst ht
  refine ⟨hschema, hconsistent.offer ?_⟩
  rw [hschema]
  exact ResourceHandler.fits_of_mem_seedRows

/-- Nothing is lost: each table keeps its schema and its rows, which stay in front of any new ones. -/
theorem kept_started (hnames : (hs.map (·.schema.name)).Nodup) {d : Database} (hwf : WellFormed hs d) {n : String}
    {t : Table} (ht : d n = some t) : ∃ t', started hs d n = some t' ∧ t'.schema = t.schema ∧ t.rows <+: t'.rows := by
  by_cases hn : n ∈ hs.map (·.schema.name)
  · obtain ⟨h, hmem, rfl⟩ := List.mem_map.mp hn
    have htable : h.tableIn d = t := by rw [ResourceHandler.tableIn, ht, Option.getD_some]
    refine ⟨_, started_self hnames hwf hmem, ?_, ?_⟩
    · rw [htable]
      rfl
    · rw [htable]
      exact Offer.isPrefix_offerAll _ _ _
  · exact ⟨t, by rw [started_of_notMem hn, ht], rfl, List.prefix_rfl⟩

/-- Starting again changes nothing: every row of the test data is stored or blocked by a stored row. -/
theorem started_started (hnames : (hs.map (·.schema.name)).Nodup) {d : Database} (hwf : WellFormed hs d) :
    started hs (started hs d) = started hs d := by
  funext n
  by_cases hn : n ∈ hs.map (·.schema.name)
  · obtain ⟨h, hmem, rfl⟩ := List.mem_map.mp hn
    obtain ⟨hschema, -⟩ := hwf.tableIn hmem
    have htable : h.tableIn (started hs d) = (h.tableIn d).offer h.seedRows := by
      rw [ResourceHandler.tableIn, started_self hnames hwf hmem, Option.getD_some]
    have hself : ∀ row ∈ h.seedRows, (h.tableIn d).schema.Clash row row := by
      rw [hschema]
      exact fun row hrow =>
        h.schema.clash_self h.primaryKey_isSome (ResourceHandler.fits_of_mem_seedRows row hrow)
    rw [started_self hnames (wellFormed_started hnames hwf) hmem, started_self hnames hwf hmem, htable]
    congr 1
    exact congrArg (Table.mk (h.tableIn d).schema) (Offer.offerAll_offerAll _ hself _)
  · rw [started_of_notMem hn]

end

namespace FrontendServer

theorem names_nodup : (handlers.map (·.schema.name)).Nodup := by decide

variable {lib : Library}

theorem construct_refines (hstores : ∀ h ∈ handlers, lib.Stores h) (s : lib.State) :
    ∃ s', construct lib s = .ok s' ∧ lib.file s' = started handlers (lib.file s) :=
  startUp_refines hstores s

theorem runs_succ_of_ok {s s' : lib.State} {k : Nat} (h : runs lib k s = .ok s') :
    runs lib (k + 1) s = construct lib s' := by
  simp only [runs, h, Bind.bind, Except.bind]

theorem runs_succ (hstores : ∀ h ∈ handlers, lib.Stores h) {s : lib.State} (hwf : WellFormed handlers (lib.file s))
    (k : Nat) : ∃ s', runs lib (k + 1) s = .ok s' ∧ lib.file s' = started handlers (lib.file s) := by
  induction k with
  | zero =>
      obtain ⟨s', hs', hfile⟩ := construct_refines hstores s
      exact ⟨s', (runs_succ_of_ok rfl).trans hs', hfile⟩
  | succ k ih =>
      obtain ⟨s1, hs1, hfile1⟩ := ih
      obtain ⟨s', hs', hfile'⟩ := construct_refines hstores s1
      refine ⟨s', (runs_succ_of_ok hs1).trans hs', ?_⟩
      rw [hfile', hfile1, started_started names_nodup hwf]

/-- **Start-up is idempotent and destroys nothing.** From a file whose tables are absent or as declared, the
constructor returns; every table is still there with its rows unchanged in front, the declared
constraints hold, and any number of starts leaves the same file as one. -/
theorem construct_idempotent (lib : Library) (hstores : ∀ h ∈ handlers, lib.Stores h) (s : lib.State)
    (hwf : WellFormed handlers (lib.file s)) :
    ∃ s', construct lib s = .ok s' ∧
      (∀ n t, lib.file s n = some t → ∃ t', lib.file s' n = some t' ∧ t'.schema = t.schema ∧ t.rows <+: t'.rows) ∧
      (∀ h ∈ handlers, ∃ t, lib.file s' h.schema.name = some t ∧ t.schema = h.schema ∧ t.Consistent) ∧
      ∀ k, 1 ≤ k → ∃ s'', runs lib k s = .ok s'' ∧ lib.file s'' = lib.file s' := by
  obtain ⟨s', hs', hfile⟩ := construct_refines hstores s
  refine ⟨s', hs', ?_, ?_, ?_⟩
  · rw [hfile]
    exact fun n t ht => kept_started names_nodup hwf ht
  · intro h hmem
    have ht := started_self names_nodup hwf hmem
    rw [hfile]
    exact ⟨_, ht, wellFormed_started names_nodup hwf h hmem _ ht⟩
  · intro k hk
    obtain ⟨k, rfl⟩ := Nat.exists_eq_succ_of_ne_zero (Nat.one_le_iff_ne_zero.mp hk)
    rw [hfile]
    exact runs_succ hstores hwf k

def noTables : Database := fun _ => none

theorem wellFormed_noTables (hs : List ResourceHandler) : WellFormed hs noTables := by
  intro h _ t ht
  cases ht

/-- A file in which the first season of the first show has another id than in the test data. -/
def usedCache (name : String) : Option Table :=
  if name = "tvshows" then
    some ⟨tvShowsResourceHandler.schema, [[.integer 1, .text "Desperate Housewives", .text "tt0410975", .null]]⟩
  else if name = "seasons" then
    some ⟨seasonsResourceHandler.schema, [[.integer 7, .integer 1, .null, .integer 1]]⟩
  else if name = "episodes" then
    some ⟨episodesResourceHandler.schema,
      [[.integer 9, .integer 5, .integer 1, .integer 7, .text "Who's That Woman?", .null, .null]]⟩
  else none

theorem wellFormed_usedCache : WellFormed handlers usedCache := by
  have hall : ∀ h ∈ handlers, ∀ t ∈ usedCache h.schema.name, t.schema = h.schema ∧ t.Consistent := by decide
  exact fun h hmem t ht => hall h hmem t ht

theorem construct_idempotent_usedCache :
    ∃ d' : Database, construct (sqlEngine .decimal) usedCache = .ok d' ∧
      (∀ n t, usedCache n = some t → ∃ t', d' n = some t' ∧ t'.schema = t.schema ∧ t.rows <+: t'.rows) ∧
      (∀ h ∈ handlers, ∃ t, d' h.schema.name = some t ∧ t.schema = h.schema ∧ t.Consistent) ∧
      ∀ k, 1 ≤ k → ∃ d'' : Database, runs (sqlEngine .decimal) k usedCache = .ok d'' ∧ d'' = d' :=
  construct_idempotent (sqlEngine .decimal) (fun h _ => stores_sqlEngine .decimal h) usedCache wellFormed_usedCache

end FrontendServer

end Brainslug
