import NexusPanel.Foundation.LikePattern
import NexusPanel.Panel.Auth
import NexusPanel.Panel.Entities

/-!
# The search over all resources

`SearchService.globalSearch` puts the query between two wildcards and asks four tables, each for
ten rows at most. Two of the tables, and the servers of others, are for root administrators.
Which ten rows it are is up to the database: a table is the list of its rows in the order in
which the query comes across them, and nothing is known of that order.

The first statement selects `server.powerState`, which the servers do not have: TypeORM hands on a
selection that is no column of the entity as it stands, and the database refuses the statement. So
every search fails. That column is all that is in the way, and what a search shows once the selected
columns are there is proved beside it.

The query goes into the pattern as it is, so `%`, `_` and a backslash in it are read as part of
the pattern. `Finds` says what a query finds then; how `ILIKE` compares letters is left to the
database, as the map `lower` of letters.
-/

namespace Panel

open LikePattern

/-- The columns of an egg that are read, with the name of its nest. -/
structure EggRow where
  id : String
  name : String
  nestName : Option String
deriving DecidableEq, Repr

/-- The columns of a node that are read. -/
structure NodeRow where
  id : String
  name : String
  fqdn : String
deriving DecidableEq, Repr

structure SearchTables where
  servers : List Server
  users : List User
  eggs : List EggRow
  nodes : List NodeRow

structure FoundServer where
  id : String
  uuid : String
  name : String
  status : Option ServerStatus
deriving DecidableEq, Repr

structure FoundUser where
  id : String
  username : String
  email : String
deriving DecidableEq, Repr

structure FoundEgg where
  id : String
  name : String
  nestName : String
deriving DecidableEq, Repr

structure SearchResult where
  servers : List FoundServer
  users : List FoundUser
  eggs : List FoundEgg
  nodes : List NodeRow
deriving DecidableEq, Repr

/-- The test `LIKE pattern`; an incomplete pattern fails the statement. -/
def sqlLike (pattern : List Char) : Option (String → Bool) :=
  (parse pattern).map fun ts text => scan ts text.toList

/-- The test `ILIKE pattern`: both sides are brought to one case first. -/
def sqlILike (lower : Char → Char) (pattern : List Char) : Option (String → Bool) :=
  (parse (pattern.map lower)).map fun ts text => scan ts (text.toList.map lower)

/-- `%${query}%`; a query that is not given is a text all the same. -/
def searchPattern (query : Option String) : List Char :=
  containing (query.getD "undefined").toList

/-- The column `status` is not among the selected ones. -/
def FoundServer.ofRow (server : Server) : FoundServer :=
  ⟨server.id, server.uuid, server.name, none⟩

def FoundUser.ofRow (user : User) : FoundUser := ⟨user.id, user.username, user.email⟩

def FoundEgg.ofRow (egg : EggRow) : FoundEgg := ⟨egg.id, egg.name, (truthy egg.nestName).getD ""⟩

/-- The columns of `ServerEntity`. -/
def Server.columns : List String :=
  ["id", "externalId", "uuid", "uuidShort", "name", "description", "userId", "nodeId", "nestId",
    "eggId", "allocationId", "memory", "swap", "disk", "io", "cpu", "threads", "oomDisabled",
    "startup", "image", "envVariables", "installed", "status", "createdAt", "updatedAt"]

/-- What the statement for the servers selects. -/
def SearchService.selected : List String := ["id", "uuid", "name", "powerState"]

/-- `globalSearch` on servers that have these columns; without a result where a statement fails. -/
def SearchService.globalSearch (columns : List String) (lower : Char → Char) (t : SearchTables)
    (query : Option String) (userId : String) (isAdmin : Bool) : Option SearchResult := do
  guard (∀ column ∈ selected, column ∈ columns)
  let ilike ← sqlILike lower (searchPattern query)
  let like ← sqlLike (searchPattern query)
  let servers :=
    (t.servers.filter fun s => ilike s.name && (isAdmin || s.userId == userId)).take 10
  let users := if isAdmin then
    (t.users.filter fun u => like u.username || like u.email).take 10 else []
  let eggs := (t.eggs.filter fun e => ilike e.name).take 10
  let nodes := if isAdmin then
    (t.nodes.filter fun n => like n.name || like n.fqdn).take 10 else []
  return { servers := servers.map .ofRow, users := users.map .ofRow, eggs := eggs.map .ofRow, nodes }

/-- `GET /search`. -/
def SearchController.search (columns : List String) (lower : Char → Char) (t : SearchTables)
    (query : Option String) (user : CurrentUser) : Option SearchResult :=
  SearchService.globalSearch columns lower t query user.id user.rootAdmin

/-! ## What a search shows -/

/-- The query finds the text: both are brought to one case, and the text has a piece that the
query matches. -/
def Finds (lower : Char → Char) (query : Option String) (text : String) : Prop :=
  Contains ((query.getD "undefined").toList.map lower) (text.toList.map lower)

/-- Of the rows that satisfy `P`, ten at most are shown, and all of them unless it is ten. -/
structure ShowsTen {ρ ω : Type} (P : ρ → Prop) (f : ρ → ω) (rows : List ρ) (shown : List ω) :
    Prop where
  atMost : shown.length ≤ 10
  only : ∀ x ∈ shown, ∃ r ∈ rows, P r ∧ f r = x
  all : ∀ r ∈ rows, P r → f r ∈ shown ∨ shown.length = 10

/-- The answer to a search. A user who is no root administrator is shown nothing of the others,
and what the others have makes no difference to the answer. -/
structure SearchAnswers (columns : List String) (lower : Char → Char) (t : SearchTables)
    (query : Option String) (user : CurrentUser) (result : SearchResult) : Prop where
  servers : ShowsTen
    (fun s : Server => (user.rootAdmin = true ∨ s.userId = user.id) ∧ Finds lower query s.name)
    FoundServer.ofRow t.servers result.servers
  users : ShowsTen
    (fun u : User => user.rootAdmin = true ∧ (Finds id query u.username ∨ Finds id query u.email))
    FoundUser.ofRow t.users result.users
  eggs : ShowsTen (fun e : EggRow => Finds lower query e.name) FoundEgg.ofRow t.eggs result.eggs
  nodes : ShowsTen
    (fun n : NodeRow => user.rootAdmin = true ∧ (Finds id query n.name ∨ Finds id query n.fqdn))
    id t.nodes result.nodes
  blind : user.rootAdmin = false → ∀ t' : SearchTables, t'.eggs = t.eggs →
    t'.servers.filter (fun s => s.userId == user.id) =
      t.servers.filter (fun s => s.userId == user.id) →
    SearchController.search columns lower t' query user = some result

section Search

variable {columns : List String} {lower : Char → Char} {query : Option String}

/-- The rows a query with `LIMIT 10` returns. -/
theorem showsTen_take {ρ ω : Type} {P : ρ → Prop} {f : ρ → ω} {rows : List ρ} {q : ρ → Bool}
    (hq : ∀ r, q r = true ↔ P r) : ShowsTen P f rows (((rows.filter q).take 10).map f) where
  atMost := by
    rw [List.length_map, List.length_take]
    exact Nat.min_le_left 10 _
  only := by
    intro x hx
    obtain ⟨r, hr, rfl⟩ := List.mem_map.mp hx
    obtain ⟨hmem, hsat⟩ := List.mem_filter.mp (List.mem_of_mem_take hr)
    exact ⟨r, hmem, (hq r).mp hsat, rfl⟩
  all := by
    intro r hmem hP
    have hr : r ∈ rows.filter q := List.mem_filter.mpr ⟨hmem, (hq r).mpr hP⟩
    rcases Nat.le_total (rows.filter q).length 10 with hfew | hmany
    · rw [List.take_of_length_le hfew]
      exact .inl (List.mem_map_of_mem hr)
    · right
      rw [List.length_map, List.length_take, Nat.min_eq_left hmany]

/-- A table that only root administrators ask. -/
theorem showsTen_asked {ρ ω : Type} {P : ρ → Prop} {f : ρ → ω} {rows : List ρ} {q : ρ → Bool}
    (hq : ∀ r, q r = true ↔ P r) (isAdmin : Bool) :
    ShowsTen (fun r => isAdmin = true ∧ P r) f rows
      ((if isAdmin then (rows.filter q).take 10 else []).map f) := by
  cases isAdmin with
  | true => exact showsTen_take fun r => (hq r).trans (by simp)
  | false =>
    refine ⟨Nat.zero_le 10, ?_, ?_⟩
    · exact fun _ hx => nomatch hx
    · exact fun _ _ hr => absurd hr.1 Bool.false_ne_true

/-- The pattern is complete, so the statement does not fail. -/
theorem exists_sqlILike (query : Option String) (hpercent : lower '%' = '%') : ∃ test,
    sqlILike lower (searchPattern query) = some test ∧
      ∀ text, test text = true ↔ Finds lower query text := by
  have hpattern : (searchPattern query).map lower =
      containing ((query.getD "undefined").toList.map lower) := by
    simp only [searchPattern, containing, List.map_append, List.map_cons, List.map_nil, hpercent]
  obtain ⟨ts, hparse, hscan⟩ := parse_containing ((query.getD "undefined").toList.map lower)
  refine ⟨fun text => scan ts (text.toList.map lower), ?_, fun text => hscan _⟩
  rw [sqlILike, hpattern, hparse, Option.map_some]

theorem exists_sqlLike (query : Option String) : ∃ test, sqlLike (searchPattern query) = some test ∧
    ∀ text, test text = true ↔ Finds id query text := by
  obtain ⟨ts, hparse, hscan⟩ := parse_containing (query.getD "undefined").toList
  refine ⟨fun text => scan ts text.toList, ?_, fun text => ?_⟩
  · rw [sqlLike, searchPattern, hparse, Option.map_some]
  · rw [hscan, Finds, List.map_id, List.map_id]

/-- The answer, once the columns and the tests are there. -/
theorem search_eq {t : SearchTables} {user : CurrentUser} {ilike like : String → Bool}
    (hcolumns : ∀ column ∈ SearchService.selected, column ∈ columns)
    (hilike : sqlILike lower (searchPattern query) = some ilike)
    (hlike : sqlLike (searchPattern query) = some like) :
    SearchController.search columns lower t query user = some {
      servers := ((t.servers.filter fun s => s.userId == user.id || user.rootAdmin).filter
        fun s => ilike s.name).take 10 |>.map .ofRow
      users := (if user.rootAdmin then
        (t.users.filter fun u => like u.username || like u.email).take 10 else []).map .ofRow
      eggs := ((t.eggs.filter fun e => ilike e.name).take 10).map .ofRow
      nodes := if user.rootAdmin then
        (t.nodes.filter fun n => like n.name || like n.fqdn).take 10 else [] } := by
  have hguard : (guard (∀ column ∈ SearchService.selected, column ∈ columns) : Option Unit) =
      some () := if_pos hcolumns
  simp only [SearchController.search, SearchService.globalSearch, hguard, hilike, hlike,
    Option.bind_eq_bind, Option.bind_some, List.filter_filter, Bool.or_comm]
  rfl

/-- Without one of the selected columns there is none. -/
theorem search_eq_none {t : SearchTables} {user : CurrentUser} {column : String}
    (hselected : column ∈ SearchService.selected) (hmissing : column ∉ columns) :
    SearchController.search columns lower t query user = none := by
  have hguard : (guard (∀ column ∈ SearchService.selected, column ∈ columns) : Option Unit) =
      none := if_neg fun hall => hmissing (hall column hselected)
  simp only [SearchController.search, SearchService.globalSearch, hguard, Option.bind_eq_bind,
    Option.bind_none]

/-- With the selected columns, a search does not fail, whatever the query, the content of the tables
and the order in which the database comes across the rows are. It shows what the query finds, ten of
each kind at most; a user who is no root administrator is shown nothing that belongs to others. -/
theorem search_of_columns (hcolumns : ∀ column ∈ SearchService.selected, column ∈ columns)
    (t : SearchTables) (query : Option String) (user : CurrentUser) (hpercent : lower '%' = '%') :
    ∃ result, SearchController.search columns lower t query user = some result ∧
      SearchAnswers columns lower t query user result := by
  obtain ⟨ilike, hilike, hfinds⟩ := exists_sqlILike query hpercent
  obtain ⟨like, hlike, hmatches⟩ := exists_sqlLike query
  refine ⟨_, search_eq hcolumns hilike hlike, ?_⟩
  constructor
  · rw [List.filter_filter]
    refine showsTen_take fun s => ?_
    simp only [Bool.and_eq_true, Bool.or_eq_true, beq_iff_eq, hfinds]
    tauto
  · refine showsTen_asked (fun u => ?_) user.rootAdmin
    simp only [Bool.or_eq_true, hmatches]
  · exact showsTen_take fun e => hfinds e.name
  · have hnodes : ShowsTen
        (fun n : NodeRow =>
          user.rootAdmin = true ∧ (Finds id query n.name ∨ Finds id query n.fqdn)) id t.nodes
        ((if user.rootAdmin then
          (t.nodes.filter fun n => like n.name || like n.fqdn).take 10 else []).map id) := by
      refine showsTen_asked (fun n => ?_) user.rootAdmin
      simp only [Bool.or_eq_true, hmatches]
    rwa [List.map_id] at hnodes
  · intro huser t' heggs hservers
    simp only [search_eq hcolumns hilike hlike, huser, Bool.or_false, hservers, heggs,
      Bool.false_eq_true, if_false]

/-- A query without `%`, `_` and backslash is looked for as it is. -/
theorem finds_of_plain {lower : Char → Char} {query text : String}
    (hplain : ∀ c ∈ query.toList, special (lower c) = false) :
    Finds lower (some query) text ↔ query.toList.map lower <:+: text.toList.map lower := by
  refine contains_of_plain fun c hc => ?_
  obtain ⟨d, hd, rfl⟩ := List.mem_map.mp hc
  exact hplain d hd

end Search

/-- Every search fails, for every query, user and content of the tables. All that it lacks is the
selected column: on servers with all columns that are selected no search fails, and the answer is
what the query finds. -/
theorem search_fails (lower : Char → Char) (t : SearchTables) (query : Option String)
    (user : CurrentUser) (hpercent : lower '%' = '%') :
    SearchController.search Server.columns lower t query user = none ∧
      ∀ columns, (∀ column ∈ SearchService.selected, column ∈ columns) →
        ∃ result, SearchController.search columns lower t query user = some result ∧
          SearchAnswers columns lower t query user result := by
  have hselected : "powerState" ∈ SearchService.selected := by decide
  have hmissing : "powerState" ∉ Server.columns := by decide
  exact ⟨search_eq_none hselected hmissing,
    fun _ hcolumns => search_of_columns hcolumns t query user hpercent⟩

/-! ## A search for a backslash -/

/-- Two servers of one user, one with a percent sign at the end of its name. -/
def percentTables : SearchTables where
  servers := [Server.withDefaults "1" "u" "u" "load 50%" "owner" "n" "t" "e" "a" 0 0 "" "",
    Server.withDefaults "2" "v" "v" "load\\" "owner" "n" "t" "e" "b" 0 0 "" ""]
  users := []
  eggs := []
  nodes := []

/-- A search for a backslash fails too; with the column it would find percent signs, and not
itself. -/
theorem search_backslash :
    SearchController.search Server.columns Char.toLower percentTables (some "\\")
        ⟨"owner", "", false⟩ = none ∧
      ∃ result, SearchController.search ("powerState" :: Server.columns) Char.toLower percentTables
          (some "\\") ⟨"owner", "", false⟩ = some result ∧
        SearchAnswers ("powerState" :: Server.columns) Char.toLower percentTables (some "\\")
          ⟨"owner", "", false⟩ result := by
  obtain ⟨hfails, hanswers⟩ :=
    search_fails Char.toLower percentTables (some "\\") ⟨"owner", "", false⟩ (by decide)
  exact ⟨hfails, hanswers _ (by decide)⟩

example : ((SearchController.search ("powerState" :: Server.columns) Char.toLower percentTables
    (some "\\") ⟨"owner", "", false⟩).map fun r => r.servers.map FoundServer.id) = some ["1"] := by
  decide

end Panel
