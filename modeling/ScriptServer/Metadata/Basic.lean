import ScriptServer.Database.Query
import ScriptServer.Json.Basic
import ScriptServer.Metadata.Overview
import ScriptServer.Store

namespace ScriptServer

/-!
# Cached database listings

* `Metadata` — the listings, the clock, and the fetches that run in the background.
* `Metadata.perform` — callers ask at the same moment, and all of them get an answer.
* `Metadata.advance` — time passes.
* `Metadata.describe` — the state on one line.
-/

/-- Cached database listings.  Times are in milliseconds. -/
structure Metadata where
  interval : Nat
  now : Nat := 0
  overview : Metadata.Overview := {}
  listings : Store Query (Metadata.Slot Listing) := .empty
  /-- The fetches in the background, each with the time at which it ends. -/
  pending : List (Nat × Query) := []

/-- What a caller asks for. -/
inductive Call where
  /-- That the lists of catalogs and databases are not older than the interval. -/
  | refresh
  | catalogs
  | databases
  | listing (query : Query)
  /-- The listing that is cached for the query, without a fetch. -/
  | cached (query : Query)
  deriving DecidableEq, Repr

/-- What a caller gets. -/
inductive Reply where
  /-- Whether the call has started a refresh. -/
  | refreshed (started : Bool)
  | listing (items : Listing)
  | cached (items : Option Listing)
  deriving DecidableEq, Repr

/-- The listing in a reply. -/
def Reply.toListing : Reply → Listing
  | .listing items => items
  | .cached items => items.getD (.names [])
  | .refreshed _ => .names []

namespace Metadata

/-- Empty caches with an interval, which is kept in 64 bits. -/
def ofInterval (millis : Nat) : Metadata := { interval := Word.low64 millis }

/-- Changes the interval, which is kept in 64 bits. -/
def setInterval (metadata : Metadata) (millis : Nat) : Metadata :=
  { metadata with interval := Word.low64 millis }

/-- The slot of a query. -/
def slot (metadata : Metadata) (query : Query) : Slot Listing :=
  (metadata.listings.get? query).getD {}

/-- Replaces the slot of a query. -/
def setSlot (metadata : Metadata) (query : Query) (slot : Slot Listing) : Metadata :=
  { metadata with listings := metadata.listings.insert query slot }

/-- The listing that is cached for a query. -/
def cached? (metadata : Metadata) (query : Query) : Option Listing :=
  (metadata.slot query).value

/-- A fetch ends with what the database answers now. -/
def finish (metadata : Metadata) (connection : Connection) (query : Query) : Metadata :=
  metadata.setSlot query ((metadata.slot query).finish (connection.listing query))

/-- Ends the fetches in the background whose time has come. -/
def settle (metadata : Metadata) (connection : Connection) : Metadata :=
  let (done, waiting) := metadata.pending.partition fun fetch => fetch.1 ≤ metadata.now
  done.foldl (fun metadata fetch => metadata.finish connection fetch.2)
    { metadata with pending := waiting }

/-- Time passes. -/
def advance (metadata : Metadata) (connection : Connection) (millis : Nat) : Metadata :=
  { metadata with now := metadata.now + millis }.settle connection

/-! ### Callers that ask together

Refreshes run one after the other, since a caller waits while one is under way.  First fetches
run side by side, and so do fetches in the background. -/

/-- What a caller knows when all have asked. -/
inductive Outcome where
  | done (reply : Reply)
  /-- The reply is what the fetch under way for the query brings. -/
  | awaits (query : Query)

/-- The state while the callers ask one after the other. -/
structure Round where
  metadata : Metadata
  /-- When the refreshes that have started so far have ended. -/
  free : Nat
  /-- The questions asked at once. -/
  asked : List Query := []
  /-- The questions asked after a refresh has ended. -/
  askedLater : List Query := []
  /-- The first fetches under way. -/
  fetching : List Query := []
  /-- The fetches that start in the background. -/
  background : List Query := []
  outcomes : List Outcome := []

namespace Round

/-- Records what a caller gets. -/
def conclude (round : Round) (outcome : Outcome) : Round :=
  { round with outcomes := round.outcomes ++ [outcome] }

/-- A caller asks for a listing. -/
def askListing (round : Round) (connection : Connection) (query : Query) : Round :=
  let metadata := round.metadata
  let (slot, hand) := (metadata.slot query).ask metadata.now metadata.interval
  let round := { round with metadata := metadata.setSlot query slot }
  match hand with
  | .cached value => round.conclude (.done (.listing value))
  | .stale value =>
    { round with background := round.background ++ [query] }.conclude (.done (.listing value))
  | .wait => round.conclude (.awaits query)
  | .fetch =>
    let round := { round with asked := round.asked ++ [query] }
    -- an answer that takes no time is there before the next caller asks
    if connection.latency = 0 then
      { round with metadata := round.metadata.finish connection query }.conclude (.awaits query)
    else { round with fetching := round.fetching ++ [query] }.conclude (.awaits query)

/-- A caller asks for a refresh, as soon as it can; tells whether one took place. -/
def askRefresh (round : Round) (connection : Connection) : Round × Bool :=
  let metadata := round.metadata
  let (overview, turn) := metadata.overview.ask round.free metadata.interval
  match turn with
  | .fetch =>
    -- the next refresh has to wait for this one, so its end can be taken at once
    let overview := overview.finish (connection.listing .catalogs).toNames
      (connection.listing .databases).toNames
    let round := { round with metadata := { metadata with overview } }
    let queries := [Query.catalogs, Query.databases]
    let round :=
      if round.free = metadata.now then { round with asked := round.asked ++ queries }
      else { round with askedLater := round.askedLater ++ queries }
    ({ round with free := round.free + connection.latency }, true)
  | _ => (round, false)

/-- A caller asks. -/
def ask (connection : Connection) (round : Round) : Call → Round
  | .refresh =>
    let (round, started) := round.askRefresh connection
    round.conclude (.done (.refreshed started))
  | .catalogs =>
    let (round, _) := round.askRefresh connection
    round.conclude (.done (.listing (.names round.metadata.overview.catalogs)))
  | .databases =>
    let (round, _) := round.askRefresh connection
    round.conclude (.done (.listing (.names round.metadata.overview.databases)))
  | .listing query => round.askListing connection query
  | .cached query => round.conclude (.done (.cached (round.metadata.cached? query)))

/-- When all callers have their answers. -/
def ends (round : Round) (connection : Connection) : Nat :=
  if round.fetching.isEmpty then round.free
  else max round.free (round.metadata.now + connection.latency)

/-- The reply to a caller, after all fetches that callers wait for. -/
def reply (metadata : Metadata) : Outcome → Reply
  | .done reply => reply
  | .awaits query => .listing ((metadata.cached? query).getD query.nothing)

end Round

/-- All callers ask at the same moment, in order, and wait until all have their answers.  Gives
    the replies and the questions that went to the database. -/
def perform (metadata : Metadata) (connection : Connection) (calls : List Call) :
    Metadata × List Reply × List Query :=
  let round := calls.foldl (Round.ask connection) { metadata, free := metadata.now }
  let fetched := round.fetching.foldl (fun metadata query => metadata.finish connection query)
    round.metadata
  -- fetches in the background start when all callers have asked
  let starts := round.background.map fun query => (metadata.now + connection.latency, query)
  let after := { fetched with now := round.ends connection, pending := fetched.pending ++ starts }
  (after.settle connection, round.outcomes.map (Round.reply fetched),
    round.asked ++ round.background ++ round.askedLater)

/-! ### The state on one line -/

/-- A duration: seconds from one second on, with as many places as needed, else milliseconds. -/
def durationText (millis : Nat) : String :=
  if millis = 0 then "0ns"
  else if millis < 1000 then millis.repr ++ "ms"
  else
    let places := (1000 + millis % 1000).repr.toList.drop 1
    match (places.reverse.dropWhile (· == '0')).reverse with
    | [] => (millis / 1000).repr ++ "s"
    | kept => (millis / 1000).repr ++ "." ++ String.ofList kept ++ "s"

/-- The state on one line. -/
def describe (metadata : Metadata) : String :=
  "MetadataCache \x7b interval: " ++ durationText metadata.interval
    ++ ", catalogs: " ++ metadata.overview.catalogs.length.repr
    ++ ", databases: " ++ metadata.overview.databases.length.repr ++ " \x7d"

end Metadata

end ScriptServer
