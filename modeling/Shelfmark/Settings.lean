import Shelfmark.Files
import Shelfmark.Index.Basic
import Shelfmark.Similarity.Candidates

/-!
# Settings

What can be configured, and how it is read from environment variables.

* `Settings`: the settings, with their usual values.
* `Settings.ofEnvironment`: the settings that some environment variables ask for.
-/

namespace Shelfmark

/-- The settings of searches. -/
structure SearchSettings where
  defaultLimit : Int := 50
  /-- The age in days from which a bookmark that was never opened is stale. -/
  staleDays : Int := 30
  boost : Boost := defaultBoost
  deriving Inhabited

/-- The settings of comparisons. -/
structure SimilaritySettings where
  threshold : Number := .real 0.3
  maxPairs : Int := 100
  /-- How long cached pairs are used, in seconds. -/
  pairsLifetime : Number := .real 300
  /-- How long stored records are used, in seconds. -/
  recordsLifetime : Number := .real 86400
  topN : Int := 10
  caps : Similarity.Caps := {}
  sampleSize : Int := 200
  sampleSeed : Option Int := some 42
  deriving Inhabited

/-- The settings. -/
structure Settings where
  search : SearchSettings := {}
  similarity : SimilaritySettings := {}
  /-- The path of the database, if it is not the usual one. -/
  database : Option String := none
  chromeProfile : String := "Default"
  logLevel : String := "INFO"
  deriving Inhabited

/-- Environment variables with their values. -/
abbrev Environment := List (String × String)

namespace Environment

/-- The value of a variable. -/
def find? (env : Environment) (name : String) : Option String :=
  (List.find? (fun e => e.1 == name) env).map Prod.snd

/-- The whole number that a variable spells. -/
def wholeNumber (env : Environment) (name : String) (default : Int) : Except Fault Int :=
  match env.find? name with
  | none => .ok default
  | some s =>
    match Decimal.readInt? s with
    | some n => .ok n
    | none => .error (.noWholeNumber s)

/-- The double that a variable spells. -/
def double (env : Environment) (name : String) (default : Float) : Except Fault Float :=
  match env.find? name with
  | none => .ok default
  | some s =>
    match Decimal.readFloat? s with
    | some x => .ok x
    | none => .error (.noNumber s)

end Environment

/-- The seed that a variable spells; an empty variable asks for no seed. -/
def Environment.seed (env : Environment) : Except Fault (Option Int) :=
  if env.find? "BOOKMARKS_SAMPLE_SEED" == some "" then .ok none
  else (env.wholeNumber "BOOKMARKS_SAMPLE_SEED" 42).map some

/-- The settings that some environment variables ask for. -/
def Settings.ofEnvironment (env : Environment) : Except Fault Settings := do
  let limit ← env.wholeNumber "BOOKMARKS_SEARCH_LIMIT" 50
  let staleDays ← env.wholeNumber "BOOKMARKS_STALE_DAYS" 30
  let threshold ← env.double "BOOKMARKS_SIMILARITY_THRESHOLD" 0.3
  let maxPairs ← env.wholeNumber "BOOKMARKS_MAX_PAIRS" 100
  let seed ← env.seed
  return {
    search := { defaultLimit := limit, staleDays }
    similarity := { threshold := .real threshold, maxPairs, sampleSeed := seed }
    database := ((env.find? "BOOKMARKS_DB").filter fun s => !s.isEmpty).map Files.plainPath
    chromeProfile := (env.find? "BOOKMARKS_CHROME_PROFILE").getD "Default"
    logLevel := Text.upper ((env.find? "BOOKMARKS_LOG_LEVEL").getD "INFO") }

/-- Weights of fields as a JSON value. -/
def Boost.toJson (boost : Boost) : Json := .obj (boost.map fun (name, w) => (name, w.toJson))

/-- The settings as a JSON value. -/
def Settings.toJson (s : Settings) : Json :=
  .obj [
    ("search", .obj [("default_limit", .int s.search.defaultLimit), ("stale_after_days", .int s.search.staleDays),
      ("boost", s.search.boost.toJson)]),
    ("similarity", .obj [("threshold", s.similarity.threshold.toJson), ("max_pairs", .int s.similarity.maxPairs),
      ("pairs_cache_ttl", s.similarity.pairsLifetime.toJson), ("records_ttl", s.similarity.recordsLifetime.toJson),
      ("top_n", .int s.similarity.topN), ("domain_candidates", .int s.similarity.caps.domain),
      ("category_candidates", .int s.similarity.caps.category),
      ("keyword_candidates", .int s.similarity.caps.keyword),
      ("fuzzy_sample_size", .int s.similarity.sampleSize),
      ("sample_seed", Json.ofOption .int s.similarity.sampleSeed)]),
    ("db_path", Json.ofOption .str s.database), ("chrome_profile", .str s.chromeProfile),
    ("log_level", .str s.logLevel)]

end Shelfmark
