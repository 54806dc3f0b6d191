/-
The news provider: articles found for a symbol go into the database by their links, and reads of a symbol go
through the cache. The entry of a symbol is made from as many articles as the read asked for, and a sync
clears the namespace below the symbol.
-/
import TradingAgent.Data.Analysis

namespace TradingAgent

open CacheAside Wp

/-- An article in an answer of the search. -/
structure NewsItem where
  pubDate : Option String
  title : Option String
  description : Option String
  originallink : Option String
  link : Option String
  deriving DecidableEq

namespace NaverProvider

def newsCacheNs : String := "naver:news"

/-- The text without tags: from a `<` up to the next `>`, unless nothing stands between them. -/
def stripTags : List Char → List Char
  | [] => []
  | c :: cs =>
    if c = '<' ∧ cs.head? ≠ some '>' ∧ '>' ∈ cs then stripTags ((cs.dropWhile (· ≠ '>')).drop 1)
    else c :: stripTags cs
termination_by cs => cs.length
decreasing_by
  · have := (List.dropWhile_sublist (l := cs) (fun c => decide (c ≠ '>'))).length_le
    rw [List.length_drop, List.length_cons]
    omega
  · simp

variable {T : Type} (S : Services T)

def stripHtml (text : String) : String :=
  if text = "" then text else S.unescape (String.ofList (stripTags text.toList))

/-- The row of an article of an answer; without a readable date there is none. -/
def newsValue (symbol : String) (item : NewsItem) : Option NewsArticle :=
  match item.pubDate.bind S.parsedateToDatetime with
  | none => none
  | some publishedAt =>
    some {
      source := .naver
      symbol := some symbol
      title := stripHtml S (item.title.getD "")
      description := some (stripHtml S (item.description.getD ""))
      link := if item.originallink.getD "" ≠ "" then item.originallink.getD "" else item.link.getD ""
      publishedAt }

/-- Store what the search answered for a symbol, and clear the namespace below the symbol. -/
def syncNews (symbol : String) (data : Except Exn (List NewsItem)) : EStateM Exn (Store AnalysisDb T) ℕ := do
  let items ← MonadExcept.ofExcept data
  if items = [] then return 0
  let valuesList := items.filterMap (newsValue S symbol)
  if valuesList = [] then return 0
  let s ← get
  match S.execute newsConstraint NewsArticle.fits s.db.newsArticles valuesList with
  | .error exc => throw (.databaseError ("sync_news DB error (" ++ symbol ++ "): " ++ exc))
  | .ok rows =>
    modify fun s => {
      db := { s.db with newsArticles := rows }
      redis := (RedisCache.clearNamespace S.globMatch s.redis (newsCacheNs ++ ":" ++ symbol)).2 }
    return valuesList.length

def isNewsOf (symbol : String) (row : NewsArticle) : Bool :=
  row.source = .naver ∧ row.symbol = some symbol

/-- The rows of a symbol, the latest first. -/
def newsRows (db : AnalysisDb) (symbol : String) : List NewsArticle :=
  (S.rowOrder _ (db.newsArticles.filter (isNewsOf symbol))).insertionSort
    (fun a b => b.publishedAt ≤ a.publishedAt)

def newsInfo (row : NewsArticle) : NewsArticleInfo :=
  { source := .naver, symbol := row.symbol, title := row.title, description := row.description
    link := row.link, publishedAt := row.publishedAt, sentimentScore := row.sentimentScore
    sentimentLabel := row.sentimentLabel }

/-- The answer of the database. It refuses a negative limit. -/
def newsQuery (symbol : String) (display : ℤ) (db : AnalysisDb) : Except Exn (List NewsArticleInfo) :=
  if display < 0 then .error (.databaseError ("fetch_news DB error (" ++ symbol ++ "): LIMIT must not be negative"))
  else .ok (((newsRows S db symbol).take display.toNat).map newsInfo)

/-- The articles of a symbol, from the cache or the database. The order asked for is not looked at. -/
def fetchNews (symbol : String) (display : ℤ := 100) (_sort : String := "date") :
    EStateM Exn (Store AnalysisDb T) (List NewsArticleInfo) :=
  cacheThrough S.newsText .list newsCacheNs symbol (newsQuery S symbol display)

/-! ## What a sync leaves -/

variable {S}

/-- A sync leaves everything as it is, or stores the rows of its answer and clears its namespace. -/
theorem wp_syncNews {symbol : String} {data : Except Exn (List NewsItem)} {s : Store AnalysisDb T}
    {P : Store AnalysisDb T → Prop} (h : P s)
    (hstored : ∀ items rows, data = .ok items →
      Upsert.all? newsConstraint s.db.newsArticles (items.filterMap (newsValue S symbol)) = some rows →
      P { db := { s.db with newsArticles := rows }
          redis := s.redis.dropKeys (S.globMatch (RedisCache.pattern (newsCacheNs ++ ":" ++ symbol))) }) :
    wp (syncNews S symbol data) (fun _ s' => P s') (fun _ s' => P s') s := by
  unfold syncNews
  cases data with
  | error e => exact h
  | ok items =>
    simp only [MonadExcept.ofExcept, wp_bind, wp_pure, wp_ite, wp_get]
    split
    · exact h
    split
    · exact h
    cases hexec : S.execute newsConstraint NewsArticle.fits s.db.newsArticles
      (items.filterMap (newsValue S symbol)) with
    | error exc => exact h
    | ok rows => exact hstored items rows rfl (S.execute_eq_ok.1 hexec).2

end NaverProvider

end TradingAgent
