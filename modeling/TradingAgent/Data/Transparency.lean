/-
The caches of the news, disclosure and indicator providers against their database, over any sequence of
syncs and reads. A read gives what the database holds as long as the entry it meets was made from as many
articles as it asks for, and as long as the syncs clear what they touch. Disclosures, statements and
indicators never share an entry between different arguments; news reads of one symbol always do, and the
pattern that a news sync clears leaves the entry of its own symbol.
-/
import TradingAgent.Data.Naver
import TradingAgent.Data.Dart
import TradingAgent.Data.Ecos
import TradingAgent.Lib.Async

namespace TradingAgent

open CacheAside RedisCache NaverProvider DartProvider EcosProvider Wp

namespace Providers

/-! ## Calls -/

/-- A read with its arguments. -/
inductive Fetch
  | news (symbol : String) (display : ℤ) (sort : String)
  | disclosures (symbol : String) (startDate endDate : Option PyDate)
  | financialStatement (symbol : String) (fiscalYear : ℤ) (reportType : ReportType)
  | indicators (indicatorCode : String) (startDate endDate : Option PyDate)
  deriving DecidableEq

/-- A sync with its arguments and what the service answers. -/
inductive Sync
  | news (symbol : String) (data : Except Exn (List NewsItem))
  | disclosures (symbol : String) (listing : Option (List CorpEntry)) (data : Except Exn (List DisclosureItem))
  | financials (symbol : String) (fiscalYear : ℤ) (reportType : ReportType) (listing : Option (List CorpEntry))
      (data : Except Exn (List AccountItem))
  | indicator (config : EcosIndicatorConfig) (data : Except Exn (List StatisticRow))

inductive Call
  | fetch (f : Fetch)
  | sync (c : Sync)

/-- What a read gives. -/
inductive Reply
  | news (articles : List NewsArticleInfo)
  | disclosures (disclosures : List DisclosureInfo)
  | financialStatement (info : Option FinancialStatementInfo)
  | indicators (indicators : List EconomicIndicatorInfo)
  deriving DecidableEq

variable {T : Type} (S : Services T)

namespace Fetch

def run : Fetch → EStateM Exn (Store AnalysisDb T) Reply
  | news symbol display sort => .news <$> fetchNews S symbol display sort
  | disclosures symbol startDate endDate => .disclosures <$> fetchDisclosures S symbol startDate endDate
  | financialStatement symbol fiscalYear reportType =>
    .financialStatement <$> fetchFinancialStatement S symbol fiscalYear reportType
  | indicators code startDate endDate => .indicators <$> fetchIndicators S code startDate endDate

/-- What the database holds for the arguments. -/
def query (db : AnalysisDb) : Fetch → Except Exn Reply
  | news symbol display _ => .news <$> newsQuery S symbol display db
  | disclosures symbol startDate endDate => .disclosures <$> disclosuresQuery S symbol startDate endDate db
  | financialStatement symbol fiscalYear reportType =>
    .financialStatement <$> financialsQuery S symbol fiscalYear reportType db
  | indicators code startDate endDate => .indicators <$> indicatorsQuery S code startDate endDate db

/-- The namespace of the entry. -/
def ns : Fetch → String
  | news _ _ _ => newsCacheNs
  | disclosures _ _ _ => disclosuresCacheNs
  | financialStatement _ _ _ => financialsCacheNs
  | indicators _ _ _ => indicatorsCacheNs

/-- The key of the entry within its namespace. -/
def nsKey : Fetch → String
  | news symbol _ _ => symbol
  | disclosures symbol startDate endDate => disclosuresKey symbol startDate endDate
  | financialStatement symbol fiscalYear reportType => financialsKey symbol fiscalYear reportType
  | indicators code startDate endDate => indicatorsKey code startDate endDate

def key (f : Fetch) : String := makeKey f.ns f.nsKey

/-! ## The layout of the keys -/

def namespaces : List String :=
  [newsCacheNs, disclosuresCacheNs, financialsCacheNs, indicatorsCacheNs, corpCodeCacheNs]

theorem namespaces_apart : ∀ ns ∈ namespaces, ∀ ns' ∈ namespaces, ns ≠ ns' → Apart ns ns' := by decide

theorem ns_mem (f : Fetch) : f.ns ∈ namespaces := by
  cases f <;> simp [ns, namespaces]

theorem ns_ne_corpCode (f : Fetch) : f.ns ≠ corpCodeCacheNs := by
  cases f <;> simp [ns, newsCacheNs, disclosuresCacheNs, financialsCacheNs, indicatorsCacheNs, corpCodeCacheNs]

/-- Two news reads of one symbol, with any number of articles and any order. -/
def SameNews (f g : Fetch) : Prop :=
  ∃ symbol display sort display' sort', f = news symbol display sort ∧ g = news symbol display' sort'

theorem financialsKey_inj {symbol symbol' : String} {year year' : ℤ} {type type' : ReportType}
    (h : financialsKey symbol year type = financialsKey symbol' year' type') :
    symbol = symbol' ∧ year = year' ∧ type = type' := by
  have hcolon : ∀ t : ReportType, ':' ∉ t.value.toList := by
    intro t
    cases t <;> decide
  obtain ⟨hfront, htype⟩ := Keys.join_inj (hcolon _) (hcolon _) h
  obtain ⟨hsymbol, hyear⟩ :=
    Keys.join_inj (Keys.colon_notMem_intToString _) (Keys.colon_notMem_intToString _) hfront
  exact ⟨hsymbol, Keys.intToString_injective hyear, ReportType.value_injective htype⟩

/-- Different reads have different keys, unless they are news reads of one symbol. -/
theorem key_inj {f g : Fetch} (h : f.key = g.key) : f = g ∨ SameNews f g := by
  have hns : f.ns = g.ns := by
    by_contra hne
    exact makeKey_ne (namespaces_apart _ f.ns_mem _ g.ns_mem hne) f.nsKey g.nsKey h
  unfold key at h
  rw [hns] at h
  have hkey := makeKey_inj h
  clear h
  cases f <;> cases g <;>
    simp [ns, newsCacheNs, disclosuresCacheNs, financialsCacheNs, indicatorsCacheNs] at hns
  case news symbol display sort symbol' display' sort' =>
    obtain rfl : symbol = symbol' := hkey
    exact .inr ⟨symbol, display, sort, display', sort', rfl, rfl⟩
  case disclosures =>
    obtain ⟨rfl, rfl, rfl⟩ := dateRange_inj hkey
    exact .inl rfl
  case financialStatement =>
    obtain ⟨rfl, rfl, rfl⟩ := financialsKey_inj hkey
    exact .inl rfl
  case indicators =>
    obtain ⟨rfl, rfl, rfl⟩ := dateRange_inj hkey
    exact .inl rfl

/-- No read has its entry among the corporation codes. -/
theorem key_ne_corpCode (f : Fetch) (symbol : String) : f.key ≠ makeKey corpCodeCacheNs symbol :=
  makeKey_ne (namespaces_apart _ f.ns_mem _ (by simp [namespaces]) f.ns_ne_corpCode) _ _

/-! ## Entries and answers -/

/-- A text is the entry of what the database holds for the arguments. -/
def Serves (db : AnalysisDb) (t : T) : Fetch → Prop
  | news symbol display _ => Writes S.newsText .list (newsQuery S symbol display db) t
  | disclosures symbol startDate endDate =>
    Writes S.disclosuresText .list (disclosuresQuery S symbol startDate endDate db) t
  | financialStatement symbol fiscalYear reportType =>
    Writes S.financialsText .option (financialsQuery S symbol fiscalYear reportType db) t
  | indicators code startDate endDate =>
    Writes S.indicatorsText .list (indicatorsQuery S code startDate endDate db) t

variable {S}

theorem outcome_map {α : Type} (g : α → Reply) (x : EStateM Exn (Store AnalysisDb T) α)
    (s : Store AnalysisDb T) :
    outcome ((g <$> x).run s) = g <$> outcome (x.run s) ∧ left ((g <$> x).run s) = left (x.run s) := by
  simp only [EStateM.run, Functor.map, EStateM.map]
  split
  · rename_i h
    rw [h]
    exact ⟨rfl, rfl⟩
  · rename_i h
    rw [h]
    exact ⟨rfl, rfl⟩

/-- A read that meets no entry but one it would write itself gives what the database holds. It changes nothing
in the database and writes at most this entry. -/
theorem run_spec (f : Fetch) {s : Store AnalysisDb T}
    (h : ∀ t, s.redis.get? f.key = some t → f.Serves S s.db t) :
    outcome ((f.run S).run s) = f.query S s.db ∧ (left ((f.run S).run s)).db = s.db ∧
      ∀ k t, (left ((f.run S).run s)).redis.get? k = some t →
        s.redis.get? k = some t ∨ (k = f.key ∧ f.Serves S s.db t) := by
  cases f with
  | news symbol display sort =>
    obtain ⟨hout, hleft⟩ := outcome_map .news (fetchNews S symbol display sort) s
    obtain ⟨hanswer, hkept⟩ := cacheThrough_spec h
    exact ⟨hout.trans (congrArg _ hanswer), by rw [run, hleft]; exact hkept⟩
  | disclosures symbol startDate endDate =>
    obtain ⟨hout, hleft⟩ := outcome_map .disclosures (fetchDisclosures S symbol startDate endDate) s
    obtain ⟨hanswer, hkept⟩ := cacheThrough_spec h
    exact ⟨hout.trans (congrArg _ hanswer), by rw [run, hleft]; exact hkept⟩
  | financialStatement symbol fiscalYear reportType =>
    obtain ⟨hout, hleft⟩ :=
      outcome_map .financialStatement (fetchFinancialStatement S symbol fiscalYear reportType) s
    obtain ⟨hanswer, hkept⟩ := cacheThrough_spec h
    exact ⟨hout.trans (congrArg _ hanswer), by rw [run, hleft]; exact hkept⟩
  | indicators code startDate endDate =>
    obtain ⟨hout, hleft⟩ := outcome_map .indicators (fetchIndicators S code startDate endDate) s
    obtain ⟨hanswer, hkept⟩ := cacheThrough_spec h
    exact ⟨hout.trans (congrArg _ hanswer), by rw [run, hleft]; exact hkept⟩

/-- With an empty cache every read gives what the database holds. -/
theorem outcome_empty (f : Fetch) (db : AnalysisDb) :
    outcome ((f.run S).run ⟨db, Dict.empty⟩) = f.query S db :=
  (f.run_spec fun _ h => by cases h).1

variable (S) in
/-- The rows that a read is computed from are the same in two databases. -/
def SameRows (db db' : AnalysisDb) : Fetch → Prop
  | news symbol _ _ => newsRows S db' symbol = newsRows S db symbol
  | disclosures symbol startDate endDate =>
    disclosureRows S db' symbol startDate endDate = disclosureRows S db symbol startDate endDate
  | financialStatement symbol fiscalYear reportType =>
    financialRows S db' symbol fiscalYear reportType = financialRows S db symbol fiscalYear reportType
  | indicators code startDate endDate =>
    indicatorRows S db' code startDate endDate = indicatorRows S db code startDate endDate

theorem sameRows_refl (f : Fetch) (db : AnalysisDb) : f.SameRows S db db := by
  cases f <;> rfl

theorem Serves.of_sameRows {f : Fetch} {db db' : AnalysisDb} {t : T} (h : f.Serves S db t)
    (hrows : f.SameRows S db db') : f.Serves S db' t := by
  cases f <;>
    simp only [Serves, SameRows, newsQuery, disclosuresQuery, financialsQuery, indicatorsQuery] at h hrows ⊢ <;>
    rw [hrows] <;> exact h

theorem SameNews.sameRows {f g : Fetch} (h : SameNews f g) {db db' : AnalysisDb} (hf : f.SameRows S db db') :
    g.SameRows S db db' := by
  obtain ⟨symbol, display, sort, display', sort', rfl, rfl⟩ := h
  exact hf

theorem key_eq.sameRows {f g : Fetch} (h : f.key = g.key) {db db' : AnalysisDb} (hf : f.SameRows S db db') :
    g.SameRows S db db' := by
  rcases key_inj h with rfl | h
  · exact hf
  · exact h.sameRows hf

end Fetch

open Fetch

/-! ## The entries of a current cache -/

/-- The entry under the key of a read is that of some read with this key, from the database as it is. -/
def Accounts (db : AnalysisDb) (k : String) (t : T) : Prop :=
  ∀ f : Fetch, f.key = k → ∃ g : Fetch, g.key = k ∧ g.Serves S db t

/-- The entry that a news read meets has as many articles as the read asks for and the database holds. The
other reads ask for all there are. -/
def Fits (s : Store AnalysisDb T) : Fetch → Prop
  | .news symbol display _ => ∀ t ∈ s.redis.get? (makeKey newsCacheNs symbol),
      ∀ articles ∈ (S.newsText.load t).toOption,
        (articles.length : ℤ) = min display (newsRows S s.db symbol).length
  | _ => True

instance (s : Store AnalysisDb T) : ∀ f, Decidable (Fits S s f)
  | .news _ _ _ => inferInstanceAs (Decidable (∀ t ∈ _, ∀ articles ∈ _, _))
  | .disclosures _ _ _ | .financialStatement _ _ _ | .indicators _ _ _ => .isTrue trivial

variable {S}

theorem newsQuery_eq_ok {symbol : String} {display : ℤ} {db : AnalysisDb} {articles : List NewsArticleInfo} :
    newsQuery S symbol display db = .ok articles ↔
      0 ≤ display ∧ articles = ((newsRows S db symbol).take display.toNat).map newsInfo := by
  unfold newsQuery
  split
  · rename_i h
    exact iff_of_false (by simp) fun hd => absurd hd.1 (not_le.2 h)
  · rename_i h
    rw [Except.ok.injEq]
    exact ⟨fun hart => ⟨not_lt.1 h, hart.symm⟩, fun hart => hart.2.symm⟩

/-- Of a current cache, the entry that a fitting read meets is its own. -/
theorem serves_of_fits {f : Fetch} {s : Store AnalysisDb T} (hcurrent : Current (Accounts S) s.db s.redis)
    (hfits : Fits S s f) {t : T} (ht : s.redis.get? f.key = some t) : f.Serves S s.db t := by
  obtain ⟨g, hkey, hserves⟩ := hcurrent _ t ht f rfl
  rcases key_inj hkey with rfl | ⟨symbol, d, sort, display, sort', rfl, rfl⟩
  · exact hserves
  · obtain ⟨articles, b, hquery, hpack, rfl⟩ := hserves
    have hb : b = articles := Entry.list.unpack_pack articles b hpack
    subst hb
    have hlength := hfits _ ht b (by rw [S.newsText.load_dump]; rfl)
    obtain ⟨hd, harticles⟩ := newsQuery_eq_ok.1 hquery
    have htake : (newsRows S s.db symbol).take display.toNat = (newsRows S s.db symbol).take d.toNat := by
      rw [List.take_eq_take_iff]
      rw [harticles, List.length_map, List.length_take] at hlength
      omega
    exact ⟨_, _, newsQuery_eq_ok.2 ⟨by omega, by rw [htake]; exact harticles⟩, hpack, rfl⟩

/-! ## Syncs -/

namespace Sync

variable (S) in
def run : Sync → EStateM Exn (Store AnalysisDb T) ℕ
  | news symbol data => syncNews S symbol data
  | disclosures symbol listing data => syncDisclosures S symbol listing data
  | financials symbol fiscalYear reportType listing data =>
    syncFinancials S symbol fiscalYear reportType listing data
  | indicator config data => syncIndicator S config data

variable (S) in
/-- A read has an entry that the clearing of a namespace leaves. -/
def Kept (s : Store AnalysisDb T) (ns : String) (f : Fetch) : Prop :=
  s.redis.get? f.key ≠ none ∧ S.globMatch (pattern ns) f.key = false

variable (S) in
/-- What a sync stores, new or in place of a stored row, lies outside the reads whose entries its pattern
leaves. The statements need no such condition. -/
def Clears (s : Store AnalysisDb T) : Sync → Prop
  | news symbol data => ∀ items, data = .ok items → ∀ article ∈ items.filterMap (newsValue S symbol),
      ∀ owner display sort, Kept S s (newsCacheNs ++ ":" ++ symbol) (.news owner display sort) →
        Upsert.Spares newsConstraint (isNewsOf owner) s.db.newsArticles article
  | disclosures symbol _ data => ∀ corpCode items values, data = .ok items →
      disclosureValues S corpCode symbol items = .ok values → ∀ disclosure ∈ values,
      ∀ owner startDate endDate,
        Kept S s (disclosuresCacheNs ++ ":" ++ symbol) (.disclosures owner startDate endDate) →
        Upsert.Spares disclosureConstraint (isDisclosureOf owner startDate endDate) s.db.disclosures disclosure
  | financials _ _ _ _ _ => True
  | indicator config data => ∀ items, data = .ok items → ∀ value ∈ items.filterMap (indicatorValue config),
      ∀ code startDate endDate,
        Kept S s (indicatorsCacheNs ++ ":" ++ indicatorCode config) (.indicators code startDate endDate) →
        Upsert.Spares indicatorConstraint (isIndicatorOf code startDate endDate) s.db.economicIndicators value

variable (S) in
/-- The entries of the reads that are left were there before, and their rows are as they were. -/
def Leaves (s s' : Store AnalysisDb T) : Prop :=
  ∀ (f : Fetch) t, s'.redis.get? f.key = some t → s.redis.get? f.key = some t ∧ f.SameRows S s.db s'.db

theorem leaves_sameButCorpCode {symbol : String} {s s' : Store AnalysisDb T}
    (h : SameButCorpCode symbol s s') : Leaves S s s' := by
  obtain ⟨hdb, hredis⟩ := h
  intro f t ht
  rw [hredis _ (f.key_ne_corpCode symbol)] at ht
  rw [hdb]
  exact ⟨ht, f.sameRows_refl _⟩

theorem leaves_refl (s : Store AnalysisDb T) : Leaves S s s := fun f _ ht => ⟨ht, f.sameRows_refl _⟩

theorem leaves_dropKeys {s : Store AnalysisDb T} {db : AnalysisDb} {p : String → Bool}
    (h : ∀ f : Fetch, s.redis.get? f.key ≠ none → p f.key = false → f.SameRows S s.db db) :
    Leaves S s { db, redis := s.redis.dropKeys p } := by
  intro f t ht
  rw [Dict.get?_dropKeys] at ht
  split at ht
  · cases ht
  · rename_i hkept
    exact ⟨ht, h f (by rw [ht]; exact Option.some_ne_none t) (Bool.eq_false_iff.2 hkept)⟩

theorem leaves_erase {s : Store AnalysisDb T} {db : AnalysisDb} {k : String}
    (h : ∀ f : Fetch, f.key ≠ k → f.SameRows S s.db db) : Leaves S s { db, redis := s.redis.erase k } := by
  intro f t ht
  rw [Dict.get?_erase] at ht
  split at ht
  · cases ht
  · rename_i hkey
    exact ⟨ht, h f hkey⟩

/-- Before a sync has changed more than a corporation code. -/
theorem Leaves.after {symbol : String} {s s₁ s₂ : Store AnalysisDb T} (hcode : SameButCorpCode symbol s s₁)
    (h : Leaves S s₁ s₂) : Leaves S s s₂ := by
  obtain ⟨hdb, hredis⟩ := hcode
  intro f t ht
  obtain ⟨ht', hrows⟩ := h f t ht
  rw [hredis _ (f.key_ne_corpCode symbol)] at ht'
  rw [hdb] at hrows
  exact ⟨ht', hrows⟩

/-- A statement of another symbol, year or type of report is none of the rows of a read. -/
theorem spares_financialValue {corpCode symbol owner : String} {year year' : ℤ} {type type' : ReportType}
    {items : List AccountItem} {rows : List FinancialStatement}
    (h : ¬ (owner = symbol ∧ year' = year ∧ type' = type)) :
    Upsert.Spares financialConstraint (isStatementOf owner year' type') rows
      (financialValue corpCode symbol year type items) := by
  have hother : ∀ row : FinancialStatement, row.symbol = symbol → row.fiscalYear = year →
      row.reportType = type → isStatementOf owner year' type' row = false := by
    rintro row rfl rfl rfl
    refine Bool.eq_false_iff.2 fun hrow => h ?_
    obtain ⟨hsymbol, hyear, htype, -⟩ := of_decide_eq_true hrow
    exact ⟨hsymbol.symm, hyear.symm, htype.symm⟩
  constructor
  · rintro row - ⟨hsome, hkey⟩
    obtain ⟨key, hnew⟩ := Option.ne_none_iff_exists'.1 hsome
    rw [hnew] at hkey
    obtain ⟨_, -, hnew⟩ := Option.map_eq_some_iff.1 hnew
    obtain ⟨_, -, hrow⟩ := Option.map_eq_some_iff.1 hkey
    rw [← hnew] at hrow
    obtain ⟨hsymbol, hyear, -, htype⟩ : row.symbol = symbol ∧ row.fiscalYear = year ∧ _ ∧ row.reportType = type := by
      simpa [financialValue] using hrow
    exact .inr ⟨hother row hsymbol hyear htype, hother _ hsymbol hyear htype⟩
  · exact fun _ => hother _ rfl rfl rfl

/-- A sync that clears what it stores leaves only entries whose rows it leaves as they were. -/
theorem wp_run {c : Sync} {s : Store AnalysisDb T} (h : Clears S s c) :
    wp (c.run S) (fun _ s' => Leaves S s s') (fun _ s' => Leaves S s s') s := by
  cases c with
  | news symbol data =>
    refine wp_syncNews (leaves_refl s) fun items rows hitems hrows => leaves_dropKeys fun f hf hkept => ?_
    cases f with
    | news owner display sort =>
      have hfilter := Upsert.filter_all?
        (fun article harticle => h items hitems article harticle owner display sort ⟨hf, hkept⟩) hrows
      simp only [Fetch.SameRows, newsRows, hfilter]
    | disclosures | financialStatement | indicators => rfl
  | disclosures symbol listing data =>
    refine wp_syncDisclosures (fun s' hs' => leaves_sameButCorpCode hs')
      fun s' hs' corpCode items values rows hitems hvalues hrows =>
        Leaves.after hs' (leaves_dropKeys fun f hf hkept => ?_)
    rw [hs'.2 _ (f.key_ne_corpCode symbol)] at hf
    rw [hs'.1] at hrows ⊢
    cases f with
    | disclosures owner startDate endDate =>
      have hfilter := Upsert.filter_all? (fun disclosure hdisclosure =>
        h corpCode items values hitems hvalues disclosure hdisclosure owner startDate endDate ⟨hf, hkept⟩) hrows
      simp only [Fetch.SameRows, disclosureRows, hfilter]
    | news | financialStatement | indicators => rfl
  | financials symbol year type listing data =>
    refine wp_syncFinancials (fun s' hs' => leaves_sameButCorpCode hs')
      fun s' hs' corpCode items rows hrows => Leaves.after hs' (leaves_erase fun f hkey => ?_)
    cases f with
    | financialStatement owner year' type' =>
      have hother : ¬ (owner = symbol ∧ year' = year ∧ type' = type) := by
        rintro ⟨rfl, rfl, rfl⟩
        exact hkey rfl
      have hfilter := Upsert.filter_all?
        (fun statement hstatement => List.mem_singleton.1 hstatement ▸ spares_financialValue hother) hrows
      simp only [Fetch.SameRows, financialRows, hfilter]
    | news | disclosures | indicators => rfl
  | indicator config data =>
    refine wp_syncIndicator (leaves_refl s) fun items rows hitems hrows => leaves_dropKeys fun f hf hkept => ?_
    cases f with
    | indicators code startDate endDate =>
      have hfilter := Upsert.filter_all?
        (fun value hvalue => h items hitems value hvalue code startDate endDate ⟨hf, hkept⟩) hrows
      simp only [Fetch.SameRows, indicatorRows, hfilter]
    | news | disclosures | financialStatement => rfl

end Sync

/-! ## Runs -/

variable (S) in
/-- A call with its arguments, as it leaves the store. -/
def step (s : Store AnalysisDb T) : Call → Store AnalysisDb T
  | .fetch f => left ((f.run S).run s)
  | .sync c => left ((c.run S).run s)

variable (S) in
/-- A read fits the entry it meets; a sync clears what it stores. -/
def Sound (s : Store AnalysisDb T) : Call → Prop
  | .fetch f => Fits S s f
  | .sync c => c.Clears S s

variable (S) in
/-- A read gives what it would give with an empty cache, which is what the database holds, and other fitting
reads that share its entry would get the same. A sync leaves no entry whose rows it changes. -/
def Transparent (s : Store AnalysisDb T) : Call → Prop
  | .fetch f =>
    outcome ((f.run S).run s) = outcome ((f.run S).run { s with redis := Dict.empty }) ∧
      outcome ((f.run S).run s) = f.query S s.db ∧
      ∀ g : Fetch, g.key = f.key → s.redis.get? f.key ≠ none → Fits S s g → g.query S s.db = f.query S s.db
  | .sync c =>
    ∀ f : Fetch, (left ((c.run S).run s)).redis.get? f.key ≠ none → f.SameRows S s.db (left ((c.run S).run s)).db

theorem accounts_of_serves {f : Fetch} {db : AnalysisDb} {t : T} (h : f.Serves S db t) :
    Accounts S db f.key t := fun _ _ => ⟨f, rfl, h⟩

theorem fetch_sound {f : Fetch} {s : Store AnalysisDb T} (hcurrent : Current (Accounts S) s.db s.redis)
    (hfits : Fits S s f) :
    Current (Accounts S) (step S s (.fetch f)).db (step S s (.fetch f)).redis ∧ Transparent S s (.fetch f) := by
  obtain ⟨hanswer, hdb, hredis⟩ := f.run_spec fun t ht => serves_of_fits hcurrent hfits ht
  refine ⟨?_, hanswer.trans (f.outcome_empty s.db).symm, hanswer, fun g hg hentry hgfits => ?_⟩
  · intro k t ht
    show Accounts S (left ((f.run S).run s)).db k t
    rw [hdb]
    rcases hredis k t ht with ht | ⟨rfl, hserves⟩
    · exact hcurrent k t ht
    · exact accounts_of_serves hserves
  · obtain ⟨t, ht⟩ := Option.ne_none_iff_exists'.1 hentry
    have hfserves := serves_of_fits hcurrent hfits ht
    have hgserves := serves_of_fits hcurrent hgfits (hg ▸ ht)
    rcases key_inj hg with rfl | ⟨symbol, d, sort, display, sort', rfl, rfl⟩
    · rfl
    · exact congrArg (Reply.news <$> ·) (Writes.answer_inj hgserves hfserves)

theorem sync_sound {c : Sync} {s : Store AnalysisDb T} (hcurrent : Current (Accounts S) s.db s.redis)
    (hclears : c.Clears S s) :
    Current (Accounts S) (step S s (.sync c)).db (step S s (.sync c)).redis ∧ Transparent S s (.sync c) := by
  have hleaves : Sync.Leaves S s (step S s (.sync c)) := left_of_wp (Sync.wp_run hclears)
  constructor
  · rintro k t ht f rfl
    obtain ⟨ht', hrows⟩ := hleaves f t ht
    obtain ⟨g, hkey, hserves⟩ := hcurrent f.key t ht' f rfl
    exact ⟨g, hkey, hserves.of_sameRows (key_eq.sameRows hkey.symm hrows)⟩
  · intro f hf
    obtain ⟨t, ht⟩ := Option.ne_none_iff_exists'.1 hf
    exact (hleaves f t ht).2

/-- From an empty cache and any database, in every sequence of calls whose reads fit the entries they meet and
whose syncs clear what they store, every read gives what the database holds for its arguments and no entry
outlives a change of its rows. -/
theorem transparent_of_sound (S : Services T) (db : AnalysisDb) (calls : List Call)
    (h : Async.Along (step S) (Sound S) calls ⟨db, Dict.empty⟩) :
    Async.Along (step S) (Transparent S) calls ⟨db, Dict.empty⟩ := by
  refine h.imp (I := fun s => Current (Accounts S) s.db s.redis) (fun s call hs hcall => ?_) current_empty
  cases call with
  | fetch f => exact fetch_sound hs hcall
  | sync c => exact sync_sound hs hcall

/-! ## Indicators and statements -/

/-- A text that a pattern takes literally. -/
def Literal (text : String) : Prop := ∀ c ∈ text.toList, c ∉ ['*', '?', '[', '\\']

instance (text : String) : Decidable (Literal text) := List.decidableBAll _ text.toList

/-- What the server documents of its patterns: a literal text with a star behind it matches the keys that
start with the text. -/
def GlobStyle (globMatch : String → String → Bool) : Prop :=
  ∀ text key : String, Literal text → (globMatch (text ++ "*") key = true ↔ text.toList <+: key.toList)

/-- Literal texts join to a literal text. -/
theorem Literal.append {a b : String} (ha : Literal a) (hb : Literal b) : Literal (a ++ b) := by
  intro c hc
  rw [String.toList_append, List.mem_append] at hc
  rcases hc with hc | hc
  · exact ha c hc
  · exact hb c hc

theorem literal_colon : Literal ":" := by decide +kernel

/-- The pattern of a literal namespace matches every key below it. -/
theorem GlobStyle.pattern_makeKey {globMatch : String → String → Bool} (h : GlobStyle globMatch) {ns : String}
    (hns : Literal ns) (key : String) : globMatch (pattern ns) (makeKey ns key) = true := by
  have hliteral : Literal (ns ++ ":") := hns.append literal_colon
  have hpattern : pattern ns = ns ++ ":" ++ "*" := by
    rw [String.append_assoc]
    rfl
  rw [hpattern, h _ _ hliteral, makeKey, String.toList_append (s := ns ++ ":")]
  exact List.prefix_append _ _

/-- The sync of an indicator with a literal code clears all that it stores. -/
theorem indicator_clears (hglob : GlobStyle S.globMatch) {config : EcosIndicatorConfig}
    (hcode : Literal (indicatorCode config)) (data : Except Exn (List StatisticRow)) (s : Store AnalysisDb T) :
    (Sync.indicator config data).Clears S s := by
  rintro items - value hvalue code startDate endDate ⟨-, hkept⟩
  have hns : Literal (indicatorsCacheNs ++ ":" ++ indicatorCode config) := by
    refine Literal.append (Literal.append ?_ literal_colon) hcode
    decide +kernel
  have hne : code ≠ indicatorCode config := by
    rintro rfl
    have hmatch := hglob.pattern_makeKey hns (dateText startDate ++ ":" ++ dateText endDate)
    have hkey : makeKey (indicatorsCacheNs ++ ":" ++ indicatorCode config)
        (dateText startDate ++ ":" ++ dateText endDate) =
        (Fetch.indicators (indicatorCode config) startDate endDate).key := by
      simp only [Fetch.key, Fetch.ns, Fetch.nsKey, makeKey, indicatorsKey, String.append_assoc]
    rw [hkey, hkept] at hmatch
    cases hmatch
  have hother : ∀ row : EconomicIndicator, row.indicatorCode = indicatorCode config →
      isIndicatorOf code startDate endDate row = false := by
    intro row hrow
    refine Bool.eq_false_iff.2 fun htrue => hne ?_
    exact (of_decide_eq_true htrue).2.1.symm.trans hrow
  have hstored : value.indicatorCode = indicatorCode config := by
    obtain ⟨row, -, hrow⟩ := List.mem_filterMap.1 hvalue
    exact indicatorCode_of_value hrow
  constructor
  · rintro row - ⟨-, hkey⟩
    have hrow : row.indicatorCode = value.indicatorCode := by
      have := Option.some.inj hkey
      exact congrArg (fun k => k.2.1) this
    exact .inr ⟨hother row (hrow.trans hstored), hother _ (hrow.trans hstored)⟩
  · exact fun _ => hother value hstored

/-- Calls for indicators with literal codes, for statements, and reads of disclosures. -/
def Ordinary : Call → Prop
  | .fetch (.news _ _ _) => False
  | .fetch _ => True
  | .sync (.indicator config _) => Literal (indicatorCode config)
  | .sync (.financials _ _ _ _ _) => True
  | .sync _ => False

/-- Where no news and no new disclosures come in, the caches are transparent without further conditions. -/
theorem transparent_of_ordinary (hglob : GlobStyle S.globMatch) (db : AnalysisDb) {calls : List Call}
    (h : ∀ call ∈ calls, Ordinary call) : Async.Along (step S) (Transparent S) calls ⟨db, Dict.empty⟩ := by
  have hsound : Async.Along (step S) (Sound S) calls ⟨db, Dict.empty⟩ := by
    refine Async.along_of_forall _ fun call hcall s => ?_
    have hordinary := h call hcall
    match call, hordinary with
    | .fetch (.disclosures _ _ _), _ | .fetch (.financialStatement _ _ _), _ | .fetch (.indicators _ _ _), _ => trivial
    | .sync (.financials _ _ _ _ _), _ => trivial
    | .sync (.indicator _ data), hcode => exact indicator_clears hglob hcode data s
  refine hsound.imp (I := fun s => Current (Accounts S) s.db s.redis) (fun s call hs hcall => ?_) current_empty
  cases call with
  | fetch f => exact fetch_sound hs hcall
  | sync c => exact sync_sound hs hcall

/-! ## Two runs -/

/-- Entries as values of their own. -/
inductive Text
  | news (articles : List NewsArticleInfo)
  | disclosures (disclosures : List DisclosureInfo)
  | financials (info : FinancialStatementInfo)
  | indicators (indicators : List EconomicIndicatorInfo)
  | plain (text : String)
  deriving DecidableEq

/-- A server that takes all of a pattern but its last star literally, and a search that dates its articles on
one morning. -/
def services : Services Text where
  globMatch pattern key := pattern.toList.dropLast.isPrefixOf key.toList
  newsText := ⟨.news, fun | .news a => .ok a | _ => .error (.cacheError ""), fun _ => rfl⟩
  disclosuresText := ⟨.disclosures, fun | .disclosures a => .ok a | _ => .error (.cacheError ""), fun _ => rfl⟩
  financialsText := ⟨.financials, fun | .financials a => .ok a | _ => .error (.cacheError ""), fun _ => rfl⟩
  indicatorsText := ⟨.indicators, fun | .indicators a => .ok a | _ => .error (.cacheError ""), fun _ => rfl⟩
  ofText := .plain
  toText
    | .plain text => text
    | _ => ""
  rowOrder _ rows := rows
  rowOrder_perm _ _ := .refl _
  cardinalityViolation := "ON CONFLICT DO UPDATE command cannot affect row a second time"
  dataException := "value too long for type character varying"
  parsedateToDatetime text := if text = "Mon, 02 Mar 2026 09:00:00 +0900" then some 1772409600 else none
  unescape text := text
  strptime _ := none

def article (link : String) (publishedAt : ℤ) : NewsArticle :=
  { source := .naver, symbol := some "005930", title := "실적", description := some "", link, publishedAt }

def newItem : NewsItem :=
  { pubDate := some "Mon, 02 Mar 2026 09:00:00 +0900", title := some "<b>실적</b>", description := none
    originallink := some "https://b", link := none }

/-- An article is found for the symbol, stored and read twice. -/
theorem transparent_of_sound_stored :
    Async.Along (step services) (Transparent services)
      [.sync (.news "005930" (.ok [newItem])), .fetch (.news "005930" 100 "date"), .fetch (.news "005930" 10 "date")]
      ⟨{ newsArticles := [article "https://a" 1772323200] }, Dict.empty⟩ := by
  refine transparent_of_sound services _ _ ⟨?_, ?_, ?_, trivial⟩
  · rintro items - found - owner display sort ⟨hentry, -⟩
    exact absurd rfl hentry
  · unfold Sound
    decide +kernel
  · unfold Sound
    decide +kernel

/-- The entry of the symbol outlives the sync that stores an article for it, and serves a read for fewer
articles as well. -/
theorem news_not_transparent :
    ¬ Async.Along (step services) (Transparent services)
      [.fetch (.news "005930" 100 "date"), .sync (.news "005930" (.ok [newItem])), .fetch (.news "005930" 100 "date")]
      ⟨{ newsArticles := [article "https://a" 1772323200] }, Dict.empty⟩ ∧
    ¬ Async.Along (step services) (Transparent services)
      [.fetch (.news "005930" 2 "date"), .fetch (.news "005930" 1 "date")]
      ⟨{ newsArticles := [article "https://a" 1772323200, article "https://b" 1772409600] }, Dict.empty⟩ := by
  constructor
  · rintro ⟨-, -, ⟨hstale, -⟩, -⟩
    exact absurd hstale (by decide +kernel)
  · rintro ⟨-, ⟨hshared, -⟩, -⟩
    exact absurd hshared (by decide +kernel)

end Providers

end TradingAgent
