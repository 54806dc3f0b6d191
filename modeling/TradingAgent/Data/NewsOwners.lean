/-
The table of news over runs of syncs. A link has one row, and the row one symbol, that of the last sync that
came upon the link. Every symbol keeps its articles exactly as long as every article fits its columns, no response
repeats a link and no link comes up again for another symbol.
-/
import TradingAgent.Data.Transparency

namespace TradingAgent

open Wp CacheAside

namespace NaverProvider

/-- A call of `sync_news` for a symbol, with what the search answers to it. -/
structure NewsCall where
  symbol : String
  data : Except Exn (List NewsItem)

variable {T : Type} (S : Services T)

/-- The articles of an answer that have a date. -/
def newsValues (c : NewsCall) : List NewsArticle :=
  match c.data with
  | .ok items => items.filterMap (newsValue S c.symbol)
  | .error _ => []

def sync (s : Store AnalysisDb T) (c : NewsCall) : Store AnalysisDb T :=
  left ((syncNews S c.symbol c.data).run s)

/-- A response repeats no link. -/
def DistinctLinks (values : List NewsArticle) : Prop := values.Pairwise (fun a b => ¬ newsConstraint.Conflict a b)

instance (values : List NewsArticle) : Decidable (DistinctLinks values) :=
  inferInstanceAs (Decidable (values.Pairwise _))

/-- The articles of an answer that the database takes: no link is repeated, and every article fits its columns. -/
def Accepted (values : List NewsArticle) : Prop := DistinctLinks values ∧ ∀ v ∈ values, v.fits = true

instance (values : List NewsArticle) : Decidable (Accepted values) := inferInstanceAs (Decidable (_ ∧ _))

variable {S}

theorem conflict_iff {a b : NewsArticle} : newsConstraint.Conflict a b ↔ b.link = a.link := by
  unfold Upsert.Constraint.Conflict newsConstraint
  simp

theorem newsValue_eq_some {symbol : String} {item : NewsItem} {v : NewsArticle}
    (h : newsValue S symbol item = some v) : v.source = .naver ∧ v.symbol = some symbol := by
  unfold newsValue at h
  split at h
  · cases h
  · cases h
    exact ⟨rfl, rfl⟩

theorem isNewsOf_of_mem_newsValues {c : NewsCall} {v : NewsArticle} (h : v ∈ newsValues S c) :
    isNewsOf c.symbol v = true := by
  unfold newsValues at h
  split at h
  · obtain ⟨item, -, hitem⟩ := List.mem_filterMap.1 h
    exact decide_eq_true (newsValue_eq_some hitem)
  · cases h

/-- A sync with an answer stores its articles and returns their number if the database takes them, else it fails. -/
theorem syncNews_run {s : Store AnalysisDb T} {c : NewsCall} {items : List NewsItem} (h : c.data = .ok items) :
    if Accepted (newsValues S c) then
      ∃ redis, (syncNews S c.symbol c.data).run s = .ok (newsValues S c).length
        ⟨{ s.db with newsArticles := (newsValues S c).foldl (Upsert.one newsConstraint) s.db.newsArticles }, redis⟩
    else ∃ e, (syncNews S c.symbol c.data).run s = .error e s := by
  have hvalues : newsValues S c = items.filterMap (newsValue S c.symbol) := by
    unfold newsValues
    rw [h]
  unfold syncNews
  rw [h, hvalues]
  simp only [MonadExcept.ofExcept, EStateM.run, bind, EStateM.bind, pure, EStateM.pure]
  by_cases hitems : items = []
  · subst hitems
    exact ⟨s.redis, rfl⟩
  rw [if_neg hitems]
  generalize items.filterMap (newsValue S c.symbol) = values
  by_cases hnil : values = []
  · subst hnil
    exact ⟨s.redis, rfl⟩
  rw [if_neg hnil]
  by_cases haccepted : Accepted values
  · have hexec : S.execute newsConstraint NewsArticle.fits s.db.newsArticles values =
        .ok (values.foldl (Upsert.one newsConstraint) s.db.newsArticles) :=
      S.execute_eq_ok.2 ⟨haccepted.2, if_pos haccepted.1⟩
    rw [if_pos haccepted]
    simp only [EStateM.bind, Wp.get_apply, hexec]
    exact ⟨_, rfl⟩
  · rw [if_neg haccepted]
    simp only [EStateM.bind, Wp.get_apply]
    cases hexec : S.execute newsConstraint NewsArticle.fits s.db.newsArticles values with
    | error exc => exact ⟨_, rfl⟩
    | ok rows =>
      obtain ⟨hfits, hall⟩ := S.execute_eq_ok.1 hexec
      refine absurd ⟨?_, hfits⟩ haccepted
      by_contra hrepeated
      rw [show Upsert.all? newsConstraint s.db.newsArticles values = none from if_neg hrepeated] at hall
      cases hall

theorem sync_rows (s : Store AnalysisDb T) (c : NewsCall) :
    (sync S s c).db.newsArticles =
      if Accepted (newsValues S c) then
        (newsValues S c).foldl (Upsert.one newsConstraint) s.db.newsArticles
      else s.db.newsArticles := by
  unfold sync
  cases hdata : c.data with
  | error e =>
    unfold newsValues
    rw [hdata]
    exact (ite_self _).symm
  | ok items =>
    have hrun := syncNews_run (S := S) (s := s) hdata
    rw [hdata] at hrun
    split
    · rename_i haccepted
      rw [if_pos haccepted] at hrun
      obtain ⟨redis, hrun⟩ := hrun
      rw [hrun]
      rfl
    · rename_i haccepted
      rw [if_neg haccepted] at hrun
      obtain ⟨e, hrun⟩ := hrun
      rw [hrun]
      rfl

theorem syncNews_outcome {s : Store AnalysisDb T} {c : NewsCall} {items : List NewsItem} (h : c.data = .ok items) :
    outcome ((syncNews S c.symbol c.data).run s) = .ok (newsValues S c).length ↔
      Accepted (newsValues S c) := by
  have hrun := syncNews_run (S := S) (s := s) h
  by_cases haccepted : Accepted (newsValues S c)
  · rw [if_pos haccepted] at hrun
    obtain ⟨redis, hrun⟩ := hrun
    rw [hrun]
    exact iff_of_true rfl haccepted
  · rw [if_neg haccepted] at hrun
    obtain ⟨e, hrun⟩ := hrun
    rw [hrun]
    exact iff_of_false (fun heq => by cases heq) haccepted

/-! ## Finding an article -/

variable (S)

/-- An article of a link is found for a symbol by a read without an entry that asks for enough of them. -/
def Found (db : AnalysisDb) (symbol link : String) : Prop :=
  ∃ enough : ℤ, ∀ display ≥ enough, ∃ infos,
    outcome ((fetchNews S symbol display).run ⟨db, Dict.empty⟩) = .ok infos ∧
      ∃ info ∈ infos, info.link = link ∧ info.symbol = some symbol

variable {S}

theorem fetchNews_empty (db : AnalysisDb) (symbol : String) (display : ℤ) :
    outcome ((fetchNews S symbol display).run ⟨db, Dict.empty⟩) = newsQuery S symbol display db := by
  unfold fetchNews
  rw [cacheThrough_miss rfl]
  cases newsQuery S symbol display db <;> rfl

theorem mem_newsRows {db : AnalysisDb} {symbol : String} {row : NewsArticle} :
    row ∈ newsRows S db symbol ↔ row ∈ db.newsArticles ∧ isNewsOf symbol row = true := by
  unfold newsRows
  rw [(List.perm_insertionSort _ _).mem_iff, (S.rowOrder_perm _ _).mem_iff, List.mem_filter]

/-- Found is what has a row under the symbol. -/
theorem found_iff {db : AnalysisDb} {symbol link : String} :
    Found S db symbol link ↔ ∃ row ∈ db.newsArticles, row.link = link ∧ isNewsOf symbol row = true := by
  constructor
  · rintro ⟨enough, h⟩
    obtain ⟨infos, hinfos, info, hinfo, hlink, -⟩ := h (max enough 0) (le_max_left _ _)
    rw [fetchNews_empty] at hinfos
    unfold newsQuery at hinfos
    rw [if_neg (not_lt.2 (le_max_right _ _))] at hinfos
    cases hinfos
    obtain ⟨row, hrow, rfl⟩ := List.mem_map.1 hinfo
    obtain ⟨hmem, hof⟩ := mem_newsRows.1 (List.mem_of_mem_take hrow)
    exact ⟨row, hmem, hlink, hof⟩
  · rintro ⟨row, hrow, hlink, hof⟩
    refine ⟨(newsRows S db symbol).length, fun display hdisplay => ?_⟩
    have hnonneg : ¬ display < 0 := by omega
    refine ⟨(newsRows S db symbol).map newsInfo, ?_, newsInfo row, ?_, hlink, ?_⟩
    · rw [fetchNews_empty]
      unfold newsQuery
      rw [if_neg hnonneg, List.take_of_length_le (by omega)]
    · exact List.mem_map_of_mem (mem_newsRows.2 ⟨hrow, hof⟩)
    · exact (of_decide_eq_true hof).2

/-! ## What a sync leaves to others -/

variable (S)

/-- The database takes the articles, and what is stored of their links are articles of the search under the symbol or
none. -/
def LeavesOthers (s : Store AnalysisDb T) (c : NewsCall) : Prop :=
  Accepted (newsValues S c) ∧ ∀ v ∈ newsValues S c, ∀ row ∈ s.db.newsArticles, row.link = v.link →
    row.source = .naver ∧ (row.symbol = none ∨ row.symbol = some c.symbol)

instance (s : Store AnalysisDb T) (c : NewsCall) : Decidable (LeavesOthers S s c) :=
  inferInstanceAs (Decidable (_ ∧ _))

variable {S}

/-- An article of the answer is stored under the symbol, with its text and date. -/
def Stored (db : AnalysisDb) (symbol : String) (v : NewsArticle) : Prop :=
  ∃ row ∈ db.newsArticles, row.link = v.link ∧ isNewsOf symbol row = true ∧
    row.title = v.title ∧ row.description = v.description ∧ row.publishedAt = v.publishedAt

theorem Stored.found {db : AnalysisDb} {symbol : String} {v : NewsArticle} (h : Stored db symbol v) :
    Found S db symbol v.link := by
  obtain ⟨row, hrow, hlink, hof, -⟩ := h
  exact found_iff.2 ⟨row, hrow, hlink, hof⟩

variable {s : Store AnalysisDb T} {c : NewsCall}

theorem LeavesOthers.stored (h : LeavesOthers S s c) {v : NewsArticle} (hv : v ∈ newsValues S c) :
    Stored (sync S s c).db c.symbol v := by
  have hof := isNewsOf_of_mem_newsValues hv
  unfold Stored
  rw [sync_rows, if_pos h.1]
  by_cases hany : ∃ old ∈ s.db.newsArticles, newsConstraint.Conflict v old
  · obtain ⟨old, hold, hconf⟩ := hany
    refine ⟨_, Upsert.merge_mem_foldl_one h.1.1 hv hold hconf, conflict_iff.1 hconf, ?_, rfl, rfl, rfl⟩
    exact decide_eq_true ⟨(h.2 v hv old hold (conflict_iff.1 hconf)).1, (of_decide_eq_true hof).2⟩
  · refine ⟨v, Upsert.mem_foldl_one h.1.1 hv (Option.some_ne_none _) ?_, rfl, hof, rfl, rfl, rfl⟩
    exact fun old hold hconf => hany ⟨old, hold, hconf⟩

theorem LeavesOthers.keeps (h : LeavesOthers S s c) {symbol link : String} (hfound : Found S s.db symbol link) :
    Found S (sync S s c).db symbol link := by
  obtain ⟨row, hrow, hlink, hof⟩ := found_iff.1 hfound
  by_cases hv : ∃ v ∈ newsValues S c, v.link = link
  · obtain ⟨v, hv, rfl⟩ := hv
    have howner : row.symbol = some symbol := (of_decide_eq_true hof).2
    rcases (h.2 v hv row hrow hlink).2 with hnone | hsame
    · rw [howner] at hnone
      cases hnone
    · rw [howner] at hsame
      cases hsame
      exact (h.stored hv).found
  · refine found_iff.2 ⟨row, ?_, hlink, hof⟩
    rw [sync_rows, if_pos h.1, Upsert.mem_foldl_one_iff (k := link) _ (congrArg some hlink)]
    · exact hrow
    · exact fun v hv' hkey => hv ⟨v, hv', Option.some.inj hkey⟩

/-- Two syncs for different symbols, one after the other, share no link. -/
theorem LeavesOthers.exchange {a b : NewsCall} (ha : LeavesOthers S s a) (hb : LeavesOthers S (sync S s a) b)
    (hne : a.symbol ≠ b.symbol) :
    (sync S (sync S s b) a).db.newsArticles.Perm (sync S (sync S s a) b).db.newsArticles := by
  simp only [sync_rows, if_pos ha.1, if_pos hb.1]
  refine Upsert.foldl_one_comm (c := newsConstraint) fun w hw v hv hconf => ?_
  obtain ⟨row, hrow, hlink, hof, -⟩ := ha.stored hv
  have howner : row.symbol = some a.symbol := (of_decide_eq_true hof).2
  rcases (hb.2 w hw row hrow (hlink.trans (conflict_iff.1 hconf))).2 with hnone | hsame
  · rw [howner] at hnone
    cases hnone
  · rw [howner] at hsame
    exact hne (Option.some.inj hsame)

/-! ## Runs -/

variable (S)

/-- Where a run stands after so many calls. -/
def synced (s : Store AnalysisDb T) (calls : List NewsCall) (k : ℕ) : Store AnalysisDb T :=
  Async.runSteps (sync S) (calls.take k) s

/-- Every sync stores the articles of its answer, they are found for the symbol ever after, no symbol loses an
article, and two syncs for different symbols might as well come the other way round. -/
structure KeepsNews (s : Store AnalysisDb T) (calls : List NewsCall) : Prop where
  stores : ∀ k c items, calls[k]? = some c → c.data = .ok items →
    outcome ((syncNews S c.symbol c.data).run (synced S s calls k)) = .ok (newsValues S c).length ∧
      ∀ v ∈ newsValues S c, Stored (synced S s calls (k + 1)).db c.symbol v
  found : ∀ k c m, calls[k]? = some c → k < m → ∀ v ∈ newsValues S c,
    Found S (synced S s calls m).db c.symbol v.link
  keeps : ∀ k m, k ≤ m → ∀ symbol link, Found S (synced S s calls k).db symbol link →
    Found S (synced S s calls m).db symbol link
  exchange : ∀ k a b, calls[k]? = some a → calls[k + 1]? = some b → a.symbol ≠ b.symbol →
    (sync S (sync S (synced S s calls k) b) a).db.newsArticles.Perm (synced S s calls (k + 2)).db.newsArticles

variable {S} {calls : List NewsCall}

theorem synced_succ {k : ℕ} (h : calls[k]? = some c) :
    synced S s calls (k + 1) = sync S (synced S s calls k) c :=
  Async.runSteps_take_succ h s

theorem pairwise_sync (h : s.db.newsArticles.Pairwise (fun a b => ¬ newsConstraint.Conflict a b)) (c : NewsCall) :
    (sync S s c).db.newsArticles.Pairwise (fun a b => ¬ newsConstraint.Conflict a b) := by
  rw [sync_rows]
  split
  · exact Upsert.pairwise_foldl_one h
  · exact h

theorem pairwise_synced (h : s.db.newsArticles.Pairwise (fun a b => ¬ newsConstraint.Conflict a b)) (k : ℕ) :
    (synced S s calls k).db.newsArticles.Pairwise (fun a b => ¬ newsConstraint.Conflict a b) :=
  Async.runSteps_keeps
    (I := fun s : Store AnalysisDb T => s.db.newsArticles.Pairwise (fun a b => ¬ newsConstraint.Conflict a b))
    (fun c _ _ hs => pairwise_sync hs c) h

/-- A table that keeps the constraint has one row for a link. -/
theorem eq_of_link {rows : List NewsArticle} (h : rows.Pairwise (fun a b => ¬ newsConstraint.Conflict a b))
    {a b : NewsArticle} (ha : a ∈ rows) (hb : b ∈ rows) (hlink : a.link = b.link) : a = b := by
  by_contra hne
  have : Std.Symm (fun a b => ¬ newsConstraint.Conflict a b) := ⟨fun _ _ hab hconf => hab hconf.symm⟩
  exact h.forall ha hb hne (conflict_iff.2 hlink.symm)

/-- Along such a run every article that has been found is found. -/
theorem found_synced (h : Async.Along (sync S) (LeavesOthers S) calls s) {k m : ℕ} (hkm : k ≤ m)
    {symbol link : String} (hfound : Found S (synced S s calls k).db symbol link) :
    Found S (synced S s calls m).db symbol link := by
  have hkeeps := Async.along_keeps (I := fun s => Found S s.db symbol link) (fun _ _ hs hc => hc.keeps hs)
    (h.drop k)
  unfold synced at hfound ⊢
  rw [Async.runSteps_take_of_le hkm]
  exact hkeeps hfound (m - k)

theorem keepsNews_of_along (h : Async.Along (sync S) (LeavesOthers S) calls s) : KeepsNews S s calls where
  stores k c items hc hdata := by
    have hleaves := Async.along_iff.1 h k c hc
    refine ⟨(syncNews_outcome hdata).2 hleaves.1, fun v hv => ?_⟩
    rw [synced_succ hc]
    exact hleaves.stored hv
  found k c m hc hkm v hv := by
    refine found_synced h hkm ?_
    rw [synced_succ hc]
    exact ((Async.along_iff.1 h k c hc).stored hv).found
  keeps k m hkm symbol link := found_synced h hkm
  exchange k a b ha hb hne := by
    have hleaves := Async.along_iff.1 h (k + 1) b hb
    change LeavesOthers S (synced S s calls (k + 1)) b at hleaves
    rw [synced_succ ha] at hleaves
    rw [synced_succ hb, synced_succ ha]
    exact (Async.along_iff.1 h k a ha).exchange hleaves hne

theorem KeepsNews.leavesOthers (hrows : s.db.newsArticles.Pairwise (fun a b => ¬ newsConstraint.Conflict a b))
    (h : KeepsNews S s calls) {k : ℕ} (hc : calls[k]? = some c) : LeavesOthers S (synced S s calls k) c := by
  cases hdata : c.data with
  | error e =>
    have hnil : newsValues S c = [] := by
      unfold newsValues
      rw [hdata]
    unfold LeavesOthers
    rw [hnil]
    exact ⟨⟨List.Pairwise.nil, fun v hv => by cases hv⟩, fun v hv => by cases hv⟩
  | ok items =>
    have haccepted := (syncNews_outcome hdata).1 (h.stores k c items hc hdata).1
    refine ⟨haccepted, fun v hv row hrow hlink => ?_⟩
    have hunique : (synced S s calls (k + 1)).db.newsArticles.Pairwise _ := pairwise_synced hrows (k + 1)
    obtain ⟨found, hfound, hfoundlink, hof⟩ := found_iff.1 (h.found k c (k + 1) hc (Nat.lt_succ_self k) v hv)
    -- the one row of the link is the stored one, updated
    have hupdated : newsConstraint.merge row v ∈ (synced S s calls (k + 1)).db.newsArticles := by
      rw [synced_succ hc, sync_rows, if_pos haccepted]
      exact Upsert.merge_mem_foldl_one haccepted.1 hv hrow (conflict_iff.2 hlink)
    obtain rfl := eq_of_link hunique hfound hupdated (hfoundlink.trans hlink.symm)
    have hsource : row.source = .naver := (of_decide_eq_true hof).1
    refine ⟨hsource, ?_⟩
    cases howner : row.symbol with
    | none => exact .inl rfl
    | some owner =>
      have hbefore : Found S (synced S s calls k).db owner row.link :=
        found_iff.2 ⟨row, hrow, rfl, decide_eq_true ⟨hsource, howner⟩⟩
      obtain ⟨kept, hkept, hkeptlink, hkeptof⟩ :=
        found_iff.1 (h.keeps k (k + 1) (Nat.le_succ k) owner row.link hbefore)
      obtain rfl := eq_of_link hunique hkept hupdated hkeptlink
      exact .inr ((of_decide_eq_true hkeptof).2.symm.trans (of_decide_eq_true hof).2)

/-- Over a table that keeps its constraint, no article is lost and every answer is stored exactly if each sync
leaves the articles of others alone. -/
theorem keepsNews_iff (S : Services T) (s : Store AnalysisDb T) (calls : List NewsCall)
    (hrows : s.db.newsArticles.Pairwise (fun a b => ¬ newsConstraint.Conflict a b)) :
    KeepsNews S s calls ↔ Async.Along (sync S) (LeavesOthers S) calls s :=
  ⟨fun h => Async.along_iff.2 fun _ _ hc => h.leavesOthers hrows hc, keepsNews_of_along⟩

open Providers (services newItem)

/-- Two symbols whose searches find articles of their own. -/
theorem keepsNews_iff_disjoint :
    KeepsNews services { db := {} }
      [⟨"005930", .ok [newItem]⟩, ⟨"000660", .ok [{ newItem with originallink := some "https://c" }]⟩] :=
  (keepsNews_iff services { db := {} } _ List.Pairwise.nil).2 (by decide +kernel)

/-- One article that both searches find, and a search that finds an article twice. -/
theorem not_keepsNews_shared :
    ¬ KeepsNews services { db := {} } [⟨"005930", .ok [newItem]⟩, ⟨"000660", .ok [newItem]⟩] ∧
    ¬ KeepsNews services { db := {} } [⟨"005930", .ok [newItem, newItem]⟩] := by
  constructor
  · intro h
    have hlost : ∀ row ∈ (synced services { db := {} }
        [⟨"005930", .ok [newItem]⟩, ⟨"000660", .ok [newItem]⟩] 2).db.newsArticles, isNewsOf "005930" row = false := by
      decide +kernel
    have hvalue : ∃ v, newsValues services ⟨"005930", .ok [newItem]⟩ = [v] := ⟨_, rfl⟩
    obtain ⟨v, hv⟩ := hvalue
    have hmem : v ∈ newsValues services ⟨"005930", .ok [newItem]⟩ := by rw [hv]; exact List.mem_cons_self
    obtain ⟨row, hrow, -, hof⟩ := found_iff.1 (h.found 0 _ 2 rfl (by decide) v hmem)
    rw [hlost row hrow] at hof
    cases hof
  · intro h
    have hstored := h.stores 0 ⟨"005930", .ok [newItem, newItem]⟩ [newItem, newItem] rfl rfl
    exact absurd hstored.1 (by decide +kernel)

end NaverProvider

end TradingAgent
