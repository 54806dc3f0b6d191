/-
Daily bars of the KIS client. An answer lists at most a hundred records of the asked window, newest first; the client
asks again for the days before the oldest one as long as a page brought a hundred new bars, so that a full page with a
record without a date ends the loop.
-/
import TradingAgent.Broker.KisClient
import TradingAgent.Lib.Relativedelta
import TradingAgent.Strategy.Exit
import Mathlib.Data.List.Sort

namespace TradingAgent

/-! ## What the exchange answers -/

/-- A daily bar with the fields that only the data provider reads. -/
structure KISClient.Bar extends OHLCV where
  symbol : String
  openPrice : Decimal
  volume : ℤ
  value : Decimal

/-- One record of a page of daily bars. -/
structure KISDailyChartOutput where
  stckBsopDate : String := ""
  stckClpr : String := ""
  stckOprc : String := ""
  stckHgpr : String := ""
  stckLwpr : String := ""
  acmlVol : String := ""
  acmlTrPbmn : String := ""

/-- The domain model of a record; `none` if its date is none or a price is not finite. -/
def KISDailyChartOutput.toDomain (symbol : String) (item : KISDailyChartOutput) : Option KISClient.Bar := do
  let digits := item.stckBsopDate.toList
  let year ← PyInt.parse? (digits.take 4)
  let month ← PyInt.parse? ((digits.take 6).drop 4)
  let day ← PyInt.parse? ((digits.take 8).drop 6)
  let date ← PyDate.make? year month day
  let openPrice ← toDecimal item.stckOprc
  let high ← toDecimal item.stckHgpr
  let low ← toDecimal item.stckLwpr
  let close ← toDecimal item.stckClpr
  let value ← toDecimal item.acmlTrPbmn
  return { symbol, date := date.toDay, openPrice, high, low, close, volume := toInt item.acmlVol, value }

/-- The parameters of a request for daily bars that change from page to page, the dates as days. -/
structure DailyParams where
  fidInputIscd : String
  fidInputDate1 : ℤ
  fidInputDate2 : ℤ

namespace KISClient

/-! ## The loop over the pages -/

def maxOhlcvPages : ℕ := 20

/-- What has been read of a page, with the bars of the pages before it. -/
structure Page where
  allBars : List Bar
  seen : List (String × ℤ)
  pageCount : ℕ := 0
  oldestDate : Option ℤ := none

/-- Read one record; one without a date is skipped, and a date seen before adds no bar. -/
def readItem (symbol : String) (page : Page) (raw : KISDailyChartOutput) : Option Page :=
  if raw.stckBsopDate = "" then some page
  else do
    let bar ← raw.toDomain symbol
    let page :=
      if (symbol, bar.date) ∈ page.seen then page
      else { page with
        seen := page.seen ++ [(symbol, bar.date)]
        allBars := page.allBars ++ [bar]
        pageCount := page.pageCount + 1 }
    return { page with
      oldestDate := if page.oldestDate.all (fun oldest => bar.date < oldest) then some bar.date else page.oldestDate }

/-- Collect bars from at most so many pages that end on a day; `none` if a request or a record fails. -/
def collectBars (request : DailyParams → Option (List KISDailyChartOutput)) (symbol : String) (startDate : ℤ) :
    ℕ → ℤ → List Bar → List (String × ℤ) → Option (List Bar)
  | 0, _, allBars, _ => some allBars
  | pages + 1, endDate, allBars, seen => do
    let items ← request { fidInputIscd := symbol, fidInputDate1 := startDate, fidInputDate2 := endDate }
    if items.isEmpty then return allBars
    else
      let page ← items.foldlM (readItem symbol) { allBars, seen }
      match page.oldestDate with
      | none => return page.allBars
      | some oldestDate =>
        if page.pageCount < 100 then return page.allBars
        else if oldestDate - 1 < startDate then return page.allBars
        else collectBars request symbol startDate pages (oldestDate - 1) page.allBars page.seen

/-- The daily bars of a period up to today, oldest first. -/
def getDailyOhlcv (request : DailyParams → Option (List KISDailyChartOutput)) (symbol : String) (today : ℤ)
    (periodDays : ℤ := 100) : Option (List Bar) := do
  let allBars ← collectBars request symbol (today - periodDays) maxOhlcvPages today [] []
  return allBars.insertionSort (fun a b => a.date ≤ b.date)

/-! ## What a service answers -/

/-- The records with a date. -/
def dated (items : List KISDailyChartOutput) : List KISDailyChartOutput :=
  items.filter (fun raw => raw.stckBsopDate ≠ "")

/-- The bars up to a day. -/
def window (bars : List Bar) (endDate : ℤ) : List Bar := bars.filter (fun bar => bar.date ≤ endDate)

/-- A page of at most a hundred records: those with a date are the newest bars of the window, and all of its bars
unless there are a hundred records. -/
structure Lists (symbol : String) (held : List Bar) (items : List KISDailyChartOutput) : Prop where
  length_le : items.length ≤ 100
  newest : (dated items).map (·.toDomain symbol) = (held.take (dated items).length).map some
  all : items.length < 100 → (dated items).length = held.length

/-- A service that holds bars of a range of days, given newest first, and lists them page by page. -/
structure Serves (request : DailyParams → Option (List KISDailyChartOutput)) (symbol : String) (startDate today : ℤ)
    (bars : List Bar) : Prop where
  newestFirst : bars.Pairwise (fun a b => b.date < a.date)
  range : ∀ bar ∈ bars, startDate ≤ bar.date ∧ bar.date ≤ today
  answers : ∀ endDate, ∃ items,
    request { fidInputIscd := symbol, fidInputDate1 := startDate, fidInputDate2 := endDate } =
    some items ∧ Lists symbol (window bars endDate) items

/-- The day on which the window of a page ends if every page before it brought a hundred bars. -/
def pageEnd (today : ℤ) (bars : List Bar) (page : ℕ) : ℤ :=
  match bars[100 * page - 1]? with
  | some bar => if page = 0 then today else bar.date - 1
  | none => today

/-- Each page from one on that has bars left to list lists a hundred of them or all. -/
def FullPages (request : DailyParams → Option (List KISDailyChartOutput)) (symbol : String) (startDate today : ℤ)
    (bars : List Bar) (first : ℕ) : Prop :=
  ∀ page, first ≤ page → 100 * page < bars.length → ∀ items,
    request { fidInputIscd := symbol, fidInputDate1 := startDate, fidInputDate2 := pageEnd today bars page } =
      some items → (dated items).length = min 100 (bars.length - 100 * page)

/-! ## Reading a page -/

/-- A page after new bars. -/
def Page.after (symbol : String) (page : Page) (bars : List Bar) : Page where
  allBars := page.allBars ++ bars
  seen := page.seen ++ bars.map (fun bar => (symbol, bar.date))
  pageCount := page.pageCount + bars.length
  oldestDate := (bars.getLast?.map (·.date)).or page.oldestDate

theorem after_cons (symbol : String) (page : Page) (bar : Bar) (bars : List Bar) :
    (page.after symbol [bar]).after symbol bars = page.after symbol (bar :: bars) := by
  unfold Page.after
  congr 1
  · exact List.append_assoc _ _ _
  · exact List.append_assoc _ _ _
  · simp only [List.length_cons, List.length_nil]
    omega
  · cases bars with
    | nil => rfl
    | cons b bars =>
      rw [List.getLast?_cons_cons, List.getLast?_eq_some_getLast (List.cons_ne_nil b bars)]
      rfl

/-- A new bar older than those of the page. -/
theorem readItem_new {symbol : String} {page : Page} {raw : KISDailyChartOutput} {bar : Bar}
    (hdate : raw.stckBsopDate ≠ "") (hbar : raw.toDomain symbol = some bar) (hnew : (symbol, bar.date) ∉ page.seen)
    (holder : ∀ oldest ∈ page.oldestDate, bar.date < oldest) :
    readItem symbol page raw = some (page.after symbol [bar]) := by
  have hall : page.oldestDate.all (fun oldest => bar.date < oldest) = true := by
    rw [Option.all_eq_true]
    exact fun oldest h => decide_eq_true (holder oldest h)
  unfold readItem
  rw [if_neg hdate, hbar]
  show some _ = _
  rw [if_neg hnew, if_pos hall]
  rfl

/-- A page of new bars, each older than the one before it. -/
theorem foldlM_readItem {symbol : String} (items : List KISDailyChartOutput) (page : Page) {bars : List Bar}
    (hbars : (dated items).map (·.toDomain symbol) = bars.map some)
    (hsorted : bars.Pairwise (fun a b => b.date < a.date)) (hnew : ∀ bar ∈ bars, (symbol, bar.date) ∉ page.seen)
    (holder : ∀ oldest ∈ page.oldestDate, ∀ bar ∈ bars, bar.date < oldest) :
    items.foldlM (readItem symbol) page = some (page.after symbol bars) := by
  induction items generalizing page bars with
  | nil =>
    obtain rfl : bars = [] := List.map_eq_nil_iff.1 hbars.symm
    show some page = some (page.after symbol [])
    unfold Page.after
    rw [List.append_nil, List.map_nil, List.append_nil]
    rfl
  | cons raw items ih =>
    rw [List.foldlM_cons]
    by_cases hdate : raw.stckBsopDate = ""
    · have hskip : readItem symbol page raw = some page := by
        unfold readItem
        rw [if_pos hdate]
      have hdated : dated (raw :: items) = dated items := List.filter_cons_of_neg (by simp [hdate])
      rw [hdated] at hbars
      rw [hskip]
      exact ih page hbars hsorted hnew holder
    · have hdated : dated (raw :: items) = raw :: dated items := List.filter_cons_of_pos (by simp [hdate])
      rw [hdated] at hbars
      cases bars with
      | nil => cases hbars
      | cons bar bars =>
        obtain ⟨hbar, hrest⟩ := List.cons.inj hbars
        rw [List.pairwise_cons] at hsorted
        rw [readItem_new hdate hbar (hnew bar List.mem_cons_self) fun o ho => holder o ho bar List.mem_cons_self]
        show items.foldlM (readItem symbol) (page.after symbol [bar]) = _
        have hseen : ∀ b ∈ bars, (symbol, b.date) ∉ (page.after symbol [bar]).seen := by
          intro b hb hmem
          rcases List.mem_append.1 hmem with hmem | hmem
          · exact hnew b (List.mem_cons_of_mem _ hb) hmem
          · have heq := (Prod.mk.inj (List.mem_singleton.1 hmem)).2
            exact (hsorted.1 b hb).ne heq
        rw [ih (page.after symbol [bar]) hrest hsorted.2 hseen fun o ho b hb => ?_]
        · rw [after_cons]
        · obtain rfl : bar.date = o := Option.some.inj ho
          exact hsorted.1 b hb

/-! ## Windows -/

variable {request : DailyParams → Option (List KISDailyChartOutput)} {symbol : String} {startDate today : ℤ}
  {bars : List Bar}

theorem pageEnd_succ {page : ℕ} {bar : Bar} (h : bars[100 * page + 99]? = some bar) :
    pageEnd today bars (page + 1) = bar.date - 1 := by
  unfold pageEnd
  rw [show 100 * (page + 1) - 1 = 100 * page + 99 by omega, h]
  dsimp only
  rw [if_neg (Nat.succ_ne_zero page)]

theorem pageEnd_zero : pageEnd today bars 0 = today := by
  unfold pageEnd
  split
  · rw [if_pos rfl]
  · rfl

/-- The window of a page has the bars that the pages before it have not listed. -/
theorem window_pageEnd (h : Serves request symbol startDate today bars) {page : ℕ} (hpage : 100 * page ≤ bars.length) :
    window bars (pageEnd today bars page) = bars.drop (100 * page) := by
  unfold window
  cases page with
  | zero =>
    rw [pageEnd_zero, List.filter_eq_self.2 fun bar hbar => decide_eq_true (h.range bar hbar).2]
    rfl
  | succ page =>
    have hlt : 100 * page + 99 < bars.length := by omega
    have hbar := List.getElem?_eq_getElem hlt
    rw [pageEnd_succ hbar]
    have hsplit := List.take_append_drop (100 * (page + 1)) bars
    have hlast : bars.take (100 * (page + 1)) = bars.take (100 * page + 99) ++ [bars[100 * page + 99]] := by
      rw [show 100 * (page + 1) = 100 * page + 99 + 1 by omega, List.take_add_one, hbar]
      rfl
    have hsorted := h.newestFirst
    rw [← hsplit, List.pairwise_append] at hsorted
    -- the bars of the earlier pages are not before the last of them, the others are
    have hbefore : (bars.take (100 * (page + 1))).filter
        (fun bar => bar.date ≤ bars[100 * page + 99].date - 1) = [] := by
      refine List.filter_eq_nil_iff.2 fun bar hmem => ?_
      have hge : bars[100 * page + 99].date ≤ bar.date := by
        rw [hlast] at hmem hsorted
        rcases List.mem_append.1 hmem with hmem | hmem
        · exact ((List.pairwise_append.1 hsorted.1).2.2 bar hmem _ (List.mem_singleton_self _)).le
        · rw [List.mem_singleton.1 hmem]
      rw [decide_eq_true_iff]
      omega
    have hafter : (bars.drop (100 * (page + 1))).filter
        (fun bar => bar.date ≤ bars[100 * page + 99].date - 1) = bars.drop (100 * (page + 1)) := by
      refine List.filter_eq_self.2 fun bar hmem => ?_
      have hmemlast : bars[100 * page + 99] ∈ bars.take (100 * (page + 1)) := by
        rw [hlast]
        exact List.mem_append_right _ (List.mem_singleton_self _)
      have hlt' := hsorted.2.2 _ hmemlast bar hmem
      rw [decide_eq_true_iff]
      omega
    calc bars.filter (fun bar => bar.date ≤ bars[100 * page + 99].date - 1)
        = (bars.take (100 * (page + 1)) ++ bars.drop (100 * (page + 1))).filter
            (fun bar => bar.date ≤ bars[100 * page + 99].date - 1) := by rw [hsplit]
      _ = bars.drop (100 * (page + 1)) := by rw [List.filter_append, hbefore, hafter, List.nil_append]

/-! ## The loop -/

/-- What a page has after the bars that its window holds, of which it lists some. -/
theorem foldlM_page (h : Serves request symbol startDate today bars) {page : ℕ} {items : List KISDailyChartOutput}
    (hitems : Lists symbol (bars.drop (100 * page)) items) :
    items.foldlM (readItem symbol)
        { allBars := bars.take (100 * page)
          seen := (bars.take (100 * page)).map (fun bar => (symbol, bar.date)) } = some {
      allBars := bars.take (100 * page + (dated items).length)
      seen := (bars.take (100 * page + (dated items).length)).map (fun bar => (symbol, bar.date))
      pageCount := (dated items).length
      oldestDate := ((bars.drop (100 * page)).take (dated items).length).getLast?.map (·.date) } := by
  have hlength : ((bars.drop (100 * page)).take (dated items).length).length = (dated items).length := by
    have hmap := congrArg List.length hitems.newest
    rw [List.length_map, List.length_map] at hmap
    exact hmap.symm
  have hsorted := h.newestFirst
  rw [← List.take_append_drop (100 * page) bars, List.pairwise_append] at hsorted
  rw [foldlM_readItem items _ hitems.newest (hsorted.2.1.sublist (List.take_sublist _ _)) ?_ (by simp)]
  · unfold Page.after
    rw [hlength, ← List.map_append, ← List.take_add, Option.or_none, Nat.zero_add]
  · intro bar hbar hmem
    obtain ⟨earlier, hearlier, heq⟩ := List.mem_map.1 hmem
    have hlt := hsorted.2.2 earlier hearlier bar (List.mem_of_mem_take hbar)
    exact hlt.ne (Prod.mk.inj heq).2.symm

/-- At most a hundred records have a date, and no more than the window has bars. -/
theorem length_dated_le {held : List Bar} {items : List KISDailyChartOutput} (h : Lists symbol held items) :
    (dated items).length ≤ 100 ∧ (dated items).length ≤ held.length := by
  have hmap := congrArg List.length h.newest
  rw [List.length_map, List.length_map, List.length_take] at hmap
  exact ⟨(List.length_filter_le _ _).trans h.length_le, by omega⟩

/-- The pages from one on are full if this one is and the later ones are. -/
theorem fullPages_iff {page : ℕ} {items : List KISDailyChartOutput}
    (hitems : request { fidInputIscd := symbol, fidInputDate1 := startDate, fidInputDate2 := pageEnd today bars page } =
      some items) :
    FullPages request symbol startDate today bars page ↔
      (100 * page < bars.length → (dated items).length = min 100 (bars.length - 100 * page)) ∧
        FullPages request symbol startDate today bars (page + 1) := by
  constructor
  · intro hfull
    exact ⟨fun hlt => hfull page le_rfl hlt items hitems, fun i hi => hfull i (by omega)⟩
  · rintro ⟨hthis, hlater⟩ i hi hlt items' hitems'
    rcases hi.eq_or_lt with rfl | hi
    · rw [hitems] at hitems'
      rw [← Option.some.inj hitems']
      exact hthis hlt
    · exact hlater i hi hlt items' hitems'

/-- Beyond the bars every page is full. -/
theorem fullPages_of_le {page : ℕ} (h : bars.length ≤ 100 * page) :
    FullPages request symbol startDate today bars page := fun i hi hlt => by omega

/-- From a page on the loop collects the newest bars, and all of them just if the pages are full. -/
theorem collectBars_spec (h : Serves request symbol startDate today bars) (pages : ℕ) {page : ℕ}
    (hpage : 100 * page ≤ bars.length) (hfit : bars.length ≤ 100 * (page + pages)) :
    ∃ n, collectBars request symbol startDate pages (pageEnd today bars page) (bars.take (100 * page))
        ((bars.take (100 * page)).map (fun bar => (symbol, bar.date))) = some (bars.take n) ∧
      n ≤ bars.length ∧ (n = bars.length ↔ FullPages request symbol startDate today bars page) := by
  induction pages generalizing page with
  | zero =>
    exact ⟨100 * page, rfl, hpage, fun _ => fullPages_of_le hfit, fun _ => by omega⟩
  | succ pages ih =>
    obtain ⟨items, hrequest, hitems⟩ := h.answers (pageEnd today bars page)
    rw [window_pageEnd h hpage] at hitems
    have hfold := foldlM_page h hitems
    obtain ⟨hhundred, hheld⟩ := length_dated_le hitems
    rw [List.length_drop] at hheld
    have hiff := fullPages_iff hrequest
    -- a page with fewer than a hundred bars is the last
    have hstop : (dated items).length < 100 →
        (100 * page + (dated items).length = bars.length ↔ FullPages request symbol startDate today bars page) := by
      intro hlt
      constructor
      · exact fun hall => hiff.2 ⟨fun _ => by omega, fullPages_of_le (by omega)⟩
      · intro hfull
        have hthis := (hiff.1 hfull).1
        omega
    unfold collectBars
    rw [hrequest, Option.bind_eq_bind, Option.bind_some]
    split
    · rename_i hempty
      have hzero : (dated items).length = 0 := by
        rw [List.isEmpty_iff.1 hempty]
        rfl
      exact ⟨100 * page, rfl, hpage, by rw [← hstop (by omega), hzero, Nat.add_zero]⟩
    rw [hfold, Option.bind_eq_bind, Option.bind_some]
    dsimp only
    cases holdest : ((bars.drop (100 * page)).take (dated items).length).getLast? with
    | none =>
      have hzero : (dated items).length = 0 := by
        have hnil := congrArg List.length (List.getLast?_eq_none_iff.1 holdest)
        rw [List.length_take, List.length_drop, List.length_nil] at hnil
        omega
      exact ⟨_, rfl, by omega, hstop (by omega)⟩
    | some oldest =>
      rw [Option.map_some]
      dsimp only
      split
      · rename_i hlt
        exact ⟨_, rfl, by omega, hstop hlt⟩
      rename_i hnot
      have hdated : (dated items).length = 100 := by omega
      have hthis : 100 * page < bars.length → (dated items).length = min 100 (bars.length - 100 * page) := by omega
      have hlast : bars[100 * page + 99]? = some oldest := by
        rw [hdated, List.getLast?_eq_getElem?, List.length_take, List.length_drop,
          show min 100 (bars.length - 100 * page) - 1 = 99 by omega, List.getElem?_take_of_lt (by omega),
          List.getElem?_drop] at holdest
        exact holdest
      rw [hdated, show 100 * page + 100 = 100 * (page + 1) by omega]
      split
      · rename_i hbefore
        -- a bar left would be from the start on and before the oldest one
        have hall : bars.length = 100 * (page + 1) := by
          by_contra hne
          have hlt : 100 * (page + 1) < bars.length := by omega
          have hstart := (h.range _ (List.getElem_mem hlt)).1
          have holder := List.pairwise_iff_getElem.1 h.newestFirst (100 * page + 99) (100 * (page + 1)) (by omega)
            hlt (by omega)
          rw [(List.getElem?_eq_some_iff.1 hlast).2] at holder
          omega
        exact ⟨_, rfl, hall.ge, by rw [hiff]; exact ⟨fun _ => ⟨hthis, fullPages_of_le hall.le⟩, fun _ => hall.symm⟩⟩
      · obtain ⟨n, hcollect, hn, hn_iff⟩ := ih (show 100 * (page + 1) ≤ bars.length by omega) (by omega)
        rw [pageEnd_succ hlast] at hcollect
        exact ⟨n, hcollect, hn, by rw [hn_iff, hiff]; exact ⟨fun hfull => ⟨hthis, hfull⟩, fun hfull => hfull.2⟩⟩

/-- Bars listed newest first are sorted by turning them around. -/
theorem insertionSort_eq_reverse {l : List Bar} (h : l.Pairwise (fun a b => b.date < a.date)) :
    l.insertionSort (fun a b => a.date ≤ b.date) = l.reverse := by
  have hperm : (l.insertionSort (fun a b => a.date ≤ b.date)).Perm l.reverse :=
    (List.perm_insertionSort _ l).trans (List.reverse_perm l).symm
  have hreverse : l.reverse.Pairwise (fun a b : Bar => a.date ≤ b.date) :=
    List.pairwise_reverse.2 (h.imp fun hlt => hlt.le)
  refine hperm.eq_of_pairwise (fun a b ha hb hab hba => ?_) (List.pairwise_insertionSort _ l) hreverse
  -- bars of one date are one bar
  have hnodup : (l.map (·.date)).Nodup := List.pairwise_map.2 (h.imp fun hlt => hlt.ne')
  have ha' : a ∈ l := (List.mem_insertionSort _).1 ha
  exact List.inj_on_of_nodup_map hnodup ha' (List.mem_reverse.1 hb) (le_antisymm hab hba)

/-- The newest bars of a period are returned, and all of them just if the pages are full. -/
theorem getDailyOhlcv_spec {periodDays : ℤ} (h : Serves request symbol (today - periodDays) today bars)
    (hfit : bars.length ≤ 100 * maxOhlcvPages) :
    ∃ n, getDailyOhlcv request symbol today periodDays = some (bars.take n).reverse ∧ n ≤ bars.length ∧
      (n = bars.length ↔ FullPages request symbol (today - periodDays) today bars 0) := by
  have hpages : bars.length ≤ 100 * (0 + maxOhlcvPages) := by omega
  obtain ⟨n, hcollect, hn, hiff⟩ := collectBars_spec h maxOhlcvPages (Nat.zero_le _) hpages
  refine ⟨n, ?_, hn, hiff⟩
  rw [pageEnd_zero] at hcollect
  unfold getDailyOhlcv
  rw [show collectBars request symbol (today - periodDays) maxOhlcvPages today [] [] = some (bars.take n)
    from hcollect]
  exact congrArg some (insertionSort_eq_reverse (h.newestFirst.sublist (List.take_sublist n bars)))

/-- Of the bars of a period that fit in the pages, all are returned, oldest first, just if every page that the loop
can get to lists a hundred bars or all that are left. -/
theorem getDailyOhlcv_iff {periodDays : ℤ} (h : Serves request symbol (today - periodDays) today bars)
    (hfit : bars.length ≤ 100 * maxOhlcvPages) :
    getDailyOhlcv request symbol today periodDays = some bars.reverse ↔
      FullPages request symbol (today - periodDays) today bars 0 := by
  obtain ⟨n, hresult, hn, hiff⟩ := getDailyOhlcv_spec h hfit
  rw [hresult, ← hiff]
  constructor
  · intro heq
    have hlength := congrArg List.length (List.reverse_injective (Option.some.inj heq))
    rw [List.length_take] at hlength
    omega
  · intro hall
    rw [hall, List.take_length]

/-! ## A service that pads its pages -/

/-- Every page starts with the same records without a date. -/
def pageRequest (pad : List KISDailyChartOutput) (rows : List (KISDailyChartOutput × Bar)) (params : DailyParams) :
    Option (List KISDailyChartOutput) :=
  some (pad ++ ((rows.filter (fun row => row.2.date ≤ params.fidInputDate2)).take (100 - pad.length)).map (·.1))

/-- Every page starts with a record without a date. -/
def paddedRequest (rows : List (KISDailyChartOutput × Bar)) : DailyParams → Option (List KISDailyChartOutput) :=
  pageRequest [{}] rows

/-- The record of the first day of a year. -/
def newYear (year : ℕ) : KISDailyChartOutput :=
  { stckBsopDate := String.ofList (PyDate.digits 4 year ++ "0101".toList) }

/-- The first days of years up to 1999, newest first. -/
def newYears (n : ℕ) : List (KISDailyChartOutput × Bar) :=
  (List.range n).filterMap (fun i => ((newYear (1999 - i)).toDomain "A").map (fun bar => (newYear (1999 - i), bar)))

section

variable {pad : List KISDailyChartOutput} {rows : List (KISDailyChartOutput × Bar)}

/-- The records with a date on a page are those of the newest rows. -/
theorem dated_page (hpad : dated pad = [])
    (hrows : ∀ row ∈ rows, row.1.stckBsopDate ≠ "" ∧ row.1.toDomain symbol = some row.2) (endDate : ℤ) (n : ℕ) :
    dated (pad ++ ((rows.filter (fun row => row.2.date ≤ endDate)).take n).map (·.1)) =
      ((rows.filter (fun row => row.2.date ≤ endDate)).take n).map (·.1) := by
  have hall : dated (((rows.filter (fun row => row.2.date ≤ endDate)).take n).map (·.1)) =
      ((rows.filter (fun row => row.2.date ≤ endDate)).take n).map (·.1) := by
    refine List.filter_eq_self.2 fun raw hraw => ?_
    obtain ⟨row, hrow, rfl⟩ := List.mem_map.1 hraw
    exact decide_eq_true (hrows row (List.mem_of_mem_filter (List.mem_of_mem_take hrow))).1
  refine (List.filter_append _ _).trans ?_
  exact (congrArg₂ _ hpad hall).trans (List.nil_append _)

theorem lists_page (hpad : dated pad = []) (hlength : pad.length ≤ 100)
    (hrows : ∀ row ∈ rows, row.1.stckBsopDate ≠ "" ∧ row.1.toDomain symbol = some row.2) (endDate : ℤ) :
    Lists symbol (window (rows.map (·.2)) endDate)
      (pad ++ ((rows.filter (fun row => row.2.date ≤ endDate)).take (100 - pad.length)).map (·.1)) := by
  have hwindow : window (rows.map (·.2)) endDate = (rows.filter (fun row => row.2.date ≤ endDate)).map (·.2) :=
    List.filter_map
  have hdated := dated_page hpad hrows endDate (100 - pad.length)
  rw [hwindow]
  refine ⟨?_, ?_, ?_⟩
  · rw [List.length_append, List.length_map, List.length_take]
    omega
  · rw [hdated, List.length_map, List.length_take, List.map_map, ← List.map_take, List.map_map,
      ← List.take_eq_take_min]
    exact List.map_congr_left fun row hrow =>
      (hrows row (List.mem_of_mem_filter (List.mem_of_mem_take hrow))).2
  · rw [hdated, List.length_append, List.length_map, List.length_map, List.length_take]
    omega

end

theorem newYear_date : ∀ i ∈ List.range 101, ((newYear (1999 - i)).toDomain "A").map (·.date) =
    some (Calendar.ofDate (1999 - i) 1 1) := by
  decide +kernel

theorem newYears_dates {n : ℕ} (hn : n ≤ 101) :
    (newYears n).map (·.2.date) = (List.range n).map (fun i : ℕ => Calendar.ofDate (1999 - i) 1 1) := by
  unfold newYears
  rw [List.map_filterMap, ← List.filterMap_eq_map]
  refine List.filterMap_congr fun i hi => ?_
  have hdate := newYear_date i (List.mem_range.2 ((List.mem_range.1 hi).trans_le hn))
  rw [Option.map_map]
  exact hdate

theorem newYears_rows {n : ℕ} {row : KISDailyChartOutput × Bar} (h : row ∈ newYears n) :
    row.1.stckBsopDate ≠ "" ∧ row.1.toDomain "A" = some row.2 := by
  obtain ⟨i, -, hi⟩ := List.mem_filterMap.1 h
  obtain ⟨bar, hbar, rfl⟩ := Option.map_eq_some_iff.1 hi
  refine ⟨fun hempty => ?_, hbar⟩
  have hlength := congrArg (fun s : String => s.toList.length) hempty
  unfold newYear at hlength
  simp [PyDate.length_digits] at hlength

/-- The service serves the bars of these years if they are in order. -/
theorem serves_newYears {pad : List KISDailyChartOutput} {n : ℕ} {startDate today : ℤ} (hpad : dated pad = [])
    (hlength : pad.length ≤ 100) (hsorted : ((newYears n).map (·.2.date)).Pairwise (fun a b => b < a))
    (hrange : ∀ d ∈ (newYears n).map (·.2.date), startDate ≤ d ∧ d ≤ today) :
    Serves (pageRequest pad (newYears n)) "A" startDate today ((newYears n).map (·.2)) where
  newestFirst := by
    rw [List.pairwise_map] at hsorted ⊢
    exact hsorted
  range bar hbar := by
    obtain ⟨row, hrow, rfl⟩ := List.mem_map.1 hbar
    exact hrange _ (List.mem_map_of_mem hrow)
  answers endDate := ⟨_, rfl, lists_page hpad hlength (fun _ => newYears_rows) endDate⟩

/-- A hundred bars on the first page and one on the second are all returned. -/
theorem getDailyOhlcv_iff_twoPages :
    getDailyOhlcv (pageRequest [] (newYears 101)) "A" 10957 40000 = some ((newYears 101).map (·.2)).reverse := by
  have hdates := newYears_dates (n := 101) le_rfl
  have hlength : ((newYears 101).map (·.2)).length = 101 := by
    have hlength := congrArg List.length hdates
    rw [List.length_map, List.length_map, List.length_range] at hlength
    rw [List.length_map, hlength]
  have hserves : Serves (pageRequest [] (newYears 101)) "A" (10957 - 40000) 10957 ((newYears 101).map (·.2)) :=
    serves_newYears rfl (Nat.zero_le _) (by rw [hdates]; decide +kernel) (by rw [hdates]; decide +kernel)
  refine (getDailyOhlcv_iff hserves (by rw [hlength]; decide)).2 fun page _ hpage items hitems => ?_
  have hcount : ∀ endDate, ((newYears 101).filter (fun row => row.2.date ≤ endDate)).length =
      ((List.range 101).map (fun i : ℕ => Calendar.ofDate (1999 - i) 1 1)).countP (· ≤ endDate) := by
    intro endDate
    rw [← hdates, List.countP_map, List.countP_eq_length_filter]
    rfl
  rw [← Option.some.inj hitems, dated_page rfl (fun _ => newYears_rows), List.length_map, List.length_take, hcount,
    hlength]
  rw [hlength] at hpage
  obtain rfl | rfl : page = 0 ∨ page = 1 := by omega
  · rw [pageEnd_zero]
    decide +kernel
  · -- the second page ends before the last bar of the first
    have hend : pageEnd 10957 ((newYears 101).map (·.2)) 1 = Calendar.ofDate 1900 1 1 - 1 := by
      have hbar := congrArg (·[99]?) hdates
      rw [List.getElem?_map] at hbar
      unfold pageEnd
      rw [List.getElem?_map]
      cases hrow : (newYears 101)[100 * 1 - 1]? with
      | none =>
        rw [hrow] at hbar
        cases hbar
      | some row =>
        rw [hrow] at hbar
        exact congrArg (· - 1) (Option.some.inj hbar)
    rw [hend]
    decide +kernel

/-- Of a hundred bars the oldest is missed if the page of today starts with a record without a date. -/
theorem not_getDailyOhlcv_newYears :
    Serves (paddedRequest (newYears 100)) "A" (10957 - 40000) 10957 ((newYears 100).map (·.2)) ∧
      ((newYears 100).map (·.2)).length ≤ 100 * maxOhlcvPages ∧
      ¬ (getDailyOhlcv (paddedRequest (newYears 100)) "A" 10957 40000 = some ((newYears 100).map (·.2)).reverse) := by
  have hdates := newYears_dates (n := 100) (by decide)
  have hlength : ((newYears 100).map (·.2)).length = 100 := by
    have hlength := congrArg List.length hdates
    rw [List.length_map, List.length_map, List.length_range] at hlength
    rw [List.length_map, hlength]
  have hserves : Serves (paddedRequest (newYears 100)) "A" (10957 - 40000) 10957 ((newYears 100).map (·.2)) :=
    serves_newYears rfl (by decide) (by rw [hdates]; decide +kernel) (by rw [hdates]; decide +kernel)
  have hfit : ((newYears 100).map (·.2)).length ≤ 100 * maxOhlcvPages := by
    rw [hlength]
    decide
  refine ⟨hserves, hfit, fun hall => ?_⟩
  obtain ⟨n, hresult, hn, hiff⟩ := getDailyOhlcv_spec hserves hfit
  rw [hresult] at hall
  have htake := congrArg List.length (List.reverse_injective (Option.some.inj hall))
  rw [List.length_take, hlength] at htake
  have hfull := hiff.1 (by omega) 0 le_rfl (by omega) _ rfl
  -- a hundred records, one of them without a date
  have hdated : (dated ({} :: (((newYears 100).filter (fun row =>
      row.2.date ≤ pageEnd 10957 ((newYears 100).map (·.2)) 0)).take 99).map (·.1))).length ≤ 99 := by
    unfold dated
    rw [List.filter_cons_of_neg (by simp)]
    refine (List.length_filter_le _ _).trans ?_
    rw [List.length_map, List.length_take]
    omega
  rw [hlength] at hfull
  exact absurd (hfull.symm.trans_le hdated) (by decide)

end KISClient

end TradingAgent
