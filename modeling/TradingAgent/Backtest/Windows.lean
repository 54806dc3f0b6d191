/-
The windows of a walk-forward analysis: an in-sample period of some months and the out-of-sample period that
follows it, slid on by the length of the in-sample period as long as the window ends in time. The windows are
sound exactly if the calendar does not end before they do and the out-of-sample periods, where there are two,
are not longer than the slide.
-/
import TradingAgent.Strategy.Exit
import TradingAgent.Lib.Loop
import TradingAgent.Lib.Relativedelta
import TradingAgent.Lib.Wp

namespace TradingAgent

namespace WalkForwardAnalyzer

/-- `relativedelta(days=1)` added to a date. -/
def addDay (d : PyDate) : Except Exn PyDate :=
  match d.succ? with
  | some e => .ok e
  | none => .error (.external "date value out of range")

/-- `relativedelta(days=1)` taken from a date. -/
def subDay (d : PyDate) : Except Exn PyDate :=
  match d.pred? with
  | some e => .ok e
  | none => .error (.external "date value out of range")

/-- The dates of a window. -/
structure WindowDates where
  isStart : PyDate
  isEnd : PyDate
  oosStart : PyDate
  oosEnd : PyDate
  deriving DecidableEq

section

-- `shift` is `relativedelta(months=...)` added to a date, as the library does it
variable (shift : PyDate → ℕ → Except Exn PyDate) (windowMonths oosMonths : ℕ)

/-- The window that starts at the cursor. -/
def windowAt (cursor : PyDate) : Except Exn WindowDates := do
  let isEnd ← subDay (← shift cursor windowMonths)
  let oosStart ← addDay isEnd
  let oosEnd ← subDay (← shift oosStart oosMonths)
  pure { isStart := cursor, isEnd, oosStart, oosEnd }

/-- One turn of the loop over the cursor and the windows so far. -/
def windowTurn (endDate : PyDate) (state : PyDate × List WindowDates) :
    Except Exn (List WindowDates) ⊕ PyDate × List WindowDates :=
  match windowAt shift windowMonths oosMonths state.1 with
  | .error e => .inl (.error e)
  | .ok window =>
    if endDate < window.oosEnd then .inl (.ok state.2)
    else .inr (window.oosStart, state.2 ++ [window])

/-- What `generate_windows` returns or raises, once its loop ends. -/
def GenerateWindows (startDate endDate : PyDate) (r : Except Exn (List WindowDates)) : Prop :=
  Loop.Returns (windowTurn shift windowMonths oosMonths endDate) (startDate, []) r

end

/-! ## What the windows are for -/

/-- Windows in a row within the dates, whose out-of-sample periods share no day. -/
structure Sound (startDate endDate : PyDate) (windows : List WindowDates) : Prop where
  first : ∀ window ∈ windows.head?, window.isStart = startDate
  next : windows.IsChain (fun a b => b.isStart = a.oosStart)
  adjacent : ∀ window ∈ windows, window.isEnd.succ? = some window.oosStart
  within : ∀ window ∈ windows, startDate ≤ window.isStart ∧ window.isStart ≤ window.isEnd ∧
    window.isEnd < window.oosStart ∧ window.oosStart ≤ window.oosEnd ∧ window.oosEnd ≤ endDate
  disjoint : windows.Pairwise (fun a b => a.oosEnd < b.oosStart)

/-- The loop returns, and what it returns are sound windows. -/
def WindowsSound (shift : PyDate → ℕ → Except Exn PyDate) (windowMonths oosMonths : ℕ) (startDate endDate : PyDate) :
    Prop :=
  ∃ windows, GenerateWindows shift windowMonths oosMonths startDate endDate (.ok windows) ∧
    Sound startDate endDate windows

/-- The first day after the out-of-sample period of the window that starts after so many slides. -/
def afterOos (shift : PyDate → ℕ → Except Exn PyDate) (windowMonths oosMonths : ℕ) : ℕ → PyDate → Except Exn PyDate
  | 0, cursor => do shift (← shift cursor windowMonths) oosMonths
  | n + 1, cursor => do afterOos shift windowMonths oosMonths n (← shift cursor windowMonths)

section

variable (shift : PyDate → ℕ → Except Exn PyDate) (windowMonths oosMonths : ℕ) (startDate endDate : PyDate) (n : ℕ)

/-- The window that starts after so many slides has dates and ends by the end date. -/
def Fits : Prop :=
  ∃ after, afterOos shift windowMonths oosMonths n startDate = .ok after ∧ after.toDay ≤ endDate.toDay + 1

/-- The window that starts after so many slides has dates and ends after the end date. -/
def EndsAfter : Prop :=
  ∃ after, afterOos shift windowMonths oosMonths n startDate = .ok after ∧ endDate.toDay + 1 < after.toDay

end

/-! ## One window -/

section

variable {shift : PyDate → ℕ → Except Exn PyDate} {windowMonths oosMonths : ℕ} {startDate endDate cursor : PyDate}
  {window : WindowDates}

theorem subDay_eq_ok_iff {d e : PyDate} : subDay d = .ok e ↔ d.pred? = some e := by
  unfold subDay
  cases d.pred? <;> simp

theorem addDay_eq_ok_iff {d e : PyDate} : addDay d = .ok e ↔ d.succ? = some e := by
  unfold addDay
  cases d.succ? <;> simp

/-- What a window is: it takes the dates up to the last of its out-of-sample period. -/
structure WindowOf (shift : PyDate → ℕ → Except Exn PyDate) (windowMonths oosMonths : ℕ) (cursor : PyDate)
    (window : WindowDates) (after : PyDate) : Prop where
  isStart : window.isStart = cursor
  slid : shift cursor windowMonths = .ok window.oosStart
  through : shift window.oosStart oosMonths = .ok after
  adjacent : window.isEnd.succ? = some window.oosStart
  last : window.oosEnd.succ? = some after

/-- There is a window at a cursor unless the calendar ends before it. -/
theorem windowAt_spec (hshift : PyDate.MonthShift shift) (hw : 1 ≤ windowMonths) (ho : 1 ≤ oosMonths)
    (cursor : PyDate) :
    (∃ window after, windowAt shift windowMonths oosMonths cursor = .ok window ∧
      WindowOf shift windowMonths oosMonths cursor window after) ∨
    (∃ e, windowAt shift windowMonths oosMonths cursor = .error e) ∧
      PyDate.lastMonth < cursor.monthIndex + windowMonths + oosMonths := by
  unfold windowAt
  cases hslid : shift cursor windowMonths with
  | error e =>
    have hlate := hshift.lastMonth_lt hslid
    exact .inr ⟨⟨e, rfl⟩, by omega⟩
  | ok oosStart =>
    obtain ⟨isEnd, hisEnd, hadjacent⟩ := PyDate.exists_pred? (hshift.lt_toDay hw hslid)
    simp only [bind, Except.bind]
    rw [subDay_eq_ok_iff.2 hisEnd]
    dsimp only
    rw [addDay_eq_ok_iff.2 hadjacent]
    dsimp only
    cases hover : shift oosStart oosMonths with
    | error e =>
      have hlate := hshift.lastMonth_lt hover
      have hindex := hshift.monthIndex hslid
      exact .inr ⟨⟨e, rfl⟩, by omega⟩
    | ok after =>
      obtain ⟨oosEnd, hoosEnd, hlast⟩ := PyDate.exists_pred? (hshift.lt_toDay ho hover)
      dsimp only
      rw [subDay_eq_ok_iff.2 hoosEnd]
      exact .inl ⟨_, after, rfl, rfl, hslid, hover, hadjacent, hlast⟩

theorem WindowOf.monthIndex (hshift : PyDate.MonthShift shift) {after : PyDate}
    (h : WindowOf shift windowMonths oosMonths cursor window after) :
    after.monthIndex = cursor.monthIndex + windowMonths + oosMonths := by
  rw [hshift.monthIndex h.through, hshift.monthIndex h.slid]

/-- The window at a cursor is the only one. -/
theorem WindowOf.windowAt (hshift : PyDate.MonthShift shift) (hw : 1 ≤ windowMonths) (ho : 1 ≤ oosMonths)
    {after : PyDate} (h : WindowOf shift windowMonths oosMonths cursor window after) :
    windowAt shift windowMonths oosMonths cursor = .ok window := by
  rcases windowAt_spec hshift hw ho cursor with ⟨window', after', hok, h'⟩ | ⟨-, hlate⟩
  · obtain ⟨isStart, isEnd, oosStart, oosEnd⟩ := window
    obtain ⟨isStart', isEnd', oosStart', oosEnd'⟩ := window'
    obtain ⟨rfl, hslid, hover, hadjacent, hlast⟩ := h
    obtain ⟨rfl, hslid', hover', hadjacent', hlast'⟩ := h'
    dsimp only at hslid hover hadjacent hlast hslid' hover' hadjacent' hlast'
    obtain rfl : oosStart' = oosStart := Except.ok.inj (hslid'.symm.trans hslid)
    obtain rfl : after' = after := Except.ok.inj (hover'.symm.trans hover)
    rw [PyDate.succ?_inj hadjacent' hadjacent, PyDate.succ?_inj hlast' hlast] at hok
    exact hok
  · have hindex := h.monthIndex hshift
    have hle := after.monthIndex_le
    omega

/-- The days of a window. -/
theorem WindowOf.days (hshift : PyDate.MonthShift shift) (hw : 1 ≤ windowMonths) (ho : 1 ≤ oosMonths) {after : PyDate}
    (h : WindowOf shift windowMonths oosMonths cursor window after) :
    cursor.toDay < window.oosStart.toDay ∧ window.oosStart.toDay = window.isEnd.toDay + 1 ∧
      window.oosStart.toDay < after.toDay ∧ after.toDay = window.oosEnd.toDay + 1 :=
  ⟨hshift.lt_toDay hw h.slid, PyDate.toDay_succ? h.adjacent, hshift.lt_toDay ho h.through,
    PyDate.toDay_succ? h.last⟩

/-! ## The windows from a cursor on -/

/-- The windows from a cursor on, up to the first that ends after the end date. -/
def Windows (shift : PyDate → ℕ → Except Exn PyDate) (windowMonths oosMonths : ℕ) (endDate : PyDate) : PyDate →
    List WindowDates → Prop
  | cursor, [] => ∃ past after, WindowOf shift windowMonths oosMonths cursor past after ∧ endDate < past.oosEnd
  | cursor, window :: rest => ∃ after, WindowOf shift windowMonths oosMonths cursor window after ∧
      window.oosEnd ≤ endDate ∧ Windows shift windowMonths oosMonths endDate window.oosStart rest

variable {windows : List WindowDates}

theorem windowTurn_of_ok (hok : windowAt shift windowMonths oosMonths cursor = .ok window) (acc : List WindowDates) :
    windowTurn shift windowMonths oosMonths endDate (cursor, acc) =
      if endDate < window.oosEnd then .inl (.ok acc) else .inr (window.oosStart, acc ++ [window]) := by
  unfold windowTurn
  rw [hok]

theorem windowTurn_of_error {e : Exn} (herror : windowAt shift windowMonths oosMonths cursor = .error e)
    (acc : List WindowDates) :
    windowTurn shift windowMonths oosMonths endDate (cursor, acc) = .inl (.error e) := by
  unfold windowTurn
  rw [herror]

/-- The loop returns from every state, for the cursor moves towards the end of the calendar. -/
theorem exists_generateWindows (hshift : PyDate.MonthShift shift) (hw : 1 ≤ windowMonths) (ho : 1 ≤ oosMonths)
    (startDate endDate : PyDate) :
    ∃ r, GenerateWindows shift windowMonths oosMonths startDate endDate r := by
  refine Loop.exists_returns (fun state => PyDate.lastMonth - state.1.monthIndex) ?_ _
  rintro ⟨cursor, acc⟩ state' hturn
  rcases windowAt_spec hshift hw ho cursor with ⟨window, after, hok, hwindow⟩ | ⟨⟨e, herror⟩, -⟩
  · rw [windowTurn_of_ok hok] at hturn
    split at hturn
    · cases hturn
    · cases hturn
      have hindex := hshift.monthIndex hwindow.slid
      have hle := window.oosStart.monthIndex_le
      dsimp only
      omega
  · rw [windowTurn_of_error herror] at hturn
    cases hturn

/-- The loop returns the windows so far and those from the cursor on. -/
theorem returns_ok_iff (hshift : PyDate.MonthShift shift) (hw : 1 ≤ windowMonths) (ho : 1 ≤ oosMonths)
    (acc : List WindowDates) :
    Loop.Returns (windowTurn shift windowMonths oosMonths endDate) (cursor, acc) (.ok windows) ↔
      ∃ rest, windows = acc ++ rest ∧ Windows shift windowMonths oosMonths endDate cursor rest := by
  constructor
  · intro h
    refine Loop.Returns.induct (P := fun (state : PyDate × List WindowDates)
      (r : Except Exn (List WindowDates)) => ∀ windows, r = .ok windows → ∃ rest, windows = state.2 ++ rest ∧
        Windows shift windowMonths oosMonths endDate state.1 rest) ?_ ?_ h windows rfl
    · rintro ⟨cursor, acc⟩ r hturn windows rfl
      rcases windowAt_spec hshift hw ho cursor with ⟨window, after, hok, hwindow⟩ | ⟨⟨e, herror⟩, -⟩
      · rw [windowTurn_of_ok hok] at hturn
        split at hturn
        · rename_i hpast
          cases hturn
          exact ⟨[], (List.append_nil _).symm, window, after, hwindow, hpast⟩
        · cases hturn
      · rw [windowTurn_of_error herror] at hturn
        cases hturn
    · rintro ⟨cursor, acc⟩ state' r hturn ih windows rfl
      rcases windowAt_spec hshift hw ho cursor with ⟨window, after, hok, hwindow⟩ | ⟨⟨e, herror⟩, -⟩
      · rw [windowTurn_of_ok hok] at hturn
        split at hturn
        · cases hturn
        · rename_i hfits
          cases hturn
          obtain ⟨rest, rfl, hrest⟩ := ih windows rfl
          exact ⟨window :: rest, by simp, after, hwindow, PyDate.not_lt.1 hfits, hrest⟩
      · rw [windowTurn_of_error herror] at hturn
        cases hturn
  · rintro ⟨rest, rfl, hrest⟩
    induction rest generalizing cursor acc with
    | nil =>
      obtain ⟨past, after, hpast, hlate⟩ := hrest
      rw [List.append_nil]
      refine (Loop.returns_of_inl ?_).2 rfl
      rw [windowTurn_of_ok (hpast.windowAt hshift hw ho), if_pos hlate]
    | cons window rest ih =>
      obtain ⟨after, hwindow, hfits, hrest⟩ := hrest
      have hturn : windowTurn shift windowMonths oosMonths endDate (cursor, acc) =
          .inr (window.oosStart, acc ++ [window]) := by
        rw [windowTurn_of_ok (hwindow.windowAt hshift hw ho), if_neg (PyDate.not_lt.2 hfits)]
      rw [Loop.returns_of_inr hturn, List.append_cons acc window rest]
      exact ih (acc ++ [window]) hrest

theorem monthIndex_afterOos (hshift : PyDate.MonthShift shift) {n : ℕ} {after : PyDate}
    (h : afterOos shift windowMonths oosMonths n cursor = .ok after) :
    after.monthIndex = cursor.monthIndex + (n + 1) * windowMonths + oosMonths := by
  induction n generalizing cursor with
  | zero =>
    obtain ⟨next, hslid, hover⟩ := Wp.bind_eq_ok.1 h
    rw [hshift.monthIndex hover, hshift.monthIndex hslid]
    ring
  | succ n ih =>
    obtain ⟨next, hslid, hafter⟩ := Wp.bind_eq_ok.1 h
    rw [ih hafter, hshift.monthIndex hslid]
    ring

/-- After more slides the out-of-sample period ends later. -/
theorem toDay_afterOos_lt (hshift : PyDate.MonthShift shift) (hw : 1 ≤ windowMonths) {m n : ℕ} (hmn : m < n)
    {a b : PyDate} (ha : afterOos shift windowMonths oosMonths m cursor = .ok a)
    (hb : afterOos shift windowMonths oosMonths n cursor = .ok b) :
    a.toDay < b.toDay := by
  refine PyDate.toDay_lt_of_monthIndex_lt ?_
  rw [monthIndex_afterOos hshift ha, monthIndex_afterOos hshift hb]
  have hslides : (m + 1) * windowMonths < (n + 1) * windowMonths := Nat.mul_lt_mul_of_pos_right (by omega) hw
  omega

theorem WindowOf.afterOos {after : PyDate} (h : WindowOf shift windowMonths oosMonths cursor window after) :
    afterOos shift windowMonths oosMonths 0 cursor = .ok after := by
  exact Wp.bind_eq_ok.2 ⟨_, h.slid, h.through⟩

theorem afterOos_succ {next : PyDate} (hslid : shift cursor windowMonths = .ok next) (n : ℕ) :
    afterOos shift windowMonths oosMonths (n + 1) cursor = afterOos shift windowMonths oosMonths n next := by
  rw [afterOos, hslid]; rfl

/-- The first window that does not fit has dates and ends too late. -/
theorem Windows.endsAfter (h : Windows shift windowMonths oosMonths endDate cursor windows) :
    EndsAfter shift windowMonths oosMonths cursor endDate windows.length := by
  induction windows generalizing cursor with
  | nil =>
    obtain ⟨past, after, hpast, hlate⟩ := h
    have hlast := PyDate.toDay_succ? hpast.last
    rw [PyDate.lt_iff] at hlate
    exact ⟨after, hpast.afterOos, by omega⟩
  | cons window rest ih =>
    obtain ⟨after, hwindow, -, hrest⟩ := h
    obtain ⟨after', hafter', hlate⟩ := ih hrest
    exact ⟨after', (afterOos_succ hwindow.slid _).trans hafter', hlate⟩

/-- The windows are those that fit. -/
theorem Windows.fits_iff (hshift : PyDate.MonthShift shift) (hw : 1 ≤ windowMonths)
    (h : Windows shift windowMonths oosMonths endDate cursor windows) (n : ℕ) :
    Fits shift windowMonths oosMonths cursor endDate n ↔ n < windows.length := by
  constructor
  · rintro ⟨after, hafter, hfits⟩
    by_contra hn
    obtain ⟨past, hpast, hlate⟩ := h.endsAfter
    rcases (not_lt.1 hn).lt_or_eq with hlt | heq
    · have hlater := toDay_afterOos_lt hshift hw hlt hpast hafter
      omega
    · rw [heq] at hpast
      obtain rfl : past = after := Except.ok.inj (hpast.symm.trans hafter)
      omega
  · intro hn
    induction windows generalizing cursor n with
    | nil => cases hn
    | cons window rest ih =>
      obtain ⟨after, hwindow, hfits, hrest⟩ := h
      cases n with
      | zero =>
        have hlast := PyDate.toDay_succ? hwindow.last
        rw [PyDate.le_iff] at hfits
        exact ⟨after, hwindow.afterOos, by omega⟩
      | succ n =>
        obtain ⟨after', hafter', hfits'⟩ := ih hrest n (Nat.lt_of_succ_lt_succ hn)
        exact ⟨after', (afterOos_succ hwindow.slid _).trans hafter', hfits'⟩

/-- If the window after some slides ends too late, the loop gets to one that does. -/
theorem exists_windows (hshift : PyDate.MonthShift shift) (hw : 1 ≤ windowMonths) (ho : 1 ≤ oosMonths) {n : ℕ}
    (h : EndsAfter shift windowMonths oosMonths cursor endDate n) :
    ∃ windows, Windows shift windowMonths oosMonths endDate cursor windows := by
  induction n generalizing cursor with
  | zero =>
    obtain ⟨after, hafter, hlate⟩ := h
    have hindex := monthIndex_afterOos hshift hafter
    have hle := after.monthIndex_le
    rcases windowAt_spec hshift hw ho cursor with ⟨window, after', hok, hwindow⟩ | ⟨-, hend⟩
    · obtain rfl : after' = after := Except.ok.inj (hwindow.afterOos.symm.trans hafter)
      have hlast := PyDate.toDay_succ? hwindow.last
      exact ⟨[], window, after', hwindow, PyDate.lt_iff.2 (by omega)⟩
    · omega
  | succ n ih =>
    obtain ⟨after, hafter, hlate⟩ := h
    have hindex := monthIndex_afterOos hshift hafter
    have hle := after.monthIndex_le
    have hslides : windowMonths ≤ (n + 1 + 1) * windowMonths := Nat.le_mul_of_pos_left _ (by omega)
    rcases windowAt_spec hshift hw ho cursor with ⟨window, after', hok, hwindow⟩ | ⟨-, hend⟩
    · by_cases hpast : endDate < window.oosEnd
      · exact ⟨[], window, after', hwindow, hpast⟩
      · rw [afterOos_succ hwindow.slid] at hafter
        obtain ⟨windows, hwindows⟩ := ih ⟨after, hafter, hlate⟩
        exact ⟨window :: windows, after', hwindow, PyDate.not_lt.1 hpast, hwindows⟩
    · omega

/-! ## Soundness -/

/-- Every one of the windows starts at the cursor or after it, has its dates, and fits. -/
theorem Windows.mem (hshift : PyDate.MonthShift shift) (hw : 1 ≤ windowMonths)
    (h : Windows shift windowMonths oosMonths endDate cursor windows) :
    ∀ window ∈ windows, cursor.toDay ≤ window.isStart.toDay ∧ window.oosEnd ≤ endDate ∧
      ∃ after, WindowOf shift windowMonths oosMonths window.isStart window after := by
  induction windows generalizing cursor with
  | nil => exact fun _ hmem => absurd hmem List.not_mem_nil
  | cons first rest ih =>
    obtain ⟨after, hfirst, hfits, hrest⟩ := h
    intro window hmem
    rcases List.mem_cons.1 hmem with rfl | hmem
    · obtain rfl := hfirst.isStart
      exact ⟨le_rfl, hfits, after, hfirst⟩
    · obtain ⟨hstart, hin⟩ := ih hrest window hmem
      have hslid := hshift.lt_toDay hw hfirst.slid
      exact ⟨by omega, hin⟩

theorem Windows.chain (h : Windows shift windowMonths oosMonths endDate cursor windows) :
    (∀ window ∈ windows.head?, window.isStart = cursor) ∧
      windows.IsChain (fun a b => b.isStart = a.oosStart) := by
  induction windows generalizing cursor with
  | nil => exact ⟨nofun, .nil⟩
  | cons first rest ih =>
    obtain ⟨after, hfirst, -, hrest⟩ := h
    obtain ⟨hhead, hchain⟩ := ih hrest
    refine ⟨fun window hmem => ?_, ?_⟩
    · cases hmem
      exact hfirst.isStart
    · cases rest with
      | nil => exact .singleton _
      | cons second rest => exact .cons_cons (hhead second rfl) hchain

/-- Out-of-sample periods that are not longer than the slide are over before the next one begins. -/
theorem Windows.disjoint (hshift : PyDate.MonthShift shift) (hw : 1 ≤ windowMonths) (ho : 1 ≤ oosMonths)
    (hle : oosMonths ≤ windowMonths)
    (h : Windows shift windowMonths oosMonths endDate cursor windows) :
    windows.Pairwise (fun a b => a.oosEnd < b.oosStart) := by
  induction windows generalizing cursor with
  | nil => exact .nil
  | cons first rest ih =>
    obtain ⟨after, hfirst, -, hrest⟩ := h
    refine .cons (fun window hmem => ?_) (ih hrest)
    have hlast := PyDate.toDay_succ? hfirst.last
    rw [PyDate.lt_iff]
    cases rest with
    | nil => cases hmem
    | cons second rest =>
      obtain ⟨after', hsecond, -, hrest'⟩ := hrest
      have hover := hshift.toDay_le hle hfirst.through hsecond.slid
      rcases List.mem_cons.1 hmem with rfl | hmem
      · omega
      · obtain ⟨hstart, -, after'', hwindow⟩ := hrest'.mem hshift hw window hmem
        have hdays := hwindow.days hshift hw ho
        omega

theorem Windows.sound (hshift : PyDate.MonthShift shift) (hw : 1 ≤ windowMonths) (ho : 1 ≤ oosMonths)
    (h : Windows shift windowMonths oosMonths endDate startDate windows)
    (hdisjoint : windows.Pairwise (fun a b => a.oosEnd < b.oosStart)) : Sound startDate endDate windows where
  first := h.chain.1
  next := h.chain.2
  adjacent window hmem := by
    obtain ⟨-, -, after, hwindow⟩ := h.mem hshift hw window hmem
    exact hwindow.adjacent
  within window hmem := by
    obtain ⟨hstart, hfits, after, hwindow⟩ := h.mem hshift hw window hmem
    have hdays := hwindow.days hshift hw ho
    rw [PyDate.le_iff, PyDate.le_iff, PyDate.lt_iff, PyDate.le_iff]
    exact ⟨hstart, by omega, by omega, by omega, hfits⟩
  disjoint := hdisjoint

/-- The windows that the loop returns are sound exactly if their out-of-sample periods are not longer than the
slide, or there is but one window. -/
theorem Windows.sound_iff (hshift : PyDate.MonthShift shift) (hw : 1 ≤ windowMonths) (ho : 1 ≤ oosMonths)
    (h : Windows shift windowMonths oosMonths endDate startDate windows) :
    Sound startDate endDate windows ↔ oosMonths ≤ windowMonths ∨
      ¬ Fits shift windowMonths oosMonths startDate endDate 1 := by
  rw [h.fits_iff hshift hw]
  constructor
  · intro hsound
    by_contra hnot
    rw [not_or, not_not, not_le] at hnot
    obtain ⟨hlt, htwo⟩ := hnot
    rcases windows with _ | ⟨first, _ | ⟨second, rest⟩⟩
    · exact absurd htwo (by simp)
    · exact absurd htwo (by simp)
    · obtain ⟨after, hfirst, -, after', hsecond, -⟩ := h
      -- the second period begins one slide after the first, which lasts longer
      have hbefore := PyDate.lt_iff.1 ((List.pairwise_cons.1 hsound.disjoint).1 second List.mem_cons_self)
      have hlast := PyDate.toDay_succ? hfirst.last
      have hover := hshift.toDay_lt hlt hsecond.slid hfirst.through
      omega
  · rintro (hle | hone)
    · exact h.sound hshift hw ho (h.disjoint hshift hw ho hle)
    · refine h.sound hshift hw ho ?_
      rcases windows with _ | ⟨first, _ | ⟨second, rest⟩⟩
      · exact .nil
      · exact List.pairwise_singleton _ _
      · exact absurd (by simp) hone

/-- The windows are sound exactly if the calendar has dates for one that ends after the end date, and the
out-of-sample periods are not longer than the slide or no two windows fit. -/
theorem windowsSound_iff (hshift : PyDate.MonthShift shift) (hw : 1 ≤ windowMonths) (ho : 1 ≤ oosMonths)
    (startDate endDate : PyDate) :
    WindowsSound shift windowMonths oosMonths startDate endDate ↔
      (∃ n, EndsAfter shift windowMonths oosMonths startDate endDate n) ∧
        (oosMonths ≤ windowMonths ∨ ¬ Fits shift windowMonths oosMonths startDate endDate 1) := by
  unfold WindowsSound GenerateWindows
  constructor
  · rintro ⟨windows, hreturns, hsound⟩
    obtain ⟨rest, rfl, hwindows⟩ := (returns_ok_iff hshift hw ho []).1 hreturns
    exact ⟨⟨_, hwindows.endsAfter⟩, (hwindows.sound_iff hshift hw ho).1 hsound⟩
  · rintro ⟨⟨n, hn⟩, hcondition⟩
    obtain ⟨windows, hwindows⟩ := exists_windows hshift hw ho hn
    exact ⟨windows, (returns_ok_iff hshift hw ho []).2 ⟨windows, rfl, hwindows⟩,
      (hwindows.sound_iff hshift hw ho).2 hcondition⟩

/-! ## The shift of the library -/

/-- `relativedelta(months=...)` added to a date, as the library documents it. -/
def addMonths (d : PyDate) (months : ℕ) : Except Exn PyDate :=
  match d.addMonths? months with
  | some e => .ok e
  | none => .error (.valueError ("year " ++ toString (d.year + (d.month - 1 + months) / 12) ++ " is out of range"))

theorem addMonths_eq_ok_iff {d e : PyDate} {months : ℕ} :
    addMonths d months = .ok e ↔ d.addMonths? months = some e := by
  unfold addMonths
  cases d.addMonths? months <;> simp

theorem addMonths_monthShift : PyDate.MonthShift addMonths where
  monthIndex h := PyDate.monthIndex_addMonths? (addMonths_eq_ok_iff.1 h)
  exists_ok h := (PyDate.exists_addMonths? h).imp fun _ he => addMonths_eq_ok_iff.2 he

/-- Two years in windows of six months with two months after each. -/
theorem windowsSound_iff_twoYears :
    WindowsSound addMonths 6 2 ⟨2024, 1, 1, by decide⟩ ⟨2025, 12, 31, by decide⟩ := by
  refine (windowsSound_iff addMonths_monthShift (by decide) (by decide) _ _).2
    ⟨⟨3, ⟨2026, 3, 1, by decide⟩, ?_, ?_⟩, .inl (by decide)⟩
  · decide +kernel
  · decide +kernel

/-- The windows of one month with two months after each in the first four months of 2026. -/
def overlapping : List WindowDates :=
  [⟨⟨2026, 1, 1, by decide⟩, ⟨2026, 1, 31, by decide⟩, ⟨2026, 2, 1, by decide⟩, ⟨2026, 3, 31, by decide⟩⟩,
    ⟨⟨2026, 2, 1, by decide⟩, ⟨2026, 2, 28, by decide⟩, ⟨2026, 3, 1, by decide⟩, ⟨2026, 4, 30, by decide⟩⟩]

/-- Both windows count the days of March. -/
theorem not_windowsSound_overlapping :
    GenerateWindows addMonths 1 2 ⟨2026, 1, 1, by decide⟩ ⟨2026, 4, 30, by decide⟩ (.ok overlapping) ∧
      ¬ WindowsSound addMonths 1 2 ⟨2026, 1, 1, by decide⟩ ⟨2026, 4, 30, by decide⟩ := by
  have hreturns : GenerateWindows addMonths 1 2 ⟨2026, 1, 1, by decide⟩ ⟨2026, 4, 30, by decide⟩ (.ok overlapping) :=
    ⟨3, by decide +kernel⟩
  refine ⟨hreturns, ?_⟩
  rintro ⟨windows, hwindows, hsound⟩
  obtain rfl : overlapping = windows := Except.ok.inj (hreturns.unique hwindows)
  exact absurd hsound.disjoint (by decide +kernel)

end

end WalkForwardAnalyzer

end TradingAgent
