/-
What the positions table says about the calls that made it. Each row goes back to one creation; a closed row has the
price, the date, the reason and the profit of one close, and an open one none of them. Once a position is closed and no
other close of it has still to commit, its exit is final. The queries count what the calls have done.
-/
import TradingAgent.Strategy.PositionBook

namespace TradingAgent

open PositionBook

namespace PositionRow

variable {loaded stored record : PositionRow} {today : ℤ}

/-! ## Rows -/

structure NoExit (row : PositionRow) : Prop where
  exitPrice : row.exitPrice = none
  exitDate : row.exitDate = none
  exitReason : row.exitReason = none
  realizedPnl : row.realizedPnl = none
  exitSessionId : row.exitSessionId = none

/-- A row that was closed for a price and a reason on a day. The profit is that over the average cost of the row. -/
structure Settled (row : PositionRow) (price : Decimal) (reason : ExitReason) (day : ℤ) : Prop where
  status : row.status = "closed"
  exitPrice : row.exitPrice = some (quantize2 price)
  exitDate : row.exitDate = some day
  exitReason : row.exitReason = some reason.value
  realizedPnl : row.realizedPnl = some (quantize2 ((price - row.avgCost) * row.quantity))

/-- A row is open without an exit, or closed. -/
def Tidy (row : PositionRow) : Prop := (row.status = "open" ∧ row.NoExit) ∨ row.status = "closed"

theorem Tidy.noExit {row : PositionRow} (h : row.Tidy) (hopen : row.status ≠ "closed") :
    row.status = "open" ∧ row.NoExit := by
  rcases h with h | h
  · exact h
  · exact absurd h hopen

theorem column_self {β : Type} [DecidableEq β] (loaded : β) (store : β → β) (stored : β) :
    column loaded loaded store stored = stored := if_pos rfl

theorem column_of_ne {β : Type} [DecidableEq β] {loaded new : β} (h : new ≠ loaded) (store : β → β) (stored : β) :
    column loaded new store stored = store new := if_neg h

@[simp] theorem entry_flush (loaded new stored : PositionRow) : (flush loaded new stored).entry = stored.entry := rfl

/-- A close settles the row, whatever has become of it since it was loaded. -/
theorem flush_close (hopen : loaded.status = "open") (hexit : loaded.NoExit) (hentry : stored.entry = loaded.entry)
    (exitPrice : Decimal) (exitReason : ExitReason) (exitSessionId : Option ℕ) :
    (flush loaded (Change.assign today loaded (.close exitPrice exitReason exitSessionId)) stored).Settled exitPrice
      exitReason today := by
  have hcost := congrArg (fun row : PositionRow => row.avgCost) hentry
  have hquantity := congrArg (fun row : PositionRow => row.quantity) hentry
  change stored.avgCost = loaded.avgCost at hcost
  change stored.quantity = loaded.quantity at hquantity
  constructor
  · apply column_of_ne
    rw [hopen]
    change "closed" ≠ "open"
    decide
  · apply column_of_ne
    rw [hexit.exitPrice]
    exact Option.some_ne_none _
  · apply column_of_ne
    rw [hexit.exitDate]
    exact Option.some_ne_none _
  · apply column_of_ne
    rw [hexit.exitReason]
    exact Option.some_ne_none _
  · refine (column_of_ne ?_ _ _).trans ?_
    · rw [hexit.realizedPnl]
      exact Option.some_ne_none _
    · change some _ = some (quantize2 ((exitPrice - stored.avgCost) * stored.quantity))
      rw [hcost, hquantity]

/-- A session without a number leaves the one that is stored. -/
theorem flush_close_session (hexit : loaded.NoExit) (exitPrice : Decimal) (exitReason : ExitReason)
    (exitSessionId : Option ℕ) :
    (flush loaded (Change.assign today loaded (.close exitPrice exitReason exitSessionId)) stored).exitSessionId =
      exitSessionId.or stored.exitSessionId := by
  cases exitSessionId with
  | none =>
    refine (congrArg (fun session => column session none id stored.exitSessionId) hexit.exitSessionId).trans ?_
    exact column_self none id stored.exitSessionId
  | some session =>
    refine (congrArg (fun old => column old (some session) id stored.exitSessionId) hexit.exitSessionId).trans ?_
    exact column_of_ne (Option.some_ne_none _) _ _

/-- An update of the stop loss leaves the other columns as they are. -/
theorem flush_updateStopLoss (newStopLoss : Decimal) :
    flush loaded (Change.assign today loaded (.updateStopLoss newStopLoss)) stored =
      { stored with stopLossPrice := column loaded.stopLossPrice newStopLoss quantize2 stored.stopLossPrice } := by
  unfold flush Change.assign
  simp only [column_self]

/-- A close that nothing comes between writes the record that the executor's close writes. -/
theorem flush_close_alone (hopen : loaded.status = "open") (hexit : loaded.NoExit) (exitPrice : Decimal)
    (exitReason : ExitReason) (exitSessionId : Option ℕ) :
    (flush loaded (Change.assign today loaded (.close exitPrice exitReason exitSessionId)) loaded).toPositionRecord =
      loaded.toPositionRecord.closedOn today exitPrice exitReason := by
  unfold flush Change.assign PositionRecord.closedOn
  simp [column, hopen, hexit.exitPrice, hexit.exitDate, hexit.exitReason, hexit.realizedPnl]

end PositionRow

namespace PositionBook

variable {s s' : PositionBook} {t u : Task} {id : ℕ} {row : PositionRow}

/-! ## What a step can do -/

/-- A call goes on after its write, or raises. -/
inductive Next (next : Phase) : Phase → Prop
  | goesOn : Next next next
  | raises (message : String) : Next next (.ended (.error message))

/-- The await of a call that ends. -/
inductive Moved (s : PositionBook) (t : Task) : PositionBook × Task → Prop
  | idle (result : Except String (Option PositionRow)) (hphase : t.phase = .ended result) : Moved s t (s, t)
  | raised (message : String) : Moved s t (s, t.raise message)
  | inserted (args : CreateArgs) (day : ℤ) (phase : Phase) (hphase : t.phase = .inserting args day)
    (hnext : Next (.refreshing s.positions.nextId) phase) :
    Moved s t ({ s with positions := s.positions.insert (args.row day) },
      { t with
        phase := phase
        wrote := some (s.positions.nextId, .insert args day) })
  | loaded (id : ℕ) (c : Change) (row : PositionRow) (hphase : t.phase = .loading id c)
    (hrow : s.positions.get? id = some row) (hopen : row.status ≠ "closed") :
    Moved s t (s, { t with phase := .committing id row c s.today })
  | committed (id : ℕ) (loaded : PositionRow) (c : Change) (day : ℤ) (phase : Phase)
    (hphase : t.phase = .committing id loaded c day) (hnext : Next (c.after id) phase) :
    Moved s t ({ s with positions := s.positions.update id (PositionRow.flush loaded (c.assign day loaded)) },
      { t with
        phase := phase
        wrote := some (id, .update loaded c day) })
  | refreshed (id : ℕ) (row : PositionRow) (hphase : t.phase = .refreshing id)
    (hrow : s.positions.get? id = some row) : Moved s t (s, { t with phase := .ended (.ok (some row)) })

/-- After a write no call is about to commit. -/
theorem Next.ne_committing {next phase : Phase} (h : Next next phase)
    (hnext : (∃ id, next = .refreshing id) ∨ ∃ c id, next = Change.after id c) (id : ℕ) (loaded : PositionRow)
    (c : Change) (day : ℤ) : phase ≠ .committing id loaded c day := by
  rintro rfl
  cases h
  rcases hnext with ⟨_, h⟩ | ⟨c', _, h⟩
  · cases h
  · cases c' <;> cases h

theorem proceed_moved (s : PositionBook) (t : Task) : Moved s t (s.proceed t) := by
  unfold proceed
  split
  · rename_i args day hphase
    exact .inserted args day _ hphase .goesOn
  · rename_i id c hphase
    unfold load
    split
    · exact .raised _
    · rename_i row hrow
      split
      · exact .raised _
      · rename_i hopen
        exact .loaded id c row hphase hrow hopen
  · rename_i id loaded c day hphase
    exact .committed id loaded c day _ hphase .goesOn
  · rename_i id hphase
    unfold refresh
    split
    · exact .raised _
    · rename_i row hrow
      exact .refreshed id row hphase hrow
  · rename_i result hphase
    exact .idle result hphase

/-- A call that raises after its await took effect has done what the await does. -/
theorem raise_moved (message : String) (s : PositionBook) (t : Task) :
    Moved s t ((s.proceed t).1, (s.proceed t).2.raise message) := by
  have h := proceed_moved s t
  generalize s.proceed t = r at h
  cases h with
  | idle | raised | loaded | refreshed => exact .raised message
  | inserted args day phase hphase => exact .inserted args day _ hphase (.raises message)
  | committed id loaded c day phase hphase => exact .committed id loaded c day _ hphase (.raises message)

theorem step_moved (fault : Option (Async.Fault String)) (s : PositionBook) (t : Task) :
    Moved s t (step fault s t) := by
  unfold step
  split
  · rename_i result hphase
    exact .idle result hphase
  · rename_i f _
    cases f.applied with
    | true => exact raise_moved _ s t
    | false => exact .raised _
  · exact proceed_moved s t

/-! ## Invariants -/

/-- Every row is open without an exit, or closed. -/
def TidyRows (s : PositionBook) : Prop := ∀ id row, s.positions.get? id = some row → row.Tidy

/-- What may become of the rows: they stay, with their entry, and a closed one stays closed. -/
def Grows (s s' : PositionBook) : Prop := ∀ id row, s.positions.get? id = some row →
  ∃ row', s'.positions.get? id = some row' ∧ row'.entry = row.entry ∧ (row.status = "closed" → row'.status = "closed")

theorem Grows.refl (s : PositionBook) : Grows s s := fun _ row hrow => ⟨row, hrow, rfl, fun h => h⟩

/-- The phase of a call and what it wrote are those of what was called. -/
inductive Of : Call → Phase → Option (ℕ × Write) → Prop
  | inserting (args : CreateArgs) (day : ℤ) : Of (.create args) (.inserting args day) none
  | loading (id : ℕ) (c : Change) : Of (.change id c) (.loading id c) none
  | committing (id : ℕ) (loaded : PositionRow) (c : Change) (day : ℤ) :
    Of (.change id c) (.committing id loaded c day) none
  | created (args : CreateArgs) (id : ℕ) (day : ℤ) :
    Of (.create args) (.refreshing id) (some (id, .insert args day))
  | closed (id : ℕ) (loaded : PositionRow) (c : Change) (day : ℤ) :
    Of (.change id c) (.refreshing id) (some (id, .update loaded c day))
  | failed (call : Call) (message : String) : Of call (.ended (.error message)) none
  | endedCreate (args : CreateArgs) (id : ℕ) (day : ℤ) (result : Except String (Option PositionRow)) :
    Of (.create args) (.ended result) (some (id, .insert args day))
  | endedChange (id : ℕ) (loaded : PositionRow) (c : Change) (day : ℤ)
    (result : Except String (Option PositionRow)) :
    Of (.change id c) (.ended result) (some (id, .update loaded c day))

theorem Of.raise {call : Call} {phase : Phase} {wrote : Option (ℕ × Write)} (h : Of call phase wrote)
    (message : String) : Of call (.ended (.error message)) wrote := by
  cases h with
  | inserting | loading | committing | failed => exact .failed _ _
  | created args id day | endedCreate args id day => exact .endedCreate _ _ _ _
  | closed id loaded c day | endedChange id loaded c day => exact .endedChange _ _ _ _ _

/-- What holds of a call under way: the row that it has loaded was open, with the entry that it still has; the row
that it wrote is there, with the entry that it created, or closed if it is a close that wrote it. -/
structure Ok (s : PositionBook) (t : Task) : Prop where
  of : Of t.call t.phase t.wrote
  loaded : ∀ id loaded c day, t.phase = .committing id loaded c day → loaded.status = "open" ∧ loaded.NoExit ∧
    ∃ row, s.positions.get? id = some row ∧ row.entry = loaded.entry
  created : ∀ id args day, t.wrote = some (id, .insert args day) →
    ∃ row, s.positions.get? id = some row ∧ row.entry = (args.row day id).entry
  changed : ∀ id loaded c day, t.wrote = some (id, .update loaded c day) → ∃ row, s.positions.get? id = some row ∧
    ((∃ price reason session, c = .close price reason session) → row.status = "closed")

/-- Two calls do not create the same row. -/
def Apart (t u : Task) : Prop := ∀ id args day args' day', t.wrote = some (id, .insert args day) →
  u.wrote ≠ some (id, .insert args' day')

theorem Ok.mono (h : Grows s s') (ht : Ok s t) : Ok s' t := by
  refine ⟨ht.of, fun id loaded c day hphase => ?_, fun id args day hwrote => ?_, fun id loaded c day hwrote => ?_⟩
  · obtain ⟨hopen, hexit, row, hrow, hentry⟩ := ht.loaded id loaded c day hphase
    obtain ⟨row', hrow', hentry', -⟩ := h id row hrow
    exact ⟨hopen, hexit, row', hrow', hentry'.trans hentry⟩
  · obtain ⟨row, hrow, hentry⟩ := ht.created id args day hwrote
    obtain ⟨row', hrow', hentry', -⟩ := h id row hrow
    exact ⟨row', hrow', hentry'.trans hentry⟩
  · obtain ⟨row, hrow, hclosed⟩ := ht.changed id loaded c day hwrote
    obtain ⟨row', hrow', -, hclosed'⟩ := h id row hrow
    exact ⟨row', hrow', fun hc => hclosed' (hclosed hc)⟩

/-- A flush closes the row, or leaves its status. -/
theorem flush_status {loaded stored : PositionRow} (hopen : loaded.status = "open") (hexit : loaded.NoExit)
    (hentry : stored.entry = loaded.entry) (c : Change) (day : ℤ) :
    (PositionRow.flush loaded (c.assign day loaded) stored).status = "closed" ∨
    ∃ newStopLoss, c = .updateStopLoss newStopLoss ∧
      (PositionRow.flush loaded (c.assign day loaded) stored).status = stored.status := by
  cases c with
  | close price reason session => exact .inl (PositionRow.flush_close hopen hexit hentry price reason session).status
  | updateStopLoss newStopLoss =>
    right
    rw [PositionRow.flush_updateStopLoss]
    exact ⟨newStopLoss, rfl, rfl⟩

theorem Moved.grows {r : PositionBook × Task} (h : Moved s t r) (ht : Ok s t) : Grows s r.1 := by
  cases h with
  | idle | raised | loaded | refreshed => exact Grows.refl s
  | inserted args day phase hphase hnext =>
    intro id row hrow
    refine ⟨row, ?_, rfl, fun h => h⟩
    have hlt := Table.lt_nextId hrow
    change (s.positions.insert _).get? id = some row
    rw [Table.get?_insert, if_neg (by omega)]
    exact hrow
  | committed id loaded c day phase hphase hnext =>
    obtain ⟨hopen, hexit, stored, hstored, hentry⟩ := ht.loaded id loaded c day hphase
    intro id' row hrow
    change ∃ row', (s.positions.update _ _).get? id' = some row' ∧ _
    rw [Table.get?_update]
    split
    · rename_i heq
      rw [heq, hstored] at hrow
      cases hrow
      rw [hstored]
      refine ⟨_, rfl, PositionRow.entry_flush _ _ _, fun hclosed => ?_⟩
      rcases flush_status hopen hexit hentry c day with h | ⟨_, _, h⟩
      · exact h
      · exact h.trans hclosed
    · exact ⟨row, hrow, rfl, fun h => h⟩

/-- The step of a call keeps what holds of the rows. -/
theorem Moved.tidy {r : PositionBook × Task} (h : Moved s t r) (hs : TidyRows s) (ht : Ok s t) : TidyRows r.1 := by
  cases h with
  | idle | raised | loaded | refreshed => exact hs
  | inserted args day phase hphase hnext =>
    intro id row hrow
    change (s.positions.insert _).get? id = some row at hrow
    rw [Table.get?_insert] at hrow
    split at hrow
    · cases hrow
      exact .inl ⟨rfl, rfl, rfl, rfl, rfl, rfl⟩
    · exact hs id row hrow
  | committed id loaded c day phase hphase hnext =>
    obtain ⟨hopen, hexit, stored, hstored, hentry⟩ := ht.loaded id loaded c day hphase
    intro id' row hrow
    change (s.positions.update _ _).get? id' = some row at hrow
    rw [Table.get?_update] at hrow
    split at hrow
    · rw [hstored] at hrow
      cases hrow
      cases c with
      | close price reason session =>
        exact .inr (PositionRow.flush_close hopen hexit hentry price reason session).status
      | updateStopLoss newStopLoss =>
        rw [PositionRow.flush_updateStopLoss]
        rcases hs id stored hstored with ⟨hstatus, hnone⟩ | hclosed
        · exact .inl ⟨hstatus, hnone.1, hnone.2, hnone.3, hnone.4, hnone.5⟩
        · exact .inr hclosed
    · exact hs id' row hrow

/-- The step of a call keeps what holds of the call. -/
theorem Moved.ok {r : PositionBook × Task} (h : Moved s t r) (hs : TidyRows s) (ht : Ok s t) : Ok r.1 r.2 := by
  have hmono := ht.mono (h.grows ht)
  cases h with
  | idle => exact ht
  | raised message =>
    refine ⟨ht.of.raise message, fun id loaded c day hphase => ?_, ht.created, ht.changed⟩
    cases hphase
  | inserted args day phase hphase hnext =>
    have hof := ht.of
    rw [hphase] at hof
    refine ⟨?_, fun id' loaded c day' h => absurd h (hnext.ne_committing (.inl ⟨_, rfl⟩) id' loaded c day'),
      fun id args' day' hwrote => ?_, fun _ _ _ _ h => (by cases h)⟩
    · dsimp only
      generalize t.call = call at hof ⊢
      generalize t.wrote = wrote at hof
      cases hof
      cases hnext with
      | goesOn => exact .created _ _ _
      | raises message => exact .endedCreate _ _ _ _
    · cases hwrote
      refine ⟨args.row day s.positions.nextId, ?_, rfl⟩
      exact (Table.get?_insert _ _ _).trans (if_pos rfl)
  | loaded id c row hphase hrow hopen =>
    have hof := ht.of
    rw [hphase] at hof
    have hrowOk := (hs id row hrow).noExit hopen
    refine ⟨?_, fun id' loaded c' day hphase' => ?_, ht.created, ht.changed⟩
    · dsimp only
      generalize t.call = call at hof ⊢
      generalize t.wrote = wrote at hof ⊢
      cases hof
      exact .committing _ _ _ _
    · cases hphase'
      exact ⟨hrowOk.1, hrowOk.2, row, hrow, rfl⟩
  | committed id loaded c day phase hphase hnext =>
    obtain ⟨hopen, hexit, stored, hstored, hentry⟩ := ht.loaded id loaded c day hphase
    have hof := ht.of
    rw [hphase] at hof
    refine ⟨?_, fun id' loaded' c' day' h => absurd h (hnext.ne_committing (.inr ⟨c, id, rfl⟩) id' loaded' c' day'),
      fun _ _ _ h => (by cases h), fun id' loaded' c' day' hwrote => ?_⟩
    · dsimp only
      generalize t.call = call at hof ⊢
      generalize t.wrote = wrote at hof
      cases hof
      cases hnext with
      | goesOn =>
        cases c with
        | close => exact .closed _ _ _ _
        | updateStopLoss => exact .endedChange _ _ _ _ _
      | raises message => exact .endedChange _ _ _ _ _
    · cases hwrote
      refine ⟨PositionRow.flush loaded (c.assign day loaded) stored, ?_, ?_⟩
      · refine (Table.get?_update _ _ _ _).trans ?_
        rw [if_pos rfl, hstored]
        rfl
      · rintro ⟨price, reason, session, rfl⟩
        exact (PositionRow.flush_close hopen hexit hentry price reason session).status
  | refreshed id row hphase hrow =>
    have hof := ht.of
    rw [hphase] at hof
    refine ⟨?_, fun _ _ _ _ h => (by cases h), ht.created, ht.changed⟩
    dsimp only
    generalize t.call = call at hof ⊢
    generalize t.wrote = wrote at hof ⊢
    cases hof with
    | created => exact .endedCreate _ _ _ _
    | closed => exact .endedChange _ _ _ _ _

/-- No row is created twice. -/
theorem Moved.apart {r : PositionBook × Task} (h : Moved s t r) (hu : Ok s u) (hapart : Apart t u ∧ Apart u t) :
    Apart r.2 u ∧ Apart u r.2 := by
  cases h with
  | idle | raised | loaded | refreshed => exact hapart
  | inserted args day phase hphase hnext =>
    -- the new number is free, so no other call has created its row
    have hfree : ∀ args' day', u.wrote ≠ some (s.positions.nextId, .insert args' day') := fun args' day' hwrote => by
      obtain ⟨row, hrow, -⟩ := hu.created _ _ _ hwrote
      have hlt := Table.lt_nextId hrow
      omega
    refine ⟨fun id args' day' args'' day'' hwrote => ?_, fun id args' day' args'' day'' hwrote hwrote' => ?_⟩
    · cases hwrote
      exact hfree _ _
    · cases hwrote'
      exact hfree _ _ hwrote
  | committed id loaded c day phase hphase hnext =>
    refine ⟨fun _ _ _ _ _ h => (by cases h), fun id args' day' args'' day'' _ hwrote' => ?_⟩
    cases hwrote'

theorem manager_invariant : Pool.Invariant manager TidyRows Ok Apart where
  start call s t hs hstart := by
    have hnone : t.wrote = none ∧ Ok s t := by
      cases call with
      | create args =>
        cases hstart
        exact ⟨rfl, .inserting _ _, fun _ _ _ _ h => (by cases h), fun _ _ _ h => (by cases h), fun _ _ _ _ h =>
          (by cases h)⟩
      | change id c =>
        cases hstart
        exact ⟨rfl, .loading _ _, fun _ _ _ _ h => (by cases h), fun _ _ _ h => (by cases h), fun _ _ _ _ h =>
          (by cases h)⟩
    refine ⟨hnone.2, fun u hu => ⟨fun id args day args' day' hwrote => ?_, fun id args day args' day' _ hwrote => ?_⟩⟩
    · rw [hnone.1] at hwrote
      cases hwrote
    · rw [hnone.1] at hwrote
      cases hwrote
  env day s hs := ⟨hs, fun t ht => ⟨ht.of, ht.loaded, ht.created, ht.changed⟩⟩
  step fault s t hs ht := ⟨(step_moved fault s t).tidy hs ht, (step_moved fault s t).ok hs ht⟩
  others fault s t u hs ht hu htu hut :=
    ⟨hu.mono ((step_moved fault s t).grows ht), (step_moved fault s t).apart hu ⟨htu, hut⟩⟩

/-! ## Where a row comes from -/

/-- The row of a number after a step: it was there before, or the call that took the step has written it. -/
theorem Moved.row_cases {r : PositionBook × Task} (h : Moved s t r) (ht : Ok s t)
    (hrow : r.1.positions.get? id = some row) :
    s.positions.get? id = some row ∨
    (∃ args day, r.2.wrote = some (id, .insert args day) ∧ row = args.row day id) ∨
    ∃ loaded c day stored, r.2.wrote = some (id, .update loaded c day) ∧ s.positions.get? id = some stored ∧
      loaded.status = "open" ∧ loaded.NoExit ∧ stored.entry = loaded.entry ∧
      row = PositionRow.flush loaded (c.assign day loaded) stored := by
  cases h with
  | idle | raised | loaded | refreshed => exact .inl hrow
  | inserted args day phase hphase hnext =>
    change (s.positions.insert _).get? id = some row at hrow
    rw [Table.get?_insert] at hrow
    split at hrow
    · rename_i heq
      cases hrow
      rw [heq]
      exact .inr (.inl ⟨args, day, rfl, rfl⟩)
    · exact .inl hrow
  | committed id' loaded c day phase hphase hnext =>
    obtain ⟨hopen, hexit, stored, hstored, hentry⟩ := ht.loaded id' loaded c day hphase
    change (s.positions.update _ _).get? id = some row at hrow
    rw [Table.get?_update] at hrow
    split at hrow
    · rename_i heq
      rw [hstored] at hrow
      cases hrow
      rw [heq]
      exact .inr (.inr ⟨loaded, c, day, stored, rfl, hstored, hopen, hexit, hentry, rfl⟩)
    · exact .inl hrow

/-- A call writes once. -/
theorem Moved.wrote {r : PositionBook × Task} (h : Moved s t r) (ht : Ok s t) {w : ℕ × Write} (hw : t.wrote = some w) :
    r.2.wrote = some w := by
  have hof := ht.of
  rw [hw] at hof
  cases h with
  | idle | raised | loaded | refreshed => exact hw
  | inserted args day phase hphase hnext =>
    rw [hphase] at hof
    generalize t.call = call at hof
    cases hof
  | committed id loaded c day phase hphase hnext =>
    rw [hphase] at hof
    generalize t.call = call at hof
    cases hof

/-- What the writes to a row say about a part of it: an insertion gives the part,
  and an update gives it or leaves it. -/
structure Traced {ρ : Type} (part : PositionRow → Option ρ) (W : ℕ → Write → ρ → Prop) : Prop where
  insert : ∀ args day id r, part (args.row day id) = some r → W id (.insert args day) r
  update : ∀ loaded c day stored id r, loaded.status = "open" → loaded.NoExit → stored.entry = loaded.entry →
    part (PositionRow.flush loaded (c.assign day loaded) stored) = some r →
    part stored = some r ∨ W id (.update loaded c day) r

theorem Traced.written {ρ : Type} {part : PositionRow → Option ρ} {W : ℕ → Write → ρ → Prop} (h : Traced part W) :
    Pool.Written manager TidyRows Ok (fun s id => (s.positions.get? id).bind part)
      (fun t id r => ∃ w, t.wrote = some (id, w) ∧ W id w r) where
  env _ _ _ := rfl
  keeps fault s t id r _ ht := by
    rintro ⟨w, hw, hr⟩
    exact ⟨w, (step_moved fault s t).wrote ht hw, hr⟩
  step fault s t id r hs ht hr := by
    obtain ⟨row, hrow, hpart⟩ := Option.bind_eq_some_iff.1 hr
    rcases (step_moved fault s t).row_cases ht hrow with hold | ⟨args, day, hwrote, rfl⟩ |
      ⟨loaded, c, day, stored, hwrote, hstored, hopen, hexit, hentry, rfl⟩
    · exact .inl (Option.bind_eq_some_iff.2 ⟨row, hold, hpart⟩)
    · exact .inr ⟨_, hwrote, h.insert args day id r hpart⟩
    · rcases h.update loaded c day stored id r hopen hexit hentry hpart with hpart | hw
      · exact .inl (Option.bind_eq_some_iff.2 ⟨stored, hstored, hpart⟩)
      · exact .inr ⟨_, hwrote, hw⟩

/-- The entry of a row is that of its creation. -/
theorem traced_entry : Traced (fun row => some row.entry) fun id w r =>
    ∃ args day, w = .insert args day ∧ r = (args.row day id).entry where
  insert args day id r h := ⟨args, day, rfl, (Option.some.inj h).symm⟩
  update loaded c day stored id r _ _ _ h := by
    rw [PositionRow.entry_flush] at h
    exact .inl h

/-- The stop loss of a row is that of its creation or of an update. -/
theorem traced_stopLoss : Traced (fun row => some row.stopLossPrice) fun _ w r =>
    (∃ args day, w = .insert args day ∧ r = quantize2 args.stopLossPrice) ∨
    ∃ loaded newStopLoss day, w = .update loaded (.updateStopLoss newStopLoss) day ∧ r = quantize2 newStopLoss where
  insert args day id r h := .inl ⟨args, day, rfl, (Option.some.inj h).symm⟩
  update loaded c day stored id r hopen _ _ h := by
    cases c with
    | close price reason session =>
      left
      rw [← h]
      exact congrArg some (PositionRow.column_self _ _ _).symm
    | updateStopLoss newStopLoss =>
      by_cases hsame : newStopLoss = loaded.stopLossPrice
      · left
        rw [← h, PositionRow.flush_updateStopLoss, hsame, PositionRow.column_self]
      · right
        rw [PositionRow.flush_updateStopLoss, PositionRow.column_of_ne hsame] at h
        exact .inr ⟨loaded, newStopLoss, day, rfl, (Option.some.inj h).symm⟩

/-- The exit of a closed row, apart from the session. -/
def exit (row : PositionRow) : Option PositionRow :=
  if row.status = "closed" then some { row with stopLossPrice := 0, exitSessionId := none } else none

/-- A closed row was settled by a close. -/
theorem traced_exit : Traced exit fun _ w r =>
    ∃ loaded price reason session day, w = .update loaded (.close price reason session) day ∧
      r.Settled price reason day where
  insert args day id r h := by cases h
  update loaded c day stored id r hopen hexit hentry h := by
    cases c with
    | close price reason session =>
      have hsettled : (PositionRow.flush loaded (Change.assign day loaded (.close price reason session)) stored).Settled
          price reason day := PositionRow.flush_close hopen hexit hentry price reason session
      unfold exit at h
      rw [if_pos hsettled.status] at h
      cases h
      exact .inr ⟨loaded, price, reason, session, day, rfl, hsettled.1, hsettled.2, hsettled.3, hsettled.4, hsettled.5⟩
    | updateStopLoss newStopLoss =>
      rw [PositionRow.flush_updateStopLoss] at h
      exact .inl h

/-- The session of an exit is that of a close. -/
theorem traced_session : Traced (fun row => row.exitSessionId) fun _ w r =>
    ∃ loaded price reason day, w = .update loaded (.close price reason (some r)) day where
  insert args day id r h := by cases h
  update loaded c day stored id r hopen hexit hentry h := by
    cases c with
    | close price reason session =>
      rw [PositionRow.flush_close_session hexit] at h
      cases session with
      | none => exact .inl h
      | some session =>
        cases h
        exact .inr ⟨loaded, price, reason, day, rfl⟩
    | updateStopLoss newStopLoss =>
      rw [PositionRow.flush_updateStopLoss] at h
      exact .inl h

/-! ## The table and the calls -/

/-- A call that has closed a position. -/
def Task.Closed (t : Task) (id : ℕ) : Prop :=
  ∃ loaded price reason session day, t.wrote = some (id, .update loaded (.close price reason session) day)

/-- What the calls have done to a row: one has created it, its stop loss is that of the creation or of an update, and
a close has settled it unless no close has written to it. -/
structure Accounted (tasks : List Task) (id : ℕ) (row : PositionRow) : Prop where
  created : ∃ (i : ℕ) (t : Task) (args : CreateArgs) (day : ℤ), tasks[i]? = some t ∧ t.call = .create args ∧
    t.wrote = some (id, .insert args day) ∧ row.entry = (args.row day id).entry ∧
    ∀ (j : ℕ) (u : Task) args' day', tasks[j]? = some u → u.wrote = some (id, .insert args' day') → j = i
  stopLoss : ∃ t ∈ tasks, ∃ w, t.wrote = some (id, w) ∧
    ((∃ args, t.call = .create args ∧ row.stopLossPrice = quantize2 args.stopLossPrice) ∨
      ∃ newStopLoss, t.call = .change id (.updateStopLoss newStopLoss) ∧ row.stopLossPrice = quantize2 newStopLoss)
  exit : (row.status = "open" ∧ row.NoExit ∧ ∀ t ∈ tasks, ¬ t.Closed id) ∨
    ∃ t ∈ tasks, ∃ loaded price reason session day, t.call = .change id (.close price reason session) ∧
      t.wrote = some (id, .update loaded (.close price reason session) day) ∧ row.Settled price reason day
  session : ∀ session, row.exitSessionId = some session →
    ∃ t ∈ tasks, t.Closed id ∧ ∃ price reason, t.call = .change id (.close price reason (some session))

theorem Ok.call_insert (ht : Ok s t) {args : CreateArgs} {day : ℤ} (h : t.wrote = some (id, .insert args day)) :
    t.call = .create args := by
  have hof := ht.of
  rw [h] at hof
  generalize t.call = call at hof ⊢
  generalize t.phase = phase at hof
  cases hof <;> rfl

theorem Ok.call_update (ht : Ok s t) {loaded : PositionRow} {c : Change} {day : ℤ}
    (h : t.wrote = some (id, .update loaded c day)) : t.call = .change id c := by
  have hof := ht.of
  rw [h] at hof
  generalize t.call = call at hof ⊢
  generalize t.phase = phase at hof
  cases hof <;> rfl

/-- A call that returns has written. -/
theorem Ok.wrote_of_returned (ht : Ok s t) {r : Option PositionRow} (h : t.phase = .ended (.ok r)) :
    t.wrote ≠ none := by
  intro hnone
  have hof := ht.of
  rw [h, hnone] at hof
  generalize t.call = call at hof
  cases hof

theorem holds_empty (today : ℤ) : Pool.Holds TidyRows Ok Apart (⟨{ today }, []⟩ : Pool.State PositionBook Task) :=
  Pool.holds_nil fun _ _ h => (by cases h)

theorem Ok.of_run {today : ℤ} {events : List (Pool.Event Call ℤ (Option (Async.Fault String)))}
    (ht : t ∈ (manager.run events ⟨{ today }, []⟩).tasks) : Ok (manager.run events ⟨{ today }, []⟩).shared t := by
  obtain ⟨i, hi⟩ := List.getElem?_of_mem ht
  exact (manager_invariant.run (holds_empty today) events).tasks i t hi

theorem rows_accounted (today : ℤ) (events : List (Pool.Event Call ℤ (Option (Async.Fault String)))) {id : ℕ}
    {row : PositionRow}
    (hrow : (manager.run events ⟨{ today }, []⟩).shared.positions.get? id = some row) :
    Accounted (manager.run events ⟨{ today }, []⟩).tasks id row := by
  have hholds := manager_invariant.run (holds_empty today) events
  have hok := fun t => @Ok.of_run t today events
  have hentry := traced_entry.written.run manager_invariant (holds_empty today) (fun _ => rfl) events
  have hstop := traced_stopLoss.written.run manager_invariant (holds_empty today) (fun _ => rfl) events
  have hexit := traced_exit.written.run manager_invariant (holds_empty today) (fun _ => rfl) events
  have hsession := traced_session.written.run manager_invariant (holds_empty today) (fun _ => rfl) events
  generalize manager.run events ⟨{ today }, []⟩ = p at hrow hholds hok hentry hstop hexit hsession
  refine ⟨?_, ?_, ?_, fun session hsession' => ?_⟩
  · obtain ⟨t, ht, _, hw, args, day, rfl, hr⟩ := hentry id row.entry (by rw [hrow]; rfl)
    obtain ⟨i, hi⟩ := List.getElem?_of_mem ht
    refine ⟨i, t, args, day, hi, (hok t ht).call_insert hw, hw, hr, fun j u args' day' hu hw' => ?_⟩
    by_contra hne
    exact hholds.apart j i u t hu hi hne id args' day' args day hw' hw
  · obtain ⟨t, ht, w, hw, ⟨args, day, rfl, hr⟩ | ⟨loaded, newStopLoss, day, rfl, hr⟩⟩ :=
      hstop id row.stopLossPrice (by rw [hrow]; rfl)
    · exact ⟨t, ht, _, hw, .inl ⟨args, (hok t ht).call_insert hw, hr⟩⟩
    · exact ⟨t, ht, _, hw, .inr ⟨newStopLoss, (hok t ht).call_update hw, hr⟩⟩
  · by_cases hclosed : row.status = "closed"
    · right
      obtain ⟨t, ht, _, hw, loaded, price, reason, session, day, rfl, hr⟩ :=
        hexit id { row with stopLossPrice := 0, exitSessionId := none } (by rw [hrow]; exact if_pos hclosed)
      exact ⟨t, ht, loaded, price, reason, session, day, (hok t ht).call_update hw, hw, hr.1, hr.2, hr.3, hr.4, hr.5⟩
    · left
      obtain ⟨hopen, hnone⟩ := (hholds.shared id row hrow).noExit hclosed
      refine ⟨hopen, hnone, ?_⟩
      rintro t ht ⟨loaded, price, reason, session, day, hw⟩
      obtain ⟨row', hrow', hc⟩ := (hok t ht).changed id loaded _ day hw
      rw [hrow] at hrow'
      cases hrow'
      exact hclosed (hc ⟨price, reason, session, rfl⟩)
  · obtain ⟨t, ht, _, hw, loaded, price, reason, day, rfl⟩ := hsession id session (by rw [hrow]; exact hsession')
    exact ⟨t, ht, ⟨loaded, price, reason, some session, day, hw⟩, price, reason, (hok t ht).call_update hw⟩

/-- However the calls interleave and whichever of them fail, every row is accounted for by what they wrote, and a call
that returns has written a row, which stays. -/
theorem positions_accounted (today : ℤ) (events : List (Pool.Event Call ℤ (Option (Async.Fault String)))) :
    let p := manager.run events ⟨{ today }, []⟩
    (∀ id row, p.shared.positions.get? id = some row → Accounted p.tasks id row) ∧
    ∀ t ∈ p.tasks, (∀ r, t.phase = .ended (.ok r) → t.wrote ≠ none) ∧
      ∀ id w, t.wrote = some (id, w) → ∃ row, p.shared.positions.get? id = some row := by
  refine ⟨fun id row hrow => rows_accounted today events hrow, fun t ht => ?_⟩
  have hok := Ok.of_run ht
  refine ⟨fun r hr => hok.wrote_of_returned hr, fun id w hw => ?_⟩
  cases w with
  | insert args day =>
    obtain ⟨row, hrow, -⟩ := hok.created id args day hw
    exact ⟨row, hrow⟩
  | update loaded c day =>
    obtain ⟨row, hrow, -⟩ := hok.changed id loaded c day hw
    exact ⟨row, hrow⟩

/-! ## Closed positions -/

/-- A close that has loaded the position and has still to commit. -/
def Task.Closing (t : Task) (id : ℕ) : Prop :=
  ∃ loaded price reason session day, t.phase = .committing id loaded (.close price reason session) day

/-- An update of the stop loss that has loaded the position and has still to commit. -/
def Task.Updating (t : Task) (id : ℕ) : Prop :=
  ∃ loaded newStopLoss day, t.phase = .committing id loaded (.updateStopLoss newStopLoss) day

/-- What remains of a closed row when no close of it is about to commit: the first `n` calls may still change its stop
loss, if one of them is about to. -/
structure Final (n id : ℕ) (row : PositionRow) (updating : Prop) (q : Pool.State PositionBook Task) : Prop where
  holds : Pool.Holds TidyRows Ok Apart q
  closed : row.status = "closed"
  row : ∃ row', q.shared.positions.get? id = some row' ∧ row' = { row with stopLossPrice := row'.stopLossPrice } ∧
    (¬ updating → row' = row)
  bound : n ≤ q.tasks.length
  committing : ∀ (i : ℕ) (t : Task) loaded c day, q.tasks[i]? = some t → t.phase = .committing id loaded c day →
    i < n ∧ updating ∧ ∃ newStopLoss, c = .updateStopLoss newStopLoss
  wrote : ∀ (i : ℕ) (t : Task) w, q.tasks[i]? = some t → t.wrote = some (id, w) → i < n

section Final

variable {n : ℕ} {updating : Prop} {q q' : Pool.State PositionBook Task}

/-- The step of a call leaves the row as it is final, and the call. -/
theorem Moved.final {r : PositionBook × Task} (h : Moved q.shared t r) (hq : Final n id row updating q) {i : ℕ}
    (ht : q.tasks[i]? = some t) :
    (∃ row', r.1.positions.get? id = some row' ∧ row' = { row with stopLossPrice := row'.stopLossPrice } ∧
      (¬ updating → row' = row)) ∧
    (∀ loaded c day, r.2.phase = .committing id loaded c day →
      i < n ∧ updating ∧ ∃ newStopLoss, c = .updateStopLoss newStopLoss) ∧
    ∀ w, r.2.wrote = some (id, w) → i < n := by
  have hcommitting := fun loaded c day => hq.committing i t loaded c day ht
  have hwrote := fun w => hq.wrote i t w ht
  obtain ⟨row', hrow', hsame, hrow⟩ := hq.row
  have hclosed : row'.status = "closed" := by
    rw [hsame]
    exact hq.closed
  cases h with
  | idle => exact ⟨⟨row', hrow', hsame, hrow⟩, hcommitting, hwrote⟩
  | raised message => exact ⟨⟨row', hrow', hsame, hrow⟩, fun _ _ _ h => (by cases h), hwrote⟩
  | inserted args day phase hphase hnext =>
    have hlt := Table.lt_nextId hrow'
    refine ⟨⟨row', ?_, hsame, hrow⟩,
      fun loaded c day' h => absurd h (hnext.ne_committing (.inl ⟨_, rfl⟩) id loaded c day'), fun w hw => ?_⟩
    · refine (Table.get?_insert _ _ _).trans ?_
      rw [if_neg (by omega)]
      exact hrow'
    · cases hw
      omega
  | loaded id' c record hphase hrecord hopen =>
    refine ⟨⟨row', hrow', hsame, hrow⟩, fun loaded c' day hphase' => ?_, hwrote⟩
    -- a call that loads the row finds it closed
    cases hphase'
    rw [hrow'] at hrecord
    cases hrecord
    exact absurd hclosed hopen
  | committed id' loaded c day phase hphase hnext =>
    refine ⟨?_, fun loaded' c' day' h => absurd h (hnext.ne_committing (.inr ⟨c, id', rfl⟩) id loaded' c' day'),
      fun w hw => ?_⟩
    · by_cases hid : id' = id
      · subst hid
        obtain ⟨-, hupdating, newStopLoss, rfl⟩ := hcommitting loaded c day hphase
        let stop := PositionRow.column loaded.stopLossPrice newStopLoss quantize2 row'.stopLossPrice
        refine ⟨{ row' with stopLossPrice := stop }, (Table.get?_update _ _ _ _).trans ?_, ?_,
          fun h => absurd hupdating h⟩
        · rw [if_pos rfl, hrow', Option.map_some, PositionRow.flush_updateStopLoss]
        · rw [hsame]
      · refine ⟨row', (Table.get?_update _ _ _ _).trans ?_, hsame, hrow⟩
        rw [if_neg (Ne.symm hid)]
        exact hrow'
    · cases hw
      exact (hcommitting loaded c day hphase).1
  | refreshed id' record hphase hrecord =>
    exact ⟨⟨row', hrow', hsame, hrow⟩, fun _ _ _ h => (by cases h), hwrote⟩

theorem Final.move (hq : Final n id row updating q) (hmove : manager.Move q q') : Final n id row updating q' := by
  have hholds := manager_invariant.move q q' hq.holds hmove
  cases hmove with
  | idle => exact hq
  | start call t hstart =>
    have hfresh : t.wrote = none ∧ ∀ loaded c day, t.phase ≠ .committing id loaded c day := by
      cases call <;> cases hstart <;> exact ⟨rfl, fun _ _ _ h => by cases h⟩
    refine ⟨hholds, hq.closed, hq.row, ?_, fun i u loaded c day hu hphase => ?_, fun i u w hu hw => ?_⟩
    · rw [List.length_append]
      exact hq.bound.trans (Nat.le_add_right _ _)
    · rcases Pool.getElem?_append_cases hu with hu | ⟨-, rfl⟩
      · exact hq.committing i u loaded c day hu hphase
      · exact absurd hphase (hfresh.2 loaded c day)
    · rcases Pool.getElem?_append_cases hu with hu | ⟨-, rfl⟩
      · exact hq.wrote i u w hu hw
      · rw [hfresh.1] at hw
        cases hw
  | env day => exact ⟨hholds, hq.closed, hq.row, hq.bound, hq.committing, hq.wrote⟩
  | step i fault t ht =>
    obtain ⟨hrow, hcommitting, hwrote⟩ := (step_moved fault q.shared t).final hq ht
    refine ⟨hholds, hq.closed, hrow, ?_, fun j u loaded c day hu hphase => ?_, fun j u w hu hw => ?_⟩
    · rw [List.length_set]
      exact hq.bound
    · rcases Pool.getElem?_set_cases hu with ⟨rfl, rfl⟩ | ⟨-, hu⟩
      · exact hcommitting loaded c day hphase
      · exact hq.committing j u loaded c day hu hphase
    · rcases Pool.getElem?_set_cases hu with ⟨rfl, rfl⟩ | ⟨-, hu⟩
      · exact hwrote w hw
      · exact hq.wrote j u w hu hw

end Final

/-- Once a position is closed and no other close of it has still to commit, its exit is final: whatever calls follow,
only its stop loss can change, by an update that had loaded it before, and every later change of it raises. -/
theorem closed_final (today : ℤ) (before after : List (Pool.Event Call ℤ (Option (Async.Fault String)))) (id : ℕ)
    (row : PositionRow) :
    let p := manager.run before ⟨{ today }, []⟩
    let q := manager.run after p
    p.shared.positions.get? id = some row → row.status = "closed" → (∀ t ∈ p.tasks, ¬ t.Closing id) →
    (∃ row', q.shared.positions.get? id = some row' ∧ row' = { row with stopLossPrice := row'.stopLossPrice } ∧
      ((∀ t ∈ p.tasks, ¬ t.Updating id) → row' = row)) ∧
    ∀ (i : ℕ) (t : Task) c r, p.tasks.length ≤ i → q.tasks[i]? = some t → t.call = .change id c → t.phase = .ended r →
      ∃ message, r = .error message := by
  have hholds := manager_invariant.run (holds_empty today) before
  generalize manager.run before ⟨{ today }, []⟩ = p at hholds
  intro p' q hrow hclosed hclosing
  have hstart : Final p.tasks.length id row (∃ t ∈ p.tasks, t.Updating id) p := by
    refine ⟨hholds, hclosed, ⟨row, hrow, rfl, fun _ => rfl⟩, le_rfl, fun i t loaded c day ht hphase => ?_,
      fun i t w ht _ => (List.getElem?_eq_some_iff.1 ht).1⟩
    have hmem := List.mem_of_getElem? ht
    refine ⟨(List.getElem?_eq_some_iff.1 ht).1, ?_⟩
    cases c with
    | close price reason session => exact absurd ⟨loaded, price, reason, session, day, hphase⟩ (hclosing t hmem)
    | updateStopLoss newStopLoss => exact ⟨⟨t, hmem, loaded, newStopLoss, day, hphase⟩, newStopLoss, rfl⟩
  have hfinal : Final p.tasks.length id row (∃ t ∈ p.tasks, t.Updating id) q :=
    Pool.run_keeps (fun _ _ h hmove => h.move hmove) hstart after
  refine ⟨?_, fun i t c r hi ht hcall hphase => ?_⟩
  · obtain ⟨row', hrow', hsame, hfix⟩ := hfinal.row
    refine ⟨row', hrow', hsame, fun hnone => hfix ?_⟩
    rintro ⟨t, ht, hupdating⟩
    exact hnone t ht hupdating
  · have hof := (hfinal.holds.tasks i t ht).of
    have hwrote := fun w => hfinal.wrote i t w ht
    rw [hcall, hphase] at hof
    generalize t.wrote = wrote at hof hwrote
    cases hof with
    | failed _ message => exact ⟨message, rfl⟩
    | endedChange loaded day => exact absurd (hwrote _ rfl) (Nat.not_lt.2 hi)

/-- A position that was sold: a second sale raises. -/
theorem closed_final_sold :
    let bought : CreateArgs := {
      symbol := "005930", strategyType := .swing, quantity := 10, entryPrice := 70000, stopLossPrice := 66500 }
    let sale : List (Pool.Event Call ℤ (Option (Async.Fault String))) :=
      [.start (.create bought), .step 0 none, .step 0 none,
        .start (.change 1 (.close 77000 .takeProfit none)), .step 1 none, .step 1 none, .step 1 none]
    let again : List (Pool.Event Call ℤ (Option (Async.Fault String))) :=
      [.start (.change 1 (.close 66500 .stopLoss none)), .step 2 none]
    ∃ row, (manager.run again (manager.run sale ⟨{ today := 0 }, []⟩)).shared.positions.get? 1 = some row ∧
      row.realizedPnl = some 70000 ∧ ∀ (t : Task) r,
        (manager.run again (manager.run sale ⟨{ today := 0 }, []⟩)).tasks[2]? = some t → t.phase = .ended r →
        ∃ message, r = .error message := by
  intro bought sale again
  let row : PositionRow := { bought.row 0 1 with
    status := "closed", exitPrice := some 77000, exitDate := some 0
    exitReason := some ExitReason.takeProfit.value, realizedPnl := some 70000 }
  have hrow : (manager.run sale ⟨{ today := 0 }, []⟩).shared.positions.get? 1 = some row := by decide +kernel
  have hphases : (manager.run sale ⟨{ today := 0 }, []⟩).tasks.map (·.phase) =
      [.ended (.ok (some (bought.row 0 1))),
        .ended (.ok ((manager.run sale ⟨{ today := 0 }, []⟩).shared.positions.get? 1))] := rfl
  have hcalls : (manager.run again (manager.run sale ⟨{ today := 0 }, []⟩)).tasks.map (·.call) =
      [.create bought, .change 1 (.close 77000 .takeProfit none), .change 1 (.close 66500 .stopLoss none)] := rfl
  have hclosing : ∀ t ∈ (manager.run sale ⟨{ today := 0 }, []⟩).tasks, ¬ t.Closing 1 := by
    rintro t ht ⟨loaded, price, reason, session, day, hphase⟩
    have hmem := List.mem_map_of_mem (f := fun t : Task => t.phase) ht
    rw [hphases, hphase] at hmem
    simp at hmem
  obtain ⟨⟨row', hrow', hsame, -⟩, hlater⟩ := closed_final 0 sale again 1 row hrow rfl hclosing
  refine ⟨row', hrow', ?_, fun t r ht hphase => ?_⟩
  · rw [hsame]
  · have hcall : ((manager.run again (manager.run sale ⟨{ today := 0 }, []⟩)).tasks.map (·.call))[2]? =
        some (.change 1 (.close 66500 .stopLoss none)) := by
      rw [hcalls]
      rfl
    rw [List.getElem?_map, ht] at hcall
    exact hlater 2 t _ r (by decide +kernel) ht (Option.some.inj hcall) hphase

/-! ## Queries -/

/-- What a call has entered: the day and the account of the row that it created. -/
def Task.entered (t : Task) : List (ℤ × String) :=
  match t.wrote with
  | some (_, .insert args day) => [(day, args.accountId)]
  | _ => []

/-- A call that has yet to write has entered nothing. -/
theorem Ok.entered_eq_nil (ht : Ok s t) (h : (∃ args day, t.phase = .inserting args day) ∨
    ∃ id loaded c day, t.phase = .committing id loaded c day) : t.entered = [] := by
  have hof := ht.of
  unfold Task.entered
  generalize t.call = call at hof
  generalize t.wrote = wrote at hof ⊢
  rcases h with ⟨args, day, hphase⟩ | ⟨id, loaded, c, day, hphase⟩
  · rw [hphase] at hof
    cases hof
    rfl
  · rw [hphase] at hof
    cases hof
    rfl

theorem manager_collects : Pool.Collects manager TidyRows Ok
    (fun s => s.positions.rows.values.map (fun row => (row.entryDate, row.accountId))) Task.entered where
  start call s t h := by cases call <;> cases h <;> rfl
  env _ _ := rfl
  step fault s t _ ht := by
    have hmoved := step_moved fault s t
    change ∃ new, (step fault s t).1.positions.rows.values.map _ = _ ∧ (step fault s t).2.entered = _
    generalize step fault s t = r at hmoved
    cases hmoved with
    | idle | raised | loaded | refreshed => exact ⟨[], (List.append_nil _).symm, (List.append_nil _).symm⟩
    | inserted args day phase hphase hnext =>
      refine ⟨[(day, args.accountId)], ?_, ?_⟩
      · rw [Table.values_insert, List.map_append]
        rfl
      · rw [ht.entered_eq_nil (.inl ⟨args, day, hphase⟩)]
        rfl
    | committed id loaded c day phase hphase hnext =>
      refine ⟨[], ?_, ?_⟩
      · rw [List.append_nil]
        apply Table.map_values_update
        exact fun _ => rfl
      · rw [ht.entered_eq_nil (.inr ⟨id, loaded, c, day, hphase⟩)]
        rfl

/-- The entries of a day and an account among those of a call. -/
def Task.enteredOn (day : ℤ) (accountId : Option String) (t : Task) : Bool :=
  t.entered.any fun e => e.1 = day && filterBy accountId e.2

theorem countP_entered (day : ℤ) (accountId : Option String) (tasks : List Task) :
    (tasks.flatMap Task.entered).countP (fun e => e.1 = day && filterBy accountId e.2) =
      tasks.countP (Task.enteredOn day accountId) := by
  induction tasks with
  | nil => rfl
  | cons t tasks ih =>
    rw [List.flatMap_cons, List.countP_append, List.countP_cons, ih, Nat.add_comm]
    congr 1
    unfold Task.enteredOn Task.entered
    split
    · simp [List.countP_cons]
    · simp

section Scan

variable (scan : Scan s) (strategyType : Option StrategyType) (accountId : Option String)

theorem Scan.mem_rows : row ∈ scan.rows ↔ ∃ id, s.positions.get? id = some row :=
  scan.perm.mem_iff.trans (Table.mem_values_iff row)

theorem Scan.mem_getOpen : row ∈ scan.getOpen strategyType accountId ↔ (∃ id, s.positions.get? id = some row) ∧
    row.status = "open" ∧ filterBy strategyType row.strategyType = true ∧ filterBy accountId row.accountId = true := by
  unfold Scan.getOpen
  rw [(List.perm_insertionSort _ _).mem_iff, List.mem_filter, scan.mem_rows]
  simp [and_assoc]

theorem Scan.nodup_getOpen (h : s.positions.Numbered (·.id)) :
    ((scan.getOpen strategyType accountId).map (·.id)).Nodup := by
  have hrows : (scan.rows.map (·.id)).Nodup := (scan.perm.map (·.id)).nodup_iff.2 h.nodup
  have hsorted := (List.perm_insertionSort (fun a b : PositionRow => a.entryDate ≤ b.entryDate)
    (scan.rows.filter (fun row => row.status = "open" && filterBy strategyType row.strategyType &&
      filterBy accountId row.accountId))).map (·.id)
  exact hsorted.nodup_iff.2 (hrows.sublist (List.filter_sublist.map _))

theorem Scan.sorted_getOpen :
    (scan.getOpen strategyType accountId).Pairwise (fun a b => a.entryDate ≤ b.entryDate) := by
  have htotal : Std.Total (fun a b : PositionRow => a.entryDate ≤ b.entryDate) := ⟨fun a b => le_total _ _⟩
  have htrans : IsTrans PositionRow (fun a b => a.entryDate ≤ b.entryDate) := ⟨fun a b c => le_trans⟩
  exact List.pairwise_insertionSort _ _

/-- The position of a symbol is an open one, if there is any. -/
theorem Scan.getBySymbol_spec (symbol : String) :
    (∀ row ∈ scan.getBySymbol symbol "open" accountId, row ∈ scan.getOpen none accountId ∧ row.symbol = symbol) ∧
    (scan.getBySymbol symbol "open" accountId = none ↔ ∀ row ∈ scan.getOpen none accountId, row.symbol ≠ symbol) := by
  constructor
  · intro row hrow
    obtain ⟨hmem, hfilter⟩ := List.mem_filter.1 (List.mem_of_head? hrow)
    simp only [Bool.and_eq_true, decide_eq_true_eq] at hfilter
    refine ⟨(scan.mem_getOpen none accountId).2 ⟨scan.mem_rows.1 hmem, hfilter.1.2, rfl, hfilter.2⟩, hfilter.1.1⟩
  · unfold Scan.getBySymbol
    rw [List.head?_eq_none_iff, List.filter_eq_nil_iff]
    constructor
    · intro h row hrow hsymbol
      obtain ⟨hmem, hopen, -, haccount⟩ := (scan.mem_getOpen none accountId).1 hrow
      exact h row (scan.mem_rows.2 hmem) (by simp [hsymbol, hopen, haccount])
    · intro h row hmem hfilter
      simp only [Bool.and_eq_true, decide_eq_true_eq] at hfilter
      exact h row ((scan.mem_getOpen none accountId).2 ⟨scan.mem_rows.1 hmem, hfilter.1.2, rfl, hfilter.2⟩) hfilter.1.1

end Scan

/-- The queries are exact. The open positions are those that the calls created and none has closed, each once and in
the order of their entries; a symbol has a position if and only if one of them is of that symbol; the entries of a day
are the positions that calls of that day created. -/
structure QueriesExact (tasks : List Task) (s : PositionBook) (scan : Scan s) : Prop where
  getOpen : ∀ strategyType accountId id, id ∈ (scan.getOpen strategyType accountId).map (·.id) ↔
    (∃ t ∈ tasks, ∃ args day, t.wrote = some (id, .insert args day) ∧
      filterBy strategyType args.strategyType = true ∧ filterBy accountId args.accountId = true) ∧
    ∀ t ∈ tasks, ¬ t.Closed id
  once : ∀ strategyType accountId, ((scan.getOpen strategyType accountId).map (·.id)).Nodup
  sorted : ∀ strategyType accountId,
    (scan.getOpen strategyType accountId).Pairwise (fun a b => a.entryDate ≤ b.entryDate)
  getBySymbol : ∀ symbol accountId,
    (∀ row ∈ scan.getBySymbol symbol "open" accountId, row ∈ scan.getOpen none accountId ∧ row.symbol = symbol) ∧
    (scan.getBySymbol symbol "open" accountId = none ↔ ∀ row ∈ scan.getOpen none accountId, row.symbol ≠ symbol)
  getDailyEntries : ∀ day accountId,
    scan.getDailyEntries day accountId = tasks.countP (Task.enteredOn day accountId)

/-- What the filters of a query read stays as it was created. -/
theorem filters_of_entry {args : CreateArgs} {day : ℤ} (h : row.entry = (args.row day id).entry) :
    row.strategyType = args.strategyType ∧ row.accountId = args.accountId :=
  ⟨congrArg (fun row : PositionRow => row.strategyType) h, congrArg (fun row : PositionRow => row.accountId) h⟩

/-- However the calls interleave and whichever of them fail, the queries are exact, in whatever order the database
comes to the rows. -/
theorem queries_exact (today : ℤ) (events : List (Pool.Event Call ℤ (Option (Async.Fault String))))
    (scan : Scan (manager.run events ⟨{ today }, []⟩).shared) :
    QueriesExact (manager.run events ⟨{ today }, []⟩).tasks (manager.run events ⟨{ today }, []⟩).shared scan := by
  have hholds := manager_invariant.run (holds_empty today) events
  have hperm := manager_collects.run manager_invariant (holds_empty today) (List.Perm.refl _) events
  have haccounted := fun id row => @rows_accounted today events id row
  generalize manager.run events ⟨{ today }, []⟩ = p at hholds hperm haccounted scan
  have hentry : ∀ id row, p.shared.positions.get? id = some row → row.entry.id = id := fun id row hrow => by
    obtain ⟨i, t, args, day, -, -, -, hentry, -⟩ := (haccounted id row hrow).created
    rw [hentry]
    rfl
  refine ⟨fun strategyType accountId id => ?_, fun strategyType accountId => ?_, scan.sorted_getOpen,
    fun symbol accountId => scan.getBySymbol_spec accountId symbol, fun day accountId => ?_⟩
  · rw [List.mem_map]
    constructor
    · rintro ⟨row, hrow, rfl⟩
      obtain ⟨⟨id, hget⟩, hopen, hstrategy, haccount⟩ := (scan.mem_getOpen _ _).1 hrow
      have hid : row.id = id := hentry id row hget
      rw [hid]
      obtain ⟨i, t, args, day, ht, -, hw, hentry, -⟩ := (haccounted id row hget).created
      obtain ⟨hs, ha⟩ := filters_of_entry hentry
      refine ⟨⟨t, List.mem_of_getElem? ht, args, day, hw, hs ▸ hstrategy, ha ▸ haccount⟩, ?_⟩
      rcases (haccounted id row hget).exit with ⟨-, -, hnone⟩ | ⟨_, _, _, _, _, _, _, _, _, hsettled⟩
      · exact hnone
      · rw [hsettled.status] at hopen
        exact absurd hopen (by decide)
    · rintro ⟨⟨t, ht, args, day, hw, hstrategy, haccount⟩, hnone⟩
      obtain ⟨i, hi⟩ := List.getElem?_of_mem ht
      obtain ⟨row, hget, hrow⟩ := (hholds.tasks i t hi).created id args day hw
      obtain ⟨hs, ha⟩ := filters_of_entry hrow
      refine ⟨row, (scan.mem_getOpen _ _).2 ⟨⟨id, hget⟩, ?_, hs ▸ hstrategy, ha ▸ haccount⟩, hentry id row hget⟩
      rcases (haccounted id row hget).exit with ⟨hopen, -, -⟩ | ⟨u, hu, loaded, price, reason, session, day', -, hw', -⟩
      · exact hopen
      · exact absurd ⟨loaded, price, reason, session, day', hw'⟩ (hnone u hu)
  · exact scan.nodup_getOpen strategyType accountId hentry
  · unfold Scan.getDailyEntries
    rw [scan.perm.countP_eq, ← countP_entered, ← hperm.countP_eq, List.countP_map]
    rfl

end PositionBook

end TradingAgent
