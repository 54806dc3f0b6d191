/-
The entries of the daily bars under every interleaving of reads and syncs. As long as no read writes what it
has read before a commit whose sync has already deleted the entry, an entry is what the database holds or
held before commits whose syncs are still to delete it. Once all calls have finished the entries are those of
the database, and a read that begins after a sync has returned gives the bars as they were after its commit
or later.
-/
import TradingAgent.Data.KisProvider

namespace TradingAgent

open CacheAside

namespace KisDataProvider

variable {T : Type} {codec : Codec T Exn (List OhlcvBar)}

/-! ## Rows of other symbols -/

theorem dailyBars_upsertBatch {symbol other : String} (h : other ≠ symbol) (rows : List OhlcvRow)
    (batch : DailyBars other) : dailyBars symbol (upsertBatch rows batch) = dailyBars symbol rows := by
  have hfilter : ∀ (bars : List OhlcvBar) (rows : List OhlcvRow), (∀ b ∈ bars, b.symbol = other) →
      ((bars.map rowOf).foldl (Upsert.one ohlcvConstraint) rows).filter (fun row => row.symbol = symbol) =
        rows.filter (fun row => row.symbol = symbol) := by
    intro bars
    induction bars with
    | nil => exact fun _ _ => rfl
    | cons bar bars ih =>
      intro rows hbars
      have hbar : bar.symbol ≠ symbol := fun hb => h ((hbars bar List.mem_cons_self).symm.trans hb)
      rw [List.map_cons, List.foldl_cons, ih _ fun b hb => hbars b (List.mem_cons_of_mem _ hb)]
      refine Upsert.filter_one ⟨fun row _ hconf => .inr ?_, fun _ => decide_eq_false hbar⟩
      have hrow : row.symbol = bar.symbol := congrArg Prod.fst (Option.some.inj hconf.2)
      exact ⟨decide_eq_false (hrow.trans_ne hbar), decide_eq_false (hrow.trans_ne hbar)⟩
  unfold dailyBars upsertBatch
  rw [hfilter batch.bars rows batch.ofSymbol]

theorem dailyBars_foldl_upsertBatch {symbol other : String} (h : other ≠ symbol)
    (sent : List (DailyBars other)) :
    ∀ rows, dailyBars symbol (sent.foldl upsertBatch rows) = dailyBars symbol rows := by
  induction sent with
  | nil => exact fun _ => rfl
  | cons batch sent ih => exact fun rows => (ih _).trans (dailyBars_upsertBatch h rows batch)

/-! ## The invariant -/

namespace System

/-- The commits of the syncs of a symbol, with the rows before them. -/
def commitsOf (s : System T) (symbol : String) : List (ℕ × List OhlcvRow) :=
  (s.commits.filter (fun c => c.symbol = symbol)).map (fun c => (c.id, c.before))

/-- A sync of the symbol has committed and is still to delete the entry. -/
def Owes (s : System T) (symbol : String) (id : ℕ) : Prop :=
  ∃ totalUpserted, s.tasks id = some (.committed symbol totalUpserted)

/-- Bars of a symbol that were read since the commit of every sync that has deleted the entry. -/
def UpToDate (s : System T) (symbol : String) (bars : List OhlcvBar) : Prop :=
  Recent (dailyBars symbol) (s.Owes symbol) s.rows (s.commitsOf symbol) bars

end System

/-- The entry of a symbol holds bars that are up to date. -/
def Accounts (codec : Codec T Exn (List OhlcvBar)) (s : System T) (k : String) (t : T) : Prop :=
  ∀ symbol, k = RedisCache.makeKey ohlcvCacheNs symbol → ∃ bars, t = codec.dump bars ∧ s.UpToDate symbol bars

/-- What is up to date stays so where the rows and commits do and no sync of the symbol pays what it owes. -/
theorem UpToDate.mono {s s' : System T} {symbol : String} {bars : List OhlcvBar} (h : s.UpToDate symbol bars)
    (hrows : s'.rows = s.rows) (hcommits : s'.commits = s.commits)
    (howes : ∀ id, s.Owes symbol id → s'.Owes symbol id) : s'.UpToDate symbol bars := by
  unfold System.UpToDate System.commitsOf at h ⊢
  rw [hrows, hcommits]
  exact h.mono howes

theorem Owes.setTask {s : System T} {id : ℕ} {symbol : String} (task : Task)
    (hid : ¬ s.Owes symbol id) {w : ℕ} (h : s.Owes symbol w) : (s.setTask id task).Owes symbol w := by
  obtain ⟨total, hw⟩ := h
  have hne : w ≠ id := by
    rintro rfl
    exact hid ⟨total, hw⟩
  exact ⟨total, (Function.update_of_ne hne _ _).trans hw⟩

/-- A call that does not owe a deletion goes on without touching the database or the cache. -/
theorem accounts_setTask {s : System T} {id : ℕ} (task : Task) (hid : ∀ symbol, ¬ s.Owes symbol id) {k : String}
    {t : T} (h : Accounts codec s k t) : Accounts codec (s.setTask id task) k t := by
  intro symbol hk
  obtain ⟨bars, ht, hbars⟩ := h symbol hk
  exact ⟨bars, ht, UpToDate.mono hbars rfl rfl fun _ => Owes.setTask task (hid symbol)⟩

/-- The system after a commit. -/
def commit (s : System T) (id : ℕ) (symbol : String) (sent : List (DailyBars symbol)) (total : ℕ) : System T :=
  { s.setTask id (.committed symbol total) with
    rows := sent.foldl upsertBatch s.rows
    commits := ⟨id, symbol, s.rows⟩ :: s.commits }

theorem commitsOf_commit_self (s : System T) (id : ℕ) (symbol : String) (sent : List (DailyBars symbol))
    (total : ℕ) : (commit s id symbol sent total).commitsOf symbol = (id, s.rows) :: s.commitsOf symbol := by
  simp [commit, System.commitsOf]

theorem commitsOf_commit_ne (s : System T) (id : ℕ) {symbol other : String} (h : other ≠ symbol)
    (sent : List (DailyBars other)) (total : ℕ) :
    (commit s id other sent total).commitsOf symbol = s.commitsOf symbol := by
  simp [commit, System.commitsOf, h]

theorem UpToDate.commit {s : System T} {id : ℕ} {other symbol : String} {sent : List (DailyBars other)}
    {total : ℕ} {bars : List OhlcvBar} (hid : ∀ symbol, ¬ s.Owes symbol id) (h : s.UpToDate symbol bars) :
    (commit s id other sent total).UpToDate symbol bars := by
  have h' : Recent (dailyBars symbol) ((KisDataProvider.commit s id other sent total).Owes symbol) s.rows
      (s.commitsOf symbol) bars := Recent.mono (fun _ => Owes.setTask _ (hid symbol)) h
  unfold System.UpToDate
  by_cases hsymbol : other = symbol
  · subst hsymbol
    rw [commitsOf_commit_self]
    exact h'.commit ⟨total, Function.update_self _ _ _⟩
  · rw [commitsOf_commit_ne s id hsymbol]
    exact h'.congr (dailyBars_foldl_upsertBatch hsymbol sent s.rows)

theorem not_owes {s : System T} {id : ℕ} {task : Task} (htask : s.tasks id = some task)
    (hne : ∀ symbol total, task ≠ .committed symbol total) (symbol : String) : ¬ s.Owes symbol id := by
  rintro ⟨total, howes⟩
  rw [htask] at howes
  exact hne symbol total (Option.some.inj howes)

theorem not_owes_of_none {s : System T} {id : ℕ} (htask : ¬ (s.tasks id).isSome) (symbol : String) :
    ¬ s.Owes symbol id := by
  rintro ⟨total, howes⟩
  exact htask (by rw [howes]; rfl)

/-- Every entry holds bars that are up to date. -/
def Inv (codec : Codec T Exn (List OhlcvBar)) (s : System T) : Prop := Current (Accounts codec) s s.redis

/-- A read writes its entry only while what it has read is up to date: every sync of the symbol that has
committed since is still to delete the entry. -/
def Timely (s : System T) : Event → Prop
  | .advance id => ∀ symbol startDate endDate bars,
      s.tasks id = some (.loaded symbol startDate endDate bars) → s.UpToDate symbol bars
  | _ => True

variable {s : System T}

theorem Inv.setTask (h : Inv codec s) {id : ℕ} (task : Task) (hid : ∀ symbol, ¬ s.Owes symbol id) :
    Inv codec (s.setTask id task) := fun k t ht => accounts_setTask task hid (h k t ht)

theorem Inv.write (h : Inv codec s) {id : ℕ} {symbol : String} {bars : List OhlcvBar} (task : Task)
    (hid : ∀ symbol, ¬ s.Owes symbol id) (hbars : s.UpToDate symbol bars) :
    Inv codec { s.setTask id task with redis := RedisCache.setJson codec s.redis ohlcvCacheNs symbol bars } := by
  refine Current.set (fun k t ht => ?_) ?_
  · exact accounts_setTask task hid (h k t ht)
  · intro other hother
    obtain rfl := RedisCache.makeKey_inj hother
    exact ⟨bars, rfl, UpToDate.mono hbars rfl rfl fun _ => Owes.setTask task (hid _)⟩

theorem Inv.commit (h : Inv codec s) {id : ℕ} {symbol : String} (sent : List (DailyBars symbol)) (total : ℕ)
    (hid : ∀ symbol, ¬ s.Owes symbol id) : Inv codec (commit s id symbol sent total) := by
  intro k t ht other hother
  obtain ⟨bars, hdump, hbars⟩ := h k t ht other hother
  exact ⟨bars, hdump, UpToDate.commit hid hbars⟩

/-- Deleting the entry of the symbol is what the sync owed; the entries of other symbols are none of its
business. -/
theorem Inv.delete (h : Inv codec s) {id : ℕ} {symbol : String} {total : ℕ}
    (htask : s.tasks id = some (.committed symbol total)) :
    Inv codec { s.setTask id (.synced symbol total) with
      redis := (RedisCache.delete s.redis ohlcvCacheNs symbol).2 } := by
  refine Current.erase h fun k t _ hk haccounts other hother => ?_
  obtain ⟨bars, hdump, hbars⟩ := haccounts other hother
  refine ⟨bars, hdump, UpToDate.mono hbars rfl rfl fun w hw => Owes.setTask _ ?_ hw⟩
  rintro ⟨total', howes⟩
  rw [htask] at howes
  cases howes
  exact hk hother

theorem step_advance_none {id : ℕ} (htask : s.tasks id = none) : step codec s (.advance id) = s := by
  unfold step
  dsimp only
  rw [htask]

theorem step_advance {id : ℕ} {task : Task} (htask : s.tasks id = some task) :
    step codec s (.advance id) = advance codec s id task := by
  unfold step
  dsimp only
  rw [htask]

/-- Every step keeps the entries up to date, provided a read that writes its entry is. -/
theorem Inv.step (h : Inv codec s) {e : Event} (htimely : Timely s e) : Inv codec (step codec s e) := by
  cases e with
  | fetch id symbol startDate endDate =>
    unfold KisDataProvider.step
    dsimp only
    split
    · exact h
    · rename_i hid
      exact h.setTask _ (not_owes_of_none hid)
  | sync id symbol answer =>
    unfold KisDataProvider.step
    dsimp only
    split
    · exact h
    · rename_i hid
      exact h.setTask _ (not_owes_of_none hid)
  | advance id =>
    cases htask : s.tasks id with
    | none =>
      rw [step_advance_none htask]
      exact h
    | some task =>
      rw [step_advance htask]
      cases task with
      | reading symbol startDate endDate =>
        have hid := not_owes htask fun _ _ => by simp
        unfold advance
        dsimp only
        split <;> exact h.setTask _ hid
      | missed symbol startDate endDate =>
        have hid := not_owes htask fun _ _ => by simp
        unfold advance
        dsimp only
        split <;> exact h.setTask _ hid
      | loaded symbol startDate endDate bars =>
        exact h.write _ (not_owes htask fun _ _ => by simp) (htimely _ _ _ _ htask)
      | requesting symbol answer =>
        have hid := not_owes htask fun _ _ => by simp
        unfold advance
        dsimp only
        split <;> exact h.setTask _ hid
      | upserting symbol rest sent total =>
        have hid := not_owes htask fun _ _ => by simp
        cases rest with
        | nil => exact h.commit sent total hid
        | cons batch rest =>
          unfold advance
          dsimp only
          split <;> exact h.setTask _ hid
      | committed symbol total => exact h.delete htask
      | fetched | synced | failed => exact h

/-! ## Reads that begin after a sync has returned -/

/-- If the sync has committed for the symbol, the bars are those of the database since then. -/
def Seen (s : System T) (j : ℕ) (symbol : String) (bars : List OhlcvBar) : Prop :=
  ∀ before, (j, before) ∈ s.commitsOf symbol →
    ∃ rows, Since j s.rows (s.commitsOf symbol) rows ∧ bars = dailyBars symbol rows

/-- What a read holds has been read since the commit of the sync. -/
def Task.Sees (s : System T) (j : ℕ) : Task → Prop
  | .loaded symbol _ _ bars => Seen s j symbol bars
  | .fetched symbol startDate endDate result =>
    ∃ bars, result = inRange startDate endDate bars ∧ Seen s j symbol bars
  | _ => True

/-- The sync has returned, and the read holds nothing from before its commit. -/
structure Sees (j f : ℕ) (s : System T) : Prop where
  returned : ∃ symbol total, s.tasks j = some (.synced symbol total)
  holds : ∀ task, s.tasks f = some task → task.Sees s j

theorem Task.Sees.mono {s s' : System T} {j : ℕ} (hseen : ∀ symbol bars, Seen s j symbol bars → Seen s' j symbol bars)
    {task : Task} (h : task.Sees s j) : task.Sees s' j := by
  cases task with
  | loaded => exact hseen _ _ h
  | fetched =>
    obtain ⟨bars, hresult, hbars⟩ := h
    exact ⟨bars, hresult, hseen _ _ hbars⟩
  | reading | missed | requesting | upserting | committed | synced | failed => trivial

variable {j f : ℕ}

/-- A step of another call than the sync: what the read holds afterwards is new or was there before. -/
theorem Sees.of_update (h : Sees j f s) {s' : System T} {id : ℕ} {task : Task} (hj : j ≠ id)
    (htasks : s'.tasks = Function.update s.tasks id (some task))
    (hseen : ∀ symbol bars, Seen s j symbol bars → Seen s' j symbol bars) (hnew : id = f → task.Sees s' j) :
    Sees j f s' := by
  obtain ⟨symbol, total, hsynced⟩ := h.returned
  refine ⟨⟨symbol, total, ?_⟩, fun task' htask' => ?_⟩
  · rw [htasks, Function.update_of_ne hj]
    exact hsynced
  · rw [htasks] at htask'
    by_cases hf : id = f
    · subst hf
      rw [Function.update_self] at htask'
      cases htask'
      exact hnew rfl
    · rw [Function.update_of_ne fun hfid => hf hfid.symm] at htask'
      exact (h.holds task' htask').mono hseen

theorem Sees.setTask (h : Sees j f s) {id : ℕ} {task : Task} (hj : j ≠ id) (hnew : id = f → task.Sees s j) :
    Sees j f (s.setTask id task) := h.of_update hj rfl (fun _ _ hs => hs) hnew

theorem Seen.commit {id : ℕ} {other symbol : String} {sent : List (DailyBars other)} {total : ℕ}
    {bars : List OhlcvBar} (hj : j ≠ id) (h : Seen s j symbol bars) :
    Seen (KisDataProvider.commit s id other sent total) j symbol bars := by
  intro before hbefore
  by_cases hsymbol : other = symbol
  · subst hsymbol
    rw [commitsOf_commit_self] at hbefore ⊢
    rcases List.mem_cons.1 hbefore with heq | hbefore
    · exact absurd (congrArg Prod.fst heq) hj
    · obtain ⟨rows, hsince, hbars⟩ := h before hbefore
      exact ⟨rows, hsince.commit, hbars⟩
  · rw [commitsOf_commit_ne s id hsymbol] at hbefore ⊢
    obtain ⟨rows, hsince, hbars⟩ := h before hbefore
    obtain ⟨rows', hsince', hrows'⟩ := hsince.congr (dailyBars_foldl_upsertBatch hsymbol sent s.rows)
    exact ⟨rows', hsince', hbars.trans hrows'.symm⟩

/-- An entry that is up to date holds bars from after the commit of a sync that has returned. -/
theorem seen_of_entry (hinv : Inv codec s) (h : ∃ symbol total, s.tasks j = some (.synced symbol total))
    {symbol : String} {bars : List OhlcvBar}
    (hget : RedisCache.getJson codec s.redis ohlcvCacheNs symbol = .ok (some bars)) : Seen s j symbol bars := by
  intro before hbefore
  unfold RedisCache.getJson RedisCache.get at hget
  split at hget
  · cases hget
  · rename_i t ht
    obtain ⟨bars', rfl, huptodate⟩ := hinv _ _ ht symbol rfl
    rw [codec.load_dump] at hget
    cases hget
    obtain ⟨_, _, hsynced⟩ := h
    exact huptodate.since (not_owes hsynced (fun _ _ => by simp) symbol) hbefore

theorem Sees.step (hinv : Inv codec s) (h : Sees j f s) (e : Event) : Sees j f (step codec s e) := by
  obtain ⟨synced, total, hsynced⟩ := h.returned
  have hother : ∀ id task, s.tasks id = some task → (∀ symbol total, task ≠ .synced symbol total) → j ≠ id := by
    rintro id task htask hne rfl
    rw [hsynced] at htask
    exact hne synced total (Option.some.inj htask).symm
  have hfree : ∀ id, ¬ (s.tasks id).isSome → j ≠ id := by
    rintro id hid rfl
    exact hid (by rw [hsynced]; rfl)
  cases e with
  | fetch id symbol startDate endDate =>
    unfold KisDataProvider.step
    dsimp only
    split
    · exact h
    · rename_i hid
      exact h.setTask (hfree id hid) fun _ => trivial
  | sync id symbol answer =>
    unfold KisDataProvider.step
    dsimp only
    split
    · exact h
    · rename_i hid
      exact h.setTask (hfree id hid) fun _ => trivial
  | advance id =>
    cases htask : s.tasks id with
    | none =>
      rw [step_advance_none htask]
      exact h
    | some task =>
      rw [step_advance htask]
      cases task with
      | reading symbol startDate endDate =>
        have hj := hother id _ htask fun _ _ => by simp
        unfold advance
        dsimp only
        split
        · rename_i bars hget
          exact h.setTask hj fun _ => ⟨bars, rfl, seen_of_entry hinv h.returned hget⟩
        · exact h.setTask hj fun _ => trivial
        · exact h.setTask hj fun _ => trivial
        · exact h.setTask hj fun _ => trivial
      | missed symbol startDate endDate =>
        have hj := hother id _ htask fun _ _ => by simp
        have hnow : Seen s j symbol (dailyBars symbol s.rows) := fun before hbefore =>
          ⟨s.rows, since_now hbefore, rfl⟩
        unfold advance
        dsimp only
        split
        · exact h.setTask hj fun _ => ⟨_, rfl, hnow⟩
        · exact h.setTask hj fun _ => hnow
      | loaded symbol startDate endDate bars =>
        refine h.of_update (hother id _ htask fun _ _ => by simp) rfl (fun _ _ hs => hs) ?_
        rintro rfl
        exact ⟨bars, rfl, h.holds _ htask⟩
      | requesting symbol answer =>
        have hj := hother id _ htask fun _ _ => by simp
        unfold advance
        dsimp only
        split <;> exact h.setTask hj fun _ => trivial
      | upserting symbol rest sent total =>
        have hj := hother id _ htask fun _ _ => by simp
        cases rest with
        | nil => exact h.of_update hj rfl (fun _ _ => Seen.commit hj) fun _ => trivial
        | cons batch rest =>
          unfold advance
          dsimp only
          split <;> exact h.setTask hj fun _ => trivial
      | committed symbol total =>
        exact h.of_update (hother id _ htask fun _ _ => by simp) rfl (fun _ _ hs => hs) fun _ => trivial
      | fetched | synced | failed => exact h

/-! ## Runs -/

/-- Where a run that begins with an empty cache and no call stands after so many steps. -/
def after (codec : Codec T Exn (List OhlcvBar)) (rows : List OhlcvRow) (events : List Event) (k : ℕ) : System T :=
  Async.runSteps (step codec) (events.take k) { rows := rows }

theorem inv_after {rows : List OhlcvRow} {events : List Event}
    (h : Async.Along (KisDataProvider.step codec) Timely events { rows := rows }) (k : ℕ) :
    Inv codec (after codec rows events k) :=
  Async.along_keeps (fun _ _ hinv htimely => hinv.step htimely) h current_empty k

/-- Where all calls have finished an entry holds what a read of the database gives. -/
theorem Inv.eq_read (h : Inv codec s) (hquiet : s.Quiet) {symbol : String} {t : T}
    (ht : RedisCache.get s.redis ohlcvCacheNs symbol = some t) :
    ∃ bars, codec.load t = .ok bars ∧
      ∀ startDate endDate, inRange startDate endDate bars = readDailyOhlcv s.rows symbol startDate endDate := by
  obtain ⟨bars, rfl, hbars⟩ := h _ _ ht symbol rfl
  have hpaid : ∀ id, ¬ s.Owes symbol id := by
    rintro id ⟨total, hid⟩
    exact absurd (hquiet id _ hid) (by simp [Task.finished])
  refine ⟨bars, codec.load_dump bars, fun startDate endDate => ?_⟩
  unfold readDailyOhlcv
  rw [hbars.eq_read hpaid]

theorem sees_after {rows : List OhlcvRow} {events : List Event}
    (h : Async.Along (KisDataProvider.step codec) Timely events { rows := rows }) {k m : ℕ} (hkm : k ≤ m)
    (hsees : Sees j f (after codec rows events k)) : Sees j f (after codec rows events m) := by
  have hrest := Async.along_keeps
    (I := fun s => Inv codec s ∧ Sees j f s) (fun s e hs htimely => ⟨hs.1.step htimely, hs.2.step hs.1 e⟩)
    (h.drop k) ⟨inv_after h k, hsees⟩ (m - k)
  unfold after
  rw [Async.runSteps_take_of_le hkm]
  exact hrest.2

/-- In a run in which every read writes its entry in time, the entries are those of the database wherever all
calls have finished, and a read that begins after a sync has returned gives what the database held after the
commit of that sync or later. -/
theorem fresh_of_timely (codec : Codec T Exn (List OhlcvBar)) (rows : List OhlcvRow) (events : List Event)
    (h : Async.Along (KisDataProvider.step codec) Timely events { rows := rows }) :
    (∀ k, (after codec rows events k).Quiet → ∀ symbol t,
      RedisCache.get (after codec rows events k).redis ohlcvCacheNs symbol = some t →
        ∃ bars, codec.load t = .ok bars ∧ ∀ startDate endDate,
          inRange startDate endDate bars =
            readDailyOhlcv (after codec rows events k).rows symbol startDate endDate) ∧
    ∀ k m, k ≤ m → ∀ j f symbol total startDate endDate result before,
      (after codec rows events k).tasks j = some (.synced symbol total) →
      (after codec rows events k).tasks f = none →
      (after codec rows events m).tasks f = some (.fetched symbol startDate endDate result) →
      (j, before) ∈ (after codec rows events m).commitsOf symbol →
        ∃ rows', Since j (after codec rows events m).rows ((after codec rows events m).commitsOf symbol) rows' ∧
          result = readDailyOhlcv rows' symbol startDate endDate := by
  refine ⟨fun k hquiet symbol t ht => (inv_after h k).eq_read hquiet ht, ?_⟩
  intro k m hkm j f symbol total startDate endDate result before hj hf hfetched hbefore
  have hsees : Sees j f (after codec rows events k) := by
    refine ⟨⟨symbol, total, hj⟩, fun task htask => ?_⟩
    rw [hf] at htask
    cases htask
  obtain ⟨bars, rfl, hseen⟩ := (sees_after h hkm hsees).holds _ hfetched
  obtain ⟨rows', hsince, rfl⟩ := hseen before hbefore
  exact ⟨rows', hsince, rfl⟩

/-! ## Two runs -/

/-- A read that is about to write its entry holds what the database holds. -/
def Task.unchanged (rows : List OhlcvRow) : Task → Bool
  | .loaded symbol _ _ bars => bars = dailyBars symbol rows
  | _ => true

/-- A read goes on to write its entry only while the bars of the symbol are those that it has read. -/
def Unchanged (s : System T) : Event → Prop
  | .advance id => ∀ task ∈ s.tasks id, task.unchanged s.rows = true
  | _ => True

instance (s : System T) : ∀ e, Decidable (Unchanged s e)
  | .advance id => inferInstanceAs (Decidable (∀ task ∈ s.tasks id, task.unchanged s.rows = true))
  | .fetch _ _ _ _ | .sync _ _ _ => .isTrue trivial

theorem Unchanged.timely {e : Event} (h : Unchanged s e) : Timely s e := by
  cases e with
  | fetch => trivial
  | sync => trivial
  | advance id =>
    intro symbol startDate endDate bars htask
    have hbars : bars = dailyBars symbol s.rows := of_decide_eq_true (h _ htask)
    rw [hbars]
    exact recent_now s.rows _

/-- The call that an event belongs to. -/
def Event.call : Event → ℕ
  | .fetch id _ _ _ | .sync id _ _ | .advance id => id

/-- A step of a call leaves the other calls where they stand. -/
theorem step_tasks_of_ne {e : Event} {id : ℕ} (h : id ≠ e.call) : (step codec s e).tasks id = s.tasks id := by
  have hset : ∀ task, (s.setTask e.call task).tasks id = s.tasks id := fun _ => Function.update_of_ne h _ _
  cases e with
  | fetch call =>
    unfold KisDataProvider.step
    dsimp only
    split
    · rfl
    · exact hset _
  | sync call =>
    unfold KisDataProvider.step
    dsimp only
    split
    · rfl
    · exact hset _
  | advance call =>
    cases htask : s.tasks call with
    | none => rw [step_advance_none htask]
    | some task =>
      rw [step_advance htask]
      unfold advance
      split
      · split <;> exact hset _
      · dsimp only
        split <;> exact hset _
      · exact hset _
      · split <;> exact hset _
      · split <;> exact hset _
      · exact hset _
      · exact hset _
      · rfl
      · rfl
      · rfl

/-- A call that no event belongs to never begins. -/
theorem after_tasks_eq_none {rows : List OhlcvRow} {events : List Event} {id : ℕ}
    (h : ∀ e ∈ events, id ≠ e.call) (k : ℕ) : (after codec rows events k).tasks id = none :=
  Async.runSteps_keeps (I := fun s : System T => s.tasks id = none)
    (fun e he _ hs => (step_tasks_of_ne (h e (List.mem_of_mem_take he))).trans hs) rfl

theorem quiet_after {rows : List OhlcvRow} {events : List Event} {n k : ℕ} (h : ∀ e ∈ events, e.call < n)
    (hfinished : ∀ id < n, ∀ task ∈ (after codec rows events k).tasks id, task.finished = true) :
    (after codec rows events k).Quiet := by
  intro id task htask
  by_cases hid : id < n
  · exact hfinished id hid task htask
  · rw [after_tasks_eq_none fun e he => ((h e he).trans_le (not_lt.1 hid)).ne'] at htask
    cases htask

/-- A codec that stores the bars themselves. -/
def barsCodec : Codec (List OhlcvBar) Exn (List OhlcvBar) := ⟨id, .ok, fun _ => rfl⟩

/-- A bar that has not moved all day. -/
def flatBar (symbol : String) (date : ℤ) (price : Decimal) : OhlcvBar :=
  { symbol, date, openPrice := price, high := price, low := price, close := price, volume := 10, value := 0 }

def flatBars (symbol : String) (date : ℤ) (price : Decimal) : DailyBars symbol :=
  ⟨[flatBar symbol date price], fun _ hb => by rw [List.mem_singleton.1 hb]; rfl⟩

/-- A sync from its beginning to its end. -/
def wholeSync (id : ℕ) (symbol : String) (answer : DailyBars symbol) : List Event :=
  [.sync id symbol answer, .advance id, .advance id, .advance id, .advance id]

def syncThenFetch : List Event :=
  wholeSync 0 "005930" (flatBars "005930" 1 70000) ++
    [.fetch 1 "005930" none none, .advance 1, .advance 1, .advance 1]

/-- A sync, and a read after it: the entry is what the database gives for every range. -/
theorem fresh_of_timely_syncThenFetch :
    RedisCache.get (after barsCodec [] syncThenFetch 9).redis ohlcvCacheNs "005930" = some [flatBar "005930" 1 70000] ∧
      ∃ bars, barsCodec.load [flatBar "005930" 1 70000] = .ok bars ∧
        ∀ startDate endDate, inRange startDate endDate bars =
          readDailyOhlcv (after barsCodec [] syncThenFetch 9).rows "005930" startDate endDate := by
  have hunchanged : Async.Along (KisDataProvider.step barsCodec) Unchanged syncThenFetch { rows := [] } := by
    decide +kernel
  have htimely := hunchanged.imp (I := fun _ => True) (fun _ _ _ h => ⟨trivial, h.timely⟩) trivial
  have hentry : RedisCache.get (after barsCodec [] syncThenFetch 9).redis ohlcvCacheNs "005930" =
      some [flatBar "005930" 1 70000] := by decide +kernel
  refine ⟨hentry, (fresh_of_timely barsCodec [] syncThenFetch htimely).1 9 (quiet_after (n := 2) ?_ ?_) _ _ hentry⟩
  · decide +kernel
  · decide +kernel

/-- A read that has read the database when a whole sync goes by, and writes its entry then. -/
def straddled : List Event :=
  [.fetch 0 "005930" none none, .advance 0, .advance 0] ++
    wholeSync 1 "005930" (flatBars "005930" 2 71000) ++ [.advance 0]

def oldRows : List OhlcvRow := [rowOf (flatBar "005930" 1 70000)]

/-- What a read has returned. -/
def Task.result : Task → Option (List OhlcvBar)
  | .fetched _ _ _ result => some result
  | _ => none

/-- The entry is that of the database before the sync, and the next read has it. -/
theorem stale_after_straddled :
    (after barsCodec oldRows straddled 9).Quiet ∧
    RedisCache.get (after barsCodec oldRows straddled 9).redis ohlcvCacheNs "005930" =
      some [flatBar "005930" 1 70000] ∧
    readDailyOhlcv (after barsCodec oldRows straddled 9).rows "005930" none none =
      [flatBar "005930" 1 70000, flatBar "005930" 2 71000] ∧
    ((after barsCodec oldRows (straddled ++ [.fetch 2 "005930" none none, .advance 2]) 11).tasks 2).bind
      Task.result = some [flatBar "005930" 1 70000] := by
  refine ⟨quiet_after (n := 2) ?_ ?_, ?_, ?_, ?_⟩
  · decide +kernel
  · decide +kernel
  · decide +kernel
  · decide +kernel
  · decide +kernel

end KisDataProvider

end TradingAgent
