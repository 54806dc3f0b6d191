/-
A cache beside a database: readers fill it from the database, writers change the database and then remove
entries. What an entry may be is given by the database; the cache is current if every entry is such a one.
Filling in what the database gives keeps it current, removing entries always does, and a change of the
database does if what it changes is removed with it.

Where readers and writers interleave, a writer commits before it removes entries. What was read from the
database is recent if every writer that has committed since is still to remove its entries.
-/
import TradingAgent.Lib.Dict

namespace CacheAside

/-- How a value is written to an entry and read back. -/
structure Codec (T ε β : Type) where
  dump : β → T
  load : T → Except ε β
  load_dump : ∀ b, load (dump b) = .ok b

variable {D K V : Type} [DecidableEq K]

/-- Every entry is one that the database accounts for. -/
def Current (accounts : D → K → V → Prop) (db : D) (cache : Dict K V) : Prop :=
  ∀ k v, cache.get? k = some v → accounts db k v

variable {accounts : D → K → V → Prop} {db db' : D} {cache cache' : Dict K V}

theorem current_empty : Current accounts db (Dict.empty : Dict K V) := by
  intro k v h
  cases h

theorem Current.set (h : Current accounts db cache) {k : K} {v : V} (hv : accounts db k v) :
    Current accounts db (cache.set k v) := by
  intro k' v' h'
  rw [Dict.get?_set] at h'
  split at h'
  · rename_i hk
    cases h'
    rw [hk]
    exact hv
  · exact h k' v' h'

/-- After a change of the database the entries that are left have to be accounted for anew. -/
theorem Current.dropKeys (h : Current accounts db cache) {p : K → Bool}
    (hp : ∀ k v, cache.get? k = some v → p k = false → accounts db k v → accounts db' k v) :
    Current accounts db' (cache.dropKeys p) := by
  intro k v hv
  rw [Dict.get?_dropKeys] at hv
  split at hv
  · cases hv
  · rename_i hk
    exact hp k v hv (Bool.eq_false_iff.2 hk) (h k v hv)

theorem Current.erase (h : Current accounts db cache) {k : K}
    (hp : ∀ k' v, cache.get? k' = some v → k' ≠ k → accounts db k' v → accounts db' k' v) :
    Current accounts db' (cache.erase k) := by
  intro k' v hv
  rw [Dict.get?_erase] at hv
  split at hv
  · cases hv
  · rename_i hk
    exact hp k' v hv hk (h k' v hv)

/-! ## Writers that are still to remove entries -/

variable {W A : Type} {read : D → A} {owes owes' : W → Prop} {a : A} {w : W} {past : List (W × D)}

/-- What was read is what the database gives, or gave before commits whose writers owe their removal. The
past holds the writers that have committed, each with the database before it, the latest first. -/
def Recent (read : D → A) (owes : W → Prop) : D → List (W × D) → A → Prop
  | db, [], a => a = read db
  | db, (w, before) :: past, a => a = read db ∨ (owes w ∧ Recent read owes before past a)

theorem recent_now (db : D) : ∀ past : List (W × D), Recent read owes db past (read db)
  | [] => rfl
  | _ :: _ => .inl rfl

/-- A commit of a writer that owes its removal. -/
theorem Recent.commit (h : Recent read owes db past a) (hw : owes w) : Recent read owes db' ((w, db) :: past) a :=
  .inr ⟨hw, h⟩

theorem Recent.mono (howes : ∀ w, owes w → owes' w) :
    ∀ {past : List (W × D)} {db : D}, Recent read owes db past a → Recent read owes' db past a
  | [], _, h => h
  | _ :: _, _, .inl h => .inl h
  | _ :: _, _, .inr ⟨hw, h⟩ => .inr ⟨howes _ hw, h.mono howes⟩

/-- A change of the database that leaves what is read alone. -/
theorem Recent.congr (hread : read db' = read db) (h : Recent read owes db past a) : Recent read owes db' past a := by
  cases past with
  | nil => exact h.trans hread.symm
  | cons e past => exact h.imp (fun ha => ha.trans hread.symm) id

/-- Where no writer owes a removal, what is recent is what the database gives. -/
theorem Recent.eq_read (hnone : ∀ w, ¬ owes w) (h : Recent read owes db past a) : a = read db := by
  cases past with
  | nil => exact h
  | cons e past => exact h.resolve_right fun hw => hnone _ hw.1

/-- The databases since a commit: the present one, and those before later commits. -/
def Since (w : W) (db : D) (past : List (W × D)) (db' : D) : Prop :=
  ∃ newer before older, past = newer ++ (w, before) :: older ∧ db' ∈ db :: newer.map Prod.snd

theorem since_now {before : D} (h : (w, before) ∈ past) : Since w db past db := by
  obtain ⟨newer, older, rfl⟩ := List.append_of_mem h
  exact ⟨newer, before, older, rfl, List.mem_cons_self⟩

theorem Since.commit {w' : W} {before : D} (h : Since w before past db') : Since w db ((w', before) :: past) db' := by
  obtain ⟨newer, before', older, rfl, hmem⟩ := h
  exact ⟨(w', before) :: newer, before', older, rfl, List.mem_cons_of_mem _ hmem⟩

/-- A change of the database that leaves what is read alone leaves what was read since a commit. -/
theorem Since.congr {x : D} (hread : read db' = read db) (h : Since w db past x) :
    ∃ y, Since w db' past y ∧ read y = read x := by
  obtain ⟨newer, before, older, rfl, hmem⟩ := h
  rcases List.mem_cons.1 hmem with rfl | hmem
  · exact ⟨db', ⟨newer, before, older, rfl, List.mem_cons_self⟩, hread⟩
  · exact ⟨x, ⟨newer, before, older, rfl, List.mem_cons_of_mem _ hmem⟩, rfl⟩

/-- What is recent was read since the commit of every writer that has removed its entries. -/
theorem Recent.since (hw : ¬ owes w) : ∀ {past : List (W × D)} {db before : D}, (w, before) ∈ past →
    Recent read owes db past a → ∃ db', Since w db past db' ∧ a = read db'
  | (w', before') :: past, db, before, hmem, h => by
    rcases h with h | ⟨howes, h⟩
    · exact ⟨db, since_now hmem, h⟩
    · rcases List.mem_cons.1 hmem with heq | hmem
      · cases heq
        exact absurd howes hw
      · obtain ⟨db', hsince, ha⟩ := Recent.since hw hmem h
        exact ⟨db', hsince.commit, ha⟩

/-! ## Entries that expire -/

/-- What the database was at a time. The history holds the databases with the times they are there since, the latest
first; at the time of a commit it was the one before it as well. -/
def Had : List (ℤ × D) → ℤ → D → Prop
  | [], _, _ => False
  | (since, db) :: older, t, x => (since ≤ t ∧ x = db) ∨ (t ≤ since ∧ Had older t x)

theorem had_now {since t : ℤ} (older : List (ℤ × D)) (db : D) (h : since ≤ t) : Had ((since, db) :: older) t db :=
  .inl ⟨h, rfl⟩

/-- A commit leaves what was there before. -/
theorem Had.commit {history : List (ℤ × D)} {t now : ℤ} {x : D} (h : Had history t x) (hle : t ≤ now) :
    Had ((now, db) :: history) t x := .inr ⟨hle, h⟩

/-- An answer that the database gave at a time. -/
def Gave (read : D → A) (history : List (ℤ × D)) (t : ℤ) (a : A) : Prop := ∃ x, Had history t x ∧ read x = a

theorem Gave.commit {history : List (ℤ × D)} {t now : ℤ} (h : Gave read history t a) (hle : t ≤ now) :
    Gave read ((now, db) :: history) t a := by
  obtain ⟨x, hx, ha⟩ := h
  exact ⟨x, hx.commit hle, ha⟩

end CacheAside
