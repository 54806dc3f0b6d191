/-
The Redis cache with its namespaces. A key stands under its namespace and a colon; a namespace is cleared by
scanning for the pattern of everything that follows its colon. Entries do not expire here and the server does
not fail.
-/
import TradingAgent.Strategy.Exit
import TradingAgent.Lib.CacheAside
import TradingAgent.Lib.Wp

namespace TradingAgent

open CacheAside

/-- The entries of the server by their full keys. -/
abbrev Redis (T : Type) := Dict String T

namespace RedisCache

variable {T β : Type}

def makeKey (ns key : String) : String := ns ++ ":" ++ key

def get (redis : Redis T) (ns key : String) : Option T := redis.get? (makeKey ns key)

def set (redis : Redis T) (ns key : String) (value : T) : Redis T := redis.set (makeKey ns key) value

/-- Remove an entry, and say whether there was one. -/
def delete (redis : Redis T) (ns key : String) : Bool × Redis T :=
  (redis.contains (makeKey ns key), redis.erase (makeKey ns key))

/-- An entry that is no JSON text is a `CacheError`. -/
def getJson (codec : Codec T Exn β) (redis : Redis T) (ns key : String) : Except Exn (Option β) :=
  match get redis ns key with
  | none => .ok none
  | some raw => some <$> codec.load raw

def setJson (codec : Codec T Exn β) (redis : Redis T) (ns key : String) (value : β) : Redis T :=
  set redis ns key (codec.dump value)

/-- The pattern that a namespace is cleared by. -/
def pattern (ns : String) : String := ns ++ ":*"

/-- Remove what matches the pattern of the namespace, and count it. Whether a key matches a pattern is for
the server to say. -/
def clearNamespace (globMatch : String → String → Bool) (redis : Redis T) (ns : String) : ℕ × Redis T :=
  ((redis.keys.filter (globMatch (pattern ns))).length, redis.dropKeys (globMatch (pattern ns)))

/-- Two namespaces whose keys differ: neither is the front of the other, colon included. -/
def Apart (ns ns' : String) : Prop :=
  ¬ (ns ++ ":").toList <+: (ns' ++ ":").toList ∧ ¬ (ns' ++ ":").toList <+: (ns ++ ":").toList

instance (ns ns' : String) : Decidable (Apart ns ns') := inferInstanceAs (Decidable (_ ∧ _))

theorem makeKey_ne {ns ns' : String} (h : Apart ns ns') (key key' : String) :
    makeKey ns key ≠ makeKey ns' key' := by
  intro heq
  have hlist : (ns ++ ":").toList ++ key.toList = (ns' ++ ":").toList ++ key'.toList := by
    rw [← String.toList_append, ← String.toList_append]
    exact congrArg String.toList heq
  rcases List.prefix_or_prefix_of_prefix (List.prefix_append _ key.toList)
    (hlist ▸ List.prefix_append _ key'.toList) with hp | hp
  · exact h.1 hp
  · exact h.2 hp

theorem makeKey_inj {ns key key' : String} (h : makeKey ns key = makeKey ns key') : key = key' := by
  have hlist := congrArg String.toList h
  simp only [makeKey, String.toList_append] at hlist
  exact String.toList_inj.1 (List.append_cancel_left hlist)

end RedisCache

/-! ## Reading through the cache -/

/-- What of an answer is worth an entry, and the answer that an entry stands for. -/
structure Entry (α β : Type) where
  pack : α → Option β
  unpack : β → α
  unpack_pack : ∀ a b, pack a = some b → unpack b = a

namespace Entry

variable {γ : Type}

/-- A list is worth an entry if it is not empty. -/
def list : Entry (List γ) (List γ) where
  pack
    | [] => none
    | a :: l => some (a :: l)
  unpack l := l
  unpack_pack l b h := by
    cases l with
    | nil => cases h
    | cons a l => exact (Option.some.inj h).symm

/-- An optional value is worth an entry if it is there. -/
def option : Entry (Option γ) γ where
  pack a := a
  unpack := some
  unpack_pack _ _ h := h.symm

end Entry

/-- A database beside the cache. -/
structure Store (D T : Type) where
  db : D
  redis : Redis T := Dict.empty

variable {D T α β : Type}

/-- The read that the providers share: the entry of the key if there is one, else what the database answers,
which becomes the entry. -/
def cacheThrough (codec : Codec T Exn β) (entry : Entry α β) (ns key : String) (query : D → Except Exn α) :
    EStateM Exn (Store D T) α := do
  let s ← get
  -- an entry that cannot be read counts as none
  let cached ← match RedisCache.getJson codec s.redis ns key with
    | .ok cached => pure cached
    | .error (.cacheError _) => pure none
    | .error e => throw e
  match cached with
  | some b => pure (entry.unpack b)
  | none => do
    let a ← match query s.db with
      | .ok a => pure a
      | .error e => throw e
    match entry.pack a with
    | none => pure a
    | some b => do
      modify fun s => { s with redis := RedisCache.setJson codec s.redis ns key b }
      pure a

/-- The outcome of an operation. -/
def outcome : EStateM.Result Exn (Store D T) α → Except Exn α
  | .ok a _ => .ok a
  | .error e _ => .error e

/-- The store that an operation leaves. -/
def left : EStateM.Result Exn (Store D T) α → Store D T
  | .ok _ s => s
  | .error _ s => s

theorem left_of_wp {x : EStateM Exn (Store D T) α} {s : Store D T} {P : Store D T → Prop}
    (h : Wp.wp x (fun _ s' => P s') (fun _ s' => P s') s) : P (left (x.run s)) := by
  unfold Wp.wp at h
  unfold EStateM.run
  split at h
  · rename_i hx
    rw [hx]
    exact h
  · rename_i hx
    rw [hx]
    exact h

section CacheThrough

variable {codec : Codec T Exn β} {entry : Entry α β} {ns key : String} {query : D → Except Exn α}
  {s : Store D T}

theorem cacheThrough_hit {t : T} {b : β} (ht : s.redis.get? (RedisCache.makeKey ns key) = some t)
    (hb : codec.load t = .ok b) : (cacheThrough codec entry ns key query).run s = .ok (entry.unpack b) s := by
  have hget : RedisCache.getJson codec s.redis ns key = .ok (some b) := by
    unfold RedisCache.getJson RedisCache.get
    rw [ht]
    simp only [hb]
    rfl
  unfold cacheThrough
  simp only [EStateM.run, bind, EStateM.bind, Wp.get_apply, hget]
  rfl

/-- Without an entry the answer is that of the database. -/
theorem cacheThrough_miss (hnone : s.redis.get? (RedisCache.makeKey ns key) = none) :
    (cacheThrough codec entry ns key query).run s =
      match query s.db with
      | .error e => .error e s
      | .ok a => .ok a (match entry.pack a with
        | none => s
        | some b => { s with redis := s.redis.set (RedisCache.makeKey ns key) (codec.dump b) }) := by
  have hget : RedisCache.getJson codec s.redis ns key = .ok none := by
    unfold RedisCache.getJson RedisCache.get
    rw [hnone]
  unfold cacheThrough
  simp only [EStateM.run, bind, EStateM.bind, Wp.get_apply, hget]
  cases query s.db with
  | error e => rfl
  | ok a =>
    cases hpack : entry.pack a with
    | none => simp only [pure, EStateM.pure, EStateM.bind, hpack]
    | some b =>
      simp only [pure, EStateM.pure, EStateM.bind, hpack]
      rfl

/-- A text is the entry of an answer. -/
def Writes (codec : Codec T Exn β) (entry : Entry α β) (answer : Except Exn α) (t : T) : Prop :=
  ∃ a b, answer = .ok a ∧ entry.pack a = some b ∧ t = codec.dump b

/-- An entry stands for one answer. -/
theorem Writes.answer_inj {answer answer' : Except Exn α} {t : T} (h : Writes codec entry answer t)
    (h' : Writes codec entry answer' t) : answer = answer' := by
  obtain ⟨a, b, rfl, hpack, rfl⟩ := h
  obtain ⟨a', b', rfl, hpack', hdump⟩ := h'
  have hb : b = b' := by
    have hload := congrArg codec.load hdump
    rw [codec.load_dump, codec.load_dump] at hload
    exact Except.ok.inj hload
  rw [← entry.unpack_pack a b hpack, ← entry.unpack_pack a' b' hpack', hb]

/-- If the entry of the key, where there is one, is that of the answer of the database, then the read gives
this answer, changes nothing in the database and writes at most this entry. -/
theorem cacheThrough_spec
    (h : ∀ t, s.redis.get? (RedisCache.makeKey ns key) = some t → Writes codec entry (query s.db) t) :
    outcome ((cacheThrough codec entry ns key query).run s) = query s.db ∧
      (left ((cacheThrough codec entry ns key query).run s)).db = s.db ∧
      ∀ k t, (left ((cacheThrough codec entry ns key query).run s)).redis.get? k = some t →
        s.redis.get? k = some t ∨ (k = RedisCache.makeKey ns key ∧ Writes codec entry (query s.db) t) := by
  cases ht : s.redis.get? (RedisCache.makeKey ns key) with
  | some t =>
    obtain ⟨a, b, ha, hpack, rfl⟩ := h t ht
    rw [cacheThrough_hit ht (codec.load_dump b), entry.unpack_pack a b hpack]
    exact ⟨ha.symm, rfl, fun _ _ hk => .inl hk⟩
  | none =>
    rw [cacheThrough_miss ht]
    cases ha : query s.db with
    | error e => exact ⟨rfl, rfl, fun _ _ hk => .inl hk⟩
    | ok a =>
      dsimp only
      refine ⟨rfl, ?_⟩
      cases hpack : entry.pack a with
      | none => exact ⟨rfl, fun _ _ hk => .inl hk⟩
      | some b =>
        refine ⟨rfl, fun k t hk => ?_⟩
        simp only [left, Dict.get?_set] at hk
        split at hk
        · rename_i hkey
          cases hk
          exact .inr ⟨hkey, a, b, rfl, hpack, rfl⟩
        · exact .inl hk

end CacheThrough

end TradingAgent
