/-
Insertion-ordered dictionaries: a list of entries with pairwise different keys. Writing a
present key keeps its place, a new key goes to the end, erasing removes the entry. The laws are
those of a finite map, and the sum of a measure over the entries changes by the entry written
or removed.
-/
import Mathlib.Data.List.Nodup
import Mathlib.Algebra.BigOperators.Group.Finset.Basic
import Mathlib.Tactic.Abel

/-- A dictionary with keys in insertion order. -/
structure Dict (κ : Type) (α : Type) where
  items : List (κ × α)
  nodup : (items.map Prod.fst).Nodup

namespace Dict

variable {κ α : Type}

theorem eq_of_items {d e : Dict κ α} (h : d.items = e.items) : d = e := by
  cases d; cases e; cases h; rfl

/-- In a list with pairwise different keys, a key picks one element out. -/
theorem filter_key_eq_singleton {β : Type} [DecidableEq κ] (f : β → κ) :
    ∀ {l : List β} {a : β}, (l.map f).Nodup → a ∈ l → l.filter (fun b => f b = f a) = [a]
  | b :: l, a, h, ha => by
    rw [List.map_cons, List.nodup_cons] at h
    rw [List.filter_cons]
    rcases List.mem_cons.1 ha with rfl | ha
    · have hnil : l.filter (fun b => decide (f b = f a)) = [] := by
        rw [List.filter_eq_nil_iff]
        intro b hb heq
        exact h.1 (List.mem_map.2 ⟨b, hb, of_decide_eq_true heq⟩)
      rw [if_pos (decide_eq_true rfl), hnil]
    · have hne : ¬ f b = f a := fun heq => h.1 (List.mem_map.2 ⟨a, ha, heq.symm⟩)
      rw [if_neg (by rw [decide_eq_true_eq]; exact hne)]
      exact filter_key_eq_singleton f h.2 ha

/-- The dictionary without entries. -/
def empty : Dict κ α := ⟨[], List.nodup_nil⟩

instance : Inhabited (Dict κ α) := ⟨empty⟩

/-- The keys, oldest first. -/
def keys (d : Dict κ α) : List κ := d.items.map Prod.fst

/-- The values, in the order of their keys. -/
def values (d : Dict κ α) : List α := d.items.map Prod.snd

variable [DecidableEq κ]

/-- Write `a` at `k` in a list of entries: in place when `k` is present, at the end otherwise. -/
def setList (k : κ) (a : α) : List (κ × α) → List (κ × α)
  | [] => [(k, a)]
  | (k', a') :: l => if k' = k then (k, a) :: l else (k', a') :: setList k a l

/-- The value at `k` in a list of entries. -/
def getList (k : κ) : List (κ × α) → Option α
  | [] => none
  | (k', a') :: l => if k' = k then some a' else getList k l

/-! ## Lists of entries -/

theorem mem_keys_setList (k : κ) (a : α) : ∀ (l : List (κ × α)) (x : κ),
    x ∈ (setList k a l).map Prod.fst ↔ x = k ∨ x ∈ l.map Prod.fst
  | [], x => by simp [setList]
  | (k', a') :: l, x => by
    unfold setList
    split
    · rename_i h
      subst h; simp
    · simp only [List.map_cons, List.mem_cons, mem_keys_setList k a l x]
      tauto

theorem nodup_setList (k : κ) (a : α) : ∀ (l : List (κ × α)), (l.map Prod.fst).Nodup →
    ((setList k a l).map Prod.fst).Nodup
  | [], _ => by simp [setList]
  | (k', a') :: l, h => by
    unfold setList
    rw [List.map_cons, List.nodup_cons] at h
    split
    · rename_i hk
      subst hk
      rw [List.map_cons, List.nodup_cons]; exact h
    · rename_i hk
      rw [List.map_cons, List.nodup_cons, mem_keys_setList]
      refine ⟨?_, nodup_setList k a l h.2⟩
      rintro (e | e)
      · exact hk e
      · exact h.1 e

theorem getList_setList_self (k : κ) (a : α) : ∀ l : List (κ × α), getList k (setList k a l) = some a
  | [] => by simp [setList, getList]
  | (k', a') :: l => by
    unfold setList
    split
    · simp [getList]
    · rename_i hk
      rw [getList, if_neg hk]; exact getList_setList_self k a l

theorem getList_setList_ne {k k' : κ} (a : α) (hne : k' ≠ k) :
    ∀ l : List (κ × α), getList k' (setList k a l) = getList k' l
  | [] => by simp [setList, getList, Ne.symm hne]
  | (k₁, a₁) :: l => by
    unfold setList
    split
    · rename_i h
      subst h
      rw [getList, getList, if_neg (Ne.symm hne), if_neg (Ne.symm hne)]
    · rw [getList, getList, getList_setList_ne a hne l]

theorem getList_eq_none_iff (k : κ) : ∀ l : List (κ × α), getList k l = none ↔ k ∉ l.map Prod.fst
  | [] => by simp [getList]
  | (k', a') :: l => by
    unfold getList
    split
    · rename_i h
      subst h; simp
    · rename_i h
      rw [getList_eq_none_iff k l, List.map_cons, List.mem_cons]
      constructor
      · rintro h1 (h2 | h2)
        · exact h h2.symm
        · exact h1 h2
      · exact fun h1 h2 => h1 (.inr h2)

theorem getList_filter_ne {k k' : κ} (hne : k' ≠ k) :
    ∀ l : List (κ × α), getList k' (l.filter (fun e => e.1 ≠ k)) = getList k' l
  | [] => rfl
  | (k₁, a₁) :: l => by
    rw [List.filter_cons]
    by_cases h : k₁ = k
    · subst h
      rw [if_neg (by simp), getList, if_neg (Ne.symm hne), getList_filter_ne hne l]
    · rw [if_pos (by simpa using h), getList, getList, getList_filter_ne hne l]

theorem getList_filter_not (p : κ → Bool) (k : κ) :
    ∀ l : List (κ × α), getList k (l.filter (fun e => !p e.1)) = if p k then none else getList k l
  | [] => by simp [getList]
  | (k₁, a₁) :: l => by
    rw [List.filter_cons, getList]
    by_cases h : k₁ = k
    · subst h
      rw [if_pos rfl]
      cases hp : p k₁
      · simp [getList]
      · simp [getList_filter_not p k₁ l, hp]
    · rw [if_neg h]
      split
      · rw [getList, if_neg h, getList_filter_not p k l]
      · exact getList_filter_not p k l

theorem mem_iff_getList {k : κ} {a : α} : ∀ {l : List (κ × α)}, (l.map Prod.fst).Nodup →
    ((k, a) ∈ l ↔ getList k l = some a)
  | [], _ => by simp [getList]
  | (k', a') :: l, h => by
    rw [List.map_cons, List.nodup_cons] at h
    unfold getList
    split
    · rename_i hk
      subst hk
      rw [List.mem_cons, Prod.mk.injEq, Option.some.injEq]
      constructor
      · rintro (h1 | h1)
        · exact h1.2.symm
        · exact absurd (List.mem_map.2 ⟨_, h1, rfl⟩) h.1
      · exact fun h1 => .inl ⟨rfl, h1.symm⟩
    · rename_i hk
      rw [List.mem_cons, Prod.mk.injEq, ← mem_iff_getList h.2]
      constructor
      · rintro (h1 | h1)
        · exact absurd h1.1.symm hk
        · exact h1
      · exact .inr

/-! ## The operations -/

/-- The value at `k`, if `k` is a key. -/
def get? (d : Dict κ α) (k : κ) : Option α := getList k d.items

/-- Whether `k` is a key. -/
def contains (d : Dict κ α) (k : κ) : Bool := (d.get? k).isSome

/-- Write `a` at `k`. -/
def set (d : Dict κ α) (k : κ) (a : α) : Dict κ α := ⟨setList k a d.items, nodup_setList k a d.items d.nodup⟩

/-- Remove `k`. -/
def erase (d : Dict κ α) (k : κ) : Dict κ α :=
  ⟨d.items.filter (fun e => e.1 ≠ k), (List.filter_sublist.map Prod.fst).nodup d.nodup⟩

/-- Remove every key of which `p` holds. -/
def dropKeys (d : Dict κ α) (p : κ → Bool) : Dict κ α :=
  ⟨d.items.filter (fun e => !p e.1), (List.filter_sublist.map Prod.fst).nodup d.nodup⟩

/-- Update the value at `k`, if there is one. -/
def modify (d : Dict κ α) (k : κ) (f : α → α) : Dict κ α :=
  match d.get? k with
  | some a => d.set k (f a)
  | none => d

/-- Map every value, with its key. -/
def mapValues {β : Type} (d : Dict κ α) (f : κ → α → β) : Dict κ β :=
  ⟨d.items.map (fun e => (e.1, f e.1 e.2)), by rw [List.map_map]; exact d.nodup⟩

@[simp] theorem get?_empty (k : κ) : (empty : Dict κ α).get? k = none := rfl

@[simp] theorem get?_set_self (d : Dict κ α) (k : κ) (a : α) : (d.set k a).get? k = some a :=
  getList_setList_self k a d.items

theorem get?_set_ne (d : Dict κ α) {k k' : κ} (a : α) (h : k' ≠ k) : (d.set k a).get? k' = d.get? k' :=
  getList_setList_ne a h d.items

theorem get?_set (d : Dict κ α) (k k' : κ) (a : α) :
    (d.set k a).get? k' = if k' = k then some a else d.get? k' := by
  split
  · rename_i h; subst h; exact get?_set_self d k' a
  · rename_i h; exact get?_set_ne d a h

/-- Entries set one after another: the last one under the key counts. -/
theorem get?_foldl_set {β : Type} (key : β → κ) (val : β → α) (d : Dict κ α) (k : κ) (l : List β) :
    (l.foldl (fun d b => d.set (key b) (val b)) d).get? k =
      ((l.filter (fun b => key b = k)).getLast?).elim (d.get? k) (fun b => some (val b)) := by
  induction l using List.reverseRecOn with
  | nil => rfl
  | append_singleton l b ih =>
    rw [List.foldl_append, List.filter_append, List.foldl_cons, List.foldl_nil, get?_set]
    by_cases hk : key b = k
    · rw [if_pos hk.symm, List.filter_singleton, decide_eq_true hk, cond_true, List.getLast?_concat]
      rfl
    · rw [if_neg (Ne.symm hk), List.filter_singleton, decide_eq_false hk, cond_false, List.append_nil]
      exact ih

@[simp] theorem get?_erase_self (d : Dict κ α) (k : κ) : (d.erase k).get? k = none := by
  unfold get? erase
  rw [getList_eq_none_iff, List.mem_map]
  rintro ⟨e, he, rfl⟩
  simpa using (List.mem_filter.1 he).2

theorem get?_erase_ne (d : Dict κ α) {k k' : κ} (h : k' ≠ k) : (d.erase k).get? k' = d.get? k' :=
  getList_filter_ne h d.items

theorem get?_erase (d : Dict κ α) (k k' : κ) :
    (d.erase k).get? k' = if k' = k then none else d.get? k' := by
  split
  · rename_i h; subst h; exact get?_erase_self d k'
  · rename_i h; exact get?_erase_ne d h

theorem get?_dropKeys (d : Dict κ α) (p : κ → Bool) (k : κ) :
    (d.dropKeys p).get? k = if p k then none else d.get? k :=
  getList_filter_not p k d.items

theorem get?_modify (d : Dict κ α) (k k' : κ) (f : α → α) :
    (d.modify k f).get? k' = if k' = k then (d.get? k).map f else d.get? k' := by
  cases h : d.get? k with
  | none =>
    have hm : d.modify k f = d := by unfold modify; rw [h]
    rw [hm, Option.map_none]
    split
    · rename_i hk; subst hk; exact h
    · rfl
  | some a =>
    have hm : d.modify k f = d.set k (f a) := by unfold modify; rw [h]
    rw [hm, get?_set, Option.map_some]

theorem getList_map {β : Type} (f : κ → α → β) (k : κ) : ∀ l : List (κ × α),
    getList k (l.map (fun e => (e.1, f e.1 e.2))) = (getList k l).map (f k)
  | [] => rfl
  | (k', a') :: l => by
    rw [List.map_cons, getList, getList]
    split
    · rename_i h; subst h; rfl
    · exact getList_map f k l

@[simp] theorem get?_mapValues {β : Type} (d : Dict κ α) (f : κ → α → β) (k : κ) :
    (d.mapValues f).get? k = (d.get? k).map (f k) := getList_map f k d.items

theorem setList_map {β : Type} (f : κ → α → β) (k : κ) (a : α) : ∀ l : List (κ × α),
    (setList k a l).map (fun e => (e.1, f e.1 e.2)) = setList k (f k a) (l.map (fun e => (e.1, f e.1 e.2)))
  | [] => rfl
  | (k', a') :: l => by
    rw [setList, List.map_cons, setList]
    split
    · rfl
    · rw [List.map_cons, setList_map f k a l]

theorem mapValues_set {β : Type} (d : Dict κ α) (f : κ → α → β) (k : κ) (a : α) :
    (d.set k a).mapValues f = (d.mapValues f).set k (f k a) :=
  eq_of_items (setList_map f k a d.items)

theorem mapValues_erase {β : Type} (d : Dict κ α) (f : κ → α → β) (k : κ) :
    (d.erase k).mapValues f = (d.mapValues f).erase k :=
  eq_of_items (List.filter_map (f := fun e : κ × α => (e.1, f e.1 e.2)) (l := d.items)
    (p := fun e => decide (e.1 ≠ k))).symm

/-- What a change of a value leaves alone is the same in the values. -/
theorem map_values_modify {β : Type} (d : Dict κ α) (k : κ) {f : α → α} {g : α → β} (h : ∀ a, g (f a) = g a) :
    (d.modify k f).values.map g = d.values.map g := by
  have hlist : ∀ (l : List (κ × α)) (a : α), getList k l = some a →
      ((setList k (f a) l).map Prod.snd).map g = (l.map Prod.snd).map g := by
    intro l a hl
    induction l with
    | nil => cases hl
    | cons e l ih =>
      unfold getList at hl
      unfold setList
      split
      · rename_i hk
        rw [if_pos hk] at hl
        cases hl
        simp [h]
      · rename_i hk
        rw [if_neg hk] at hl
        simp only [List.map_cons, ih hl]
  unfold modify
  split
  · rename_i a ha
    exact hlist d.items a ha
  · rfl

/-- A new key goes to the end. -/
theorem items_set_of_none (k : κ) (a : α) {d : Dict κ α} (h : d.get? k = none) :
    (d.set k a).items = d.items ++ [(k, a)] := by
  obtain ⟨items, nodup⟩ := d
  have hlist : ∀ l : List (κ × α), getList k l = none → setList k a l = l ++ [(k, a)] := by
    intro l hl
    induction l with
    | nil => rfl
    | cons e l ih =>
      unfold getList at hl
      unfold setList
      split at hl
      · cases hl
      · rename_i hne
        rw [if_neg hne, ih hl, List.cons_append]
  exact hlist items h

theorem length_setList_le (k : κ) (a : α) : ∀ l : List (κ × α), (setList k a l).length ≤ l.length + 1
  | [] => le_rfl
  | (k', a') :: l => by
    unfold setList
    split
    · exact Nat.le_succ _
    · exact Nat.succ_le_succ (length_setList_le k a l)

theorem length_set_le (d : Dict κ α) (k : κ) (a : α) : (d.set k a).items.length ≤ d.items.length + 1 :=
  length_setList_le k a d.items

theorem length_erase_le (d : Dict κ α) (k : κ) : (d.erase k).items.length ≤ d.items.length :=
  List.length_filter_le _ _

theorem contains_iff (d : Dict κ α) (k : κ) : d.contains k = true ↔ ∃ a, d.get? k = some a := by
  unfold contains; exact Option.isSome_iff_exists

theorem contains_eq_false_iff (d : Dict κ α) (k : κ) : d.contains k = false ↔ d.get? k = none := by
  unfold contains; exact Option.isSome_eq_false_iff.trans Option.isNone_iff_eq_none

theorem mem_items_iff (d : Dict κ α) (k : κ) (a : α) : (k, a) ∈ d.items ↔ d.get? k = some a :=
  mem_iff_getList d.nodup

theorem length_erase_lt {d : Dict κ α} {k : κ} {a : α} (h : d.get? k = some a) :
    (d.erase k).items.length < d.items.length := by
  refine List.length_filter_lt_length_iff_exists.2 ⟨(k, a), (mem_items_iff d k a).2 h, ?_⟩
  simp

theorem mem_values_iff (d : Dict κ α) (a : α) : a ∈ d.values ↔ ∃ k, d.get? k = some a := by
  unfold values
  rw [List.mem_map]
  constructor
  · rintro ⟨⟨k, a'⟩, h, rfl⟩; exact ⟨k, (d.mem_items_iff k a').1 h⟩
  · rintro ⟨k, h⟩; exact ⟨(k, a), (d.mem_items_iff k a).2 h, rfl⟩

theorem items_eq_nil_iff (d : Dict κ α) : d.items = [] ↔ ∀ k, d.get? k = none := by
  constructor
  · intro h k; unfold get?; rw [h]; rfl
  · intro h
    rw [List.eq_nil_iff_forall_not_mem]
    rintro ⟨k, a⟩ hm
    rw [mem_items_iff, h k] at hm
    cases hm

/-! ## Sums over the entries -/

variable {M : Type} [AddCommGroup M]

/-- The sum of a measure over the entries. -/
def sum (d : Dict κ α) (f : κ → α → M) : M := (d.items.map (fun e => f e.1 e.2)).sum

omit [DecidableEq κ] in
@[simp] theorem sum_empty (f : κ → α → M) : (empty : Dict κ α).sum f = 0 := rfl

theorem sum_setList_new (f : κ → α → M) (k : κ) (a : α) : ∀ l : List (κ × α), getList k l = none →
    ((setList k a l).map (fun e => f e.1 e.2)).sum = (l.map (fun e => f e.1 e.2)).sum + f k a
  | [], _ => by simp [setList]
  | (k', a') :: l, h => by
    unfold getList at h
    split at h
    · cases h
    · rename_i hk
      rw [setList, if_neg hk, List.map_cons, List.sum_cons, sum_setList_new f k a l h, List.map_cons,
        List.sum_cons, add_assoc]

theorem sum_filter_ne (f : κ → α → M) (k : κ) : ∀ {l : List (κ × α)} {a : α},
    (l.map Prod.fst).Nodup → getList k l = some a →
    ((l.filter (fun e => e.1 ≠ k)).map (fun e => f e.1 e.2)).sum + f k a = (l.map (fun e => f e.1 e.2)).sum
  | [], _, _, h => by cases h
  | (k', a') :: l, a, hn, h => by
    rw [List.map_cons, List.nodup_cons] at hn
    unfold getList at h
    split at h
    · rename_i hk
      subst hk
      cases h
      have hl : l.filter (fun e => e.1 ≠ k') = l := by
        rw [List.filter_eq_self]
        intro e he
        have : e.1 ≠ k' := fun hk => hn.1 (List.mem_map.2 ⟨e, he, hk⟩)
        simpa using this
      rw [List.filter_cons, if_neg (by simp), hl, List.map_cons, List.sum_cons, add_comm]
    · rename_i hk
      rw [List.filter_cons, if_pos (by simpa using hk), List.map_cons, List.sum_cons, List.map_cons,
        List.sum_cons, add_assoc, sum_filter_ne f k hn.2 h]

theorem sum_setList_of_getList (f : κ → α → M) (k : κ) (a : α) : ∀ {l : List (κ × α)} {b : α},
    getList k l = some b →
    ((setList k a l).map (fun e => f e.1 e.2)).sum + f k b = (l.map (fun e => f e.1 e.2)).sum + f k a
  | [], _, h => by cases h
  | (k', a') :: l, b, h => by
    unfold getList at h
    split at h
    · rename_i hk
      subst hk
      cases h
      rw [setList, if_pos rfl, List.map_cons, List.sum_cons, List.map_cons, List.sum_cons]
      abel
    · rename_i hk
      rw [setList, if_neg hk, List.map_cons, List.sum_cons, List.map_cons, List.sum_cons, add_assoc,
        sum_setList_of_getList f k a h, add_assoc]

/-- A new entry adds its measure. -/
theorem sum_set_new (d : Dict κ α) (f : κ → α → M) {k : κ} (a : α) (h : d.get? k = none) :
    (d.set k a).sum f = d.sum f + f k a := sum_setList_new f k a d.items h

/-- Rewriting an entry replaces its measure. -/
theorem sum_set_of_get? (d : Dict κ α) (f : κ → α → M) {k : κ} {b : α} (a : α) (h : d.get? k = some b) :
    (d.set k a).sum f + f k b = d.sum f + f k a := sum_setList_of_getList f k a h

omit [DecidableEq κ] in
/-- The sum of a measure over the values that satisfy a condition. -/
theorem sum_filter_values (d : Dict κ α) (p : α → Prop) [DecidablePred p] (f : α → M) :
    ((d.values.filter p).map f).sum = d.sum (fun _ a => if p a then f a else 0) := by
  unfold values sum
  induction d.items with
  | nil => rfl
  | cons e l ih =>
    rw [List.map_cons, List.filter_cons, List.map_cons, List.sum_cons, ← ih]
    by_cases h : p e.2
    · simp [h]
    · simp [h]

/-- Writing an entry replaces the measure of what was there. -/
theorem sum_set (d : Dict κ α) (f : κ → α → M) (k : κ) (a : α) :
    (d.set k a).sum f + (d.get? k).elim 0 (f k) = d.sum f + f k a := by
  cases h : d.get? k with
  | none => rw [Option.elim_none, add_zero, sum_set_new d f a h]
  | some b => exact sum_set_of_get? d f a h

omit [DecidableEq κ] in
theorem sum_mapValues {β : Type} (d : Dict κ α) (g : κ → α → β) (f : κ → β → M) :
    (d.mapValues g).sum f = d.sum (fun k a => f k (g k a)) := by
  unfold sum mapValues; rw [List.map_map]; rfl

/-- The sum over the entries as a sum over keys, for any keys that include those of the dictionary. -/
theorem sum_eq_sum_keys (d : Dict κ α) (f : κ → α → M) {s : Finset κ} (hs : ∀ k ∈ d.keys, k ∈ s) :
    d.sum f = ∑ k ∈ s, (d.get? k).elim 0 (f k) := by
  have hmap : d.sum f = (d.keys.map (fun k => (d.get? k).elim 0 (f k))).sum := by
    unfold sum keys
    rw [List.map_map]
    refine congrArg List.sum (List.map_congr_left fun e he => ?_)
    rw [Function.comp_apply, (d.mem_items_iff e.1 e.2).1 he]; rfl
  rw [hmap, ← List.sum_toFinset _ (show d.keys.Nodup from d.nodup)]
  refine Finset.sum_subset (fun k hk => hs k (List.mem_toFinset.1 hk)) fun k _ hk => ?_
  have hnone : d.get? k = none := (getList_eq_none_iff k d.items).2 fun h => hk (List.mem_toFinset.2 h)
  rw [hnone]; rfl

/-- Sums over two dictionaries whose measures agree under every key; the order of entries is irrelevant. -/
theorem sum_congr {β : Type} (d : Dict κ α) (e : Dict κ β) (f : κ → α → M) (g : κ → β → M)
    (h : ∀ k, (d.get? k).elim 0 (f k) = (e.get? k).elim 0 (g k)) : d.sum f = e.sum g := by
  rw [d.sum_eq_sum_keys f (s := d.keys.toFinset ∪ e.keys.toFinset)
      (fun k hk => Finset.mem_union_left _ (List.mem_toFinset.2 hk)),
    e.sum_eq_sum_keys g (fun k hk => Finset.mem_union_right _ (List.mem_toFinset.2 hk))]
  exact Finset.sum_congr rfl fun k _ => h k

omit [DecidableEq κ] in
theorem sum_values (d : Dict κ α) (f : α → M) : (d.values.map f).sum = d.sum (fun _ a => f a) := by
  unfold values sum; rw [List.map_map]; rfl

omit [DecidableEq κ] in
theorem sum_add (d : Dict κ α) (f g : κ → α → M) : d.sum f + d.sum g = d.sum (fun k a => f k a + g k a) :=
  (List.sum_map_add ..).symm

/-- Erasing an entry takes its measure away. -/
theorem sum_erase (d : Dict κ α) (f : κ → α → M) {k : κ} {a : α} (h : d.get? k = some a) :
    (d.erase k).sum f + f k a = d.sum f := sum_filter_ne f k d.nodup h

/-! ## Tallies -/

/-- Add to the value at `k`; a value that is not there counts as zero. -/
def tally (d : Dict κ M) (k : κ) (x : M) : Dict κ M := d.set k ((d.get? k).getD 0 + x)

/-- What a tally over a list holds: the keys that occur, each with the sum over the items of that key. -/
theorem get?_foldl_tally {β : Type} (key : β → κ) (f : β → M) (k : κ) : ∀ (l : List β) (d : Dict κ M),
    (l.foldl (fun d b => d.tally (key b) (f b)) d).get? k =
      if ∃ b ∈ l, key b = k then some ((d.get? k).getD 0 + ((l.filter (fun b => key b = k)).map f).sum)
      else d.get? k
  | [], d => by simp
  | b :: l, d => by
    rw [List.foldl_cons, get?_foldl_tally key f k l, tally, get?_set]
    by_cases hb : key b = k
    · subst hb
      have hfirst : ∃ b' ∈ b :: l, key b' = key b := ⟨b, List.mem_cons_self, rfl⟩
      rw [if_pos rfl, if_pos hfirst, Option.getD_some, List.filter_cons_of_pos (by simp), List.map_cons,
        List.sum_cons, ← add_assoc]
      split
      · rfl
      · rename_i hnone
        have hnil : l.filter (fun b' => key b' = key b) = [] := by
          rw [List.filter_eq_nil_iff]
          intro b' hb' h
          exact hnone ⟨b', hb', of_decide_eq_true h⟩
        rw [hnil, List.map_nil, List.sum_nil, add_zero]
    · have hiff : (∃ b' ∈ b :: l, key b' = k) ↔ ∃ b' ∈ l, key b' = k := by simp [hb]
      rw [if_neg (Ne.symm hb), List.filter_cons_of_neg (by simpa using hb), if_congr hiff rfl rfl]

end Dict
