/-
Series grouped by a key, and their growth. The growth of a series from its first to its last value is the product
of the factors between consecutive values; grouped by a key that never decreases, the groups grow by the factors
between values of one key.
-/
import TradingAgent.Lib.Dict
import Mathlib.Algebra.Field.Basic
import Mathlib.Algebra.BigOperators.Group.List.Basic
import Mathlib.Order.Defs.LinearOrder
import Mathlib.Tactic.FieldSimp
import Mathlib.Tactic.Ring

namespace Dict

variable {κ α : Type} [DecidableEq κ]

/-- A present key keeps its place. -/
theorem exists_items_set (k : κ) (a : α) {d : Dict κ α} {b : α} (h : d.get? k = some b) :
    ∃ l₁ l₂, d.items = l₁ ++ (k, b) :: l₂ ∧ (d.set k a).items = l₁ ++ (k, a) :: l₂ := by
  obtain ⟨items, nodup⟩ := d
  have hlist : ∀ l : List (κ × α), getList k l = some b →
      ∃ l₁ l₂, l = l₁ ++ (k, b) :: l₂ ∧ setList k a l = l₁ ++ (k, a) :: l₂ := by
    intro l hl
    induction l with
    | nil => cases hl
    | cons e l ih =>
      unfold getList at hl
      unfold setList
      split at hl
      · rename_i heq
        cases hl
        exact ⟨[], l, by rw [← heq]; rfl, by rw [if_pos heq]; rfl⟩
      · rename_i hne
        obtain ⟨l₁, l₂, hl₁, hset⟩ := ih hl
        exact ⟨e :: l₁, l₂, by rw [hl₁]; rfl, by rw [if_neg hne, hset]; rfl⟩
  exact hlist items h

end Dict

namespace Groups

/-! ## Growth -/

section Growth

variable {α K : Type} [Field K] (value : α → K)

/-- The pairs of consecutive elements. -/
def moves (l : List α) : List (α × α) := l.zip l.tail

/-- The factor of a move. -/
def factor (move : α × α) : K := value move.2 / value move.1

/-- The factor from the first to the last element. -/
def growth (l : List α) : K :=
  match l.head?, l.getLast? with
  | some first, some last => value last / value first
  | _, _ => 1

theorem growth_eq {l : List α} {first last : α} (hfirst : l.head? = some first) (hlast : l.getLast? = some last) :
    growth value l = value last / value first := by
  unfold growth
  rw [hfirst, hlast]

theorem moves_concat (l : List α) (a b : α) : moves (l ++ [a] ++ [b]) = moves (l ++ [a]) ++ [(a, b)] := by
  unfold moves
  induction l with
  | nil => rfl
  | cons c l ih =>
    cases l with
    | nil => rfl
    | cons d l => exact congrArg ((c, d) :: ·) ih

theorem moves_map {β : Type} (f : α → β) (l : List α) :
    moves (l.map f) = (moves l).map (fun move => (f move.1, f move.2)) := by
  unfold moves
  rw [← List.map_tail, List.zip_map]
  rfl

/-- What every move keeps, once true, stays true. -/
theorem forall_moves_iff {p : α → Prop} {l : List α} :
    (∀ move ∈ moves l, p move.1 → p move.2) ↔ l.Pairwise (fun a b => p a → p b) := by
  have htrans : Trans (fun a b => p a → p b) (fun a b => p a → p b) (fun a b : α => p a → p b) :=
    ⟨fun hab hbc ha => hbc (hab ha)⟩
  rw [← List.isChain_iff_pairwise]
  induction l with
  | nil => exact iff_of_true (fun _ h => absurd h List.not_mem_nil) .nil
  | cons a l ih =>
    cases l with
    | nil => exact iff_of_true (fun _ h => absurd h List.not_mem_nil) (.singleton a)
    | cons b l =>
      have hmoves : moves (a :: b :: l) = (a, b) :: moves (b :: l) := rfl
      rw [hmoves, List.forall_mem_cons, List.isChain_cons_cons]
      exact and_congr_right fun _ => ih

theorem growth_singleton {a : α} (ha : value a ≠ 0) : growth value [a] = 1 := div_self ha

/-- One element more multiplies the growth by the move to it. -/
theorem growth_concat (l : List α) {a : α} (ha : value a ≠ 0) (b : α) :
    growth value (l ++ [a] ++ [b]) = growth value (l ++ [a]) * factor value (a, b) := by
  obtain ⟨first, hfirst⟩ : ∃ first, (l ++ [a]).head? = some first := by
    cases l with
    | nil => exact ⟨a, rfl⟩
    | cons c l => exact ⟨c, rfl⟩
  have hfirst' : (l ++ [a] ++ [b]).head? = some first := by
    rw [List.head?_append, hfirst]
    rfl
  rw [growth_eq value hfirst' List.getLast?_concat, growth_eq value hfirst List.getLast?_concat]
  unfold factor
  rw [div_mul_div_comm, mul_comm (value a), mul_div_mul_right _ _ ha]

/-- A series grows by the product of its moves. -/
theorem growth_eq_prod {l : List α} (hl : ∀ a ∈ l, value a ≠ 0) :
    growth value l = ((moves l).map (factor value)).prod := by
  induction l using List.reverseRecOn with
  | nil => rfl
  | append_singleton l b ih =>
    rcases List.eq_nil_or_concat l with rfl | ⟨l, a, rfl⟩
    · exact growth_singleton value (hl b (by simp))
    · have hprev := ih fun c hc => hl c (List.mem_append_left _ hc)
      rw [List.concat_eq_append] at hprev ⊢
      rw [growth_concat value l (hl a (by simp)), moves_concat, List.map_append, List.prod_append, hprev]
      simp

/-- A series in two parts grows by the growth of the parts and the move between them. -/
theorem growth_append {l₁ l₂ : List α} {last first : α} (hlast : l₁.getLast? = some last)
    (hfirst : l₂.head? = some first) (h₁ : value last ≠ 0) (h₂ : value first ≠ 0) :
    growth value (l₁ ++ l₂) = growth value l₁ * factor value (last, first) * growth value l₂ := by
  obtain ⟨a, ha⟩ : ∃ a, l₁.head? = some a := by
    cases l₁ with
    | nil => cases hlast
    | cons c l => exact ⟨c, rfl⟩
  obtain ⟨b, hb⟩ : ∃ b, l₂.getLast? = some b := by
    cases l₂ with
    | nil => cases hfirst
    | cons c l => exact ⟨_, List.getLast?_eq_some_getLast (List.cons_ne_nil c l)⟩
  have ha' : (l₁ ++ l₂).head? = some a := by
    rw [List.head?_append, ha]
    rfl
  have hb' : (l₁ ++ l₂).getLast? = some b := by
    rw [List.getLast?_append, hb]
    rfl
  rw [growth_eq value ha' hb', growth_eq value ha hlast, growth_eq value hfirst hb]
  unfold factor
  field_simp

end Growth

/-! ## Grouping by a key -/

variable {α κ : Type} [DecidableEq κ] (key : α → κ)

/-- One element more in the group of its key. -/
def add (groups : Dict κ (List α)) (a : α) : Dict κ (List α) :=
  groups.set (key a) ((groups.get? (key a)).getD [] ++ [a])

/-- The elements of each key, in their order. -/
def group (l : List α) : Dict κ (List α) := l.foldl (add key) Dict.empty

theorem group_concat (l : List α) (a : α) : group key (l ++ [a]) = add key (group key l) a := by
  unfold group
  rw [List.foldl_append]
  rfl

/-- The group of a key has the elements with that key. -/
theorem get?_group (l : List α) (k : κ) :
    (group key l).get? k = if k ∈ l.map key then some (l.filter (fun a => key a = k)) else none := by
  induction l using List.reverseRecOn with
  | nil => rfl
  | append_singleton l a ih =>
    rw [group_concat]
    unfold add
    rw [Dict.get?_set]
    by_cases hk : k = key a
    · subst hk
      rw [if_pos rfl, if_pos (by simp), ih, List.filter_append]
      by_cases hmem : key a ∈ l.map key
      · rw [if_pos hmem]
        simp
      · rw [if_neg hmem]
        have hnil : l.filter (fun b => key b = key a) = [] := by
          rw [List.filter_eq_nil_iff]
          exact fun b hb heq => hmem (List.mem_map.2 ⟨b, hb, of_decide_eq_true heq⟩)
        rw [hnil]
        simp
    · rw [if_neg hk, ih, List.filter_append]
      have hlast : [a].filter (fun b => key b = k) = [] := by simp [Ne.symm hk]
      rw [hlast, List.append_nil]
      simp [hk]

/-- The last element is the last of its group. -/
theorem get?_group_last (l : List α) (a : α) :
    (group key (l ++ [a])).get? (key a) = some (l.filter (fun b => key b = key a) ++ [a]) := by
  rw [get?_group, if_pos (by simp), List.filter_append]
  simp

/-! ## Growth of the groups -/

section Product

variable {K : Type} [Field K] (value : α → K) {groups : Dict κ (List α)}

/-- The product of the growth of the groups. -/
def product (groups : Dict κ (List α)) : K := (groups.items.map (fun e => growth value e.2)).prod

/-- An element that joins a group multiplies the product by the move from the last of the group. -/
theorem product_add_of_some {g : List α} {a b : α} (ha : value a ≠ 0)
    (h : groups.get? (key b) = some (g ++ [a])) :
    product value (add key groups b) = product value groups * factor value (a, b) := by
  obtain ⟨l₁, l₂, hitems, hset⟩ := Dict.exists_items_set (key b) (g ++ [a] ++ [b]) h
  unfold product add
  rw [h, Option.getD_some, hset, hitems, List.map_append, List.map_append, List.map_cons, List.map_cons,
    List.prod_append, List.prod_append, List.prod_cons, List.prod_cons, growth_concat value g ha]
  ring

/-- An element that opens a group leaves the product. -/
theorem product_add_of_none {b : α} (hb : value b ≠ 0) (h : groups.get? (key b) = none) :
    product value (add key groups b) = product value groups := by
  unfold product add
  rw [h, Option.getD_none, List.nil_append, Dict.items_set_of_none _ _ h, List.map_append, List.prod_append,
    List.map_singleton, List.prod_singleton, growth_singleton value hb, mul_one]

end Product

/-- In a series whose key never decreases, the groups grow by the moves that stay within a key. -/
theorem product_group {κ K : Type} [LinearOrder κ] [Field K] (key : α → κ) (value : α → K) {l : List α}
    (hsorted : l.Pairwise (fun a b => key a ≤ key b)) (hvalue : ∀ a ∈ l, value a ≠ 0) :
    product value (group key l) =
      (((moves l).filter (fun m => key m.1 = key m.2)).map (factor value)).prod := by
  induction l using List.reverseRecOn with
  | nil => rfl
  | append_singleton l b ih =>
    rw [List.pairwise_append] at hsorted
    have hprev := ih hsorted.1 fun a ha => hvalue a (List.mem_append_left _ ha)
    have hb := hvalue b (by simp)
    rcases List.eq_nil_or_concat l with rfl | ⟨l, a, rfl⟩
    · exact product_add_of_none key value hb rfl
    rw [List.concat_eq_append] at hsorted hvalue hprev ⊢
    rw [group_concat, moves_concat, List.filter_append, List.map_append, List.prod_append, ← hprev]
    have hlast := get?_group_last key l a
    by_cases hkey : key a = key b
    -- the element joins the group of the one before it
    · rw [hkey] at hlast
      rw [product_add_of_some key value (hvalue a (by simp)) hlast]
      simp [hkey]
    -- no element so far has its key
    · have hnot : key b ∉ (l ++ [a]).map key := by
        intro hmem
        obtain ⟨c, hc, hcb⟩ := List.mem_map.1 hmem
        have hca : key c ≤ key a := by
          rcases List.mem_append.1 hc with hc | hc
          · exact (List.pairwise_append.1 hsorted.1).2.2 c hc a (by simp)
          · rw [List.mem_singleton.1 hc]
        have hab : key a ≤ key b := hsorted.2.2 a (by simp) b (by simp)
        exact hkey (le_antisymm hab (hcb ▸ hca))
      rw [product_add_of_none key value hb (by rw [get?_group, if_neg hnot])]
      simp [hkey]

/-- A series grows by its groups and by the moves from one key to another. -/
theorem growth_eq_product_mul {κ K : Type} [LinearOrder κ] [Field K] (key : α → κ) (value : α → K) {l : List α}
    (hsorted : l.Pairwise (fun a b => key a ≤ key b)) (hvalue : ∀ a ∈ l, value a ≠ 0) :
    growth value l = product value (group key l) *
      (((moves l).filter (fun m => key m.1 ≠ key m.2)).map (factor value)).prod := by
  have hperm := (List.filter_append_perm (fun m : α × α => key m.1 = key m.2) (moves l)).map (factor value)
  rw [growth_eq_prod value hvalue, product_group key value hsorted hvalue, ← hperm.prod_eq, List.map_append,
    List.prod_append]
  simp

/-! ## Sums of the groups -/

/-- The sums of the groups add up to the sum of all elements. -/
theorem sum_group {M : Type} [AddCommGroup M] (f : α → M) (l : List α) :
    (group key l).sum (fun _ g => (g.map f).sum) = (l.map f).sum := by
  induction l using List.reverseRecOn with
  | nil => rfl
  | append_singleton l a ih =>
    have hset := Dict.sum_set (group key l) (fun _ g => (g.map f).sum) (key a)
      (((group key l).get? (key a)).getD [] ++ [a])
    have hgroup : (((group key l).get? (key a)).elim 0 fun g => (g.map f).sum) =
        ((((group key l).get? (key a)).getD []).map f).sum := by
      cases (group key l).get? (key a) <;> rfl
    rw [hgroup, List.map_append, List.sum_append, ih, ← add_assoc, add_right_comm] at hset
    rw [group_concat, List.map_append, List.sum_append]
    exact add_right_cancel hset

/-! ## Moves of an increasing list -/

section Increasing

variable {α β : Type} [LinearOrder β] {key : α → β}

/-- In an increasing list the moves are the pairs of elements with none between them. -/
theorem mem_moves_iff {a b : α} : ∀ {l : List α}, l.Pairwise (fun x y => key x < key y) →
    ((a, b) ∈ moves l ↔ a ∈ l ∧ b ∈ l ∧ key a < key b ∧ ∀ c ∈ l, key a < key c → key b ≤ key c)
  | [], _ => by simp [moves]
  | [c], _ => by
    refine iff_of_false List.not_mem_nil ?_
    rintro ⟨ha, hb, hlt, -⟩
    rw [List.mem_singleton.1 ha, List.mem_singleton.1 hb] at hlt
    exact lt_irrefl _ hlt
  | c :: d :: l, h => by
    have hmoves : moves (c :: d :: l) = (c, d) :: moves (d :: l) := rfl
    obtain ⟨hc, hrest⟩ := List.pairwise_cons.1 h
    rw [hmoves, List.mem_cons, mem_moves_iff hrest]
    constructor
    · rintro (heq | ⟨ha, hb, hlt, hnone⟩)
      · cases heq
        refine ⟨List.mem_cons_self, List.mem_cons_of_mem _ List.mem_cons_self, hc b List.mem_cons_self,
          fun e he hlt => ?_⟩
        rcases List.mem_cons.1 he with rfl | he
        · exact absurd hlt (lt_irrefl _)
        · rcases List.mem_cons.1 he with rfl | he
          · exact le_rfl
          · exact ((List.pairwise_cons.1 hrest).1 e he).le
      · refine ⟨List.mem_cons_of_mem _ ha, List.mem_cons_of_mem _ hb, hlt, fun e he hae => ?_⟩
        rcases List.mem_cons.1 he with rfl | he
        · exact absurd (hc a ha) (not_lt.2 hae.le)
        · exact hnone e he hae
    · rintro ⟨ha, hb, hlt, hnone⟩
      rcases List.mem_cons.1 ha with rfl | ha'
      · left
        rcases List.mem_cons.1 hb with rfl | hb
        · exact absurd hlt (lt_irrefl _)
        · rcases List.mem_cons.1 hb with rfl | hb
          · rfl
          · -- the second element would lie between the first and a later one
            have hdb := (List.pairwise_cons.1 hrest).1 b hb
            have hle := hnone d (List.mem_cons_of_mem _ List.mem_cons_self) (hc d List.mem_cons_self)
            exact absurd hdb (not_lt.2 hle)
      · right
        rcases List.mem_cons.1 hb with rfl | hb'
        · exact absurd (hc a ha') (not_lt.2 hlt.le)
        · exact ⟨ha', hb', hlt, fun e he => hnone e (List.mem_cons_of_mem _ he)⟩

/-- The moves of an increasing list end later and later. -/
theorem moves_increasing : ∀ {l : List α}, l.Pairwise (fun x y => key x < key y) →
    (moves l).Pairwise (fun m m' => key m.2 < key m'.2)
  | [], _ => .nil
  | [_], _ => .nil
  | c :: d :: l, h => by
    obtain ⟨-, hrest⟩ := List.pairwise_cons.1 h
    refine List.pairwise_cons.2 ⟨fun m hm => ?_, moves_increasing hrest⟩
    obtain ⟨ha, -, hlt, -⟩ := (mem_moves_iff hrest).1 hm
    rcases List.mem_cons.1 ha with heq | ha
    · rw [← heq]
      exact hlt
    · exact ((List.pairwise_cons.1 hrest).1 m.1 ha).trans hlt

end Increasing

end Groups
