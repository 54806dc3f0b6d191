/-
JSON values and JSON schemas. A schema is itself a JSON value; what stands in it is either a schema
again, at the positions that the keywords name, or data. `Valid` is the meaning of the vocabulary
type, enum, properties, required, additionalProperties, items, anyOf and `$ref`; any other member is
an annotation to it. Relations between the values of two dictionaries with the same keys carry over to
every lookup.
-/
import TradingAgent.Lib.Dict
import Mathlib.Data.Rat.Defs
import Mathlib.Logic.Relation

/-! ## Entries of two dictionaries in step -/

theorem List.Forall₂.exists_of_mem_left {α β : Type} {R : α → β → Prop} {xs : List α} {ys : List β}
    (h : List.Forall₂ R xs ys) {x : α} (hx : x ∈ xs) : ∃ y ∈ ys, R x y := by
  induction h with
  | nil => cases hx
  | cons hxy _ ih =>
    rcases List.mem_cons.1 hx with rfl | hx
    · exact ⟨_, List.mem_cons_self .., hxy⟩
    · obtain ⟨y, hy, hR⟩ := ih hx
      exact ⟨y, List.mem_cons_of_mem _ hy, hR⟩

theorem List.Forall₂.exists_of_mem_right {α β : Type} {R : α → β → Prop} {xs : List α} {ys : List β}
    (h : List.Forall₂ R xs ys) {y : β} (hy : y ∈ ys) : ∃ x ∈ xs, R x y :=
  List.Forall₂.exists_of_mem_left (R := fun y x => R x y) h.flip hy

theorem List.Forall₂.exists_of_getElem? {α β : Type} {R : α → β → Prop} {xs : List α} {ys : List β}
    (h : List.Forall₂ R xs ys) : ∀ {i : ℕ} {x : α}, xs[i]? = some x → ∃ y, ys[i]? = some y ∧ R x y := by
  induction h with
  | nil => intro i x hx; cases hx
  | cons hxy _ ih =>
    intro i x hx
    cases i with
    | zero => cases hx; exact ⟨_, rfl, hxy⟩
    | succ i => exact ih hx

/-- Two lists in step whose related elements are equal are equal. -/
theorem List.Forall₂.eq_of_rel {α : Type} {R : α → α → Prop} {xs ys : List α} (h : List.Forall₂ R xs ys)
    (heq : ∀ x ∈ xs, ∀ y, R x y → y = x) : ys = xs := by
  induction h with
  | nil => rfl
  | cons hxy _ ih =>
    rw [heq _ (List.mem_cons_self ..) _ hxy, ih fun x hx => heq x (List.mem_cons_of_mem _ hx)]

namespace Dict

variable {κ α β : Type}

/-- The same keys in the same order, with related values. -/
def Entrywise (R : α → β → Prop) : List (κ × α) → List (κ × β) → Prop :=
  List.Forall₂ (fun e e' => e.1 = e'.1 ∧ R e.2 e'.2)

variable {R : α → β → Prop} {l : List (κ × α)} {l' : List (κ × β)}

theorem Entrywise.keys_eq (h : Entrywise R l l') : l'.map Prod.fst = l.map Prod.fst := by
  unfold Entrywise at h
  induction h with
  | nil => rfl
  | cons he _ ih => rw [List.map_cons, List.map_cons, he.1, ih]

theorem Entrywise.mono {S : α → β → Prop} (h : Entrywise R l l') (hRS : ∀ a b, R a b → S a b) :
    Entrywise S l l' :=
  List.Forall₂.imp (fun _ _ he => ⟨he.1, hRS _ _ he.2⟩) h

theorem Entrywise.of_mem_right (h : Entrywise R l l') {k : κ} {b : β} (hb : (k, b) ∈ l') :
    ∃ a, (k, a) ∈ l ∧ R a b := by
  obtain ⟨⟨k', a⟩, ha, rfl, hR⟩ := List.Forall₂.exists_of_mem_right h hb
  exact ⟨a, ha, hR⟩

variable [DecidableEq κ]

/-- A key is looked up in both dictionaries with related results, or in neither. -/
theorem Entrywise.getList_rel (h : Entrywise R l l') (k : κ) : Option.Rel R (getList k l) (getList k l') := by
  unfold Entrywise at h
  induction h with
  | nil => exact .none
  | @cons e e' _ _ he _ ih =>
    obtain ⟨k₁, a⟩ := e
    obtain ⟨k₂, b⟩ := e'
    obtain ⟨rfl, hR⟩ := he
    unfold getList
    split
    · exact .some hR
    · exact ih

theorem Entrywise.getList_some (h : Entrywise R l l') {k : κ} {a : α} (ha : getList k l = some a) :
    ∃ b, getList k l' = some b ∧ R a b := by
  have hrel := h.getList_rel k
  rw [ha] at hrel
  cases hb : getList k l' with
  | none => rw [hb] at hrel; cases hrel
  | some b => rw [hb] at hrel; cases hrel; exact ⟨b, rfl, ‹_›⟩

theorem Entrywise.of_getList_some (h : Entrywise R l l') {k : κ} {b : β} (hb : getList k l' = some b) :
    ∃ a, getList k l = some a ∧ R a b := by
  have hrel := h.getList_rel k
  rw [hb] at hrel
  cases ha : getList k l with
  | none => rw [ha] at hrel; cases hrel
  | some a => rw [ha] at hrel; cases hrel; exact ⟨a, rfl, ‹_›⟩

theorem Entrywise.getList_eq_none_iff (h : Entrywise R l l') (k : κ) :
    getList k l' = none ↔ getList k l = none := by
  rw [Dict.getList_eq_none_iff, Dict.getList_eq_none_iff, h.keys_eq]

theorem Entrywise.setList (h : Entrywise R l l') (k : κ) {a : α} {b : β} (hab : R a b) :
    Entrywise R (Dict.setList k a l) (Dict.setList k b l') := by
  unfold Entrywise at h
  induction h with
  | nil => exact .cons ⟨rfl, hab⟩ .nil
  | @cons e e' _ _ he hrest ih =>
    obtain ⟨k₁, x⟩ := e
    obtain ⟨k₂, y⟩ := e'
    obtain ⟨rfl, hR⟩ := he
    unfold Dict.setList
    split
    · exact .cons ⟨rfl, hab⟩ hrest
    · exact .cons ⟨rfl, hR⟩ ih

theorem mem_of_getList {k : κ} {a : α} : ∀ {l : List (κ × α)}, getList k l = some a → (k, a) ∈ l
  | [], h => by cases h
  | (k', a') :: l, h => by
    unfold getList at h
    split at h
    · rename_i hk
      cases h; subst hk; exact List.mem_cons_self ..
    · exact List.mem_cons_of_mem _ (mem_of_getList h)

end Dict

/-! ## Values -/

inductive Json
  | null
  | bool (b : Bool)
  | num (x : ℚ)
  | str (s : String)
  | arr (items : List Json)
  | obj (members : List (String × Json))

namespace Json

open Dict

/-- The members of an object, in order. -/
abbrev Members := List (String × Json)

def IsObj (v : Json) : Prop := ∃ ms, v = obj ms

/-- Equality of values: the order of an object's members does not matter. -/
inductive Equal : Json → Json → Prop
  | null : Equal null null
  | bool (b : Bool) : Equal (bool b) (bool b)
  | num (x : ℚ) : Equal (num x) (num x)
  | str (s : String) : Equal (str s) (str s)
  | arr {xs ys : List Json} : List.Forall₂ Equal xs ys → Equal (arr xs) (arr ys)
  | obj {ms ms' : Members} : (∀ k, (getList k ms).isSome = (getList k ms').isSome) →
      (∀ k x y, getList k ms = some x → getList k ms' = some y → Equal x y) → Equal (obj ms) (obj ms')

/-- The type names that a value answers to. -/
def typeNames : Json → List String
  | null => ["null"]
  | bool _ => ["boolean"]
  | num x => if x.isInt then ["integer", "number"] else ["number"]
  | str _ => ["string"]
  | arr _ => ["array"]
  | obj _ => ["object"]

theorem eq_null_of_typeNames {v : Json} (h : "null" ∈ v.typeNames) : v = null := by
  cases v with
  | null => rfl
  | num x =>
    simp only [typeNames] at h
    split at h <;> simp at h
  | _ => simp [typeNames] at h

/-! ## Positions of a schema -/

/-- The keywords whose value is a list of schemas. -/
def listKeywords : List String := ["anyOf", "oneOf", "allOf", "prefixItems"]

/-- The keywords that a schema is made of; the members of other names are annotations. -/
def keywords : List String :=
  ["$ref", "$defs", "type", "enum", "properties", "required", "additionalProperties", "items"] ++ listKeywords

/-- A schema that stands directly in another one. -/
inductive Child : Json → Json → Prop
  | property {ms ps : Members} {name : String} {p : Json} : getList "properties" ms = some (obj ps) →
      (name, p) ∈ ps → Child (obj ms) p
  | items {ms : Members} {s : Json} : getList "items" ms = some s → Child (obj ms) s
  | additional {ms : Members} {s : Json} : getList "additionalProperties" ms = some s → Child (obj ms) s
  | listed {ms : Members} {k : String} {xs : List Json} {x : Json} : k ∈ listKeywords →
      getList k ms = some (arr xs) → x ∈ xs → Child (obj ms) x

/-- `P` holds at every schema position. -/
def Everywhere (P : Json → Prop) (s : Json) : Prop := ∀ p, Relation.ReflTransGen Child s p → P p

theorem everywhere_iff {P : Json → Prop} {s : Json} :
    Everywhere P s ↔ P s ∧ ∀ c, Child s c → Everywhere P c := by
  constructor
  · intro h
    exact ⟨h s .refl, fun c hc p hp => h p (.head hc hp)⟩
  · rintro ⟨hs, hc⟩ p hp
    rcases Relation.ReflTransGen.cases_head hp with rfl | ⟨c, hsc, hcp⟩
    · exact hs
    · exact hc c hsc p hcp

/-- A property of object schemas holds everywhere in what is no object. -/
theorem everywhere_of_not_isObj {P : Json → Prop} {s : Json} (hP : P s) (hs : ¬ IsObj s) : Everywhere P s := by
  rw [everywhere_iff]
  refine ⟨hP, fun c hc => ?_⟩
  cases hc <;> exact absurd ⟨_, rfl⟩ hs

/-- The names under `properties`. -/
def propertyNames (ms : Members) : List String :=
  match getList "properties" ms with
  | some (obj ps) => ps.map Prod.fst
  | _ => []

theorem propertyNames_of {ms ps : Members} (h : getList "properties" ms = some (obj ps)) :
    propertyNames ms = ps.map Prod.fst := by
  unfold propertyNames; rw [h]

/-- The schema is an object without the keyword `k`, or no object. -/
def Lacks (k : String) (s : Json) : Prop := ∀ ms, s = obj ms → getList k ms = none

/-! ## Validity -/

/-- The value is valid for the schema; `#/$defs/name` refers to the definition of that name. The choice
is the variant of `anyOf` that the value is valid for. -/
inductive Valid (defs : Members) : Json → Json → Prop
  | intro {ms : Members} {v : Json} (choice : Json) :
      (∀ name target, getList "$ref" ms = some (str ("#/$defs/" ++ name)) → getList name defs = some target →
        Valid defs target v) →
      (∀ t, getList "type" ms = some (str t) → t ∈ v.typeNames) →
      (∀ xs, getList "enum" ms = some (arr xs) → ∃ x ∈ xs, Equal x v) →
      (∀ ps vs name p x, getList "properties" ms = some (obj ps) → v = obj vs → getList name ps = some p →
        getList name vs = some x → Valid defs p x) →
      (∀ names vs name, getList "required" ms = some (arr names) → v = obj vs → str name ∈ names →
        (getList name vs).isSome) →
      (∀ vs name, getList "additionalProperties" ms = some (bool false) → v = obj vs →
        (getList name vs).isSome → name ∈ propertyNames ms) →
      (∀ s vs name x, getList "additionalProperties" ms = some (obj s) → v = obj vs → getList name vs = some x →
        name ∉ propertyNames ms → Valid defs (obj s) x) →
      (∀ s xs x, getList "items" ms = some s → v = arr xs → x ∈ xs → Valid defs s x) →
      (∀ xs, getList "anyOf" ms = some (arr xs) → choice ∈ xs) →
      (∀ xs, getList "anyOf" ms = some (arr xs) → Valid defs choice v) →
      Valid defs (obj ms) v

/-- A schema without the keywords of objects, arrays and enumerations means what the others say. -/
theorem Valid.of_few {defs ms : Members} {v : Json} (choice : Json)
    (hfew : ∀ k ∈ keywords, k ≠ "$ref" → k ≠ "type" → k ≠ "anyOf" → getList k ms = none)
    (href : ∀ name target, getList "$ref" ms = some (str ("#/$defs/" ++ name)) → getList name defs = some target →
      Valid defs target v)
    (htype : ∀ t, getList "type" ms = some (str t) → t ∈ v.typeNames)
    (hmem : ∀ xs, getList "anyOf" ms = some (arr xs) → choice ∈ xs)
    (hchoice : ∀ xs, getList "anyOf" ms = some (arr xs) → Valid defs choice v) : Valid defs (obj ms) v := by
  have habsent : ∀ k x, k ∈ keywords → k ≠ "$ref" → k ≠ "type" → k ≠ "anyOf" → getList k ms ≠ some x := by
    intro k x hk h₁ h₂ h₃ hx
    rw [hfew k hk h₁ h₂ h₃] at hx
    cases hx
  refine .intro choice href htype ?_ ?_ ?_ ?_ ?_ ?_ hmem hchoice
  · intro xs h; exact absurd h (habsent _ _ (by decide) (by decide) (by decide) (by decide))
  · intro ps vs name p x h; exact absurd h (habsent _ _ (by decide) (by decide) (by decide) (by decide))
  · intro names vs name h; exact absurd h (habsent _ _ (by decide) (by decide) (by decide) (by decide))
  · intro vs name h; exact absurd h (habsent _ _ (by decide) (by decide) (by decide) (by decide))
  · intro s vs name x h; exact absurd h (habsent _ _ (by decide) (by decide) (by decide) (by decide))
  · intro s xs x h; exact absurd h (habsent _ _ (by decide) (by decide) (by decide) (by decide))

end Json
