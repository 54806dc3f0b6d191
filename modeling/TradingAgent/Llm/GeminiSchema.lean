/-
The schema that is sent to Gemini: references inlined, `additionalProperties` and `title` removed, an
optional value unwrapped. The nodes are changed in place, definitions included, so that a definition is
met again in the state that its last visit left; a node whose reference is unknown is given itself, so that a
description that is set on it shows wherever it was given before. The result is that of the walk over unchanged
values, up to the descriptions of such nodes.
Titles are removed by name from dictionaries of properties too, which loses a property of that name.
-/
import TradingAgent.Llm.GeneratedSchema

namespace TradingAgent

open Json Dict Wp

namespace GeminiSchema

/-- `bool(value)` -/
def truthy : Json → Bool
  | .null => false
  | .bool b => b
  | .num x => x ≠ 0
  | .str s => s ≠ ""
  | .arr xs => !xs.isEmpty
  | .obj ms => !ms.isEmpty

def pop (k : String) (node : Members) : Members := node.filter (fun e => e.1 ≠ k)

/-- `resolved.setdefault("description", desc)` where the node has a description. -/
def preserveDescription (node : Members) (resolved : Json) : Json :=
  match getList "description" node, resolved with
  | some desc, .obj ms =>
    if truthy desc ∧ getList "description" ms = none then .obj (setList "description" desc ms) else resolved
  | _, _ => resolved

def isVariant : Json → Bool
  | .obj v => !isNull v
  | _ => false

/-- A member of an unwrapped node, with what has become of the variant in its place. -/
def withVariant (left : Json) (k : String) : Json → Json
  | .arr xs => .arr (if k = "anyOf" then xs.map (fun x => if isVariant x then left else x) else xs)
  | v => v

def replaceVariant (left : Json) (node : Members) : Members := node.map (fun e => (e.1, withVariant left e.1 e.2))

/-- What the value is unwrapped to, variant by variant. -/
def unwrapped : ℕ → Json → Json
  | depth + 1, .obj ms =>
    match onlyVariant ms with
    | .ok (some (v, _)) => unwrapped depth (.obj v)
    | _ => .obj ms
  | _, v => v

/-- The value after a change of what it is unwrapped to. -/
def changeUnwrapped (change : Json → Json) : ℕ → Json → Json
  | 0, v => change v
  | depth + 1, .obj ms =>
    match onlyVariant ms with
    | .ok (some (v, _)) => .obj (replaceVariant (changeUnwrapped change depth (.obj v)) ms)
    | _ => .obj ms
  | _ + 1, v => v

def changeDefinition (name : String) (change : Json → Json) (defs : Members) : Members :=
  match getList name defs with
  | some target => setList name (change target) defs
  | none => defs

/-- What a call gives: a new value, or a node itself, the one that the visited value or a definition is unwrapped
to by so many steps. A new value can hold nodes of definitions, which later calls change, so it is read when all
calls are done; of a node of the visited value that it holds, nothing changes any more. -/
inductive Resolved
  | fresh (read : Members → Json)
  | own (depth : ℕ)
  | definition (name : String) (depth : ℕ)

namespace Resolved

/-- Seen from a reference to the definition. -/
def through (name : String) : Resolved → Resolved
  | own depth => definition name depth
  | resolved => resolved

/-- The value, where `left` is left of the visited one. -/
def value (left : Json) : Resolved → Members → Json
  | fresh read, defs => read defs
  | own depth, _ => unwrapped depth left
  | definition name depth, defs => unwrapped depth ((getList name defs).getD .null)

end Resolved

/-- `_resolve(node)`: the result, and what is left of `node` itself. The state holds the definitions. -/
def resolve : ℕ → Json → EStateM Exn Members (Resolved × Json)
  | 0, _ => throw recursionError
  | n + 1, .obj ms =>
    match getList "$ref" ms with
    | some (.str refPath) => do
      match getList (refName refPath) (← get) with
      | some target => do
        let p ← resolve n target
        modify (setList (refName refPath) p.2)
        return (p.1.through (refName refPath), .obj ms)
      | none => return (.own 0, .obj ms)
    | some _ => throw attributeError -- a reference is split at its slashes, so it has to be a text
    | none => do
      let node := pop "title" (pop "additionalProperties" ms)
      match onlyVariant node with
      | .error e => throw e
      | .ok (some (v, _)) => do
        let p ← resolve n (.obj v)
        match p.1 with -- `setdefault` changes the very object that the variant has given
        | .fresh read =>
          return (.fresh (fun defs => preserveDescription node (read defs)), .obj (replaceVariant p.2 node))
        | .own depth =>
          let left := changeUnwrapped (preserveDescription node) depth p.2
          return (.own (depth + 1), .obj (replaceVariant left node))
        | .definition name depth => do
          modify (changeDefinition name (changeUnwrapped (preserveDescription node) depth))
          return (.definition name depth, .obj (replaceVariant p.2 node))
      | .ok none => do
        let ps ← node.mapM (fun e => do return (e.1, ← resolve n e.2))
        return (.fresh (fun defs => .obj (ps.map (fun e => (e.1, e.2.1.value e.2.2 defs)))),
          .obj (ps.map (fun e => (e.1, e.2.2))))
  | n + 1, .arr xs => do
    let ps ← xs.mapM (resolve n)
    return (.fresh (fun defs => .arr (ps.map (fun p => p.1.value p.2 defs))), .arr (ps.map Prod.snd))
  | _ + 1, v => return (.fresh (fun _ => v), v)

/-- `_strip_additional_properties(schema)` -/
def stripAdditionalProperties (limit : ℕ) (schema : Members) : Except Exn Json :=
  match resolve limit (withoutDefs schema) (definitions schema) with
  | .ok p defs => .ok (p.1.value p.2 defs)
  | .error e _ => .error e

/-! ## The walk over unchanged values -/

def stripWalker : Walker where
  dropped := ["additionalProperties", "title"]
  single := fun node _ resolved => preserveDescription node resolved
  close := .ok

theorem pop_pop (ms : Members) : pop "title" (pop "additionalProperties" ms) = stripWalker.kept ms := by
  unfold pop Walker.kept stripWalker
  rw [List.filter_filter]
  congr 1
  funext e
  simp [Bool.and_comm]

theorem stripWalker_lawful : stripWalker.Lawful where
  dropped k hk := by
    rcases List.mem_cons.1 hk with rfl | hk
    · exact Or.inl rfl
    · exact Or.inr (List.mem_singleton.1 hk)
  isObj_single := by
    rintro node nullPresent resolved ⟨ms, rfl⟩
    show IsObj (preserveDescription node (.obj ms))
    unfold preserveDescription
    split
    · rename_i heq
      cases heq
      split <;> exact ⟨_, rfl⟩
    · exact ⟨_, rfl⟩
  closes_congr _ := ⟨fun _ => ⟨_, rfl⟩, fun _ => ⟨_, rfl⟩⟩
  closes_of_properties _ := ⟨_, rfl⟩
  close_of_untyped _ := rfl
  getList_close h _ _ := by cases h; rfl
  additional_close h hs := by cases h; exact Or.inr hs

/-! ## Descriptions of references -/

/-- The dictionaries differ in the description only. -/
def SameButDescription (ms ms' : Members) : Prop := ∀ k, k ≠ "description" → getList k ms' = getList k ms

theorem SameButDescription.refl (ms : Members) : SameButDescription ms ms := fun _ _ => rfl

theorem SameButDescription.symm {ms ms' : Members} (h : SameButDescription ms ms') : SameButDescription ms' ms :=
  fun k hk => (h k hk).symm

theorem SameButDescription.trans {ms ms' ms'' : Members} (h : SameButDescription ms ms')
    (h' : SameButDescription ms' ms'') : SameButDescription ms ms'' := fun k hk => (h' k hk).trans (h k hk)

theorem preserveDescription_obj (node ms : Members) :
    ∃ ms', preserveDescription node (.obj ms) = .obj ms' ∧ SameButDescription ms ms' := by
  unfold preserveDescription
  split
  · rename_i desc _ _ heq
    cases heq
    split
    · exact ⟨_, rfl, fun k hk => getList_setList_ne desc hk ms⟩
    · exact ⟨ms, rfl, .refl ms⟩
  · exact ⟨ms, rfl, .refl ms⟩

theorem preserveDescription_arr (node : Members) (xs : List Json) : preserveDescription node (.arr xs) = .arr xs := by
  unfold preserveDescription
  split
  · rename_i heq
    cases heq
  · rfl

/-- The values are equal, references that differ in the description only, or made of related ones. -/
inductive DescribedStep (R : Json → Json → Prop) : Json → Json → Prop
  | same (a : Json) : DescribedStep R a a
  | ref {ms ms' : Members} {refPath : String} : getList "$ref" ms = some (.str refPath) →
      SameButDescription ms ms' → DescribedStep R (.obj ms) (.obj ms')
  | arr {xs ys : List Json} : List.Forall₂ R xs ys → DescribedStep R (.arr xs) (.arr ys)
  | members {ms ms' : Members} : Entrywise R ms ms' → DescribedStep R (.obj ms) (.obj ms')

/-- The values differ in the descriptions of references only, none of which is further down than this. -/
def Described : ℕ → Json → Json → Prop
  | 0 => Eq
  | n + 1 => DescribedStep (Described n)

theorem DescribedStep.mono {R S : Json → Json → Prop} {a b : Json} (h : DescribedStep R a b)
    (hRS : ∀ a b, R a b → S a b) : DescribedStep S a b := by
  cases h with
  | same => exact .same a
  | ref href hsame => exact .ref href hsame
  | arr h => exact .arr (h.imp hRS)
  | members h => exact .members (h.mono hRS)

theorem Described.refl : ∀ (n : ℕ) (a : Json), Described n a a
  | 0, _ => rfl
  | _ + 1, a => .same a

theorem Described.succ : ∀ {n : ℕ} {a b : Json}, Described n a b → Described (n + 1) a b
  | 0, a, _, h => by cases h; exact .same a
  | _ + 1, _, _, h => DescribedStep.mono h fun _ _ => Described.succ

theorem Described.symm : ∀ {n : ℕ} {a b : Json}, Described n a b → Described n b a
  | 0, _, _, h => Eq.symm h
  | _ + 1, _, _, .same a => .same a
  | _ + 1, _, _, .ref href hsame => .ref ((hsame "$ref" (by decide)).trans href) hsame.symm
  | _ + 1, _, _, .arr h => .arr (h.flip.imp fun _ _ => Described.symm)
  | _ + 1, _, _, .members h => .members (h.flip.imp fun _ _ he => ⟨he.1.symm, he.2.symm⟩)

/-- A description that is set on related values leaves them related. -/
theorem described_preserveDescription (node : Members) : ∀ {n : ℕ} {a b : Json}, Described n a b →
    Described n (preserveDescription node a) (preserveDescription node b)
  | 0, _, _, h => congrArg _ h
  | n + 1, _, _, h => by
    cases h with
    | same => exact .same _
    | @ref ms ms' _ href hsame =>
      obtain ⟨ms₁, heq, h₁⟩ := preserveDescription_obj node ms
      obtain ⟨ms₂, heq', h₂⟩ := preserveDescription_obj node ms'
      rw [heq, heq']
      exact .ref ((h₁ "$ref" (by decide)).trans href) (h₁.symm.trans (hsame.trans h₂))
    | arr h =>
      rw [preserveDescription_arr, preserveDescription_arr]
      exact .arr h
    | @members ms ms' h =>
      unfold preserveDescription
      cases getList "description" node with
      | none => exact .members h
      | some desc =>
        dsimp only
        have habsent := h.getList_eq_none_iff "description"
        by_cases hset : truthy desc ∧ getList "description" ms = none
        · rw [if_pos hset, if_pos ⟨hset.1, habsent.2 hset.2⟩]
          exact .members (h.setList "description" (Described.refl n desc))
        · rw [if_neg hset, if_neg fun h' => hset ⟨h'.1, habsent.1 h'.2⟩]
          exact .members h

end GeminiSchema

end TradingAgent
