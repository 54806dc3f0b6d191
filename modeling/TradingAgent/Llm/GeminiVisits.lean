/-
Visits of `_resolve` over the same definitions, one after the other. Each gives, whenever it is read, what the walk over
the unchanged definitions gives, up to the descriptions of unknown references; where every reference names a definition
there are none in the result, and it is exactly that of the walk.
-/
import TradingAgent.Llm.GeminiInPlace

namespace TradingAgent

open Json Dict

namespace GeminiSchema

/-- The definitions that visits leave, if all of them return. -/
def afterVisits : List (ℕ × Json) → Members → Option Members
  | [], defs => some defs
  | (limit, value) :: visits, defs =>
    match resolve limit value defs with
    | .ok _ left => afterVisits visits left
    | .error _ _ => none

/-- What a visit of the value gives is that of the walk over the unchanged definitions: read at once, once more from
what the visit has left of the value, or read after later visits. -/
structure Unseen (E : Except Exn Json → Except Exn Json → Prop) (defs left : Members) (limit : ℕ) (value : Json) :
    Prop where
  now : E (stripWalker.walk defs limit value) (visit limit value left)
  again : ∀ p left', resolve limit value left = .ok p left' →
    E (stripWalker.walk defs limit value) (visit limit p.2 left')
  later : ∀ p left' visits final, resolve limit value left = .ok p left' → afterVisits visits left' = some final →
    E (stripWalker.walk defs limit value) (.ok (p.1.value p.2 final))

/-- Every reference in the value names a definition, and the description of an optional value is a text. -/
inductive Grounded (defs : Members) : Json → Prop
  | null : Grounded defs .null
  | bool (b : Bool) : Grounded defs (.bool b)
  | num (x : ℚ) : Grounded defs (.num x)
  | str (s : String) : Grounded defs (.str s)
  | arr {xs : List Json} : (∀ x ∈ xs, Grounded defs x) → Grounded defs (.arr xs)
  | obj {ms : Members} :
      (∀ refPath, getList "$ref" ms = some (.str refPath) → (getList (refName refPath) defs).isSome) →
      (∀ v, getList "anyOf" ms ≠ none → getList "description" ms = some v → ∃ t, v = .str t) →
      (∀ e ∈ ms, Grounded defs e.2) → Grounded defs (.obj ms)

def GroundedDefs (defs : Members) : Prop := ∀ name target, getList name defs = some target → Grounded defs target

/-! ## Values without references -/

/-- No dictionary in the value is a reference. -/
inductive RefFree : Json → Prop
  | null : RefFree .null
  | bool (b : Bool) : RefFree (.bool b)
  | num (x : ℚ) : RefFree (.num x)
  | str (s : String) : RefFree (.str s)
  | arr {xs : List Json} : (∀ x ∈ xs, RefFree x) → RefFree (.arr xs)
  | obj {ms : Members} : (∀ refPath, getList "$ref" ms ≠ some (.str refPath)) → (∀ e ∈ ms, RefFree e.2) →
      RefFree (.obj ms)

/-- Without references there is nothing whose description could differ. -/
theorem RefFree.eq_of_described : ∀ {n : ℕ} {r r' : Json}, RefFree r → Described n r r' → r' = r
  | 0, _, _, _, h => Eq.symm h
  | n + 1, r, r', hfree, h => by
    cases h with
    | same => rfl
    | ref href =>
      cases hfree with
      | obj hnone => exact absurd href (hnone _)
    | arr h =>
      cases hfree with
      | arr hitems => rw [h.eq_of_rel fun x hx y hxy => (hitems x hx).eq_of_described hxy]
    | members h =>
      cases hfree with
      | obj _ hmembers =>
        have heq := h.eq_of_rel fun e he e' hstep => Prod.ext hstep.1.symm ((hmembers e he).eq_of_described hstep.2)
        rw [heq]

theorem mem_setList {k : String} {v : Json} {e : String × Json} : ∀ {ms : Members}, e ∈ setList k v ms →
    e = (k, v) ∨ e ∈ ms
  | [], h => Or.inl (List.mem_singleton.1 h)
  | (k', v') :: ms, h => by
    unfold setList at h
    split at h
    · rcases List.mem_cons.1 h with rfl | h
      · exact Or.inl rfl
      · exact Or.inr (List.mem_cons_of_mem _ h)
    · rcases List.mem_cons.1 h with rfl | h
      · exact Or.inr (List.mem_cons_self ..)
      · exact (mem_setList h).imp_right (List.mem_cons_of_mem _)

/-- A text that is preserved as the description brings no reference. -/
theorem RefFree.preserveDescription {node : Members} {r : Json} (h : RefFree r)
    (htext : ∀ v, getList "description" node = some v → ∃ t, v = .str t) :
    RefFree (GeminiSchema.preserveDescription node r) := by
  unfold GeminiSchema.preserveDescription
  split
  · rename_i desc ms hdesc
    split
    · obtain ⟨t, rfl⟩ := htext desc hdesc
      cases h with
      | obj hnone hmembers =>
        refine .obj (fun refPath href => hnone refPath ?_) fun e he => ?_
        · rwa [getList_setList_ne _ (by decide)] at href
        · rcases mem_setList he with rfl | he
          · exact .str t
          · exact hmembers e he
    · exact h
  · exact h

variable {defs : Members}

/-- Where every reference names a definition, the walk leaves none. -/
theorem refFree_walk (hdefs : GroundedDefs defs) : ∀ {n : ℕ} {a r : Json}, Grounded defs a →
    stripWalker.walk defs n a = .ok r → RefFree r
  | 0, _, _, _, h => by cases h
  | n + 1, a, r, ha, h => by
    cases ha with
    | null => cases h; exact .null
    | bool b => cases h; exact .bool b
    | num x => cases h; exact .num x
    | str s => cases h; exact .str s
    | arr hitems =>
      obtain ⟨ys, rfl, hys⟩ := Walker.walk_arr_eq_ok.1 h
      refine .arr fun y hy => ?_
      obtain ⟨x, hx, hwalk⟩ := hys.exists_of_mem_right hy
      exact refFree_walk hdefs (hitems x hx) hwalk
    | @obj ms hknown htext hmembers =>
      cases Walker.walk_obj_eq_ok.1 h with
      | ref _ htarget hwalk => exact refFree_walk hdefs (hdefs _ _ htarget) hwalk
      | unknown href hnone =>
        have hsome := hknown _ href
        rw [hnone] at hsome
        cases hsome
      | @single v nullPresent resolved _ hchoice hwalk =>
        obtain ⟨vs, hvs, hv⟩ := mem_of_onlyVariant stripWalker_lawful hchoice
        have hgrounded : Grounded defs (.obj v) := by
          cases hmembers _ (mem_of_getList hvs) with
          | arr hitems => exact hitems _ (List.mem_map_of_mem hv)
        refine (refFree_walk hdefs hgrounded hwalk).preserveDescription fun w hw => htext w ?_ ?_
        · rw [hvs]; exact Option.some_ne_none _
        · rwa [getList_kept_of_ne (by decide) (by decide)] at hw
      | members href _ hresult hclosed =>
        cases hclosed
        refine .obj (fun refPath href' => ?_) fun e he => ?_
        · obtain ⟨x, hx, -⟩ := hresult.of_getList_some href'
          cases href.symm.trans (Walker.getList_of_kept hx)
        · obtain ⟨x, hx, hwalk⟩ := hresult.of_mem_right he
          exact refFree_walk hdefs (hmembers _ (Walker.mem_of_mem_kept hx)) hwalk

theorem Alike.eq {n : ℕ} {x y : Except Exn Json} (h : Alike n x y) (hfree : ∀ r, x = .ok r → RefFree r) : x = y := by
  cases h with
  | ok hdescribed => rw [(hfree _ rfl).eq_of_described hdescribed]
  | error => rfl

/-! ## After other visits -/

theorem left_of_visit {s left : Members} {a b : Json} {limit : ℕ} {p : Resolved × Json} (hleft : Left a b)
    (hdefs : LeftDefs defs s) (h : resolve limit b s = .ok p left) : Answers defs limit a p ∧ LeftDefs defs left := by
  have hagrees := agrees limit a b s hleft hdefs
  unfold Agrees Wp.wp at hagrees
  rwa [h] at hagrees

theorem leftDefs_afterVisits : ∀ (visits : List (ℕ × Json)) {s left : Members}, LeftDefs defs s →
    afterVisits visits s = some left → LeftDefs defs left
  | [], _, _, hdefs, h => by
    cases h
    exact hdefs
  | (limit, value) :: visits, s, left, hdefs, h => by
    unfold afterVisits at h
    split at h
    · rename_i p s' hrun
      exact leftDefs_afterVisits visits (left_of_visit (.same value) hdefs hrun).2 h
    · cases h

theorem unseen_of_leftDefs {left : Members} (hdefs : LeftDefs defs left) (limit : ℕ) (value : Json) :
    Unseen (Alike limit) defs left limit value := by
  refine ⟨visit_left limit (.same value) hdefs, fun p left' hrun => ?_, fun p left' visits final hrun hvisits => ?_⟩
  · obtain ⟨⟨-, -, -, hleft⟩, hdefs'⟩ := left_of_visit (.same value) hdefs hrun
    exact visit_left limit hleft hdefs'
  · obtain ⟨⟨r, hwalk, hgives, hleft⟩, hdefs'⟩ := left_of_visit (.same value) hdefs hrun
    rw [hwalk]
    exact .ok (hgives.described hleft (leftDefs_afterVisits visits hdefs' hvisits))

/-- No visit sees what others have changed in place. Whatever values were visited, a visit gives what the walk with the
unchanged definitions gives, up to the descriptions of references, and exactly that where every reference names a
definition. -/
theorem visit_afterVisits (limit : ℕ) (value : Json) (visits : List (ℕ × Json)) (defs left : Members)
    (h : afterVisits visits defs = some left) :
    Unseen (Alike limit) defs left limit value ∧
      (GroundedDefs defs → Grounded defs value → Unseen Eq defs left limit value) := by
  have hunseen := unseen_of_leftDefs (leftDefs_afterVisits visits (LeftDefs.refl defs) h) limit value
  refine ⟨hunseen, fun hdefs hvalue => ?_⟩
  -- without references in the result there is nothing that a description could have changed
  have hfree : ∀ r, stripWalker.walk defs limit value = .ok r → RefFree r := fun r => refFree_walk hdefs hvalue
  exact ⟨hunseen.now.eq hfree, fun p left' hrun => (hunseen.again p left' hrun).eq hfree,
    fun p left' visits final hrun hvisits => (hunseen.later p left' visits final hrun hvisits).eq hfree⟩

/-- A definition with a title, which the first visit of a reference to it removes. -/
def titledDefs : Members := [("A", .obj [("title", .str "A"), ("type", .str "string")])]

theorem visit_afterVisits_twice : ∃ left, afterVisits [(3, .obj [("$ref", .str "#/$defs/A")])] titledDefs = some left ∧
    (getList "A" left ≠ getList "A" titledDefs) ∧
    visit 3 (.obj [("$ref", .str "#/$defs/A")]) left =
      stripWalker.walk titledDefs 3 (.obj [("$ref", .str "#/$defs/A")]) := by
  refine ⟨[("A", .obj [("type", .str "string")])], rfl, ?_, ?_⟩
  · simp [titledDefs, getList]
  · refine ((visit_afterVisits 3 _ [(3, .obj [("$ref", .str "#/$defs/A")])] titledDefs _ rfl).2 ?_ ?_).now.symm
    · intro name target htarget
      cases List.mem_singleton.1 (mem_of_getList htarget)
      refine .obj (fun refPath href => by cases href) (fun v _ hv => by cases hv) fun e he => ?_
      simp only [List.mem_cons, List.not_mem_nil, or_false] at he
      rcases he with rfl | rfl <;> exact .str _
    · refine .obj (fun refPath href => ?_) (fun v _ hv => by cases hv) fun e he => ?_
      · cases href
        rfl
      · rw [List.mem_singleton.1 he]
        exact .str _

-- A definition that refers to no other keeps a description which an optional value has set on it.
example : (afterVisits [(3, .obj [("anyOf", .arr [.obj [("$ref", .str "#/$defs/A")]]), ("description", .str "X")])]
    [("A", .obj [("$ref", .str "#/$defs/B")])]).map (visit 3 (.obj [("$ref", .str "#/$defs/A")])) =
      some (.ok (.obj [("$ref", .str "#/$defs/B"), ("description", .str "X")])) := rfl

end GeminiSchema

end TradingAgent
