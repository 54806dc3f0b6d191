/-
The schemas that are generated from models: every reference names a definition and leads to no cycle,
a reference or an optional value is accompanied by annotations only, and required names are properties.
On such a schema a walk comes to an end exactly where the data in it, which the walk goes through like a
schema, lets it pass, and where no property has the name of a keyword that the walk acts on.
-/
import TradingAgent.Llm.SchemaWalk

namespace TradingAgent

open Json Dict

/-! ## Generated schemas -/

/-- A node other than a reference. `names` are the property names in use, `lists` the list keywords. -/
structure NodeShape (names : String → Prop) (lists : List String) (ms : Members) : Prop where
  nodup : (ms.map Prod.fst).Nodup
  noRef : getList "$ref" ms = none
  noDefs : getList "$defs" ms = none
  type : ∀ v, getList "type" ms = some v → ∃ t, v = .str t
  enum : ∀ v, getList "enum" ms = some v → ∃ xs, v = .arr xs
  properties : ∀ v, getList "properties" ms = some v →
    ∃ ps : Members, v = .obj ps ∧ (ps.map Prod.fst).Nodup ∧ ∀ e ∈ ps, names e.1
  required : ∀ v, getList "required" ms = some v →
    ∃ listed : List String, v = .arr (listed.map .str) ∧ ∀ name ∈ listed, name ∈ propertyNames ms
  additional : ∀ v, getList "additionalProperties" ms = some v → (∃ b, v = .bool b) ∨ IsObj v
  listed : ∀ k v, k ∈ listKeywords → getList k ms = some v →
    k ∈ lists ∧ ∃ vs : List Members, v = .arr (vs.map .obj)
  optional : ∀ vs : List Members, getList "anyOf" ms = some (.arr (vs.map .obj)) →
    (vs.filter (fun v => !isNull v)).length = 1 → ∀ e ∈ ms, e.1 = "anyOf" ∨ e.1 ∉ keywords
  null : isNull ms = true → ∀ e ∈ ms, e.1 = "type" ∨ e.1 ∉ keywords

/-- A schema as it is generated: the derivation follows references, so there is no cycle of them. -/
inductive Generated (names : String → Prop) (lists : List String) (defs : Members) : Json → Prop
  | ref {ms : Members} {name : String} {target : Json} : (ms.map Prod.fst).Nodup →
      getList "$ref" ms = some (.str ("#/$defs/" ++ name)) → '/' ∉ name.toList →
      getList name defs = some target → (∀ e ∈ ms, e.1 = "$ref" ∨ e.1 ∉ keywords) →
      Generated names lists defs target → Generated names lists defs (.obj ms)
  | node {ms : Members} : NodeShape names lists ms →
      (∀ ps e, getList "properties" ms = some (.obj ps) → e ∈ ps → Generated names lists defs e.2) →
      (∀ s, getList "items" ms = some s → Generated names lists defs s) →
      (∀ s, getList "additionalProperties" ms = some (.obj s) → Generated names lists defs (.obj s)) →
      (∀ k (vs : List Members) v, k ∈ listKeywords → getList k ms = some (.arr (vs.map .obj)) → v ∈ vs →
        Generated names lists defs (.obj v)) →
      Generated names lists defs (.obj ms)

/-- A generated schema with its definitions. -/
structure GeneratedSchema (names : String → Prop) (lists : List String) (schema : Members) : Prop where
  defs : Walker.DefsAreObjects (definitions schema)
  root : Generated names lists (definitions schema) (withoutDefs schema)

/-- Annotations, and the members of an enumeration. -/
def IsData (k : String) : Prop := k ∉ keywords ∨ k = "enum"

/-- What the member `k` of a node can be. -/
inductive MemberKind : String → Json → Prop
  | data {k : String} {v : Json} : IsData k → MemberKind k v
  | type (t : String) : MemberKind "type" (.str t)
  | properties {ps : Members} : (ps.map Prod.fst).Nodup → MemberKind "properties" (.obj ps)
  | required (listed : List String) : MemberKind "required" (.arr (listed.map .str))
  | additionalBool (b : Bool) : MemberKind "additionalProperties" (.bool b)
  | additional (s : Members) : MemberKind "additionalProperties" (.obj s)
  | items (s : Json) : MemberKind "items" s
  | listed {k : String} (vs : List Members) : k ∈ listKeywords → MemberKind k (.arr (vs.map .obj))

variable {names : String → Prop} {lists : List String} {defs ms : Members} {a : Json}

theorem Generated.isObj (h : Generated names lists defs a) : IsObj a := by
  cases h <;> exact ⟨_, rfl⟩

theorem NodeShape.kind (h : NodeShape names lists ms) {k : String} {v : Json} (hv : getList k ms = some v) :
    MemberKind k v := by
  by_cases hk : k ∈ keywords
  · unfold keywords at hk
    rcases List.mem_append.1 hk with hk | hk
    · simp only [List.mem_cons, List.not_mem_nil, or_false] at hk
      rcases hk with rfl | rfl | rfl | rfl | rfl | rfl | rfl | rfl
      · rw [h.noRef] at hv; cases hv
      · rw [h.noDefs] at hv; cases hv
      · obtain ⟨t, rfl⟩ := h.type v hv
        exact .type t
      · exact .data (Or.inr rfl)
      · obtain ⟨ps, rfl, hnodup, -⟩ := h.properties v hv
        exact .properties hnodup
      · obtain ⟨listed, rfl, -⟩ := h.required v hv
        exact .required listed
      · rcases h.additional v hv with ⟨b, rfl⟩ | ⟨s, rfl⟩
        · exact .additionalBool b
        · exact .additional s
      · exact .items v
    · obtain ⟨-, vs, rfl⟩ := h.listed k v hk hv
      exact .listed vs hk
  · exact .data (Or.inl hk)

/-- The name in a pointer to a definition is read back. -/
theorem refName_pointer {name : String} (h : '/' ∉ name.toList) : refName ("#/$defs/" ++ name) = name := by
  have hname : ∀ c ∈ name.toList.reverse, decide (c ≠ '/') = true := by
    intro c hc
    exact decide_eq_true fun heq => h (heq ▸ List.mem_reverse.1 hc)
  have hprefix : ("#/$defs/".toList.reverse).takeWhile (· ≠ '/') = [] := by decide
  unfold refName List.rtakeWhile
  rw [String.toList_append, List.reverse_append, List.takeWhile_append_of_pos hname, hprefix, List.append_nil,
    List.reverse_reverse, String.ofList_toList]

/-- A node either is one optional value or has all its members rebuilt. -/
theorem NodeShape.onlyVariant_returns {W : Walker} (hW : W.Lawful) (h : NodeShape names lists ms) :
    onlyVariant (W.kept ms) = .ok none ∨
      ∃ v nullPresent, onlyVariant (W.kept ms) = .ok (some (v, nullPresent)) := by
  have hkept : getList "anyOf" (W.kept ms) = getList "anyOf" ms := hW.getList_kept (by decide) (by decide) ms
  cases hchoices : getList "anyOf" ms with
  | none => exact Or.inl (onlyVariant_eq_none.2 (Or.inl (hkept.trans hchoices)))
  | some choices =>
    obtain ⟨-, vs, rfl⟩ := h.listed "anyOf" choices (by decide) hchoices
    by_cases hlength : (vs.filter (fun v => !isNull v)).length = 1
    · obtain ⟨v, hv⟩ := List.length_eq_one_iff.1 hlength
      exact Or.inr ⟨v, _, onlyVariant_eq_some.2 ⟨vs, hkept.trans hchoices, hv, rfl⟩⟩
    · exact Or.inl (onlyVariant_eq_none.2 (Or.inr ⟨_, vs, hkept.trans hchoices, variantsOf_eq_ok.2 (Or.inl rfl),
        hlength⟩))

/-- The single variant is one of the variants of the node. -/
theorem mem_of_onlyVariant {W : Walker} (hW : W.Lawful) {v : Members} {nullPresent : Bool}
    (h : onlyVariant (W.kept ms) = .ok (some (v, nullPresent))) :
    ∃ vs : List Members, getList "anyOf" ms = some (.arr (vs.map .obj)) ∧ v ∈ vs := by
  obtain ⟨vs, hvs, hfilter, -⟩ := onlyVariant_eq_some.1 h
  rw [hW.getList_kept (by decide) (by decide)] at hvs
  exact ⟨vs, hvs, List.mem_of_mem_filter (hfilter ▸ List.mem_singleton_self v)⟩

/-! ## Schemas of fields and of models -/

section Annotated

variable {k : String} {v : Json} {annotations : Members} (hannotations : ∀ e ∈ annotations, e.1 ∉ keywords)

include hannotations

/-- A node with one keyword besides annotations has no other. -/
theorem getList_annotated {k' : String} (hk' : k' ∈ keywords) (hne : k' ≠ k) :
    getList k' ((k, v) :: annotations) = none := by
  refine Option.eq_none_iff_forall_ne_some.2 fun w hw => ?_
  rcases List.mem_cons.1 (mem_of_getList hw) with h | h
  · cases h
    exact hne rfl
  · exact hannotations _ h hk'

theorem annotated_only : ∀ e ∈ (k, v) :: annotations, e.1 = k ∨ e.1 ∉ keywords := by
  intro e he
  rcases List.mem_cons.1 he with rfl | he
  · exact Or.inl rfl
  · exact Or.inr (hannotations e he)

theorem nodup_annotated (hk : k ∈ keywords) (hnodup : (annotations.map Prod.fst).Nodup) :
    (((k, v) :: annotations).map Prod.fst).Nodup := by
  refine List.nodup_cons.2 ⟨fun h => ?_, hnodup⟩
  obtain ⟨e, he, hkey⟩ := List.mem_map.1 h
  exact hannotations e he (by rw [hkey]; exact hk)

end Annotated

/-- A field whose schema says its type, besides annotations. -/
theorem generated_field (t : String) (annotations : Members) (hnodup : (annotations.map Prod.fst).Nodup)
    (hannotations : ∀ e ∈ annotations, e.1 ∉ keywords) :
    Generated names lists defs (.obj (("type", .str t) :: annotations)) := by
  have habsent : ∀ {k}, k ∈ keywords → k ≠ "type" → getList k (("type", Json.str t) :: annotations) = none :=
    fun hk hne => getList_annotated hannotations hk hne
  have hlisted : ∀ k ∈ listKeywords, k ∈ keywords ∧ k ≠ "type" := by decide
  refine .node ⟨nodup_annotated hannotations (by decide) hnodup, habsent (by decide) (by decide),
    habsent (by decide) (by decide), ?_, ?_, ?_, ?_, ?_, ?_, ?_, fun _ => annotated_only hannotations⟩ ?_ ?_ ?_ ?_
  · intro v h
    cases h
    exact ⟨t, rfl⟩
  · intro v h; cases (habsent (by decide) (by decide)).symm.trans h
  · intro v h; cases (habsent (by decide) (by decide)).symm.trans h
  · intro v h; cases (habsent (by decide) (by decide)).symm.trans h
  · intro v h; cases (habsent (by decide) (by decide)).symm.trans h
  · intro k v hk h; cases (habsent (hlisted k hk).1 (hlisted k hk).2).symm.trans h
  · intro vs h; cases (habsent (by decide) (by decide)).symm.trans h
  · intro ps e h; cases (habsent (by decide) (by decide)).symm.trans h
  · intro v h; cases (habsent (by decide) (by decide)).symm.trans h
  · intro v h; cases (habsent (by decide) (by decide)).symm.trans h
  · intro k vs v hk h; cases (habsent (hlisted k hk).1 (hlisted k hk).2).symm.trans h

/-- A reference to a definition. -/
def reference (name : String) : Members := [("$ref", .str ("#/$defs/" ++ name))]

theorem generated_reference {name : String} {target : Json} (hname : '/' ∉ name.toList)
    (htarget : getList name defs = some target) (h : Generated names lists defs target) :
    Generated names lists defs (.obj (reference name)) :=
  .ref (List.nodup_singleton _) rfl hname htarget (annotated_only (by simp)) h

/-- An optional value, with annotations. -/
def optional (v annotations : Members) : Members :=
  ("anyOf", .arr ([v, [("type", .str "null")]].map .obj)) :: annotations

theorem generated_optional {v annotations : Members} (hlists : "anyOf" ∈ lists)
    (hnodup : (annotations.map Prod.fst).Nodup) (hannotations : ∀ e ∈ annotations, e.1 ∉ keywords)
    (hv : Generated names lists defs (.obj v)) : Generated names lists defs (.obj (optional v annotations)) := by
  have habsent : ∀ {k}, k ∈ keywords → k ≠ "anyOf" → getList k (optional v annotations) = none :=
    fun hk hne => getList_annotated hannotations hk hne
  have hsome : getList "anyOf" (optional v annotations) = some (.arr ([v, [("type", .str "null")]].map .obj)) := rfl
  have hlisted : ∀ k ∈ listKeywords, k ∈ keywords := by decide
  refine .node ⟨nodup_annotated hannotations (by decide) hnodup, habsent (by decide) (by decide),
    habsent (by decide) (by decide), ?_, ?_, ?_, ?_, ?_, ?_, fun _ _ _ => annotated_only hannotations,
    fun hnull => ?_⟩ ?_ ?_ ?_ ?_
  · intro w h; cases (habsent (by decide) (by decide)).symm.trans h
  · intro w h; cases (habsent (by decide) (by decide)).symm.trans h
  · intro w h; cases (habsent (by decide) (by decide)).symm.trans h
  · intro w h; cases (habsent (by decide) (by decide)).symm.trans h
  · intro w h; cases (habsent (by decide) (by decide)).symm.trans h
  · intro k w hk h
    by_cases hany : k = "anyOf"
    · subst hany
      cases hsome.symm.trans h
      exact ⟨hlists, _, rfl⟩
    · cases (habsent (hlisted k hk) hany).symm.trans h
  · cases (habsent (by decide) (by decide)).symm.trans (isNull_iff.1 hnull)
  · intro ps e h; cases (habsent (by decide) (by decide)).symm.trans h
  · intro w h; cases (habsent (by decide) (by decide)).symm.trans h
  · intro w h; cases (habsent (by decide) (by decide)).symm.trans h
  · intro k vs w hk h hw
    by_cases hany : k = "anyOf"
    · subst hany
      have hvs := Json.arr.inj (Option.some.inj (hsome.symm.trans h))
      obtain rfl := List.map_injective_iff.2 (fun _ _ => Json.obj.inj) hvs
      rcases List.mem_cons.1 hw with rfl | hw
      · exact hv
      · rw [List.mem_singleton.1 hw]
        exact generated_field "null" [] List.nodup_nil (by simp)
    · cases (habsent (hlisted k hk) hany).symm.trans h

/-- The schema of a model: its properties and the names of those that are required. -/
def modelSchema (ps : Members) (required : List String) : Members :=
  [("type", .str "object"), ("properties", .obj ps), ("required", .arr (required.map .str))]

theorem getList_modelSchema_listed {ps : Members} {required : List String} {k : String} (hk : k ∈ listKeywords)
    (v : Json) : getList k (modelSchema ps required) ≠ some v := by
  intro h
  have hmem := mem_of_getList h
  simp only [modelSchema, List.mem_cons, Prod.mk.injEq, List.not_mem_nil, or_false] at hmem
  rcases hmem with ⟨rfl, -⟩ | ⟨rfl, -⟩ | ⟨rfl, -⟩ <;> revert hk <;> decide

/-- No member of a model's schema is data. -/
theorem not_isData_of_mem_modelSchema {ps : Members} {required : List String} {e : String × Json}
    (he : e ∈ modelSchema ps required) : ¬ IsData e.1 := by
  have hkeys : ∀ k ∈ ["type", "properties", "required"], ¬ (k ∉ keywords ∨ k = "enum") := by decide
  exact hkeys e.1 (List.mem_map_of_mem he)

theorem generated_model {ps : Members} {required : List String} (hnodup : (ps.map Prod.fst).Nodup)
    (hnames : ∀ e ∈ ps, names e.1) (hrequired : ∀ name ∈ required, name ∈ ps.map Prod.fst)
    (hps : ∀ e ∈ ps, Generated names lists defs e.2) :
    Generated names lists defs (.obj (modelSchema ps required)) := by
  have hkeys : (modelSchema ps required).map Prod.fst = ["type", "properties", "required"] := rfl
  refine .node ⟨?_, rfl, rfl, ?_, ?_, ?_, ?_, ?_, ?_, ?_, ?_⟩ ?_ ?_ ?_ ?_
  · rw [hkeys]; decide
  · intro v h; cases h; exact ⟨_, rfl⟩
  · intro v h; cases h
  · intro v h; cases h; exact ⟨ps, rfl, hnodup, hnames⟩
  · intro v h; cases h; exact ⟨required, rfl, hrequired⟩
  · intro v h; cases h
  · intro k v hk h; exact absurd h (getList_modelSchema_listed hk v)
  · intro vs h; cases h
  · intro h; cases h
  · intro ps' e h he; cases h; exact hps e he
  · intro v h; cases h
  · intro v h; cases h
  · intro k vs v hk h; exact absurd h (getList_modelSchema_listed hk _)

/-- The definition of a score, which has a value. -/
def scoreDefs : Members := [("Score", .obj (modelSchema [("value", .obj [("type", .str "number")])] ["value"]))]

/-- A model with a name, a score and another one that is optional. -/
def scoredModel : Members :=
  modelSchema [("name", .obj [("type", .str "string")]), ("first", .obj (reference "Score")),
    ("second", .obj (optional (reference "Score") [("description", .str "A second score")]))] ["name", "first"]

def scoredSchema : Members := ("$defs", .obj scoreDefs) :: scoredModel

theorem scoredSchema_generated (hnames : ∀ name ∈ ["name", "first", "second", "value"], names name)
    (hlists : "anyOf" ∈ lists) : GeneratedSchema names lists scoredSchema := by
  have hscore : Generated names lists scoreDefs
      (.obj (modelSchema [("value", .obj [("type", .str "number")])] ["value"])) :=
    generated_model (by decide) (fun e he => by rw [List.mem_singleton.1 he]; exact hnames _ (by decide)) (by decide)
      fun e he => by
        rw [List.mem_singleton.1 he]
        exact generated_field _ [] List.nodup_nil (by simp)
  have hreference : Generated names lists scoreDefs (.obj (reference "Score")) :=
    generated_reference (by decide) rfl hscore
  refine ⟨fun name target h => ?_, ?_⟩
  · have hmem := mem_of_getList h
    cases List.mem_singleton.1 hmem
    exact ⟨_, rfl⟩
  · refine generated_model (by decide) (fun e he => hnames e.1 ?_) (by decide) fun e he => ?_
    · simp only [List.mem_cons, List.not_mem_nil, or_false] at he ⊢
      rcases he with rfl | rfl | rfl <;> simp
    · simp only [List.mem_cons, List.not_mem_nil, or_false] at he
      rcases he with rfl | rfl | rfl
      · exact generated_field _ [] List.nodup_nil (by simp)
      · exact hreference
      · exact generated_optional hlists (by decide) (by decide) hreference

/-! ## Nodes that a walk visits -/

/-- `Q` holds of every node that the walk visits as a schema: the definition of a reference, the variant of an
optional value, and what stands in a rebuilt node. -/
inductive EveryNode (W : Walker) (defs : Members) (Q : Members → Prop) : Json → Prop
  | ref {ms : Members} {refPath : String} {target : Json} : getList "$ref" ms = some (.str refPath) →
      getList (refName refPath) defs = some target → EveryNode W defs Q target → EveryNode W defs Q (.obj ms)
  | single {ms v : Members} {nullPresent : Bool} : getList "$ref" ms = none →
      onlyVariant (W.kept ms) = .ok (some (v, nullPresent)) → EveryNode W defs Q (.obj v) →
      EveryNode W defs Q (.obj ms)
  | node {ms : Members} : getList "$ref" ms = none → onlyVariant (W.kept ms) = .ok none → Q ms →
      (∀ ps e, getList "properties" ms = some (.obj ps) → e ∈ W.kept ps → EveryNode W defs Q e.2) →
      (∀ s, getList "items" ms = some s → EveryNode W defs Q s) →
      (∀ s, getList "additionalProperties" (W.kept ms) = some (.obj s) → EveryNode W defs Q (.obj s)) →
      (∀ k (vs : List Members) v, k ∈ listKeywords → getList k ms = some (.arr (vs.map .obj)) → v ∈ vs →
        EveryNode W defs Q (.obj v)) →
      EveryNode W defs Q (.obj ms)

section

variable {W : Walker} {Q Q' : Members → Prop}

theorem everyNode_ref_iff {refPath : String} {target : Json} (href : getList "$ref" ms = some (.str refPath))
    (htarget : getList (refName refPath) defs = some target) :
    EveryNode W defs Q (.obj ms) ↔ EveryNode W defs Q target := by
  refine ⟨fun h => ?_, .ref href htarget⟩
  cases h with
  | ref href' htarget' h =>
    rw [href] at href'; cases href'
    rw [htarget] at htarget'; cases htarget'
    exact h
  | single href' | node href' => rw [href] at href'; cases href'

theorem everyNode_single_iff {v : Members} {nullPresent : Bool} (href : getList "$ref" ms = none)
    (hchoice : onlyVariant (W.kept ms) = .ok (some (v, nullPresent))) :
    EveryNode W defs Q (.obj ms) ↔ EveryNode W defs Q (.obj v) := by
  refine ⟨fun h => ?_, .single href hchoice⟩
  cases h with
  | ref href' => rw [href] at href'; cases href'
  | single _ hchoice' h => rw [hchoice] at hchoice'; cases hchoice'; exact h
  | node _ hchoice' => rw [hchoice] at hchoice'; cases hchoice'

/-- Two properties of every node hold together. -/
theorem EveryNode.and {a : Json} (h : EveryNode W defs Q a) (h' : EveryNode W defs Q' a) :
    EveryNode W defs (fun ms => Q ms ∧ Q' ms) a := by
  induction h with
  | ref href htarget _ ih => exact .ref href htarget (ih ((everyNode_ref_iff href htarget).1 h'))
  | single href hchoice _ ih => exact .single href hchoice (ih ((everyNode_single_iff href hchoice).1 h'))
  | node href hchoice hQ _ _ _ _ ihp ihi iha ihl =>
    cases h' with
    | ref href' => rw [href] at href'; cases href'
    | single _ hchoice' => rw [hchoice] at hchoice'; cases hchoice'
    | node _ _ hQ' hp hi ha hl =>
      exact .node href hchoice ⟨hQ, hQ'⟩ (fun ps e hps he => ihp ps e hps he (hp ps e hps he))
        (fun s hs => ihi s hs (hi s hs)) (fun s hs => iha s hs (ha s hs))
        (fun k vs v hk hvs hv => ihl k vs v hk hvs hv (hl k vs v hk hvs hv))

/-- What a node of this shape implies, every node of a generated schema implies. -/
theorem Generated.everyNode_mono (hW : W.Lawful) (h : Generated names lists defs a)
    (hQ : ∀ ms, NodeShape names lists ms → Q ms → Q' ms) : EveryNode W defs Q a → EveryNode W defs Q' a := by
  induction h with
  | ref _ href hname htarget _ _ ih =>
    intro h
    have htarget' := (refName_pointer hname).symm ▸ htarget
    exact .ref href htarget' (ih ((everyNode_ref_iff href htarget').1 h))
  | node shape hp hi ha hl ihp ihi iha ihl =>
    intro h
    cases h with
    | ref href => rw [shape.noRef] at href; cases href
    | single href hchoice h =>
      obtain ⟨vs, hvs, hv⟩ := mem_of_onlyVariant hW hchoice
      exact .single href hchoice (ihl "anyOf" vs _ (by decide) hvs hv h)
    | node href hchoice h hp' hi' ha' hl' =>
      exact .node href hchoice (hQ _ shape h)
        (fun ps e hps he => ihp ps e hps (Walker.mem_of_mem_kept he) (hp' ps e hps he))
        (fun s hs => ihi s hs (hi' s hs))
        (fun s hs => iha s (Walker.getList_of_kept hs) (ha' s hs))
        (fun k vs v hk hvs hv => ihl k vs v hk hvs hv (hl' k vs v hk hvs hv))

end

/-- The single field of a node that says its type only. -/
theorem everyNode_field {W : Walker} {Q : Members → Prop} (hW : W.Lawful) {t : String}
    (hQ : Q [("type", .str t)]) : EveryNode W defs Q (.obj [("type", .str t)]) := by
  have habsent : ∀ k v, k ≠ "type" → getList k [("type", Json.str t)] ≠ some v := by
    intro k v hk hv
    have hmem := mem_of_getList hv
    rw [List.mem_singleton] at hmem
    exact hk (Prod.ext_iff.1 hmem).1
  have hlisted : ∀ k ∈ listKeywords, k ≠ "type" := by decide
  refine .node rfl (onlyVariant_eq_none.2 (Or.inl ?_)) hQ ?_ ?_ ?_ ?_
  · rw [hW.getList_kept (by decide) (by decide)]; rfl
  · intro ps e h; exact absurd h (habsent _ _ (by decide))
  · intro s h; exact absurd h (habsent _ _ (by decide))
  · intro s h; exact absurd (Walker.getList_of_kept h) (habsent _ _ (by decide))
  · intro k vs v hk h; exact absurd h (habsent _ _ (hlisted k hk))

/-- A model's nodes are its own and those of its properties. -/
theorem everyNode_model {W : Walker} {Q : Members → Prop} (hW : W.Lawful) {ps : Members} {required : List String}
    (hQ : Q (modelSchema ps required)) (hps : ∀ e ∈ ps, EveryNode W defs Q e.2) :
    EveryNode W defs Q (.obj (modelSchema ps required)) := by
  refine .node rfl (onlyVariant_eq_none.2 (Or.inl ?_)) hQ ?_ ?_ ?_ ?_
  · rw [hW.getList_kept (by decide) (by decide)]; rfl
  · intro ps' e h he; cases h; exact hps e (Walker.mem_of_mem_kept he)
  · intro s h; cases h
  · intro s h; cases Walker.getList_of_kept h
  · intro k vs v hk h; exact absurd h (getList_modelSchema_listed hk _)

/-- The node of an optional value is that of the value. -/
theorem everyNode_optional {W : Walker} {Q : Members → Prop} (hW : W.Lawful) {v annotations : Members}
    (hannotations : ∀ e ∈ annotations, e.1 ∉ keywords) (hnull : isNull v = false) (hv : EveryNode W defs Q (.obj v)) :
    EveryNode W defs Q (.obj (optional v annotations)) := by
  have hvariants : [v, [("type", .str "null")]].filter (fun v => !isNull v) = [v] := by
    rw [List.filter_cons_of_pos (by rw [hnull]; rfl)]
    rfl
  have hchoices : getList "anyOf" (W.kept (optional v annotations))
      = some (.arr ([v, [("type", .str "null")]].map .obj)) := by
    rw [hW.getList_kept (by decide) (by decide)]
    rfl
  exact .single (getList_annotated hannotations (by decide) (by decide))
    (onlyVariant_eq_some.2 ⟨_, hchoices, hvariants, rfl⟩) hv

/-- The nodes of the model with scores are its own, those of a score, and their fields. -/
theorem everyNode_scored {W : Walker} {Q : Members → Prop} (hW : W.Lawful) (hmodel : Q scoredModel)
    (hscore : Q (modelSchema [("value", .obj [("type", .str "number")])] ["value"]))
    (hfield : ∀ t, Q [("type", .str t)]) : EveryNode W (definitions scoredSchema) Q (withoutDefs scoredSchema) := by
  have hreference : EveryNode W scoreDefs Q (.obj (reference "Score")) := by
    have hname : '/' ∉ "Score".toList := by decide
    refine .ref rfl (refName_pointer hname ▸ rfl) (everyNode_model hW hscore fun e he => ?_)
    rw [List.mem_singleton.1 he]
    exact everyNode_field hW (hfield _)
  show EveryNode W scoreDefs Q (.obj scoredModel)
  refine everyNode_model hW hmodel fun e he => ?_
  simp only [List.mem_cons, List.not_mem_nil, or_false] at he
  rcases he with rfl | rfl | rfl
  · exact everyNode_field hW (hfield _)
  · exact hreference
  · exact everyNode_optional hW (by decide) rfl hreference

/-! ## Where a walk comes to an end -/

/-- No property is called `$ref`, and one called `anyOf` has the empty schema: a dictionary of properties is
searched for these keywords like a schema. -/
def NoKeywordNames (ps : Members) : Prop :=
  getList "$ref" ps = none ∧ ∀ p, getList "anyOf" ps = some p → p = .obj []

/-- The walk can pass through the node: the names of its properties and its data let it. -/
structure Passable (W : Walker) (defs ms : Members) : Prop where
  names : ∀ ps, getList "properties" ms = some (.obj ps) → NoKeywordNames ps
  data : ∀ e ∈ W.kept ms, IsData e.1 → W.Settles defs e.2

variable {W : Walker}

theorem passable_model {ps : Members} (required : List String) (h : NoKeywordNames ps) :
    Passable W defs (modelSchema ps required) where
  names ps' hps' := by cases hps'; exact h
  data e he hdata := absurd hdata (not_isData_of_mem_modelSchema (Walker.mem_of_mem_kept he))

theorem passable_field (t : String) : Passable W defs [("type", .str t)] where
  names ps h := by cases h
  data e he _ := by
    rw [List.mem_singleton.1 (Walker.mem_of_mem_kept he)]
    exact .str t

theorem onlyVariant_properties (hW : W.Lawful) {ps : Members} (h : NoKeywordNames ps) :
    onlyVariant (W.kept ps) = .ok none := by
  have hkept : getList "anyOf" (W.kept ps) = getList "anyOf" ps := hW.getList_kept (by decide) (by decide) ps
  cases hchoices : getList "anyOf" ps with
  | none => exact onlyVariant_eq_none.2 (Or.inl (hkept.trans hchoices))
  | some p =>
    cases h.2 p hchoices
    exact onlyVariant_eq_none.2
      (Or.inr ⟨_, [], hkept.trans hchoices, variantsOf_eq_ok.2 (Or.inr ⟨rfl, Or.inl rfl⟩), by decide⟩)

theorem settles_properties_iff (hW : W.Lawful) {ps : Members} (hps : ∀ e ∈ ps, IsObj e.2) :
    W.Settles defs (.obj ps) ↔ NoKeywordNames ps ∧ ∀ e ∈ W.kept ps, W.Settles defs e.2 := by
  have hkept : getList "anyOf" (W.kept ps) = getList "anyOf" ps := hW.getList_kept (by decide) (by decide) ps
  have hobj : ∀ k p, getList k ps = some p → IsObj p := fun k p hp => hps _ (mem_of_getList hp)
  constructor
  · intro h
    cases h with
    | ref href | unknown href => obtain ⟨_, h⟩ := hobj _ _ href; cases h
    | single _ hchoice =>
      obtain ⟨vs, hchoices, -⟩ := onlyVariant_eq_some.1 hchoice
      obtain ⟨_, h⟩ := hobj _ _ (hkept ▸ hchoices)
      cases h
    | members href hchoice _ hsettles =>
      refine ⟨⟨href, fun p hp => ?_⟩, hsettles⟩
      rcases onlyVariant_eq_none.1 hchoice with hnone | ⟨choices, vs, hchoices, hvs, -⟩
      · rw [hkept, hp] at hnone; cases hnone
      · rw [hkept, hp] at hchoices
        cases hchoices
        obtain ⟨m, rfl⟩ := hobj _ _ hp
        rcases variantsOf_eq_ok.1 hvs with h | ⟨-, h | h⟩
        · cases h
        · exact h
        · cases h
  · rintro ⟨hnames, hsettles⟩
    refine .members hnames.1 (onlyVariant_properties hW hnames) ⟨_, hW.close_of_untyped fun t ht => ?_⟩ hsettles
    obtain ⟨_, h⟩ := hobj _ _ (Walker.getList_of_kept ht)
    cases h

theorem settles_ref_iff {refPath : String} {target : Json} (href : getList "$ref" ms = some (.str refPath))
    (htarget : getList (refName refPath) defs = some target) :
    W.Settles defs (.obj ms) ↔ W.Settles defs target := by
  refine ⟨fun h => ?_, .ref href htarget⟩
  cases h with
  | ref href' htarget' h =>
    rw [href] at href'; cases href'
    rw [htarget] at htarget'; cases htarget'
    exact h
  | unknown href' hnone =>
    rw [href] at href'; cases href'
    rw [htarget] at hnone; cases hnone
  | single href' | members href' => rw [href] at href'; cases href'

theorem settles_single_iff {v : Members} {nullPresent : Bool} (href : getList "$ref" ms = none)
    (hchoice : onlyVariant (W.kept ms) = .ok (some (v, nullPresent))) :
    W.Settles defs (.obj ms) ↔ W.Settles defs (.obj v) := by
  refine ⟨fun h => ?_, .single href hchoice⟩
  cases h with
  | ref href' | unknown href' => rw [href] at href'; cases href'
  | single _ hchoice' h => rw [hchoice] at hchoice'; cases hchoice'; exact h
  | members _ hchoice' => rw [hchoice] at hchoice'; cases hchoice'

theorem settles_members_iff (href : getList "$ref" ms = none) (hchoice : onlyVariant (W.kept ms) = .ok none) :
    W.Settles defs (.obj ms) ↔ W.Closes (W.kept ms) ∧ ∀ e ∈ W.kept ms, W.Settles defs e.2 := by
  refine ⟨fun h => ?_, fun h => .members href hchoice h.1 h.2⟩
  cases h with
  | ref href' | unknown href' => rw [href] at href'; cases href'
  | single _ hchoice' => rw [hchoice] at hchoice'; cases hchoice'
  | members _ _ hcloses h => exact ⟨hcloses, h⟩

theorem NodeShape.getList_of_mem_kept (h : NodeShape names lists ms) {k : String} {v : Json}
    (hv : (k, v) ∈ W.kept ms) : getList k ms = some v :=
  (mem_iff_getList h.nodup).1 (Walker.mem_of_mem_kept hv)

theorem ne_of_mem_listKeywords {k : String} (hk : k ∈ listKeywords) :
    k ≠ "required" ∧ k ≠ "additionalProperties" ∧ k ≠ "title" := by
  refine ⟨?_, ?_, ?_⟩ <;> rintro rfl <;> revert hk <;> decide

/-- A list keyword is no keyword that a walk pops. -/
theorem getList_kept_listed (hW : W.Lawful) {k : String} (hk : k ∈ listKeywords) (ms : Members) :
    getList k (W.kept ms) = getList k ms :=
  hW.getList_kept (ne_of_mem_listKeywords hk).2.1 (ne_of_mem_listKeywords hk).2.2 ms

/-- On a generated schema a walk comes to an end exactly where it can pass through every node it visits. -/
theorem Generated.settles_iff (hW : W.Lawful) (h : Generated names lists defs a) :
    W.Settles defs a ↔ EveryNode W defs (Passable W defs) a := by
  induction h with
  | ref _ href hname htarget _ _ ih =>
    have htarget' := (refName_pointer hname).symm ▸ htarget
    rw [settles_ref_iff href htarget', everyNode_ref_iff href htarget', ih]
  | @node ms shape hp hi ha hl ihp ihi iha ihl =>
    have hproperties : ∀ ps, getList "properties" ms = some (.obj ps) → ∀ e ∈ ps, IsObj e.2 :=
      fun ps hps e he => (hp ps e hps he).isObj
    rcases shape.onlyVariant_returns hW with hnone | ⟨v, nullPresent, hsome⟩
    · rw [settles_members_iff shape.noRef hnone]
      constructor
      · rintro ⟨-, hsettles⟩
        have hmember : ∀ k v, k ≠ "additionalProperties" → k ≠ "title" → getList k ms = some v → W.Settles defs v :=
          fun k v hk hk' hv => hsettles (k, v) (mem_of_getList ((hW.getList_kept hk hk' ms).trans hv))
        have hps : ∀ ps, getList "properties" ms = some (.obj ps) →
            NoKeywordNames ps ∧ ∀ e ∈ W.kept ps, W.Settles defs e.2 := fun ps h =>
          (settles_properties_iff hW (hproperties ps h)).1 (hmember _ _ (by decide) (by decide) h)
        refine .node shape.noRef hnone ⟨fun ps h => (hps ps h).1, fun e he _ => hsettles e he⟩ ?_ ?_ ?_ ?_
        · intro ps e h he
          exact (ihp ps e h (Walker.mem_of_mem_kept he)).1 ((hps ps h).2 e he)
        · intro s hs
          exact (ihi s hs).1 (hmember _ _ (by decide) (by decide) hs)
        · intro s hs
          exact (iha s (Walker.getList_of_kept hs)).1 (hsettles _ (mem_of_getList hs))
        · intro k vs v hk hvs hv
          have harr := hsettles (k, _) (mem_of_getList ((getList_kept_listed hW hk ms).trans hvs))
          cases harr with
          | arr h => exact (ihl k vs v hk hvs hv).1 (h _ (List.mem_map_of_mem hv))
      · intro h
        cases h with
        | ref href => rw [shape.noRef] at href; cases href
        | single _ hsome => rw [hnone] at hsome; cases hsome
        | node _ _ hpass hp' hi' ha' hl' =>
          refine ⟨hW.closes_of_properties fun v hv => ?_, fun e he => ?_⟩
          · obtain ⟨ps, rfl, -⟩ := shape.properties v (Walker.getList_of_kept hv)
            exact ⟨ps, rfl⟩
          · obtain ⟨k, v⟩ := e
            have hv := shape.getList_of_mem_kept he
            cases shape.kind hv with
            | data hdata => exact hpass.data _ he hdata
            | type t => exact .str t
            | @properties ps _ =>
              exact (settles_properties_iff hW (hproperties ps hv)).2 ⟨hpass.names ps hv, fun e he =>
                (ihp ps e hv (Walker.mem_of_mem_kept he)).2 (hp' ps e hv he)⟩
            | required listed =>
              refine .arr fun x hx => ?_
              obtain ⟨name, -, rfl⟩ := List.mem_map.1 hx
              exact .str name
            | additionalBool b => exact .bool b
            | additional s =>
              refine (iha s hv).2 (ha' s ?_)
              rw [Walker.getList_kept, if_neg, hv]
              have hkeep := (List.mem_filter.1 he).2
              simpa using hkeep
            | items => exact (ihi v hv).2 (hi' v hv)
            | listed vs hk =>
              refine .arr fun x hx => ?_
              obtain ⟨w, hw, rfl⟩ := List.mem_map.1 hx
              exact (ihl k vs w hk hv hw).2 (hl' k vs w hk hv hw)
    · obtain ⟨vs, hvs, hv⟩ := mem_of_onlyVariant hW hsome
      rw [settles_single_iff shape.noRef hsome, everyNode_single_iff shape.noRef hsome]
      exact ihl "anyOf" vs v (by decide) hvs hv

/-! ## What a walk returns -/

section

variable {n : ℕ} {r : Json}

theorem walk_ref {refPath : String} {target : Json} (href : getList "$ref" ms = some (.str refPath))
    (htarget : getList (refName refPath) defs = some target) (h : W.walk defs n (.obj ms) = .ok r) :
    ∃ m, W.walk defs m target = .ok r := by
  cases n with
  | zero => cases h
  | succ n =>
    cases Walker.walk_obj_eq_ok.1 h with
    | ref href' htarget' h =>
      rw [href] at href'; cases href'
      rw [htarget] at htarget'; cases htarget'
      exact ⟨n, h⟩
    | unknown href' hnone =>
      rw [href] at href'; cases href'
      rw [htarget] at hnone; cases hnone
    | single href' | members href' => rw [href] at href'; cases href'

theorem walk_single {v : Members} {nullPresent : Bool} (href : getList "$ref" ms = none)
    (hchoice : onlyVariant (W.kept ms) = .ok (some (v, nullPresent))) (h : W.walk defs n (.obj ms) = .ok r) :
    ∃ m resolved, W.walk defs m (.obj v) = .ok resolved ∧ r = W.single (W.kept ms) nullPresent resolved := by
  cases n with
  | zero => cases h
  | succ n =>
    cases Walker.walk_obj_eq_ok.1 h with
    | ref href' | unknown href' => rw [href] at href'; cases href'
    | single _ hchoice' hv => rw [hchoice] at hchoice'; cases hchoice'; exact ⟨n, _, hv, rfl⟩
    | members _ hchoice' => rw [hchoice] at hchoice'; cases hchoice'

theorem walk_members (href : getList "$ref" ms = none) (hchoice : onlyVariant (W.kept ms) = .ok none)
    (h : W.walk defs n (.obj ms) = .ok r) :
    ∃ m result closed, Entrywise (fun x y => W.walk defs m x = .ok y) (W.kept ms) result ∧
      W.close result = .ok closed ∧ r = .obj closed := by
  cases n with
  | zero => cases h
  | succ n =>
    cases Walker.walk_obj_eq_ok.1 h with
    | ref href' | unknown href' => rw [href] at href'; cases href'
    | single _ hchoice' => rw [hchoice] at hchoice'; cases hchoice'
    | members _ _ hresult hclosed => exact ⟨n, _, _, hresult, hclosed, rfl⟩

theorem walk_arr {xs : List Json} (h : W.walk defs n (.arr xs) = .ok r) :
    ∃ m ys, r = .arr ys ∧ List.Forall₂ (fun x y => W.walk defs m x = .ok y) xs ys := by
  cases n with
  | zero => cases h
  | succ n => exact ⟨n, Walker.walk_arr_eq_ok.1 h⟩

/-- A dictionary of properties that the walk returns from has been rebuilt property by property. -/
theorem walk_properties (hW : W.Lawful) (hdefs : Walker.DefsAreObjects defs) {ps : Members}
    (hps : ∀ e ∈ ps, IsObj e.2) (h : W.walk defs n (.obj ps) = .ok r) :
    NoKeywordNames ps ∧ ∃ m ps', Entrywise (fun x y => W.walk defs m x = .ok y) (W.kept ps) ps' ∧ r = .obj ps' := by
  have hnames := ((settles_properties_iff hW hps).1 (Walker.Settles.of_walk hW hdefs h)).1
  obtain ⟨m, result, closed, hresult, hclosed, rfl⟩ := walk_members hnames.1 (onlyVariant_properties hW hnames) h
  refine ⟨hnames, m, result, hresult, ?_⟩
  have huntyped : ∀ t, getList "type" result ≠ some (.str t) := by
    intro t ht
    obtain ⟨p, hp, hwalk⟩ := hresult.of_getList_some ht
    obtain ⟨_, h⟩ := Walker.isObj_of_walk hW hdefs hwalk (hps _ (mem_of_getList (Walker.getList_of_kept hp)))
    cases h
  rw [hW.close_of_untyped huntyped] at hclosed
  cases hclosed
  rfl

/-- What holds of every node that a walk finishes, and stays when a variant is unwrapped, holds at every
position of the result. -/
theorem Generated.everywhere_walk (hW : W.Lawful) (hdefs : Walker.DefsAreObjects defs) {P : Json → Prop}
    {Q : Members → Prop} (hother : ∀ s, ¬ IsObj s → P s)
    (hnode : ∀ ms m result closed, NodeShape names lists ms → Q ms →
      (∀ ps e, getList "properties" ms = some (.obj ps) → e ∈ ps → IsObj e.2) →
      Entrywise (fun x y => W.walk defs m x = .ok y) (W.kept ms) result → W.close result = .ok closed →
      P (.obj closed))
    (hsingle : ∀ node nullPresent resolved, Everywhere P resolved → Everywhere P (W.single node nullPresent resolved))
    (h : Generated names lists defs a) : ∀ {n r}, W.walk defs n a = .ok r → EveryNode W defs Q a →
      Everywhere P r := by
  induction h with
  | ref _ href hname htarget _ _ ih =>
    intro n r hwalk hevery
    have htarget' := (refName_pointer hname).symm ▸ htarget
    obtain ⟨m, hwalk⟩ := walk_ref href htarget' hwalk
    exact ih hwalk ((everyNode_ref_iff href htarget').1 hevery)
  | @node ms shape hp hi ha hl ihp ihi iha ihl =>
    intro n r hwalk hevery
    cases hevery with
    | ref href => rw [shape.noRef] at href; cases href
    | single href hchoice hevery =>
      obtain ⟨m, resolved, hresolved, rfl⟩ := walk_single href hchoice hwalk
      obtain ⟨vs, hvs, hv⟩ := mem_of_onlyVariant hW hchoice
      exact hsingle _ _ _ (ihl "anyOf" vs _ (by decide) hvs hv hresolved hevery)
    | node href hchoice hQ hp' hi' ha' hl' =>
      obtain ⟨m, result, closed, hresult, hclosed, rfl⟩ := walk_members href hchoice hwalk
      have hps : ∀ ps e, getList "properties" ms = some (.obj ps) → e ∈ ps → IsObj e.2 :=
        fun ps e h he => (hp ps e h he).isObj
      have hback : ∀ k y, k ≠ "required" → k ≠ "additionalProperties" → getList k closed = some y →
          ∃ x, getList k ms = some x ∧ W.walk defs m x = .ok y := by
        intro k y hk hk' hy
        rw [hW.getList_close hclosed hk hk'] at hy
        obtain ⟨x, hx, hwalk⟩ := hresult.of_getList_some hy
        exact ⟨x, Walker.getList_of_kept hx, hwalk⟩
      refine everywhere_iff.2 ⟨hnode ms m result closed shape hQ hps hresult hclosed, fun c hc => ?_⟩
      cases hc with
      | property hy he =>
        obtain ⟨x, hx, hwalk⟩ := hback _ _ (by decide) (by decide) hy
        obtain ⟨ps, rfl, -⟩ := shape.properties x hx
        obtain ⟨-, m', ps', hps', heq⟩ := walk_properties hW hdefs (fun e => hps ps e hx) hwalk
        cases heq
        obtain ⟨p, hp, hwalk⟩ := hps'.of_mem_right he
        exact ihp ps _ hx (Walker.mem_of_mem_kept hp) hwalk (hp' ps _ hx hp)
      | items hy =>
        obtain ⟨s, hs, hwalk⟩ := hback _ _ (by decide) (by decide) hy
        exact ihi s hs hwalk (hi' s hs)
      | additional hy =>
        rcases hW.additional_close hclosed hy with rfl | hy
        · exact everywhere_of_not_isObj (hother _ fun ⟨_, h⟩ => by cases h) fun ⟨_, h⟩ => by cases h
        · obtain ⟨s, hs, hwalk⟩ := hresult.of_getList_some hy
          rcases shape.additional s (Walker.getList_of_kept hs) with ⟨b, rfl⟩ | ⟨s, rfl⟩
          · have hkind := (Walker.walk_sameKind hW hdefs hwalk).2
            have hbool : ¬ IsObj (.bool b) := fun ⟨_, h⟩ => by cases h
            exact everywhere_of_not_isObj (hother _ (hkind.not.1 hbool)) (hkind.not.1 hbool)
          · exact iha s (Walker.getList_of_kept hs) hwalk (ha' s hs)
      | listed hk hy hx =>
        obtain ⟨hreq, hadd, -⟩ := ne_of_mem_listKeywords hk
        obtain ⟨x, hx', hwalk⟩ := hback _ _ hreq hadd hy
        obtain ⟨-, vs, rfl⟩ := shape.listed _ x hk hx'
        obtain ⟨m', ys, heq, hys⟩ := walk_arr hwalk
        cases heq
        obtain ⟨w, hw, hwalk⟩ := hys.exists_of_mem_right hx
        obtain ⟨v, hv, rfl⟩ := List.mem_map.1 hw
        exact ihl _ vs v hk hx' hv hwalk (hl' _ vs v hk hx' hv)

end

end TradingAgent
