/-
The structure of a generated schema in what is sent to Gemini: no reference and no removed keyword is left
at any schema position, and every object has the properties of the original. A walk that returns keeps
the structure exactly where no property is called `title` or `additionalProperties`.
-/
import TradingAgent.Llm.GeminiInPlace

namespace TradingAgent

open Json Dict

namespace GeminiSchema

/-! ## Structure -/

/-- At a schema position neither references, definitions nor additional properties are left, and every name
listed in `required` is a property. -/
def Cleaned (s : Json) : Prop := ∀ ms, s = .obj ms → getList "$ref" ms = none ∧ getList "$defs" ms = none ∧
  getList "additionalProperties" ms = none ∧
    ∀ required name, getList "required" ms = some (.arr required) → .str name ∈ required → name ∈ propertyNames ms

/-- The result has the property names of the original at every object: behind references, in the variant of an
optional value, and in what stands under properties, items and lists of schemas. -/
inductive SameProperties (defs : Members) : Json → Json → Prop
  | ref {ms : Members} {name : String} {target r : Json} : getList "$ref" ms = some (.str ("#/$defs/" ++ name)) →
      getList name defs = some target → SameProperties defs target r → SameProperties defs (.obj ms) r
  | optional {ms v : Members} {vs : List Members} {r : Json} : getList "$ref" ms = none →
      getList "anyOf" ms = some (.arr (vs.map .obj)) → vs.filter (fun v => !isNull v) = [v] →
      SameProperties defs (.obj v) r → SameProperties defs (.obj ms) r
  | node {ms ms' : Members} : getList "$ref" ms = none →
      (∀ vs : List Members, getList "anyOf" ms = some (.arr (vs.map .obj)) →
        (vs.filter (fun v => !isNull v)).length ≠ 1) →
      propertyNames ms' = propertyNames ms →
      (∀ ps ps' name p p', getList "properties" ms = some (.obj ps) → getList "properties" ms' = some (.obj ps') →
        getList name ps = some p → getList name ps' = some p' → SameProperties defs p p') →
      (getList "items" ms').isSome = (getList "items" ms).isSome →
      (∀ s s', getList "items" ms = some s → getList "items" ms' = some s' → SameProperties defs s s') →
      (∀ k xs, k ∈ listKeywords → getList k ms = some (.arr xs) →
        ∃ xs', getList k ms' = some (.arr xs') ∧ xs'.length = xs.length) →
      (∀ k xs xs' (i : ℕ) x x', k ∈ listKeywords → getList k ms = some (.arr xs) → getList k ms' = some (.arr xs') →
        xs[i]? = some x → xs'[i]? = some x' → SameProperties defs x x') →
      SameProperties defs (.obj ms) (.obj ms')

/-- No property of the node is called like a member that is popped. -/
def NamesKept (ms : Members) : Prop :=
  ∀ ps, getList "properties" ms = some (.obj ps) → ∀ e ∈ ps, e.1 ≠ "title" ∧ e.1 ≠ "additionalProperties"

/-- From some limit on, `_strip_additional_properties` returns one schema: cleaned, with the structure of the
original. -/
def KeepsStructure (schema : Members) : Prop :=
  ∃ bound result, (∀ limit, bound ≤ limit → stripAdditionalProperties limit schema = .ok result) ∧
    Everywhere Cleaned result ∧ SameProperties (definitions schema) (withoutDefs schema) result

/-! ## A description changes nothing of the structure -/

/-- The dictionaries differ in annotations only. -/
def SameKeywords (ms ms' : Members) : Prop := ∀ k ∈ keywords, getList k ms' = getList k ms

theorem SameKeywords.symm {ms ms' : Members} (h : SameKeywords ms ms') : SameKeywords ms' ms :=
  fun k hk => (h k hk).symm

theorem SameKeywords.propertyNames_eq {ms ms' : Members} (h : SameKeywords ms ms') :
    propertyNames ms' = propertyNames ms := by
  unfold propertyNames
  rw [h "properties" (by decide)]

theorem SameButDescription.sameKeywords {ms ms' : Members} (h : SameButDescription ms ms') : SameKeywords ms ms' := by
  intro k hk
  refine h k ?_
  rintro rfl
  exact absurd hk (by decide)

theorem mem_keywords_of_listKeywords {k : String} (hk : k ∈ listKeywords) : k ∈ keywords :=
  List.mem_append_right _ hk

variable {defs : Members}

theorem SameProperties.congr {a r : Json} (h : SameProperties defs a r) :
    ∀ {ms ms'}, r = .obj ms → SameKeywords ms ms' → SameProperties defs a (.obj ms') := by
  induction h with
  | ref href htarget _ ih =>
    intro ms ms' hr hsame
    exact .ref href htarget (ih hr hsame)
  | optional href hvs hfilter _ ih =>
    intro ms ms' hr hsame
    exact .optional href hvs hfilter (ih hr hsame)
  | node href hvs hnames hp hi his hl hls =>
    intro ms ms' hr hsame
    cases hr
    refine .node href hvs (hsame.propertyNames_eq.trans hnames) ?_ ?_ ?_ ?_ ?_
    · intro ps ps' name p p' hps hps' hname hname'
      rw [hsame _ (by decide)] at hps'
      exact hp ps ps' name p p' hps hps' hname hname'
    · rw [hsame _ (by decide)]
      exact hi
    · intro s s' hs hs'
      rw [hsame _ (by decide)] at hs'
      exact his s s' hs hs'
    · intro k xs hk hxs
      rw [hsame k (mem_keywords_of_listKeywords hk)]
      exact hl k xs hk hxs
    · intro k xs xs' i x x' hk hxs hxs' hx hx'
      rw [hsame k (mem_keywords_of_listKeywords hk)] at hxs'
      exact hls k xs xs' i x x' hk hxs hxs' hx hx'

theorem cleaned_congr {ms ms' : Members} (hsame : SameKeywords ms ms') (h : Cleaned (.obj ms)) :
    Cleaned (.obj ms') := by
  intro m hm
  cases hm
  obtain ⟨href, hdefs, hadditional, hrequired⟩ := h ms rfl
  rw [hsame "$ref" (by decide), hsame "$defs" (by decide), hsame "additionalProperties" (by decide),
    hsame "required" (by decide), hsame.propertyNames_eq]
  exact ⟨href, hdefs, hadditional, hrequired⟩

theorem child_congr {ms ms' : Members} (hsame : SameKeywords ms ms') {c : Json} (hc : Child (.obj ms') c) :
    Child (.obj ms) c := by
  cases hc with
  | property hps he => exact .property ((hsame _ (by decide)).symm.trans hps) he
  | items hs => exact .items ((hsame _ (by decide)).symm.trans hs)
  | additional hs => exact .additional ((hsame _ (by decide)).symm.trans hs)
  | listed hk hxs hx => exact .listed hk ((hsame _ (mem_keywords_of_listKeywords hk)).symm.trans hxs) hx

/-- What holds at every position and does not depend on annotations stays when a description is preserved. -/
theorem everywhere_preserveDescription {P : Json → Prop}
    (hP : ∀ {ms ms' : Members}, SameKeywords ms ms' → P (.obj ms) → P (.obj ms')) (node : Members) {resolved : Json}
    (h : Everywhere P resolved) : Everywhere P (preserveDescription node resolved) := by
  by_cases hobj : IsObj resolved
  · obtain ⟨ms, rfl⟩ := hobj
    obtain ⟨ms', heq, hsame⟩ := preserveDescription_obj node ms
    obtain ⟨hhere, hchild⟩ := everywhere_iff.1 h
    rw [heq]
    exact everywhere_iff.2 ⟨hP hsame.sameKeywords hhere, fun c hc => hchild c (child_congr hsame.sameKeywords hc)⟩
  · unfold preserveDescription
    split
    · exact absurd ⟨_, rfl⟩ hobj
    · exact h

/-! ## Nor do the descriptions of references -/

/-- At a schema position there is no reference, nor is its dictionary of properties one. -/
def Plain (s : Json) : Prop := ∀ ms, s = .obj ms → getList "$ref" ms = none ∧
  ∀ ps, getList "properties" ms = some (.obj ps) → getList "$ref" ps = none

theorem plain_congr {ms ms' : Members} (hsame : SameKeywords ms ms') (h : Plain (.obj ms)) : Plain (.obj ms') := by
  intro m hm
  cases hm
  obtain ⟨href, hproperties⟩ := h ms rfl
  rw [hsame "$ref" (by decide), hsame "properties" (by decide)]
  exact ⟨href, hproperties⟩

section

variable {n : ℕ} {ms ms' : Members}

theorem described_obj {a : Json} (h : Described n a (.obj ms')) : ∃ ms, a = .obj ms := by
  cases n with
  | zero => exact ⟨ms', h⟩
  | succ n => cases h <;> exact ⟨_, rfl⟩

theorem described_str {a : Json} {t : String} (h : Described n a (.str t)) : a = .str t := by
  cases n with
  | zero => exact h
  | succ n => cases h; rfl

theorem described_arr {a : Json} {ys : List Json} (h : Described n a (.arr ys)) :
    ∃ xs m, a = .arr xs ∧ List.Forall₂ (Described m) xs ys := by
  cases n with
  | zero => exact ⟨ys, 0, h, List.forall₂_same.2 fun _ _ => rfl⟩
  | succ n =>
    cases h with
    | same => exact ⟨ys, n, rfl, List.forall₂_same.2 fun y _ => .refl n y⟩
    | arr h => exact ⟨_, n, rfl, h⟩

theorem described_members (h : Described n (.obj ms) (.obj ms')) (href : getList "$ref" ms = none) :
    ∃ m, Entrywise (Described m) ms ms' := by
  cases n with
  | zero =>
    cases h
    exact ⟨0, List.forall₂_same.2 fun _ _ => ⟨rfl, rfl⟩⟩
  | succ n =>
    cases h with
    | same => exact ⟨n, List.forall₂_same.2 fun e _ => ⟨rfl, .refl n e.2⟩⟩
    | ref href' => rw [href] at href'; cases href'
    | members h => exact ⟨n, h⟩

theorem described_propertyNames (h : Entrywise (Described n) ms ms')
    (hplain : ∀ ps, getList "properties" ms = some (.obj ps) → getList "$ref" ps = none) :
    propertyNames ms' = propertyNames ms := by
  cases hps' : getList "properties" ms' with
  | none =>
    have hnone := (h.getList_eq_none_iff "properties").1 hps'
    unfold propertyNames
    rw [hps', hnone]
  | some v' =>
    obtain ⟨v, hps, hv⟩ := h.of_getList_some hps'
    by_cases hobj : IsObj v'
    · obtain ⟨ps', rfl⟩ := hobj
      obtain ⟨ps, rfl⟩ := described_obj hv
      obtain ⟨m, hentries⟩ := described_members hv (hplain ps hps)
      rw [propertyNames_of hps, propertyNames_of hps', hentries.keys_eq]
    · have hother : ∀ {node : Members} {w : Json}, getList "properties" node = some w → ¬ IsObj w →
          propertyNames node = [] := by
        intro node w hw hw'
        unfold propertyNames
        rw [hw]
        split
        · rename_i heq
          cases heq
          exact absurd ⟨_, rfl⟩ hw'
        · rfl
      rw [hother hps' hobj, hother hps fun ⟨ps, heq⟩ => hobj (by rw [heq] at hv; exact described_obj hv.symm)]

variable {s s' c' : Json}

theorem child_described (h : Described n s s') (hplain : Plain s) (hc : Child s' c') :
    ∃ c m, Child s c ∧ Described m c c' := by
  have hentries : ∀ {ms'}, s' = .obj ms' → ∃ ms m, s = .obj ms ∧ Entrywise (Described m) ms ms' ∧
      ∀ ps, getList "properties" ms = some (.obj ps) → getList "$ref" ps = none := by
    rintro ms' rfl
    obtain ⟨ms, rfl⟩ := described_obj h
    obtain ⟨href, hproperties⟩ := hplain ms rfl
    obtain ⟨m, hm⟩ := described_members h href
    exact ⟨ms, m, rfl, hm, hproperties⟩
  cases hc with
  | property hps' he =>
    obtain ⟨ms, m, rfl, hm, hproperties⟩ := hentries rfl
    obtain ⟨v, hps, hv⟩ := hm.of_getList_some hps'
    obtain ⟨ps, rfl⟩ := described_obj hv
    obtain ⟨m', hm'⟩ := described_members hv (hproperties ps hps)
    obtain ⟨p, hp, hdescribed⟩ := hm'.of_mem_right he
    exact ⟨p, m', .property hps hp, hdescribed⟩
  | items hs =>
    obtain ⟨ms, m, rfl, hm, -⟩ := hentries rfl
    obtain ⟨v, hv, hdescribed⟩ := hm.of_getList_some hs
    exact ⟨v, m, .items hv, hdescribed⟩
  | additional hs =>
    obtain ⟨ms, m, rfl, hm, -⟩ := hentries rfl
    obtain ⟨v, hv, hdescribed⟩ := hm.of_getList_some hs
    exact ⟨v, m, .additional hv, hdescribed⟩
  | listed hk hxs hx =>
    obtain ⟨ms, m, rfl, hm, -⟩ := hentries rfl
    obtain ⟨v, hv, hdescribed⟩ := hm.of_getList_some hxs
    obtain ⟨xs, m', rfl, hitems⟩ := described_arr hdescribed
    obtain ⟨x, hx, hdescribed⟩ := hitems.exists_of_mem_right hx
    exact ⟨x, m', .listed hk hv hx, hdescribed⟩

theorem plain_described (h : Described n s s') (hplain : Plain s) : Plain s' := by
  rintro ms' rfl
  obtain ⟨ms, rfl⟩ := described_obj h
  obtain ⟨href, hproperties⟩ := hplain ms rfl
  obtain ⟨m, hm⟩ := described_members h href
  refine ⟨(hm.getList_eq_none_iff _).2 href, fun ps' hps' => ?_⟩
  obtain ⟨v, hps, hv⟩ := hm.of_getList_some hps'
  obtain ⟨ps, rfl⟩ := described_obj hv
  obtain ⟨m', hm'⟩ := described_members hv (hproperties ps hps)
  exact (hm'.getList_eq_none_iff _).2 (hproperties ps hps)

theorem cleaned_described (h : Described n s s') (hplain : Plain s) (hclean : Cleaned s) : Cleaned s' := by
  rintro ms' rfl
  obtain ⟨ms, rfl⟩ := described_obj h
  obtain ⟨href, hdefs, hadditional, hrequired⟩ := hclean ms rfl
  obtain ⟨m, hm⟩ := described_members h href
  refine ⟨(hm.getList_eq_none_iff _).2 href, (hm.getList_eq_none_iff _).2 hdefs,
    (hm.getList_eq_none_iff _).2 hadditional, fun required' name hrequired' hname => ?_⟩
  rw [described_propertyNames hm (hplain ms rfl).2]
  obtain ⟨v, hv, hdescribed⟩ := hm.of_getList_some hrequired'
  obtain ⟨required, m', rfl, hitems⟩ := described_arr hdescribed
  obtain ⟨x, hx, hdescribed⟩ := hitems.exists_of_mem_right hname
  rw [described_str hdescribed] at hx
  exact hrequired required name hv hx

/-- What plain positions keep when descriptions of references change, every position keeps. -/
theorem everywhere_described {P : Json → Prop}
    (hP : ∀ {n : ℕ} {s s' : Json}, Described n s s' → Plain s → P s → P s') (h : Described n s s')
    (hplain : Everywhere Plain s) (hs : Everywhere P s) : Everywhere P s' := by
  intro p' hp'
  induction hp' using Relation.ReflTransGen.head_induction_on generalizing n s with
  | refl => exact hP h (everywhere_iff.1 hplain).1 (everywhere_iff.1 hs).1
  | head hc _ ih =>
    obtain ⟨c, m, hsc, hdescribed⟩ := child_described h (everywhere_iff.1 hplain).1 hc
    exact ih hdescribed ((everywhere_iff.1 hplain).2 c hsc) ((everywhere_iff.1 hs).2 c hsc)

theorem SameProperties.described {a r : Json} (h : SameProperties defs a r) : ∀ {n r'}, Described n r r' →
    Everywhere Plain r → SameProperties defs a r' := by
  induction h with
  | ref href htarget _ ih =>
    intro n r' hdescribed hplain
    exact .ref href htarget (ih hdescribed hplain)
  | optional href hvs hfilter _ ih =>
    intro n r' hdescribed hplain
    exact .optional href hvs hfilter (ih hdescribed hplain)
  | @node ms result href hvs hnames _ hi _ hl _ ihp ihi ihl =>
    intro n r' hdescribed hplain
    obtain ⟨result', rfl⟩ := described_obj hdescribed.symm
    obtain ⟨hhere, hchild⟩ := everywhere_iff.1 hplain
    obtain ⟨hnoRef, hproperties⟩ := hhere result rfl
    -- a rebuilt node is no reference, so the results differ in its members only
    obtain ⟨m, hm⟩ := described_members hdescribed hnoRef
    refine .node href hvs ((described_propertyNames hm hproperties).trans hnames) ?_ ?_ ?_ ?_ ?_
    · intro ps ps' name p p' hps hps' hname hname'
      obtain ⟨v, hv, hdescribed⟩ := hm.of_getList_some hps'
      obtain ⟨qs, rfl⟩ := described_obj hdescribed
      obtain ⟨m', hm'⟩ := described_members hdescribed (hproperties qs hv)
      obtain ⟨q, hq, hdescribed⟩ := hm'.of_getList_some hname'
      exact ihp ps qs name p q hps hv hname hq hdescribed (hchild q (.property hv (mem_of_getList hq)))
    · rw [← hi, Option.isSome_eq_isSome, hm.getList_eq_none_iff]
    · intro s s' hs hs'
      obtain ⟨v, hv, hdescribed⟩ := hm.of_getList_some hs'
      exact ihi s v hs hv hdescribed (hchild v (.items hv))
    · intro k xs hk hxs
      obtain ⟨ys, hys, hlength⟩ := hl k xs hk hxs
      obtain ⟨y', hy', hdescribed⟩ := hm.getList_some hys
      obtain ⟨ys', m', rfl, hitems⟩ := described_arr hdescribed.symm
      exact ⟨ys', hy', hitems.length_eq.trans hlength⟩
    · intro k xs ys' i x y' hk hxs hys' hx hy'
      obtain ⟨v, hv, hdescribed⟩ := hm.of_getList_some hys'
      obtain ⟨ys, m', rfl, hitems⟩ := described_arr hdescribed
      obtain ⟨y, hy, hdescribed⟩ := (hitems.flip).exists_of_getElem? hy'
      exact ihl k xs ys i x y hk hxs hv hx hy hdescribed (hchild y (.listed hk hv (List.mem_of_getElem? hy)))

end

/-! ## A rebuilt node -/

theorem mem_kept_iff {ms : Members} {e : String × Json} :
    e ∈ stripWalker.kept ms ↔ e ∈ ms ∧ e.1 ≠ "title" ∧ e.1 ≠ "additionalProperties" := by
  unfold Walker.kept stripWalker
  rw [List.mem_filter]
  simp [and_comm]

/-- The names stay where none of them is popped. -/
theorem keys_kept_iff {ps : Members} : (stripWalker.kept ps).map Prod.fst = ps.map Prod.fst ↔
    ∀ e ∈ ps, e.1 ≠ "title" ∧ e.1 ≠ "additionalProperties" := by
  constructor
  · intro h e he
    have hmem : e.1 ∈ (stripWalker.kept ps).map Prod.fst := h ▸ List.mem_map_of_mem he
    obtain ⟨e', he', hkey⟩ := List.mem_map.1 hmem
    rw [← hkey]
    exact (mem_kept_iff.1 he').2
  · intro h
    have hkept : stripWalker.kept ps = ps := List.filter_eq_self.2 fun e he =>
      (List.mem_filter.1 (mem_kept_iff.2 ⟨he, h e he⟩)).2
    rw [hkept]

section

variable {names : String → Prop} {lists : List String} {ms result : Members} {m : ℕ}
  (hdefs : Walker.DefsAreObjects defs) (shape : NodeShape names lists ms)
  (hobj : ∀ ps e, getList "properties" ms = some (.obj ps) → e ∈ ps → IsObj e.2)
  (hresult : Entrywise (fun x y => stripWalker.walk defs m x = .ok y) (stripWalker.kept ms) result)

include hresult

/-- A member that is not popped is found again, walked. -/
theorem getList_result {k : String} {x : Json} (hx : getList k ms = some x) (hk : k ≠ "additionalProperties")
    (hk' : k ≠ "title") : ∃ y, getList k result = some y ∧ stripWalker.walk defs m x = .ok y :=
  hresult.getList_some ((getList_kept_of_ne hk hk' ms).trans hx)

theorem getList_of_result {k : String} {y : Json} (hy : getList k result = some y) :
    ∃ x, getList k ms = some x ∧ stripWalker.walk defs m x = .ok y := by
  obtain ⟨x, hx, hwalk⟩ := hresult.of_getList_some hy
  exact ⟨x, Walker.getList_of_kept hx, hwalk⟩

theorem getList_result_none {k : String} (hk : getList k ms = none) : getList k result = none := by
  rw [hresult.getList_eq_none_iff, Walker.getList_kept, hk, ite_self]

include hdefs hobj

theorem properties_result {ps : Members} (hps : getList "properties" ms = some (.obj ps)) :
    ∃ m' ps', getList "properties" result = some (.obj ps') ∧
      Entrywise (fun x y => stripWalker.walk defs m' x = .ok y) (stripWalker.kept ps) ps' := by
  obtain ⟨y, hy, hwalk⟩ := getList_result hresult hps (by decide) (by decide)
  obtain ⟨-, m', ps', hps', rfl⟩ := walk_properties stripWalker_lawful hdefs (fun e => hobj ps e hps) hwalk
  exact ⟨m', ps', hy, hps'⟩

include shape

/-- The node keeps its property names exactly where none of them is popped. -/
theorem propertyNames_result_iff : propertyNames result = propertyNames ms ↔ NamesKept ms := by
  cases hps : getList "properties" ms with
  | none =>
    have hnone := getList_result_none hresult hps
    unfold propertyNames NamesKept
    rw [hps, hnone]
    exact ⟨fun _ ps h => (by cases h), fun _ => rfl⟩
  | some v =>
    obtain ⟨ps, rfl, -⟩ := shape.properties v hps
    obtain ⟨m', ps', hps', hentries⟩ := properties_result hdefs hobj hresult hps
    rw [propertyNames_of hps, propertyNames_of hps', hentries.keys_eq, keys_kept_iff]
    unfold NamesKept
    rw [hps]
    constructor
    · intro h ps h'
      cases h'; exact h
    · exact fun h => h ps rfl

/-- A node whose property names stay is cleaned. -/
theorem cleaned_result (hnames : NamesKept ms) : Cleaned (.obj result) := by
  intro m hm
  cases hm
  refine ⟨getList_result_none hresult shape.noRef, getList_result_none hresult shape.noDefs, ?_, ?_⟩
  · rw [hresult.getList_eq_none_iff, Walker.getList_kept, if_pos (by decide)]
  · intro required name hrequired hname
    obtain ⟨x, hx, hwalk⟩ := getList_of_result hresult hrequired
    obtain ⟨listed, rfl, hlisted⟩ := shape.required x hx
    obtain ⟨m', ys, heq, hys⟩ := walk_arr hwalk
    cases heq
    obtain ⟨w, hw, hwalk⟩ := hys.exists_of_mem_right hname
    obtain ⟨name', hname', rfl⟩ := List.mem_map.1 hw
    rw [(propertyNames_result_iff hdefs shape hobj hresult).2 hnames]
    have hkind := ((Walker.walk_sameKind stripWalker_lawful hdefs hwalk).1 name).2 rfl
    cases hkind
    exact hlisted name hname'

end

/-! ## The whole result -/

section

variable {names : String → Prop} {lists : List String} {ms : Members} {a r : Json} {n : ℕ}

theorem length_ne_of_onlyVariant (hchoice : onlyVariant (stripWalker.kept ms) = .ok none) {vs : List Members}
    (hvs : getList "anyOf" ms = some (.arr (vs.map .obj))) : (vs.filter (fun v => !isNull v)).length ≠ 1 := by
  intro hlength
  obtain ⟨v, hv⟩ := List.length_eq_one_iff.1 hlength
  rw [onlyVariant_eq_some.2 ⟨vs, (getList_kept_of_ne (by decide) (by decide) ms).trans hvs, hv, rfl⟩] at hchoice
  cases hchoice

theorem sameProperties_ref_iff {name : String} {target : Json}
    (href : getList "$ref" ms = some (.str ("#/$defs/" ++ name))) (htarget : getList name defs = some target) :
    SameProperties defs (.obj ms) r ↔ SameProperties defs target r := by
  refine ⟨fun h => ?_, .ref href htarget⟩
  cases h with
  | ref href' htarget' h =>
    rw [href] at href'
    have hname := (String.append_right_inj _).1 (Json.str.inj (Option.some.inj href'))
    subst hname
    rw [htarget] at htarget'; cases htarget'
    exact h
  | optional href' | node href' => rw [href] at href'; cases href'

theorem sameProperties_optional_iff {v : Members} {nullPresent : Bool} (href : getList "$ref" ms = none)
    (hchoice : onlyVariant (stripWalker.kept ms) = .ok (some (v, nullPresent))) :
    SameProperties defs (.obj ms) r ↔ SameProperties defs (.obj v) r := by
  obtain ⟨vs, hvs, hfilter, -⟩ := onlyVariant_eq_some.1 hchoice
  rw [getList_kept_of_ne (by decide) (by decide)] at hvs
  refine ⟨fun h => ?_, .optional href hvs hfilter⟩
  cases h with
  | ref href' => rw [href] at href'; cases href'
  | optional _ hvs' hfilter' h =>
    rw [hvs, Option.some.injEq, Json.arr.injEq, List.map_inj_right fun _ _ => Json.obj.inj] at hvs'
    subst hvs'
    rw [hfilter] at hfilter'; cases hfilter'
    exact h
  | node _ hlength => exact absurd (by rw [hfilter]; rfl) (hlength vs hvs)

section

variable {result : Members} {m : ℕ} (hdefs : Walker.DefsAreObjects defs) (shape : NodeShape names lists ms)
  (hobj : ∀ ps e, getList "properties" ms = some (.obj ps) → e ∈ ps → IsObj e.2)
  (hnone : onlyVariant (stripWalker.kept ms) = .ok none)
  (hresult : Entrywise (fun x y => stripWalker.walk defs m x = .ok y) (stripWalker.kept ms) result)
  (ihp : ∀ ps e, getList "properties" ms = some (.obj ps) → e ∈ ps → ∀ {n r}, stripWalker.walk defs n e.2 = .ok r →
    (SameProperties defs e.2 r ↔ EveryNode stripWalker defs NamesKept e.2))
  (ihi : ∀ s, getList "items" ms = some s → ∀ {n r}, stripWalker.walk defs n s = .ok r →
    (SameProperties defs s r ↔ EveryNode stripWalker defs NamesKept s))
  (ihl : ∀ k (vs : List Members) v, k ∈ listKeywords → getList k ms = some (.arr (vs.map .obj)) → v ∈ vs →
    ∀ {n r}, stripWalker.walk defs n (.obj v) = .ok r →
      (SameProperties defs (.obj v) r ↔ EveryNode stripWalker defs NamesKept (.obj v)))

include hdefs shape hobj hnone hresult ihp ihi ihl

/-- A rebuilt node with the same properties everywhere has had no name popped, nor has what stands in it. -/
theorem everyNode_of_sameProperties (h : SameProperties defs (.obj ms) (.obj result)) :
    EveryNode stripWalker defs NamesKept (.obj ms) := by
  cases h with
  | ref href => rw [shape.noRef] at href; cases href
  | optional _ hvs hfilter => exact absurd (by rw [hfilter]; rfl) (length_ne_of_onlyVariant hnone hvs)
  | node _ _ hsame hps _ hitem _ hlist =>
    refine .node shape.noRef hnone ((propertyNames_result_iff hdefs shape hobj hresult).1 hsame) ?_ ?_ ?_ ?_
    · rintro ps ⟨name, p⟩ h he
      obtain ⟨m', ps', h', hentries⟩ := properties_result hdefs hobj hresult h
      obtain ⟨_, heq, hnodup, -⟩ := shape.properties _ h
      cases heq
      have hname := (mem_iff_getList hnodup).1 (Walker.mem_of_mem_kept he)
      have hkept := (mem_kept_iff.1 he).2
      obtain ⟨p', hp', hwalk⟩ := hentries.getList_some ((getList_kept_of_ne hkept.2 hkept.1 ps).trans hname)
      exact (ihp ps (name, p) h (Walker.mem_of_mem_kept he) hwalk).1 (hps ps ps' name p p' h h' hname hp')
    · intro s h
      obtain ⟨s', h', hwalk⟩ := getList_result hresult h (by decide) (by decide)
      exact (ihi s h hwalk).1 (hitem s s' h h')
    · intro s h
      rw [Walker.getList_kept, if_pos (by decide)] at h
      cases h
    · intro k vs v hk h hv
      obtain ⟨-, hadd, htitle⟩ := ne_of_mem_listKeywords hk
      obtain ⟨y, h', hwalk⟩ := getList_result hresult h hadd htitle
      obtain ⟨m', ys, rfl, hys⟩ := walk_arr hwalk
      obtain ⟨i, hiv⟩ := List.getElem?_of_mem (List.mem_map_of_mem (f := Json.obj) hv)
      obtain ⟨y, hiy, hwalk⟩ := hys.exists_of_getElem? hiv
      exact (ihl k vs v hk h hv hwalk).1 (hlist k _ ys i _ y hk h h' hiv hiy)

/-- A rebuilt node of which no name is popped has the same properties everywhere. -/
theorem sameProperties_of_everyNode (h : EveryNode stripWalker defs NamesKept (.obj ms)) :
    SameProperties defs (.obj ms) (.obj result) := by
  cases h with
  | ref href => rw [shape.noRef] at href; cases href
  | single _ hsome => rw [hnone] at hsome; cases hsome
  | node _ _ hkept hps hitem _ hlist =>
    refine .node shape.noRef (fun vs => length_ne_of_onlyVariant hnone)
      ((propertyNames_result_iff hdefs shape hobj hresult).2 hkept) ?_ ?_ ?_ ?_ ?_
    · intro ps ps' name p p' h h' hname hname'
      obtain ⟨m', _, h'', hentries⟩ := properties_result hdefs hobj hresult h
      cases h'.symm.trans h''
      have hmem := mem_of_getList hname
      have hne := hkept ps h _ hmem
      obtain ⟨y, hy, hwalk⟩ := hentries.getList_some ((getList_kept_of_ne hne.2 hne.1 ps).trans hname)
      cases hname'.symm.trans hy
      exact (ihp ps (name, p) h hmem hwalk).2 (hps ps _ h (mem_kept_iff.2 ⟨hmem, hne⟩))
    · cases h : getList "items" ms with
      | none => rw [getList_result_none hresult h]
      | some s =>
        obtain ⟨s', h', -⟩ := getList_result hresult h (by decide) (by decide)
        rw [h']; rfl
    · intro s s' h h'
      obtain ⟨y, hy, hwalk⟩ := getList_result hresult h (by decide) (by decide)
      cases h'.symm.trans hy
      exact (ihi s h hwalk).2 (hitem s h)
    · intro k xs hk h
      obtain ⟨-, hadd, htitle⟩ := ne_of_mem_listKeywords hk
      obtain ⟨y, h', hwalk⟩ := getList_result hresult h hadd htitle
      obtain ⟨m', ys, rfl, hys⟩ := walk_arr hwalk
      exact ⟨ys, h', hys.length_eq.symm⟩
    · intro k xs xs' i x x' hk h h' hx hx'
      obtain ⟨-, hadd, htitle⟩ := ne_of_mem_listKeywords hk
      obtain ⟨y, hy, hwalk⟩ := getList_result hresult h hadd htitle
      cases h'.symm.trans hy
      obtain ⟨m', ys, heq, hys⟩ := walk_arr hwalk
      cases heq
      obtain ⟨-, vs, heq⟩ := shape.listed k _ hk h
      cases heq
      obtain ⟨v, hv, rfl⟩ := List.mem_map.1 (List.mem_of_getElem? hx)
      obtain ⟨y, hy, hwalk⟩ := hys.exists_of_getElem? hx
      cases hx'.symm.trans hy
      exact (ihl k vs v hk h hv hwalk).2 (hlist k vs v hk h hv)

end

/-- Where the walk returns, the result has the properties of the original exactly where none of their names is
popped. -/
theorem sameProperties_iff (hdefs : Walker.DefsAreObjects defs) (h : Generated names lists defs a) :
    ∀ {n r}, stripWalker.walk defs n a = .ok r →
      (SameProperties defs a r ↔ EveryNode stripWalker defs NamesKept a) := by
  induction h with
  | ref _ href hname htarget _ _ ih =>
    intro n r hwalk
    have htarget' := (refName_pointer hname).symm ▸ htarget
    obtain ⟨m, hwalk⟩ := walk_ref href htarget' hwalk
    rw [sameProperties_ref_iff href htarget, everyNode_ref_iff href htarget', ih hwalk]
  | @node ms shape hp hi ha hl ihp ihi iha ihl =>
    intro n r hwalk
    have hobj : ∀ ps e, getList "properties" ms = some (.obj ps) → e ∈ ps → IsObj e.2 :=
      fun ps e h he => (hp ps e h he).isObj
    rcases shape.onlyVariant_returns stripWalker_lawful with hnone | ⟨v, nullPresent, hsome⟩
    · obtain ⟨m, result, closed, hresult, hclosed, rfl⟩ := walk_members shape.noRef hnone hwalk
      cases hclosed
      exact ⟨everyNode_of_sameProperties hdefs shape hobj hnone hresult ihp ihi ihl,
        sameProperties_of_everyNode hdefs shape hobj hnone hresult ihp ihi ihl⟩
    · obtain ⟨m, resolved, hresolved, rfl⟩ := walk_single shape.noRef hsome hwalk
      obtain ⟨vs, hvs, hv⟩ := mem_of_onlyVariant stripWalker_lawful hsome
      obtain ⟨result, rfl⟩ := Walker.isObj_of_walk stripWalker_lawful hdefs hresolved ⟨v, rfl⟩
      obtain ⟨result', heq, hsame⟩ := preserveDescription_obj (stripWalker.kept ms) result
      rw [sameProperties_optional_iff shape.noRef hsome, everyNode_single_iff shape.noRef hsome,
        ← ihl "anyOf" vs v (by decide) hvs hv hresolved]
      show SameProperties defs (.obj v) (preserveDescription (stripWalker.kept ms) (.obj result)) ↔ _
      rw [heq]
      exact ⟨fun h => h.congr rfl hsame.sameKeywords.symm, fun h => h.congr rfl hsame.sameKeywords⟩

/-- The result of a walk that returns is cleaned at every position, where no property's name is popped. -/
theorem everywhere_cleaned (hdefs : Walker.DefsAreObjects defs) (h : Generated names lists defs a)
    (hwalk : stripWalker.walk defs n a = .ok r) (hkept : EveryNode stripWalker defs NamesKept a) :
    Everywhere Cleaned r := by
  refine h.everywhere_walk stripWalker_lawful hdefs (fun s hs ms hms => absurd ⟨ms, hms⟩ hs) ?_ ?_ hwalk hkept
  · intro ms m result closed shape hnames hobj hresult hclosed
    cases hclosed
    exact cleaned_result hdefs shape hobj hresult hnames
  · exact fun node _ resolved => everywhere_preserveDescription cleaned_congr node

/-- The result of a walk that returns has no references at schema positions. -/
theorem everywhere_plain (hdefs : Walker.DefsAreObjects defs) (h : Generated names lists defs a)
    (hwalk : stripWalker.walk defs n a = .ok r) : Everywhere Plain r := by
  have hpass := (h.settles_iff stripWalker_lawful).1 (Walker.Settles.of_walk stripWalker_lawful hdefs hwalk)
  refine h.everywhere_walk stripWalker_lawful hdefs (fun s hs ms hms => absurd ⟨ms, hms⟩ hs) ?_ ?_ hwalk hpass
  · intro ms m result closed shape _ hobj hresult hclosed
    cases hclosed
    intro m' hm'
    cases hm'
    refine ⟨getList_result_none hresult shape.noRef, fun ps' hps' => ?_⟩
    obtain ⟨v, hv, -⟩ := getList_of_result hresult hps'
    obtain ⟨ps, rfl, -⟩ := shape.properties v hv
    obtain ⟨y, hy, hwalk⟩ := getList_result hresult hv (by decide) (by decide)
    cases hps'.symm.trans hy
    obtain ⟨hnames, m', qs, hqs, heq⟩ := walk_properties stripWalker_lawful hdefs (fun e => hobj ps e hv) hwalk
    cases heq
    rw [hqs.getList_eq_none_iff, getList_kept_of_ne (by decide) (by decide)]
    exact hnames.1
  · exact fun node _ resolved => everywhere_preserveDescription plain_congr node

/-- `_strip_additional_properties` keeps the structure of a generated schema exactly where, at every node it
visits, it can pass through the data and no property is called like a keyword it acts on. -/
theorem keepsStructure_iff {schema : Members} (h : GeneratedSchema (fun _ => True) listKeywords schema) :
    KeepsStructure schema ↔ EveryNode stripWalker (definitions schema)
      (fun ms => Passable stripWalker (definitions schema) ms ∧ NamesKept ms) (withoutDefs schema) := by
  constructor
  · rintro ⟨bound, result, hreturns, -, hsame⟩
    have halike := stripAdditionalProperties_alike bound schema
    rw [hreturns bound le_rfl] at halike
    generalize hwalk : stripWalker.walk (definitions schema) bound (withoutDefs schema) = x at halike
    cases halike with
    | ok hdescribed =>
      have hplain := everywhere_plain h.defs h.root hwalk
      have hplain' := everywhere_described (fun hstep hhere _ => plain_described hstep hhere) hdescribed hplain hplain
      have hsame := hsame.described hdescribed.symm hplain'
      exact ((h.root.settles_iff stripWalker_lawful).1 (Walker.Settles.of_walk stripWalker_lawful h.defs hwalk)).and
        ((sameProperties_iff h.defs h.root hwalk).1 hsame)
  · intro hevery
    have hpass := h.root.everyNode_mono stripWalker_lawful (fun _ _ h => h.1) hevery
    have hkept := h.root.everyNode_mono stripWalker_lawful (fun _ _ h => h.2) hevery
    obtain ⟨bound, r, hwalk⟩ :=
      ((h.root.settles_iff stripWalker_lawful).2 hpass).exists_walk stripWalker_lawful h.defs
    have halike := stripAdditionalProperties_alike bound schema
    rw [hwalk] at halike
    generalize hstrip : stripAdditionalProperties bound schema = x at halike
    cases halike with
    | @ok _ result hdescribed =>
      have hplain := everywhere_plain h.defs h.root hwalk
      exact ⟨bound, result, stripAdditionalProperties_mono hstrip,
        everywhere_described cleaned_described hdescribed hplain (everywhere_cleaned h.defs h.root hwalk hkept),
        ((sameProperties_iff h.defs h.root hwalk).2 hkept).described hdescribed hplain⟩

end

theorem keepsStructure_scored : KeepsStructure scoredSchema := by
  have hnames : ∀ {ps : Members} {required : List String},
      (∀ e ∈ ps, e.1 ≠ "title" ∧ e.1 ≠ "additionalProperties") → NamesKept (modelSchema ps required) := by
    intro ps required h ps' hps'
    cases hps'
    exact h
  exact (keepsStructure_iff (scoredSchema_generated (fun _ _ => trivial) (by decide))).2
    (everyNode_scored stripWalker_lawful
      ⟨passable_model _ ⟨rfl, fun p hp => by cases hp⟩, hnames (by decide)⟩
      ⟨passable_model _ ⟨rfl, fun p hp => by cases hp⟩, hnames (by decide)⟩
      fun t => ⟨passable_field t, fun ps h => by cases h⟩)

/-- A model with a required title. -/
def titledSchema : Members := modelSchema [("title", .obj [("type", .str "string")])] ["title"]

theorem titledSchema_generated : GeneratedSchema (fun _ => True) listKeywords titledSchema where
  defs name target h := by cases h
  root := generated_model (by decide) (fun _ _ => trivial) (by decide) fun e he => by
    rw [List.mem_singleton.1 he]
    exact generated_field _ [] List.nodup_nil (by simp)

/-- The property is popped like a title, and stays required. -/
theorem not_keepsStructure :
    ¬ ∀ schema, GeneratedSchema (fun _ => True) listKeywords schema → KeepsStructure schema := by
  intro h
  obtain ⟨bound, result, hreturns, hclean, -⟩ := h titledSchema titledSchema_generated
  have hwalk : stripAdditionalProperties (bound + 3) titledSchema = .ok (.obj (modelSchema [] ["title"])) := rfl
  rw [hreturns (bound + 3) (by omega)] at hwalk
  cases hwalk
  have hroot := hclean _ .refl _ rfl
  have hmem : "title" ∈ propertyNames (modelSchema [] ["title"]) :=
    hroot.2.2.2 _ "title" rfl (List.mem_singleton_self _)
  cases hmem

end GeminiSchema

end TradingAgent
