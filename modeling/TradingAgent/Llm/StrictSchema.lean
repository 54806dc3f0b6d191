/-
The strict schema that is sent to OpenAI. The walk closes every object schema with properties and keeps
an unwrapped optional nullable, so that a value that obeys the result obeys the schema it was made from;
this fails where the walk takes data for a schema. It comes to an end exactly where the data lets it.
-/
import TradingAgent.Llm.GeneratedSchema

namespace TradingAgent

open Json Dict

namespace StrictSchema

/-- An unwrapped variant is wrapped with null again, where null was a variant. -/
def keepNullable (_node : Members) (nullPresent : Bool) (resolved : Json) : Json :=
  match resolved with
  | .obj _ => if nullPresent then .obj [("anyOf", .arr [resolved, .obj [("type", .str "null")]])] else resolved
  | _ => resolved

/-- Ensure `additionalProperties: false` and a full `required`. -/
def closeObject (result : Members) : Except Exn Members :=
  match getList "type" result, getList "properties" result with
  | some (.str t), some properties =>
    if t = "object" then do
      let keys := (← asDict properties).map (fun e => .str e.1)
      return setList "required" (.arr keys) (setList "additionalProperties" (.bool false) result)
    else .ok result
  | _, _ => .ok result

def fixWalker : Walker where
  dropped := []
  single := keepNullable
  close := closeObject

/-- `_fix(node)` -/
def fix (defs : Members) (limit : ℕ) (node : Json) : Except Exn Json := fixWalker.walk defs limit node

/-- `_strict_schema(schema)` -/
def strictSchema (limit : ℕ) (schema : Members) : Except Exn Json :=
  fix (definitions schema) limit (withoutDefs schema)

/-! ## Finishing a node -/

/-- The node says that it is an object and has properties. -/
def HasProperties (node : Members) (ps : Members) : Prop :=
  getList "type" node = some (.str "object") ∧ getList "properties" node = some (.obj ps)

/-- The node with the properties closed. -/
def closedWith (ps result : Members) : Members :=
  setList "required" (.arr (ps.map (fun e => .str e.1))) (setList "additionalProperties" (.bool false) result)

/-- Either the node is an object schema with properties and is closed, or it stays as it is. -/
theorem closeObject_eq_ok {result closed : Members} (h : closeObject result = .ok closed) :
    (∃ ps, HasProperties result ps ∧ closed = closedWith ps result) ∨
      (∀ ps, ¬ HasProperties result ps) ∧ closed = result := by
  unfold closeObject at h
  split at h
  · rename_i t properties htype hproperties
    split at h
    · rename_i ht
      subst ht
      obtain ⟨ps, hps, h⟩ := Wp.bind_eq_ok.1 h
      cases h
      unfold asDict at hps
      split at hps
      · cases hps
        exact Or.inl ⟨ps, ⟨htype, hproperties⟩, rfl⟩
      · cases hps
    · rename_i ht
      cases h
      refine Or.inr ⟨fun ps hhas => ht ?_, rfl⟩
      have heq := htype.symm.trans hhas.1
      cases heq; rfl
  · rename_i hother
    cases h
    exact Or.inr ⟨fun ps hhas => hother _ _ hhas.1 hhas.2, rfl⟩

theorem closes_iff {node : Members} : fixWalker.Closes node ↔
    (getList "type" node = some (.str "object") → ∀ v, getList "properties" node = some v → IsObj v) := by
  unfold Walker.Closes
  show (∃ closed, closeObject node = .ok closed) ↔ _
  constructor
  · rintro ⟨closed, h⟩ htype v hv
    unfold closeObject at h
    rw [htype, hv] at h
    dsimp only at h
    rw [if_pos rfl] at h
    obtain ⟨ps, hps, -⟩ := Wp.bind_eq_ok.1 h
    unfold asDict at hps
    split at hps
    · exact ⟨_, rfl⟩
    · cases hps
  · intro h
    unfold closeObject
    split
    · rename_i t properties htype hproperties
      split
      · rename_i ht
        subst ht
        obtain ⟨ps, rfl⟩ := h htype properties hproperties
        exact ⟨_, rfl⟩
      · exact ⟨_, rfl⟩
    · exact ⟨_, rfl⟩

theorem getList_closedWith {ps result : Members} {k : String} (hk : k ≠ "required")
    (hk' : k ≠ "additionalProperties") : getList k (closedWith ps result) = getList k result := by
  unfold closedWith
  rw [getList_setList_ne _ hk, getList_setList_ne _ hk']

theorem closed_additional (ps result : Members) :
    getList "additionalProperties" (closedWith ps result) = some (.bool false) := by
  unfold closedWith
  rw [getList_setList_ne _ (by decide), getList_setList_self]

theorem closed_required (ps result : Members) :
    getList "required" (closedWith ps result) = some (.arr (ps.map (fun e => .str e.1))) :=
  getList_setList_self ..

theorem fixWalker_lawful : fixWalker.Lawful where
  dropped k hk := by cases hk
  isObj_single := by
    rintro node nullPresent resolved ⟨ms, rfl⟩
    show IsObj (keepNullable node nullPresent (.obj ms))
    unfold keepNullable
    dsimp only
    split <;> exact ⟨_, rfl⟩
  closes_congr := by
    intro node result h
    rw [closes_iff, closes_iff]
    constructor <;> intro hcloses htype v hv
    · obtain ⟨t, ht, hkind⟩ := h.getList_some htype
      rw [(hkind.1 _).1 rfl] at ht
      obtain ⟨v', hv', hkind'⟩ := h.getList_some hv
      exact hkind'.2.2 (hcloses ht v' hv')
    · obtain ⟨t, ht, hkind⟩ := h.of_getList_some htype
      rw [(hkind.1 _).2 rfl] at ht
      obtain ⟨v', hv', hkind'⟩ := h.of_getList_some hv
      exact hkind'.2.1 (hcloses ht v' hv')
  closes_of_properties h := closes_iff.2 fun _ => h
  close_of_untyped := by
    intro node h
    show closeObject node = .ok node
    unfold closeObject
    split
    · rename_i t _ htype _
      exact absurd htype (h t)
    · rfl
  getList_close := by
    intro node closed k h hk hk'
    rcases closeObject_eq_ok h with ⟨ps, -, rfl⟩ | ⟨-, rfl⟩
    · exact getList_closedWith hk hk'
    · rfl
  additional_close := by
    intro node closed s h hs
    rcases closeObject_eq_ok h with ⟨ps, -, rfl⟩ | ⟨-, rfl⟩
    · rw [closed_additional] at hs
      cases hs
      exact Or.inl rfl
    · exact Or.inr hs

/-! ## The result is closed -/

/-- An object schema with properties has `additionalProperties` false and requires each of them. -/
def ClosedObject (s : Json) : Prop := ∀ ms ps, s = .obj ms → HasProperties ms ps →
  getList "additionalProperties" ms = some (.bool false) ∧
    getList "required" ms = some (.arr (ps.map (fun e => .str e.1)))

def StrictNode (s : Json) : Prop := Lacks "$ref" s ∧ ClosedObject s

theorem strictNode_of_not_isObj {s : Json} (h : ¬ IsObj s) : StrictNode s :=
  ⟨fun ms hs => absurd ⟨ms, hs⟩ h, fun ms _ hs => absurd ⟨ms, hs⟩ h⟩

theorem strictNode_close {result closed : Members} (href : getList "$ref" result = none)
    (h : closeObject result = .ok closed) : StrictNode (.obj closed) := by
  rcases closeObject_eq_ok h with ⟨ps, hps, rfl⟩ | ⟨hno, rfl⟩
  · constructor
    · rintro ms hms
      cases hms
      rw [getList_closedWith (by decide) (by decide)]; exact href
    · rintro ms ps' hms ⟨-, hps'⟩
      cases hms
      rw [getList_closedWith (by decide) (by decide), hps.2] at hps'
      cases hps'
      exact ⟨closed_additional ps result, closed_required ps result⟩
  · constructor
    · rintro ms hms
      cases hms; exact href
    · rintro ms ps hms hps
      cases hms
      exact absurd hps (hno ps)

theorem strictNode_of_no_properties {ms : Members} (href : getList "$ref" ms = none)
    (hproperties : getList "properties" ms = none) : StrictNode (.obj ms) := by
  constructor
  · rintro ms' hms
    cases hms; exact href
  · rintro ms' ps hms hps
    cases hms
    cases hproperties.symm.trans hps.2

/-- In a dictionary with one member only that one is found. -/
theorem getList_singleton {k k' : String} {v w : Json} (h : getList k [(k', v)] = some w) : k' = k ∧ v = w := by
  unfold getList at h
  split at h
  · rename_i hk
    cases h
    exact ⟨hk, rfl⟩
  · cases h

theorem everywhere_null : Everywhere StrictNode (.obj [("type", .str "null")]) := by
  refine everywhere_iff.2 ⟨strictNode_of_no_properties (by simp [getList]) (by simp [getList]), fun c hc => ?_⟩
  cases hc with
  | property hy => cases (getList_singleton hy).2
  | items hy | additional hy => exact absurd (getList_singleton hy).1 (by decide)
  | listed _ hy => cases (getList_singleton hy).2

theorem everywhere_keepNullable (node : Members) (nullPresent : Bool) (resolved : Json)
    (h : Everywhere StrictNode resolved) : Everywhere StrictNode (keepNullable node nullPresent resolved) := by
  unfold keepNullable
  split
  · split
    · refine everywhere_iff.2 ⟨strictNode_of_no_properties (by simp [getList]) (by simp [getList]), fun c hc => ?_⟩
      cases hc with
      | property hy => cases (getList_singleton hy).2
      | items hy | additional hy => exact absurd (getList_singleton hy).1 (by decide)
      | listed _ hy hx =>
        cases (getList_singleton hy).2
        rcases List.mem_cons.1 hx with rfl | hx
        · exact h
        · rw [List.mem_singleton.1 hx]
          exact everywhere_null
    · exact h
  · exact h

/-! ## Data that stays as it is -/

/-- The walk gives the value back: no dictionary in it refers to a definition, offers a single variant or looks
like an object schema with properties. -/
inductive Inert (defs : Members) : Json → Prop
  | null : Inert defs .null
  | bool (b : Bool) : Inert defs (.bool b)
  | num (x : ℚ) : Inert defs (.num x)
  | str (s : String) : Inert defs (.str s)
  | arr {xs : List Json} : (∀ x ∈ xs, Inert defs x) → Inert defs (.arr xs)
  | unknown {ms : Members} {refPath : String} : getList "$ref" ms = some (.str refPath) →
      getList (refName refPath) defs = none → Inert defs (.obj ms)
  | members {ms : Members} : getList "$ref" ms = none → onlyVariant ms = .ok none →
      (getList "type" ms = some (.str "object") → getList "properties" ms = none) →
      (∀ e ∈ ms, Inert defs e.2) → Inert defs (.obj ms)

/-- The members of an enumeration stay as they are. -/
def EnumsInert (defs ms : Members) : Prop :=
  ∀ xs, getList "enum" ms = some (.arr xs) → ∀ x ∈ xs, Inert defs x

theorem kept_eq (ms : Members) : fixWalker.kept ms = ms := List.filter_eq_self.2 fun _ _ => rfl

variable {defs ms result closed : Members} {n m : ℕ}

theorem Inert.walk_eq {v : Json} (h : Inert defs v) : ∀ {n r}, fix defs n v = .ok r → r = v := by
  unfold fix
  induction h with
  | null | bool | num | str =>
    intro n r hwalk
    cases n <;> cases hwalk
    rfl
  | arr _ ih =>
    intro n r hwalk
    obtain ⟨m, ys, rfl, hys⟩ := walk_arr hwalk
    rw [hys.eq_of_rel fun x hx y hwalk => ih x hx hwalk]
  | @unknown ms _ href hnone =>
    intro n r hwalk
    cases n with
    | zero => cases hwalk
    | succ n =>
      cases Walker.walk_obj_eq_ok.1 hwalk with
      | ref href' htarget =>
        rw [href] at href'; cases href'
        rw [hnone] at htarget; cases htarget
      | unknown => rfl
      | single href' | members href' => rw [href] at href'; cases href'
  | @members ms href hchoice hobject _ ih =>
    intro n r hwalk
    rw [← kept_eq ms] at hchoice
    obtain ⟨m, result, closed, hresult, hclosed, rfl⟩ := walk_members href hchoice hwalk
    rw [kept_eq] at hresult
    have hsame : result = ms := hresult.eq_of_rel fun e he e' hwalk =>
      Prod.ext hwalk.1.symm (ih e he hwalk.2)
    subst hsame
    rcases closeObject_eq_ok hclosed with ⟨ps, hps, -⟩ | ⟨-, rfl⟩
    · cases (hobject hps.1).symm.trans hps.2
    · rfl

/-! ## The result only tightens -/

variable {names : String → Prop} {lists : List String}

/-- Every member but the two that closing writes is found again, walked. -/
theorem getList_closed (hresult : Entrywise (fun x y => fix defs m x = .ok y) ms result)
    (hclosed : closeObject result = .ok closed) {k : String} {x : Json} (hx : getList k ms = some x)
    (hk : k ≠ "required") (hk' : k ≠ "additionalProperties") :
    ∃ y, getList k closed = some y ∧ fix defs m x = .ok y := by
  rw [fixWalker_lawful.getList_close hclosed hk hk']
  exact hresult.getList_some hx

section

variable (hdefs : Walker.DefsAreObjects defs) (shape : NodeShape names lists ms)
  (hproperties : ∀ ps e, getList "properties" ms = some (.obj ps) → e ∈ ps → IsObj e.2)
  (hresult : Entrywise (fun x y => fix defs m x = .ok y) ms result) (hclosed : closeObject result = .ok closed)

include hdefs hproperties hresult hclosed

theorem properties_closed {ps : Members} (hps : getList "properties" ms = some (.obj ps)) :
    ∃ m' ps', getList "properties" closed = some (.obj ps') ∧ Entrywise (fun x y => fix defs m' x = .ok y) ps ps' := by
  obtain ⟨y, hy, hwalk⟩ := getList_closed hresult hclosed hps (by decide) (by decide)
  obtain ⟨-, m', ps', hps', rfl⟩ := walk_properties fixWalker_lawful hdefs (fun e => hproperties ps e hps) hwalk
  rw [kept_eq] at hps'
  exact ⟨m', ps', hy, hps'⟩

include shape

theorem propertyNames_closed : propertyNames closed = propertyNames ms := by
  cases hps : getList "properties" ms with
  | none =>
    have hnone : getList "properties" closed = none := by
      rw [fixWalker_lawful.getList_close hclosed (by decide) (by decide), hresult.getList_eq_none_iff, hps]
    unfold propertyNames
    rw [hps, hnone]
  | some v =>
    obtain ⟨ps, rfl, -⟩ := shape.properties v hps
    obtain ⟨m', ps', hps', hentries⟩ := properties_closed hdefs hproperties hresult hclosed hps
    rw [propertyNames_of hps, propertyNames_of hps', hentries.keys_eq]

/-- A required name is required of the result too. -/
theorem required_closed {required : List Json} {name : String}
    (hrequired : getList "required" ms = some (.arr required))
    (hname : .str name ∈ required) :
    ∃ required', getList "required" closed = some (.arr required') ∧ .str name ∈ required' := by
  obtain ⟨listed, hlisted, hnames⟩ := shape.required _ hrequired
  cases hlisted
  obtain ⟨name', hname', heq⟩ := List.mem_map.1 hname
  cases heq
  rcases closeObject_eq_ok hclosed with ⟨ps, hps, rfl⟩ | ⟨-, rfl⟩
  · refine ⟨_, closed_required ps result, ?_⟩
    have hmem := hnames name hname'
    rw [← propertyNames_closed hdefs shape hproperties hresult hclosed,
      propertyNames_of ((getList_closedWith (by decide) (by decide)).trans hps.2)] at hmem
    obtain ⟨e, he, rfl⟩ := List.mem_map.1 hmem
    exact List.mem_map_of_mem he
  · obtain ⟨y, hy, hwalk⟩ := hresult.getList_some hrequired
    have hinert : Inert defs (.arr (listed.map .str)) := .arr fun x hx => by
      obtain ⟨name, -, rfl⟩ := List.mem_map.1 hx
      exact .str name
    rw [hinert.walk_eq hwalk] at hy
    exact ⟨_, hy, hname⟩

omit hproperties shape hdefs in
/-- What may stand beside the properties is narrowed to nothing, or is walked. -/
theorem additional_closed {s : Json} (hs : getList "additionalProperties" ms = some s) :
    getList "additionalProperties" closed = some (.bool false) ∨
      ∃ y, getList "additionalProperties" closed = some y ∧ fix defs m s = .ok y := by
  rcases closeObject_eq_ok hclosed with ⟨ps, -, rfl⟩ | ⟨-, rfl⟩
  · exact Or.inl (closed_additional ps result)
  · exact Or.inr (hresult.getList_some hs)

end

theorem absent_of_only {k k' : String} (honly : ∀ e ∈ ms, e.1 = k ∨ e.1 ∉ keywords) (hk' : k' ∈ keywords)
    (hne : k' ≠ k) : getList k' ms = none := by
  rw [Dict.getList_eq_none_iff]
  intro hmem
  obtain ⟨e, he, rfl⟩ := List.mem_map.1 hmem
  rcases honly e he with h | h
  · exact hne h
  · exact h hk'

/-- A reference with annotations only means what its definition means. -/
theorem valid_ref {name : String} {target v : Json} (honly : ∀ e ∈ ms, e.1 = "$ref" ∨ e.1 ∉ keywords)
    (href : getList "$ref" ms = some (.str ("#/$defs/" ++ name))) (htarget : getList name defs = some target)
    (hv : Valid defs target v) : Valid defs (.obj ms) v := by
  have hany : getList "anyOf" ms = none := absent_of_only honly (by decide) (by decide)
  refine .of_few .null (fun k hk hne _ _ => absent_of_only honly hk hne) ?_ ?_ ?_ ?_
  · intro name' target' href' htarget'
    rw [href] at href'
    have hname : name = name' := (String.append_right_inj _).1 (Json.str.inj (Option.some.inj href'))
    subst hname
    rw [htarget] at htarget'; cases htarget'
    exact hv
  · intro t h
    rw [absent_of_only honly (by decide) (by decide)] at h; cases h
  · intro xs h; rw [hany] at h; cases h
  · intro xs h; rw [hany] at h; cases h

/-- An `anyOf` with annotations only accepts what one of its variants accepts. -/
theorem valid_anyOf {xs : List Json} {choice v : Json} (honly : ∀ e ∈ ms, e.1 = "anyOf" ∨ e.1 ∉ keywords)
    (hxs : getList "anyOf" ms = some (.arr xs)) (hchoice : choice ∈ xs) (hv : Valid defs choice v) :
    Valid defs (.obj ms) v := by
  refine .of_few choice (fun k hk _ _ hne => absent_of_only honly hk hne) ?_ ?_ ?_ fun _ _ => hv
  · intro name target h
    rw [absent_of_only honly (by decide) (by decide)] at h; cases h
  · intro t h
    rw [absent_of_only honly (by decide) (by decide)] at h; cases h
  · intro xs' h
    rw [hxs] at h; cases h
    exact hchoice

/-- A null schema accepts null. -/
theorem valid_null (honly : ∀ e ∈ ms, e.1 = "type" ∨ e.1 ∉ keywords) (hnull : isNull ms = true) :
    Valid defs (.obj ms) .null := by
  have hany : getList "anyOf" ms = none := absent_of_only honly (by decide) (by decide)
  refine .of_few .null (fun k hk _ hne _ => absent_of_only honly hk hne) ?_ ?_ ?_ ?_
  · intro name target h
    rw [absent_of_only honly (by decide) (by decide)] at h; cases h
  · intro t h
    unfold isNull at hnull
    rw [h] at hnull
    rw [of_decide_eq_true hnull]
    exact List.mem_singleton_self _
  · intro xs h; rw [hany] at h; cases h
  · intro xs h; rw [hany] at h; cases h

/-- What obeys a kept optional obeys the variant, or is null where null was a variant. -/
theorem of_valid_keepNullable {node : Members} {nullPresent : Bool} {resolved v : Json}
    (h : Valid [] (keepNullable node nullPresent resolved) v) :
    Valid [] resolved v ∨ nullPresent = true ∧ v = .null := by
  unfold keepNullable at h
  split at h
  · split at h
    · rename_i hnull
      cases h with
      | intro choice _ _ _ _ _ _ _ _ hmem hvalid =>
        rcases List.mem_cons.1 (hmem _ rfl) with rfl | hmem
        · exact Or.inl (hvalid _ rfl)
        · rw [List.mem_singleton.1 hmem] at hvalid
          cases hvalid _ rfl with
          | intro _ _ htype => exact Or.inr ⟨hnull, eq_null_of_typeNames (htype "null" rfl)⟩
    · exact Or.inl h
  · exact Or.inl h

/-- The rebuilt node only tightens, where what stands in it does. -/
theorem valid_node {v : Json} (hdefs : Walker.DefsAreObjects defs) (shape : NodeShape names lists ms)
    (henum : EnumsInert defs ms) (hresult : Entrywise (fun x y => fix defs m x = .ok y) ms result)
    (hclosed : closeObject result = .ok closed)
    (hobj : ∀ ps e, getList "properties" ms = some (.obj ps) → e ∈ ps → IsObj e.2)
    (hprops : ∀ ps e n y w, getList "properties" ms = some (.obj ps) → e ∈ ps → fix defs n e.2 = .ok y →
      Valid [] y w → Valid defs e.2 w)
    (hitem : ∀ s n y w, getList "items" ms = some s → fix defs n s = .ok y → Valid [] y w → Valid defs s w)
    (hadd : ∀ s n y w, getList "additionalProperties" ms = some (.obj s) → fix defs n (.obj s) = .ok y →
      Valid [] y w → Valid defs (.obj s) w)
    (hvariant : ∀ (vs : List Members) u n y w, getList "anyOf" ms = some (.arr (vs.map .obj)) → u ∈ vs →
      fix defs n (.obj u) = .ok y → Valid [] y w → Valid defs (.obj u) w)
    (hv : Valid [] (.obj closed) v) : Valid defs (.obj ms) v := by
  have hnames := propertyNames_closed hdefs shape hobj hresult hclosed
  cases hv with
  | intro choice _ htype' henum' hprops' hreq' hfalse' hadd' hitems' hmem' hvalid' =>
    have hchoice : ∃ choice', ∀ xs, getList "anyOf" ms = some (.arr xs) → choice' ∈ xs ∧ Valid defs choice' v := by
      cases hxs : getList "anyOf" ms with
      | none => exact ⟨.null, fun xs h => by cases h⟩
      | some x =>
        obtain ⟨-, vs, rfl⟩ := shape.listed "anyOf" x (by decide) hxs
        obtain ⟨y, hy, hwalk⟩ := getList_closed hresult hclosed hxs (by decide) (by decide)
        obtain ⟨m', ys, rfl, hys⟩ := walk_arr hwalk
        obtain ⟨w, hw, hwalk⟩ := hys.exists_of_mem_right (hmem' ys hy)
        obtain ⟨u, hu, rfl⟩ := List.mem_map.1 hw
        refine ⟨.obj u, fun xs h => ?_⟩
        cases h
        exact ⟨hw, hvariant vs u m' choice v hxs hu hwalk (hvalid' ys hy)⟩
    obtain ⟨choice', hchoice'⟩ := hchoice
    refine .intro choice' ?_ ?_ ?_ ?_ ?_ ?_ ?_ ?_ (fun xs h => (hchoice' xs h).1) fun xs h => (hchoice' xs h).2
    · intro name target h
      rw [shape.noRef] at h; cases h
    · intro t h
      obtain ⟨y, hy, hwalk⟩ := getList_closed hresult hclosed h (by decide) (by decide)
      rw [(Inert.str t).walk_eq hwalk] at hy
      exact htype' t hy
    · intro xs h
      obtain ⟨y, hy, hwalk⟩ := getList_closed hresult hclosed h (by decide) (by decide)
      rw [(Inert.arr (henum xs h)).walk_eq hwalk] at hy
      exact henum' xs hy
    · intro ps vs name p x h hvs hp hx
      obtain ⟨m', ps', hps', hentries⟩ := properties_closed hdefs hobj hresult hclosed h
      obtain ⟨p', hp', hwalk⟩ := hentries.getList_some hp
      exact hprops ps (name, p) m' p' x h (mem_of_getList hp) hwalk (hprops' ps' vs name p' x hps' hvs hp' hx)
    · intro required vs name h hvs hname
      obtain ⟨required', h', hname'⟩ := required_closed hdefs shape hobj hresult hclosed h hname
      exact hreq' required' vs name h' hvs hname'
    · intro vs name h hvs hx
      rw [← hnames]
      rcases additional_closed hresult hclosed h with h' | ⟨y, hy, hwalk⟩
      · exact hfalse' vs name h' hvs hx
      · rw [(Inert.bool false).walk_eq hwalk] at hy
        exact hfalse' vs name hy hvs hx
    · intro s vs name x h hvs hx hname
      rw [← hnames] at hname
      rcases additional_closed hresult hclosed h with h' | ⟨y, hy, hwalk⟩
      · exact absurd (hfalse' vs name h' hvs (by rw [hx]; rfl)) hname
      · obtain ⟨s', rfl⟩ := Walker.isObj_of_walk fixWalker_lawful hdefs hwalk ⟨s, rfl⟩
        exact hadd s m (.obj s') x h hwalk (hadd' s' vs name x hy hvs hx hname)
    · intro s xs x h hvs hx
      obtain ⟨y, hy, hwalk⟩ := getList_closed hresult hclosed h (by decide) (by decide)
      exact hitem s m y x h hwalk (hitems' y xs x hy hvs hx)

/-- A value that obeys the result obeys the schema. -/
theorem valid_of_fix (hdefs : Walker.DefsAreObjects defs) {a : Json} (h : Generated names lists defs a) :
    ∀ {n r v}, fix defs n a = .ok r → EveryNode fixWalker defs (EnumsInert defs) a → Valid [] r v →
      Valid defs a v := by
  induction h with
  | ref _ href hname htarget honly _ ih =>
    intro n r v hwalk hevery hv
    have htarget' := (refName_pointer hname).symm ▸ htarget
    obtain ⟨m, hwalk⟩ := walk_ref href htarget' hwalk
    exact valid_ref honly href htarget (ih hwalk ((everyNode_ref_iff href htarget').1 hevery) hv)
  | @node ms shape hp hi ha hl ihp ihi iha ihl =>
    intro n r v hwalk hevery hv
    cases hevery with
    | ref href => rw [shape.noRef] at href; cases href
    | @single _ u nullPresent href hchoice hevery =>
      obtain ⟨m, resolved, hresolved, rfl⟩ := walk_single href hchoice hwalk
      obtain ⟨vs, hvs, hfilter, hnull⟩ := onlyVariant_eq_some.1 hchoice
      rw [kept_eq] at hvs
      have honly := shape.optional vs hvs (by rw [hfilter]; rfl)
      have hv : Valid [] (keepNullable (fixWalker.kept ms) nullPresent resolved) v := hv
      rcases of_valid_keepNullable hv with hv | ⟨rfl, rfl⟩
      · have hu : u ∈ vs := List.mem_of_mem_filter (hfilter ▸ List.mem_singleton_self _)
        exact valid_anyOf honly hvs (List.mem_map_of_mem hu) (ihl "anyOf" vs u (by decide) hvs hu hresolved hevery hv)
      · obtain ⟨w, hw, hwnull⟩ := List.any_eq_true.1 hnull
        refine valid_anyOf honly hvs (List.mem_map_of_mem hw) (valid_null ?_ hwnull)
        cases hl "anyOf" vs w (by decide) hvs hw with
        | ref _ _ _ _ honly =>
          unfold isNull at hwnull
          rw [absent_of_only honly (by decide) (by decide)] at hwnull
          cases hwnull
        | node shape => exact shape.null hwnull
    | node href hchoice henum hp' hi' ha' hlisted =>
      obtain ⟨m, result, closed, hresult, hclosed, rfl⟩ := walk_members href hchoice hwalk
      rw [kept_eq] at hresult ha'
      refine valid_node hdefs shape henum hresult hclosed (fun ps e h he => (hp ps e h he).isObj) ?_ ?_ ?_ ?_ hv
      · intro ps e n y w h he hy hw
        exact ihp ps e h he hy (hp' ps e h (by rw [kept_eq]; exact he)) hw
      · intro s n y w h hy hw
        exact ihi s h hy (hi' s h) hw
      · intro s n y w h hy hw
        exact iha s h hy (ha' s h) hw
      · intro vs u n y w h hu hy hw
        exact ihl "anyOf" vs u (by decide) h hu hy (hlisted "anyOf" vs u (by decide) h hu) hw

/-! ## Strict schemas of generated schemas -/

/-- The property names for which strict schemas are made. -/
def StrictName (name : String) : Prop := name ≠ "$ref" ∧ name ≠ "anyOf"

/-- From some limit on, `_strict_schema` returns one schema: without references, closed, and such that what
obeys it obeys the schema it was made from. -/
def StrictAndSound (schema : Members) : Prop :=
  ∃ bound result, (∀ limit, bound ≤ limit → strictSchema limit schema = .ok result) ∧
    Everywhere (Lacks "$ref") result ∧ Everywhere ClosedObject result ∧
    ∀ v, Valid [] result v → Valid (definitions schema) (withoutDefs schema) v

/-- The walk comes to an end over the annotations and the enumerations of the node. -/
def DataSettles (defs ms : Members) : Prop := ∀ e ∈ ms, IsData e.1 → fixWalker.Settles defs e.2

theorem passable_iff (shape : NodeShape StrictName lists ms) :
    Passable fixWalker defs ms ↔ DataSettles defs ms := by
  constructor
  · intro h e he hdata
    exact h.data e (by rw [kept_eq]; exact he) hdata
  · intro h
    refine ⟨fun ps hps => ?_, fun e he => h e (by rw [kept_eq] at he; exact he)⟩
    obtain ⟨ps', heq, -, hnames⟩ := shape.properties _ hps
    cases heq
    constructor
    · exact Option.eq_none_iff_forall_ne_some.2 fun p hp => (hnames _ (mem_of_getList hp)).1 rfl
    · exact fun p hp => absurd rfl (hnames _ (mem_of_getList hp)).2

/-- The result of a walk that returns is strict at every position. -/
theorem everywhere_fix (hdefs : Walker.DefsAreObjects defs) {a r : Json} (h : Generated names lists defs a)
    (hwalk : fix defs n a = .ok r) : Everywhere StrictNode r := by
  have hevery := (h.settles_iff fixWalker_lawful).1 (Walker.Settles.of_walk fixWalker_lawful hdefs hwalk)
  refine h.everywhere_walk fixWalker_lawful hdefs (fun s => strictNode_of_not_isObj) ?_ everywhere_keepNullable
    hwalk hevery
  intro ms m result closed shape _ _ hresult hclosed
  refine strictNode_close ?_ hclosed
  rw [hresult.getList_eq_none_iff, kept_eq]
  exact shape.noRef

theorem settles_iff_data {a : Json} (h : Generated StrictName lists defs a) :
    fixWalker.Settles defs a ↔ EveryNode fixWalker defs (DataSettles defs) a := by
  rw [h.settles_iff fixWalker_lawful]
  exact ⟨h.everyNode_mono fixWalker_lawful fun ms shape => (passable_iff shape).1,
    h.everyNode_mono fixWalker_lawful fun ms shape => (passable_iff shape).2⟩

/-- Strict schemas of generated schemas: a limit is large enough for the walk to return only where it comes to an
end over the data at every node it visits; where it does and leaves enumerations as they are, the result is closed
and sound. -/
theorem strictAndSound_of_data {schema : Members} (h : GeneratedSchema StrictName ["anyOf"] schema) :
    (StrictAndSound schema → EveryNode fixWalker (definitions schema) (DataSettles (definitions schema))
      (withoutDefs schema)) ∧
    (EveryNode fixWalker (definitions schema) (fun ms => DataSettles (definitions schema) ms ∧
      EnumsInert (definitions schema) ms) (withoutDefs schema) → StrictAndSound schema) := by
  constructor
  · rintro ⟨bound, result, hreturns, -⟩
    exact (settles_iff_data h.root).1 (Walker.Settles.of_walk fixWalker_lawful h.defs (hreturns bound le_rfl))
  · intro hevery
    have hdata := h.root.everyNode_mono fixWalker_lawful (fun _ _ h => h.1) hevery
    have henums := h.root.everyNode_mono fixWalker_lawful (fun _ _ h => h.2) hevery
    obtain ⟨bound, result, hwalk⟩ := ((settles_iff_data h.root).2 hdata).exists_walk fixWalker_lawful h.defs
    have hstrict := everywhere_fix h.defs h.root hwalk
    exact ⟨bound, result, fun limit hle => Walker.walk_mono hwalk hle, fun p hp => (hstrict p hp).1,
      fun p hp => (hstrict p hp).2, fun v => valid_of_fix h.defs h.root hwalk henums⟩

theorem strictAndSound_scored : StrictAndSound scoredSchema := by
  have hnames : ∀ name ∈ ["name", "first", "second", "value"], StrictName name := by
    unfold StrictName
    decide
  refine (strictAndSound_of_data (scoredSchema_generated hnames (by decide))).2
    (everyNode_scored fixWalker_lawful ⟨?_, ?_⟩ ⟨?_, ?_⟩ fun t => ⟨?_, ?_⟩)
  · exact fun e he hdata => absurd hdata (not_isData_of_mem_modelSchema he)
  · intro xs h; cases h
  · exact fun e he hdata => absurd hdata (not_isData_of_mem_modelSchema he)
  · intro xs h; cases h
  · intro e he _
    rw [List.mem_singleton.1 he]
    exact .str _
  · intro xs h; cases h

/-- A model with options that default to `{"anyOf": 1}`. -/
def optionsSchema : Members :=
  modelSchema [("name", .obj [("type", .str "string")]),
    ("options", .obj [("type", .str "object"), ("default", .obj [("anyOf", .num 1)])])] ["name"]

theorem optionsSchema_generated : GeneratedSchema StrictName ["anyOf"] optionsSchema where
  defs name target h := by cases h
  root := generated_model (by decide) (by simp [StrictName]) (by decide) fun e he => by
    rcases List.mem_cons.1 he with rfl | he
    · exact generated_field _ [] List.nodup_nil (by simp)
    · rw [List.mem_singleton.1 he]
      exact generated_field _ _ (by decide) (by decide)

/-- The default is searched for variants like a schema. -/
theorem not_strictAndSound : ¬ ∀ schema, GeneratedSchema StrictName ["anyOf"] schema → StrictAndSound schema := by
  intro h
  obtain ⟨bound, result, hreturns, -⟩ := h optionsSchema optionsSchema_generated
  have herror : strictSchema (bound + 4) optionsSchema = .error typeError := rfl
  rw [hreturns (bound + 4) (by omega)] at herror
  cases herror

end StrictSchema

end TradingAgent
