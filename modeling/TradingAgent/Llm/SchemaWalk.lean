/-
The recursive walk over a JSON schema that both providers make before they send it: references are
inlined, an `anyOf` with one variant beside null is unwrapped, everything else is rebuilt member by
member. The walk does not tell a schema from a dictionary of properties or from annotation data.
What it raises on, and the nodes it visits as schemas, are described without running it.
-/
import TradingAgent.Strategy.Exit
import TradingAgent.Lib.JsonSchema
import TradingAgent.Lib.Wp
import Mathlib.Data.List.DropRight

namespace TradingAgent

open Json Dict

def attributeError : Exn := .external "AttributeError"

def typeError : Exn := .external "TypeError"

def recursionError : Exn := .external "RecursionError"

/-- `rsplit("/", 1)[-1]`: the text after the last slash. -/
def refName (refPath : String) : String := String.ofList (refPath.toList.rtakeWhile (· ≠ '/'))

/-- `schema.pop("$defs", None) or {}`; definitions are a dictionary. -/
def definitions (schema : Members) : Members :=
  match getList "$defs" schema with
  | some (.obj defs) => defs
  | _ => []

/-- The schema after `schema.pop("$defs", None)`. -/
def withoutDefs (schema : Members) : Json := .obj (schema.filter (fun e => e.1 ≠ "$defs"))

/-! ## Variants of `anyOf` -/

/-- What `for v in choices` runs over. -/
def iterate : Json → Except Exn (List Json)
  | .arr xs => .ok xs
  | .obj ms => .ok (ms.map (fun e => .str e.1))
  | .str s => .ok (s.toList.map (fun c => .str (String.singleton c)))
  | _ => .error typeError

/-- A value that is asked `.get(…)` has to be a dictionary. -/
def asDict : Json → Except Exn Members
  | .obj ms => .ok ms
  | _ => .error attributeError

/-- `v.get("type") == "null"` -/
def isNull (v : Members) : Bool :=
  match getList "type" v with
  | some (.str t) => t = "null"
  | _ => false

theorem isNull_iff {v : Members} : isNull v = true ↔ getList "type" v = some (.str "null") := by
  unfold isNull
  split
  · rename_i t ht
    rw [ht, Option.some.injEq, Json.str.injEq, decide_eq_true_iff]
  · rename_i hother
    exact ⟨fun h => (by cases h), fun h => absurd h (hother _)⟩

/-- The variants, each of which is asked for its type. -/
def variantsOf (choices : Json) : Except Exn (List Members) := do (← iterate choices).mapM asDict

/-- The single variant beside null of a node with `anyOf`, and whether there is a null variant. -/
def onlyVariant (node : Members) : Except Exn (Option (Members × Bool)) :=
  match getList "anyOf" node with
  | none => .ok none
  | some choices => do
    let variants ← variantsOf choices
    match variants.filter (fun v => !isNull v) with
    | [v] => return some (v, variants.any isNull)
    | _ => return none

theorem mapM_asDict_eq_ok {xs : List Json} {vs : List Members} :
    xs.mapM asDict = .ok vs ↔ xs = vs.map .obj := by
  rw [Wp.mapM_eq_ok_iff]
  have hdict : ∀ x v, asDict x = .ok v ↔ x = .obj v := by
    intro x v
    unfold asDict
    split
    · rw [Except.ok.injEq, Json.obj.injEq]
    · rename_i hobj
      exact ⟨fun h => (by cases h), fun h => absurd h (hobj v)⟩
  simp only [hdict]
  rw [← List.forall₂_eq_eq_eq, List.forall₂_map_right_iff]

/-- Only a list of dictionaries, or something empty, has variants. -/
theorem variantsOf_eq_ok {choices : Json} {vs : List Members} : variantsOf choices = .ok vs ↔
    choices = .arr (vs.map .obj) ∨ vs = [] ∧ (choices = .obj [] ∨ choices = .str "") := by
  unfold variantsOf
  rw [Wp.bind_eq_ok]
  simp only [mapM_asDict_eq_ok]
  constructor
  · rintro ⟨xs, hxs, rfl⟩
    unfold iterate at hxs
    split at hxs
    · cases hxs; exact Or.inl rfl
    · rename_i ms
      cases vs <;> cases ms <;> simp_all
    · rename_i s
      cases vs <;> cases hs : s.toList <;> simp_all
    · cases hxs
  · rintro (rfl | ⟨rfl, rfl | rfl⟩) <;> exact ⟨_, rfl, rfl⟩

theorem onlyVariant_eq_some {node v : Members} {nullPresent : Bool} :
    onlyVariant node = .ok (some (v, nullPresent)) ↔
      ∃ vs : List Members, getList "anyOf" node = some (.arr (vs.map .obj)) ∧
      vs.filter (fun v => !isNull v) = [v] ∧ vs.any isNull = nullPresent := by
  unfold onlyVariant
  constructor
  · intro h
    split at h
    · cases h
    · rename_i choices hchoices
      obtain ⟨vs, hvs, h⟩ := Wp.bind_eq_ok.1 h
      split at h
      · rename_i v' hfilter
        cases h
        rcases variantsOf_eq_ok.1 hvs with rfl | ⟨rfl, -⟩
        · exact ⟨vs, hchoices, hfilter, rfl⟩
        · cases hfilter
      · cases h
  · rintro ⟨vs, hchoices, hfilter, rfl⟩
    rw [hchoices]
    refine Wp.bind_eq_ok.2 ⟨vs, variantsOf_eq_ok.2 (Or.inl rfl), ?_⟩
    rw [hfilter]; rfl

theorem onlyVariant_eq_none {node : Members} : onlyVariant node = .ok none ↔ getList "anyOf" node = none ∨
    ∃ choices vs, getList "anyOf" node = some choices ∧ variantsOf choices = .ok vs ∧
      (vs.filter (fun v => !isNull v)).length ≠ 1 := by
  unfold onlyVariant
  constructor
  · intro h
    split at h
    · rename_i hnone
      exact Or.inl hnone
    · rename_i choices hchoices
      obtain ⟨vs, hvs, h⟩ := Wp.bind_eq_ok.1 h
      split at h
      · cases h
      · rename_i hfilter
        refine Or.inr ⟨choices, vs, hchoices, hvs, fun hlength => ?_⟩
        obtain ⟨v, hv⟩ := List.length_eq_one_iff.1 hlength
        exact hfilter v hv
  · rintro (hnone | ⟨choices, vs, hchoices, hvs, hlength⟩)
    · rw [hnone]
    · rw [hchoices]
      refine Wp.bind_eq_ok.2 ⟨vs, hvs, ?_⟩
      split
      · rename_i hfilter
        rw [hfilter] at hlength
        exact absurd rfl hlength
      · rfl

/-! ## The walk -/

/-- What a walk does at a node: the members it pops, what it makes of an unwrapped variant, and how it
finishes a rebuilt node. -/
structure Walker where
  dropped : List String
  single : Members → Bool → Json → Json
  close : Members → Except Exn Members

namespace Walker

/-- The members that are left after the pops. -/
def kept (W : Walker) (ms : Members) : Members := ms.filter (fun e => !W.dropped.contains e.1)

theorem getList_kept (W : Walker) (k : String) (ms : Members) :
    getList k (W.kept ms) = if W.dropped.contains k then none else getList k ms :=
  Dict.getList_filter_not (fun k => W.dropped.contains k) k ms

theorem getList_of_kept {W : Walker} {k : String} {ms : Members} {v : Json} (h : getList k (W.kept ms) = some v) :
    getList k ms = some v := by
  rw [getList_kept] at h
  split at h
  · cases h
  · exact h

theorem mem_of_mem_kept {W : Walker} {ms : Members} {e : String × Json} (h : e ∈ W.kept ms) : e ∈ ms :=
  List.mem_of_mem_filter h

/-- One call per node; the limit is the number of nested calls that the interpreter allows. -/
def walk (W : Walker) (defs : Members) : ℕ → Json → Except Exn Json
  | 0, _ => .error recursionError
  | n + 1, .obj ms =>
    match getList "$ref" ms with
    | some (.str refPath) =>
      match getList (refName refPath) defs with
      | some target => W.walk defs n target
      | none => .ok (.obj ms)
    | some _ => .error attributeError
    | none => do
      let node := W.kept ms
      match ← onlyVariant node with
      | some (v, nullPresent) => do
        let resolved ← W.walk defs n (.obj v)
        return W.single node nullPresent resolved
      | none => do
        let result ← node.mapM (fun e => do return (e.1, ← W.walk defs n e.2))
        return .obj (← W.close result)
  | n + 1, .arr xs => do return .arr (← xs.mapM (fun x => W.walk defs n x))
  | _ + 1, v => .ok v

/-! ## One call -/

/-- What a call that returns has done with a dictionary. -/
inductive Returned (W : Walker) (defs : Members) (n : ℕ) (ms : Members) : Json → Prop
  | ref {refPath : String} {target r : Json} : getList "$ref" ms = some (.str refPath) →
      getList (refName refPath) defs = some target → W.walk defs n target = .ok r → Returned W defs n ms r
  | unknown {refPath : String} : getList "$ref" ms = some (.str refPath) →
      getList (refName refPath) defs = none → Returned W defs n ms (.obj ms)
  | single {v : Members} {nullPresent : Bool} {resolved : Json} : getList "$ref" ms = none →
      onlyVariant (W.kept ms) = .ok (some (v, nullPresent)) → W.walk defs n (.obj v) = .ok resolved →
      Returned W defs n ms (W.single (W.kept ms) nullPresent resolved)
  | members {result closed : Members} : getList "$ref" ms = none → onlyVariant (W.kept ms) = .ok none →
      Entrywise (fun x y => W.walk defs n x = .ok y) (W.kept ms) result → W.close result = .ok closed →
      Returned W defs n ms (.obj closed)

variable {W : Walker} {defs ms : Members} {n : ℕ}

theorem walkEntries_eq_ok {node result : Members} :
    node.mapM (fun e => do return (e.1, ← W.walk defs n e.2)) = .ok result ↔
      Entrywise (fun x y => W.walk defs n x = .ok y) node result := by
  rw [Wp.mapM_eq_ok_iff]
  unfold Entrywise
  constructor <;> refine List.Forall₂.imp fun e e' h => ?_
  · obtain ⟨y, hy, h⟩ := Wp.bind_eq_ok.1 h
    cases h
    exact ⟨rfl, hy⟩
  · refine Wp.bind_eq_ok.2 ⟨e'.2, h.2, ?_⟩
    rw [h.1]; rfl

theorem walk_arr_eq_ok {xs : List Json} {r : Json} : W.walk defs (n + 1) (.arr xs) = .ok r ↔
    ∃ ys, r = .arr ys ∧ List.Forall₂ (fun x y => W.walk defs n x = .ok y) xs ys := by
  rw [walk]
  rw [Wp.bind_eq_ok]
  constructor
  · rintro ⟨ys, hys, h⟩
    cases h
    exact ⟨ys, rfl, Wp.mapM_eq_ok_iff.1 hys⟩
  · rintro ⟨ys, rfl, hys⟩
    exact ⟨ys, Wp.mapM_eq_ok_iff.2 hys, rfl⟩

theorem walk_obj_eq_ok {r : Json} : W.walk defs (n + 1) (.obj ms) = .ok r ↔ Returned W defs n ms r := by
  constructor
  · intro h
    rw [walk] at h
    split at h
    · rename_i refPath href
      split at h
      · rename_i target htarget
        exact .ref href htarget h
      · rename_i hnone
        cases h
        exact .unknown href hnone
    · cases h
    · rename_i href
      obtain ⟨choice, hchoice, h⟩ := Wp.bind_eq_ok.1 h
      split at h
      · obtain ⟨resolved, hresolved, h⟩ := Wp.bind_eq_ok.1 h
        cases h
        exact .single href hchoice hresolved
      · obtain ⟨result, hresult, h⟩ := Wp.bind_eq_ok.1 h
        obtain ⟨closed, hclosed, h⟩ := Wp.bind_eq_ok.1 h
        cases h
        exact .members href hchoice (walkEntries_eq_ok.1 hresult) hclosed
  · intro h
    rw [walk]
    cases h with
    | ref href htarget h => rw [href]; dsimp only; rw [htarget]; exact h
    | unknown href hnone => rw [href]; dsimp only; rw [hnone]
    | single href hchoice h =>
      rw [href]; dsimp only
      exact Wp.bind_eq_ok.2 ⟨_, hchoice, Wp.bind_eq_ok.2 ⟨_, h, rfl⟩⟩
    | members href hchoice hresult hclosed =>
      rw [href]; dsimp only
      exact Wp.bind_eq_ok.2 ⟨_, hchoice, Wp.bind_eq_ok.2 ⟨_, walkEntries_eq_ok.2 hresult,
        Wp.bind_eq_ok.2 ⟨_, hclosed, rfl⟩⟩⟩

theorem Returned.mono {m : ℕ} {r : Json} (h : Returned W defs n ms r)
    (hwalk : ∀ a r, W.walk defs n a = .ok r → W.walk defs m a = .ok r) : Returned W defs m ms r := by
  cases h with
  | ref href htarget h => exact .ref href htarget (hwalk _ _ h)
  | unknown href hnone => exact .unknown href hnone
  | single href hchoice h => exact .single href hchoice (hwalk _ _ h)
  | members href hchoice hresult hclosed => exact .members href hchoice (hresult.mono hwalk) hclosed

/-- A result stays with more calls allowed. -/
theorem walk_mono : ∀ {n m : ℕ} {a r : Json}, W.walk defs n a = .ok r → n ≤ m → W.walk defs m a = .ok r
  | 0, _, _, _, h, _ => by cases h
  | n + 1, 0, _, _, _, hle => by omega
  | n + 1, m + 1, a, r, h, hle => by
    have ih : ∀ a r, W.walk defs n a = .ok r → W.walk defs m a = .ok r := fun a r h => walk_mono h (by omega)
    cases a with
    | arr xs =>
      obtain ⟨ys, rfl, hys⟩ := walk_arr_eq_ok.1 h
      exact walk_arr_eq_ok.2 ⟨ys, rfl, hys.imp ih⟩
    | obj ms => exact walk_obj_eq_ok.2 ((walk_obj_eq_ok.1 h).mono ih)
    | _ => exact h

/-! ## What it raises on -/

/-- A node with these members can be finished. -/
def Closes (W : Walker) (node : Members) : Prop := ∃ closed, W.close node = .ok closed

/-- The walk over the value comes to an end without an exception. -/
inductive Settles (W : Walker) (defs : Members) : Json → Prop
  | null : Settles W defs .null
  | bool (b : Bool) : Settles W defs (.bool b)
  | num (x : ℚ) : Settles W defs (.num x)
  | str (s : String) : Settles W defs (.str s)
  | arr {xs : List Json} : (∀ x ∈ xs, Settles W defs x) → Settles W defs (.arr xs)
  | ref {ms : Members} {refPath : String} {target : Json} : getList "$ref" ms = some (.str refPath) →
      getList (refName refPath) defs = some target → Settles W defs target → Settles W defs (.obj ms)
  | unknown {ms : Members} {refPath : String} : getList "$ref" ms = some (.str refPath) →
      getList (refName refPath) defs = none → Settles W defs (.obj ms)
  | single {ms v : Members} {nullPresent : Bool} : getList "$ref" ms = none →
      onlyVariant (W.kept ms) = .ok (some (v, nullPresent)) → Settles W defs (.obj v) → Settles W defs (.obj ms)
  | members {ms : Members} : getList "$ref" ms = none → onlyVariant (W.kept ms) = .ok none →
      W.Closes (W.kept ms) → (∀ e ∈ W.kept ms, Settles W defs e.2) → Settles W defs (.obj ms)

/-- Same text, or objects both: what a walk keeps of every value. -/
def SameKind (a b : Json) : Prop := (∀ t, a = .str t ↔ b = .str t) ∧ (IsObj a ↔ IsObj b)

theorem SameKind.refl (a : Json) : SameKind a a := ⟨fun _ => Iff.rfl, Iff.rfl⟩

theorem sameKind_of_isObj {a b : Json} (ha : IsObj a) (hb : IsObj b) : SameKind a b := by
  obtain ⟨ms, rfl⟩ := ha
  obtain ⟨ms', rfl⟩ := hb
  exact ⟨fun t => ⟨fun h => (by cases h), fun h => (by cases h)⟩, fun _ => ⟨ms', rfl⟩, fun _ => ⟨ms, rfl⟩⟩

/-- What a walk needs of its parts: only keywords that a schema can do without are popped, an object stays an
object, and finishing a node depends on the kinds of its members and writes `required` and
`additionalProperties` only. -/
structure Lawful (W : Walker) : Prop where
  dropped : ∀ k ∈ W.dropped, k = "additionalProperties" ∨ k = "title"
  isObj_single : ∀ {node : Members} {nullPresent : Bool} {resolved : Json}, IsObj resolved →
    IsObj (W.single node nullPresent resolved)
  closes_congr : ∀ {node result : Members}, Entrywise SameKind node result → (W.Closes result ↔ W.Closes node)
  closes_of_properties : ∀ {node : Members}, (∀ v, getList "properties" node = some v → IsObj v) → W.Closes node
  close_of_untyped : ∀ {node : Members}, (∀ t, getList "type" node ≠ some (.str t)) → W.close node = .ok node
  getList_close : ∀ {node closed : Members} {k : String}, W.close node = .ok closed → k ≠ "required" →
    k ≠ "additionalProperties" → getList k closed = getList k node
  additional_close : ∀ {node closed : Members} {s : Json}, W.close node = .ok closed →
    getList "additionalProperties" closed = some s → s = .bool false ∨ getList "additionalProperties" node = some s

/-- A member that no walk pops is still there. -/
theorem Lawful.getList_kept {W : Walker} (hW : W.Lawful) {k : String} (hk : k ≠ "additionalProperties")
    (hk' : k ≠ "title") (ms : Members) : getList k (W.kept ms) = getList k ms := by
  rw [Walker.getList_kept, if_neg]
  intro h
  rcases hW.dropped k (by simpa using h) with heq | heq
  · exact hk heq
  · exact hk' heq

/-- Definitions are schemas, and a schema is an object. -/
def DefsAreObjects (defs : Members) : Prop := ∀ name target, getList name defs = some target → IsObj target

theorem isObj_of_walk (hW : W.Lawful) (hdefs : DefsAreObjects defs) : ∀ {n : ℕ} {a r : Json},
    W.walk defs n a = .ok r → IsObj a → IsObj r
  | 0, _, _, h, _ => by cases h
  | n + 1, a, r, h, ha => by
    obtain ⟨ms, rfl⟩ := ha
    cases walk_obj_eq_ok.1 h with
    | ref _ htarget h => exact isObj_of_walk hW hdefs h (hdefs _ _ htarget)
    | unknown => exact ⟨ms, rfl⟩
    | single _ _ hv => exact hW.isObj_single (isObj_of_walk hW hdefs hv ⟨_, rfl⟩)
    | members => exact ⟨_, rfl⟩

theorem walk_sameKind (hW : W.Lawful) (hdefs : DefsAreObjects defs) {a r : Json}
    (h : W.walk defs n a = .ok r) : SameKind a r := by
  cases n with
  | zero => cases h
  | succ n =>
    cases a with
    | obj ms => exact sameKind_of_isObj ⟨ms, rfl⟩ (isObj_of_walk hW hdefs h ⟨ms, rfl⟩)
    | arr xs =>
      obtain ⟨ys, rfl, -⟩ := walk_arr_eq_ok.1 h
      refine ⟨fun t => ⟨fun h => (by cases h), fun h => (by cases h)⟩, ?_, ?_⟩ <;> rintro ⟨ms, h⟩ <;> cases h
    | _ => cases h; exact SameKind.refl _

/-- Finitely many walks that each return do so under one limit. -/
theorem exists_limit : ∀ {xs : List Json}, (∀ x ∈ xs, ∃ n r, W.walk defs n x = .ok r) →
    ∃ n, ∀ x ∈ xs, ∃ r, W.walk defs n x = .ok r
  | [], _ => ⟨0, fun x hx => by cases hx⟩
  | x :: xs, h => by
    obtain ⟨n, r, hr⟩ := h x (List.mem_cons_self ..)
    obtain ⟨m, hm⟩ := exists_limit fun x' hx' => h x' (List.mem_cons_of_mem _ hx')
    refine ⟨max n m, fun x' hx' => ?_⟩
    rcases List.mem_cons.1 hx' with rfl | hx'
    · exact ⟨r, walk_mono hr (le_max_left ..)⟩
    · obtain ⟨r', hr'⟩ := hm x' hx'
      exact ⟨r', walk_mono hr' (le_max_right ..)⟩

theorem exists_walkEntries {node : Members} (h : ∀ e ∈ node, ∃ n r, W.walk defs n e.2 = .ok r) :
    ∃ n result, Entrywise (fun x y => W.walk defs n x = .ok y) node result := by
  have hvalues : ∀ x ∈ node.map Prod.snd, ∃ n r, W.walk defs n x = .ok r := by
    intro x hx
    obtain ⟨e, he, rfl⟩ := List.mem_map.1 hx
    exact h e he
  obtain ⟨n, hn⟩ := exists_limit hvalues
  have hentries : ∀ e ∈ node, ∃ e' : String × Json,
      (do return (e.1, ← W.walk defs n e.2) : Except Exn (String × Json)) = .ok e' := by
    intro e he
    obtain ⟨r, hr⟩ := hn e.2 (List.mem_map_of_mem he)
    exact ⟨(e.1, r), Wp.bind_eq_ok.2 ⟨r, hr, rfl⟩⟩
  obtain ⟨result, hresult⟩ := Wp.exists_mapM_eq_ok hentries
  exact ⟨n, result, walkEntries_eq_ok.1 hresult⟩

theorem Settles.of_walk (hW : W.Lawful) (hdefs : DefsAreObjects defs) : ∀ {n : ℕ} {a r : Json},
    W.walk defs n a = .ok r → W.Settles defs a
  | 0, _, _, h => by cases h
  | n + 1, a, r, h => by
    cases a with
    | null => exact .null
    | bool b => exact .bool b
    | num x => exact .num x
    | str s => exact .str s
    | arr xs =>
      obtain ⟨ys, -, hys⟩ := walk_arr_eq_ok.1 h
      refine .arr fun x hx => ?_
      obtain ⟨y, -, hy⟩ := hys.exists_of_mem_left hx
      exact of_walk hW hdefs hy
    | obj ms =>
      cases walk_obj_eq_ok.1 h with
      | ref href htarget h => exact .ref href htarget (of_walk hW hdefs h)
      | unknown href hnone => exact .unknown href hnone
      | single href hchoice hv => exact .single href hchoice (of_walk hW hdefs hv)
      | members href hchoice hresult hclosed =>
        refine .members href hchoice ?_ fun e he => ?_
        · exact (hW.closes_congr (hresult.mono fun _ _ => walk_sameKind hW hdefs)).1 ⟨_, hclosed⟩
        · obtain ⟨e', -, he'⟩ := hresult.exists_of_mem_left he
          exact of_walk hW hdefs he'.2

theorem Settles.exists_walk (hW : W.Lawful) (hdefs : DefsAreObjects defs) {a : Json} (h : W.Settles defs a) :
    ∃ n r, W.walk defs n a = .ok r := by
  induction h with
  | null | bool | num | str => exact ⟨1, _, rfl⟩
  | @arr xs _ ih =>
    obtain ⟨n, hn⟩ := exists_limit ih
    obtain ⟨ys, hys⟩ := Wp.exists_mapM_eq_ok hn
    exact ⟨n + 1, .arr ys, walk_arr_eq_ok.2 ⟨ys, rfl, Wp.mapM_eq_ok_iff.1 hys⟩⟩
  | ref href htarget _ ih =>
    obtain ⟨n, r, hr⟩ := ih
    exact ⟨n + 1, r, walk_obj_eq_ok.2 (.ref href htarget hr)⟩
  | unknown href hnone => exact ⟨1, _, walk_obj_eq_ok.2 (.unknown href hnone)⟩
  | single href hchoice _ ih =>
    obtain ⟨n, r, hr⟩ := ih
    exact ⟨n + 1, _, walk_obj_eq_ok.2 (.single href hchoice hr)⟩
  | @members ms href hchoice hcloses _ ih =>
    obtain ⟨n, result, hresult⟩ := exists_walkEntries ih
    obtain ⟨closed, hclosed⟩ := (hW.closes_congr (hresult.mono fun _ _ => walk_sameKind hW hdefs)).2 hcloses
    exact ⟨n + 1, _, walk_obj_eq_ok.2 (.members href hchoice hresult hclosed)⟩

end Walker

end TradingAgent
