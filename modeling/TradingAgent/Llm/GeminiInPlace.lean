/-
The in-place walk that makes Gemini's schemas against the walk over unchanged values. What visits leave of a value
is described, and what a call gives stands for the result of the pure walk, however the definitions are changed later;
so no visit sees what the visits before it have changed, but for the descriptions of unknown references.
-/
import TradingAgent.Llm.GeminiSchema

namespace TradingAgent

open Json Dict Wp

namespace GeminiSchema

/-! ## What visits leave -/

/-- What may be left of a value after visits: nothing has happened to it; its members have been popped and what is
left of the others stands in their place; or it is a reference that has got a description. -/
inductive Left : Json → Json → Prop
  | same (a : Json) : Left a a
  | described {ms ms' : Members} {refPath : String} : getList "$ref" ms = some (.str refPath) →
      SameButDescription ms ms' → Left (.obj ms) (.obj ms')
  | arr {xs ys : List Json} : List.Forall₂ Left xs ys → Left (.arr xs) (.arr ys)
  | members {ms ms' : Members} : getList "$ref" ms = none → onlyVariant (stripWalker.kept ms) = .ok none →
      ms'.map Prod.fst = (stripWalker.kept ms).map Prod.fst →
      List.Forall₂ Left ((stripWalker.kept ms).map Prod.snd) (ms'.map Prod.snd) → Left (.obj ms) (.obj ms')
  | single {ms base v v' : Members} {nullPresent : Bool} : getList "$ref" ms = none →
      onlyVariant (stripWalker.kept ms) = .ok (some (v, nullPresent)) →
      stripWalker.kept base = stripWalker.kept ms → Left (.obj v) (.obj v') →
      Left (.obj ms) (.obj (replaceVariant (.obj v') base))

theorem left_entries {node node' : Members} (hkeys : node'.map Prod.fst = node.map Prod.fst)
    (hvalues : List.Forall₂ Left (node.map Prod.snd) (node'.map Prod.snd)) : Entrywise Left node node' := by
  induction node generalizing node' with
  | nil =>
    cases node' with
    | nil => exact .nil
    | cons => cases hkeys
  | cons e node ih =>
    cases node' with
    | nil => cases hkeys
    | cons e' node' =>
      rw [List.map_cons, List.map_cons, List.cons.injEq] at hkeys
      cases hvalues with
      | cons he hvalues => exact .cons ⟨hkeys.1.symm, he⟩ (ih hkeys.2 hvalues)

theorem Left.entries_refl (node : Members) : Entrywise Left node node :=
  List.forall₂_same.2 fun e _ => ⟨rfl, .same e.2⟩

theorem Left.of_entries {ms ms' : Members} (href : getList "$ref" ms = none)
    (hchoice : onlyVariant (stripWalker.kept ms) = .ok none) (h : Entrywise Left (stripWalker.kept ms) ms') :
    Left (.obj ms) (.obj ms') := by
  refine .members href hchoice h.keys_eq ?_
  rw [List.forall₂_map_left_iff, List.forall₂_map_right_iff]
  exact h.imp fun _ _ he => he.2

theorem Left.str_iff {a b : Json} (h : Left a b) (t : String) : b = .str t ↔ a = .str t := by
  cases h with
  | same => exact Iff.rfl
  | described | arr | members | single => exact ⟨fun h => (by cases h), fun h => (by cases h)⟩

theorem Left.isObj {ms : Members} {b : Json} (h : Left (.obj ms) b) : ∃ ms', b = .obj ms' := by
  cases h <;> exact ⟨_, rfl⟩

/-! ### Nodes with a variant replaced -/

theorem getList_replaceVariant (left : Json) {k : String} (hk : k ≠ "anyOf") (node : Members) :
    getList k (replaceVariant left node) = getList k node := by
  unfold replaceVariant
  rw [getList_map]
  cases getList k node with
  | none => rfl
  | some v =>
    rw [Option.map_some]
    unfold withVariant
    split
    · rw [if_neg hk]
    · rfl

theorem kept_replaceVariant (left : Json) (node : Members) :
    stripWalker.kept (replaceVariant left node) = replaceVariant left (stripWalker.kept node) := by
  unfold Walker.kept replaceVariant
  rw [List.filter_map]
  rfl

theorem isVariant_obj (v : Members) : isVariant (.obj v) = !isNull v := rfl

/-- A variant that has been put in the place of the visited one is replaced like it. -/
theorem withVariant_withVariant {left left' : Json} (h : isVariant left = true) (k : String) (v : Json) :
    withVariant left' k (withVariant left k v) = withVariant left' k v := by
  unfold withVariant
  cases v with
  | arr xs =>
    dsimp only
    split
    · rw [List.map_map]
      congr 1
      refine List.map_congr_left fun x _ => ?_
      show (if isVariant (if isVariant x then left else x) then left' else if isVariant x then left else x) =
        if isVariant x then left' else x
      by_cases hx : isVariant x = true
      · rw [if_pos hx, if_pos hx, if_pos h]
      · rw [if_neg hx]
    · rfl
  | _ => rfl

theorem replaceVariant_replaceVariant {left left' : Json} (h : isVariant left = true) (node : Members) :
    replaceVariant left' (replaceVariant left node) = replaceVariant left' node := by
  unfold replaceVariant
  rw [List.map_map]
  refine List.map_congr_left fun e _ => ?_
  show (e.1, withVariant left' e.1 (withVariant left e.1 e.2)) = _
  rw [withVariant_withVariant h]

theorem getList_kept_of_ne {k : String} (hk : k ≠ "additionalProperties") (hk' : k ≠ "title") (ms : Members) :
    getList k (stripWalker.kept ms) = getList k ms := stripWalker_lawful.getList_kept hk hk' ms

/-- What is popped does not matter for the variants. -/
theorem onlyVariant_kept (ms : Members) : onlyVariant (stripWalker.kept ms) = onlyVariant ms := by
  unfold onlyVariant
  rw [getList_kept_of_ne (by decide) (by decide)]

/-- A node is unwrapped to what stands in the place of its variant. -/
theorem onlyVariant_replaceVariant {node v v' : Members} {nullPresent : Bool}
    (hchoice : onlyVariant node = .ok (some (v, nullPresent))) (hnull : isNull v' = isNull v) :
    isNull v' = false ∧ onlyVariant (replaceVariant (.obj v') node) = .ok (some (v', nullPresent)) := by
  obtain ⟨vs, hvs, hfilter, hpresent⟩ := onlyVariant_eq_some.1 hchoice
  have hv : isNull v = false := by
    have hmem : v ∈ vs.filter (fun v => !isNull v) := hfilter ▸ List.mem_singleton_self v
    simpa using (List.mem_filter.1 hmem).2
  have hv' : isNull v' = false := hnull.trans hv
  -- the variants with the visited one replaced: the same ones are null
  have hsame : ∀ u, isNull (if !isNull u then v' else u) = isNull u := by
    intro u
    cases hu : isNull u
    · exact hv'
    · exact hu
  refine ⟨hv', onlyVariant_eq_some.2 ⟨vs.map (fun u => if !isNull u then v' else u), ?_, ?_, ?_⟩⟩
  · unfold replaceVariant
    rw [getList_map, hvs, Option.map_some]
    unfold withVariant
    dsimp only
    rw [if_pos rfl, List.map_map, List.map_map]
    congr 2
    refine List.map_congr_left fun u _ => ?_
    show (if (!isNull u) = true then Json.obj v' else Json.obj u) = Json.obj (if (!isNull u) = true then v' else u)
    split <;> rfl
  · rw [List.filter_map]
    have hpred : ((fun v => !isNull v) ∘ fun u => if !isNull u then v' else u) = fun v => !isNull v := by
      funext u
      exact congrArg _ (hsame u)
    rw [hpred, hfilter, List.map_singleton, hv]
    rfl
  · rw [List.any_map]
    have hpred : (isNull ∘ fun u => if !isNull u then v' else u) = isNull := funext hsame
    rw [hpred, hpresent]

/-- Visits change nothing about which variant is null. -/
theorem Left.isNull_eq {v v' : Members} (h : Left (.obj v) (.obj v')) : isNull v' = isNull v := by
  have htype : ∀ t, getList "type" v' = some (.str t) ↔ getList "type" v = some (.str t) := by
    intro t
    cases h with
    | same => exact Iff.rfl
    | described _ hsame => rw [hsame "type" (by decide)]
    | members _ _ hkeys hvalues =>
      have hentries := left_entries hkeys hvalues
      rw [← getList_kept_of_ne (k := "type") (by decide) (by decide) v]
      constructor
      · intro ht
        obtain ⟨x, hx, hleft⟩ := hentries.of_getList_some ht
        rw [hx, (hleft.str_iff t).1 rfl]
      · intro ht
        obtain ⟨y, hy, hleft⟩ := hentries.getList_some ht
        rw [hy, (hleft.str_iff t).2 rfl]
    | single _ _ hbase =>
      rw [getList_replaceVariant _ (by decide), ← getList_kept_of_ne (by decide) (by decide) v, ← hbase,
        getList_kept_of_ne (by decide) (by decide)]
  rw [Bool.eq_iff_iff, isNull_iff, isNull_iff]
  exact htype "null"

/-- The variants of what is left are what is left of the variants. -/
theorem Left.variants {c c' : Json} {vs : List Members} (h : Left c c') (hvs : variantsOf c = .ok vs) :
    ∃ vs', variantsOf c' = .ok vs' ∧ List.Forall₂ (fun v v' => isNull v' = isNull v) vs vs' := by
  rcases variantsOf_eq_ok.1 hvs with rfl | ⟨rfl, rfl | rfl⟩
  · cases h with
    | same => exact ⟨vs, hvs, List.forall₂_same.2 fun _ _ => rfl⟩
    | @arr _ ys hys =>
      rw [List.forall₂_map_left_iff] at hys
      have hdict : ∃ vs' : List Members, ys = vs'.map .obj ∧
          List.Forall₂ (fun v v' => isNull v' = isNull v) vs vs' := by
        clear hvs
        induction hys with
        | nil => exact ⟨[], rfl, .nil⟩
        | @cons v y _ _ hy _ ih =>
          obtain ⟨v', rfl⟩ := hy.isObj
          obtain ⟨vs', rfl, hvs'⟩ := ih
          exact ⟨v' :: vs', rfl, .cons hy.isNull_eq hvs'⟩
      obtain ⟨vs', rfl, hvs'⟩ := hdict
      exact ⟨vs', variantsOf_eq_ok.2 (Or.inl rfl), hvs'⟩
  · obtain ⟨ms', rfl⟩ := h.isObj
    refine ⟨[], variantsOf_eq_ok.2 (Or.inr ⟨rfl, Or.inl ?_⟩), .nil⟩
    cases h with
    | same => rfl
    | described href => cases href
    | members _ _ hkeys => rw [List.map_eq_nil_iff.1 hkeys]
    | single _ hchoice => cases hchoice
  · rw [(h.str_iff "").2 rfl]
    exact ⟨[], hvs, .nil⟩

theorem length_filter_isNull {vs vs' : List Members} (h : List.Forall₂ (fun v v' => isNull v' = isNull v) vs vs') :
    (vs'.filter (fun v => !isNull v)).length = (vs.filter (fun v => !isNull v)).length := by
  induction h with
  | nil => rfl
  | cons hv _ ih =>
    rw [List.filter_cons, List.filter_cons, hv]
    split
    · rw [List.length_cons, List.length_cons, ih]
    · exact ih

/-- A node that was rebuilt is rebuilt again. -/
theorem onlyVariant_left {node node' : Members} (h : Entrywise Left node node')
    (hchoice : onlyVariant node = .ok none) :
    onlyVariant node' = .ok none := by
  rcases onlyVariant_eq_none.1 hchoice with hnone | ⟨choices, vs, hchoices, hvs, hlength⟩
  · exact onlyVariant_eq_none.2 (Or.inl ((h.getList_eq_none_iff _).2 hnone))
  · obtain ⟨choices', hchoices', hleft⟩ := h.getList_some hchoices
    obtain ⟨vs', hvs', hnulls⟩ := hleft.variants hvs
    refine onlyVariant_eq_none.2 (Or.inr ⟨choices', vs', hchoices', hvs', ?_⟩)
    rw [length_filter_isNull hnulls]
    exact hlength

/-! ### What a visit finds of a node -/

section

variable {ms ms' : Members} (h : Left (.obj ms) (.obj ms'))

include h

theorem left_of_ref {ref : Json} (href : getList "$ref" ms = some ref) : getList "$ref" ms' = some ref := by
  cases h with
  | same => exact href
  | described _ hsame => exact (hsame "$ref" (by decide)).trans href
  | members hnone | single hnone => rw [href] at hnone; cases hnone

theorem left_of_error (href : getList "$ref" ms = none) {e : Exn}
    (hchoice : onlyVariant (stripWalker.kept ms) = .error e) : ms' = ms := by
  cases h with
  | same => rfl
  | described href' => rw [href] at href'; cases href'
  | members _ hchoice' | single _ hchoice' => rw [hchoice] at hchoice'; cases hchoice'

theorem left_noRef (href : getList "$ref" ms = none) : getList "$ref" ms' = none := by
  have hkept := getList_kept_of_ne (k := "$ref") (by decide) (by decide) ms
  cases h with
  | same => exact href
  | described _ hsame => rw [hsame "$ref" (by decide), href]
  | members _ _ hkeys hvalues => rw [(left_entries hkeys hvalues).getList_eq_none_iff, hkept, href]
  | single _ _ hbase =>
    rw [getList_replaceVariant _ (by decide), ← getList_kept_of_ne (by decide) (by decide), hbase, hkept, href]

omit h in
theorem kept_of_keys (hkeys : ms'.map Prod.fst = (stripWalker.kept ms).map Prod.fst) : stripWalker.kept ms' = ms' := by
  refine List.filter_eq_self.2 fun e he => ?_
  obtain ⟨e', he', hkey⟩ := List.mem_map.1 (hkeys ▸ List.mem_map_of_mem (f := Prod.fst) he)
  rw [← hkey]
  exact (List.mem_filter.1 he').2

theorem left_members (href : getList "$ref" ms = none) (hchoice : onlyVariant (stripWalker.kept ms) = .ok none) :
    Entrywise Left (stripWalker.kept ms) (stripWalker.kept ms') := by
  cases h with
  | same => exact Left.entries_refl _
  | described href' => rw [href] at href'; cases href'
  | members _ _ hkeys hvalues =>
    rw [kept_of_keys hkeys]
    exact left_entries hkeys hvalues
  | single _ hchoice' => rw [hchoice] at hchoice'; cases hchoice'

/-- What is left of an unwrapped node is unwrapped to what is left of its variant. -/
theorem left_single (href : getList "$ref" ms = none) {v : Members} {nullPresent : Bool}
    (hchoice : onlyVariant (stripWalker.kept ms) = .ok (some (v, nullPresent))) :
    ∃ v' base, Left (.obj v) (.obj v') ∧ onlyVariant ms' = .ok (some (v', nullPresent)) ∧
      stripWalker.kept base = stripWalker.kept ms ∧
      getList "description" ms' = getList "description" ms ∧
      ∀ left, replaceVariant left ms' = replaceVariant left base := by
  cases h with
  | same => exact ⟨v, ms, .same _, (onlyVariant_kept ms).symm.trans hchoice, rfl, rfl, fun _ => rfl⟩
  | described href' => rw [href] at href'; cases href'
  | members _ hchoice' => rw [hchoice] at hchoice'; cases hchoice'
  | @single _ base _ v' _ _ hchoice' hbase hleft =>
    rw [hchoice] at hchoice'; cases hchoice'
    rw [← hbase, onlyVariant_kept] at hchoice
    obtain ⟨hnull, honly⟩ := onlyVariant_replaceVariant hchoice hleft.isNull_eq
    refine ⟨v', base, hleft, honly, hbase, ?_, fun left => replaceVariant_replaceVariant ?_ base⟩
    · rw [getList_replaceVariant _ (by decide), ← getList_kept_of_ne (by decide) (by decide), hbase,
        getList_kept_of_ne (by decide) (by decide)]
    · rw [isVariant_obj, hnull]
      rfl

end

/-! ### Nodes that are given themselves -/

/-- By so many steps the value is unwrapped to the reference. -/
inductive EndsIn : ℕ → Json → Members → Prop
  | here {ms : Members} {refPath : String} : getList "$ref" ms = some (.str refPath) → EndsIn 0 (.obj ms) ms
  | variant {depth : ℕ} {ms v node : Members} {nullPresent : Bool} : getList "$ref" ms = none →
      onlyVariant (stripWalker.kept ms) = .ok (some (v, nullPresent)) → EndsIn depth (.obj v) node →
      EndsIn (depth + 1) (.obj ms) node

theorem EndsIn.isRef {depth : ℕ} {a : Json} {node : Members} (h : EndsIn depth a node) :
    ∃ refPath, getList "$ref" node = some (.str refPath) := by
  induction h with
  | here href => exact ⟨_, href⟩
  | variant _ _ _ ih => exact ih

/-- What is left of the value is still unwrapped to the reference. -/
theorem EndsIn.unwrapped_left {depth : ℕ} {a : Json} {node : Members} (h : EndsIn depth a node) :
    ∀ {b}, Left a b → ∃ node', unwrapped depth b = .obj node' ∧ SameButDescription node node' := by
  induction h with
  | @here ms _ href =>
    intro b hleft
    cases hleft with
    | same => exact ⟨ms, rfl, .refl ms⟩
    | described _ hsame => exact ⟨_, rfl, hsame⟩
    | members hnone | single hnone => rw [href] at hnone; cases hnone
  | variant href hchoice _ ih =>
    intro b hleft
    obtain ⟨ms', rfl⟩ := hleft.isObj
    obtain ⟨v', -, hv', honly, -⟩ := left_single hleft href hchoice
    obtain ⟨node', hnode', hsame⟩ := ih hv'
    refine ⟨node', ?_, hsame⟩
    rw [unwrapped, honly]
    exact hnode'

/-- A description that is set on the reference leaves what visits may leave. -/
theorem EndsIn.left_change {depth : ℕ} {a : Json} {node : Members} (h : EndsIn depth a node) (outer : Members) :
    ∀ {b}, Left a b → Left a (changeUnwrapped (preserveDescription outer) depth b) := by
  induction h with
  | @here ms _ href =>
    intro b hleft
    obtain ⟨ms', rfl⟩ := hleft.isObj
    obtain ⟨ms'', heq, hsame'⟩ := preserveDescription_obj outer ms'
    have hsame : SameButDescription ms ms' := by
      cases hleft with
      | same => exact .refl ms
      | described _ hsame => exact hsame
      | members hnone | single hnone => rw [href] at hnone; cases hnone
    rw [changeUnwrapped, heq]
    exact .described href (hsame.trans hsame')
  | variant href hchoice _ ih =>
    intro b hleft
    obtain ⟨ms', rfl⟩ := hleft.isObj
    obtain ⟨v', base, hv', honly, hbase, -, hreplaced⟩ := left_single hleft href hchoice
    have hchanged := ih hv'
    obtain ⟨v'', heq⟩ := hchanged.isObj
    rw [changeUnwrapped, honly]
    dsimp only
    rw [hreplaced, heq]
    rw [heq] at hchanged
    exact .single href hchoice hbase hchanged

/-! ## The walk in place gives what the walk over unchanged values gives -/

/-- What is left of the definitions. -/
def LeftDefs (defs s : Members) : Prop := ∀ name, Option.Rel Left (getList name defs) (getList name s)

variable {defs s : Members}

theorem LeftDefs.refl (defs : Members) : LeftDefs defs defs := by
  intro name
  cases getList name defs with
  | none => exact .none
  | some v => exact .some (.same v)

theorem LeftDefs.of_some (h : LeftDefs defs s) {name : String} {target : Json}
    (htarget : getList name defs = some target) : ∃ left, getList name s = some left ∧ Left target left := by
  have hrel := h name
  rw [htarget] at hrel
  cases hs : getList name s with
  | none => rw [hs] at hrel; cases hrel
  | some left => rw [hs] at hrel; cases hrel; exact ⟨left, rfl, ‹_›⟩

theorem LeftDefs.of_none (h : LeftDefs defs s) {name : String} (hnone : getList name defs = none) :
    getList name s = none := by
  have hrel := h name
  rw [hnone] at hrel
  cases hs : getList name s with
  | none => rfl
  | some left => rw [hs] at hrel; cases hrel

theorem LeftDefs.set (h : LeftDefs defs s) {name : String} {target left : Json}
    (htarget : getList name defs = some target) (hleft : Left target left) :
    LeftDefs defs (setList name left s) := by
  intro name'
  by_cases hname : name' = name
  · subst hname
    rw [htarget, getList_setList_self]
    exact .some hleft
  · rw [getList_setList_ne _ hname]
    exact h name'

theorem LeftDefs.change (h : LeftDefs defs s) {name : String} {target : Json} {change : Json → Json}
    (htarget : getList name defs = some target) (hchange : ∀ b, Left target b → Left target (change b)) :
    LeftDefs defs (changeDefinition name change s) := by
  obtain ⟨left, hs, hleft⟩ := h.of_some htarget
  unfold changeDefinition
  rw [hs]
  exact h.set htarget (hchange left hleft)

variable {n : ℕ} {a : Json}

/-- What is given stands for the result of the walk over unchanged values: it is the result, whatever becomes of the
definitions, or the reference that is the result, up to descriptions. -/
inductive Gives (defs : Members) : ℕ → Json → Resolved → Json → Prop
  | fresh {n : ℕ} {a r : Json} {read : Members → Json} : (∀ s, LeftDefs defs s → Described n r (read s)) →
      Gives defs n a (.fresh read) r
  | own {n depth : ℕ} {a : Json} {node node' : Members} : EndsIn depth a node → SameButDescription node node' →
      Gives defs (n + 1) a (.own depth) (.obj node')
  | definition {n depth : ℕ} {name : String} {a target : Json} {node node' : Members} :
      getList name defs = some target → EndsIn depth target node → SameButDescription node node' →
      Gives defs (n + 1) a (.definition name depth) (.obj node')

theorem described_of_ref {depth : ℕ} {left : Json} {node node' : Members} (h : EndsIn depth a node)
    (hleft : Left a left) (hsame : SameButDescription node node') :
    Described (n + 1) (.obj node') (unwrapped depth left) := by
  obtain ⟨node'', heq, hsame'⟩ := h.unwrapped_left hleft
  obtain ⟨refPath, href⟩ := h.isRef
  rw [heq]
  exact .ref ((hsame "$ref" (by decide)).trans href) (hsame.symm.trans hsame')

/-- What is given has, when it is read, the value that the walk over unchanged values gives. -/
theorem Gives.described {resolved : Resolved} {r left : Json} (h : Gives defs n a resolved r) (hleft : Left a left)
    (hdefs : LeftDefs defs s) : Described n r (resolved.value left s) := by
  cases h with
  | fresh h => exact h s hdefs
  | own hends hsame => exact described_of_ref hends hleft hsame
  | definition htarget hends hsame =>
    obtain ⟨target, hs, htarget'⟩ := hdefs.of_some htarget
    unfold Resolved.value
    dsimp only
    rw [hs]
    exact described_of_ref hends htarget' hsame

/-- Seen from a reference to the definition. -/
theorem Gives.through {resolved : Resolved} {target r : Json} {name : String} {ms : Members}
    (h : Gives defs n target resolved r) (htarget : getList name defs = some target) :
    Gives defs (n + 1) (.obj ms) (resolved.through name) r := by
  cases h with
  | fresh h => exact .fresh fun s hs => (h s hs).succ
  | own hends hsame => exact .definition htarget hends hsame
  | definition htarget' hends hsame => exact .definition htarget' hends hsame

/-- The call ends like the walk over unchanged values and gives its result. -/
def Answers (defs : Members) (n : ℕ) (a : Json) (p : Resolved × Json) : Prop :=
  ∃ r, stripWalker.walk defs n a = .ok r ∧ Gives defs n a p.1 r ∧ Left a p.2

/-- The call gives what the pure walk gives of the value before any visit, and leaves what may be left. -/
def Agrees (defs : Members) (n : ℕ) (a b : Json) (s : Members) : Prop :=
  wp (resolve n b) (fun p s' => Answers defs n a p ∧ LeftDefs defs s')
    (fun e _ => stripWalker.walk defs n a = .error e) s

theorem answers_items {xs : List Json} {ps : List (Resolved × Json)} (h : List.Forall₂ (Answers defs n) xs ps) :
    ∃ ys, xs.mapM (fun x => stripWalker.walk defs n x) = .ok ys ∧
      (∀ s, LeftDefs defs s → List.Forall₂ (Described n) ys (ps.map (fun p => p.1.value p.2 s))) ∧
      List.Forall₂ Left xs (ps.map Prod.snd) := by
  induction h with
  | nil => exact ⟨[], rfl, fun _ _ => .nil, .nil⟩
  | cons hp _ ih =>
    obtain ⟨r, hwalk, hgives, hleft⟩ := hp
    obtain ⟨ys, hys, hvalues, hlefts⟩ := ih
    refine ⟨r :: ys, ?_, fun s hs => .cons (hgives.described hleft hs) (hvalues s hs), .cons hleft hlefts⟩
    rw [List.mapM_cons, hwalk, hys]
    rfl

theorem answers_entries {node : Members} {ps : List (String × Resolved × Json)}
    (h : Entrywise (Answers defs n) node ps) :
    ∃ result, node.mapM (fun e => do return (e.1, ← stripWalker.walk defs n e.2)) = .ok result ∧
      (∀ s, LeftDefs defs s →
        Entrywise (Described n) result (ps.map (fun e => (e.1, e.2.1.value e.2.2 s)))) ∧
      Entrywise Left node (ps.map (fun e => (e.1, e.2.2))) := by
  unfold Entrywise at h
  induction h with
  | nil => exact ⟨[], rfl, fun _ _ => .nil, .nil⟩
  | @cons e p _ _ hp _ ih =>
    obtain ⟨hkey, r, hwalk, hgives, hleft⟩ := hp
    obtain ⟨result, hresult, hvalues, hlefts⟩ := ih
    refine ⟨(e.1, r) :: result, ?_, fun s hs => .cons ⟨hkey, hgives.described hleft hs⟩ (hvalues s hs),
      .cons ⟨hkey, hleft⟩ hlefts⟩
    rw [List.mapM_cons, hwalk, hresult]
    rfl

/-! ### One call -/

theorem agrees_arr (ih : ∀ a b s, Left a b → LeftDefs defs s → Agrees defs n a b s) {xs ys : List Json}
    (hleft : List.Forall₂ Left xs ys) (hdefs : LeftDefs defs s) : Agrees defs (n + 1) (.arr xs) (.arr ys) s := by
  unfold Agrees
  rw [resolve, Walker.walk, wp_bind]
  refine wp_mono (wp_mapM_rel (fun x p h => ⟨h.choose, h.choose_spec.1⟩) (fun x y s => ih x y s) hleft hdefs) ?_ ?_
  · rintro ps s' ⟨hps, hdefs'⟩
    obtain ⟨rs, hrs, hvalues, hlefts⟩ := answers_items hps
    rw [wp_pure]
    refine ⟨⟨.arr rs, ?_, .fresh fun s hs => .arr (hvalues s hs), .arr hlefts⟩, hdefs'⟩
    rw [Walker.walk, hrs]
    rfl
  · intro e s' he
    rw [he]; rfl

/-- The members of a node, one after the other. -/
theorem wp_members (ih : ∀ a b s, Left a b → LeftDefs defs s → Agrees defs n a b s) {node node' : Members}
    (hleft : Entrywise Left node node') (hdefs : LeftDefs defs s) :
    wp (node'.mapM (fun e => do return (e.1, ← resolve n e.2)) :
        EStateM Exn Members (List (String × Resolved × Json)))
      (fun ps s' => Entrywise (Answers defs n) node ps ∧ LeftDefs defs s')
      (fun e _ => node.mapM (fun e => do return (e.1, ← stripWalker.walk defs n e.2)) = .error e) s := by
  refine wp_mapM_rel (fun e p h => ?_) (fun e e' s he hs => ?_) hleft hdefs
  · obtain ⟨-, r, hwalk, -⟩ := h
    rw [hwalk]
    exact ⟨_, rfl⟩
  · rw [wp_bind]
    refine wp_mono (ih e.2 e'.2 s he.2 hs) ?_ ?_
    · rintro p s' ⟨hp, hs'⟩
      rw [wp_pure]
      exact ⟨⟨he.1, hp⟩, hs'⟩
    · intro x s' hx
      rw [hx]; rfl

theorem agrees_ref (ih : ∀ a b s, Left a b → LeftDefs defs s → Agrees defs n a b s) {ms ms' : Members} {ref : Json}
    (h : Left (.obj ms) (.obj ms')) (hdefs : LeftDefs defs s) (href : getList "$ref" ms = some ref) :
    Agrees defs (n + 1) (.obj ms) (.obj ms') s := by
  unfold Agrees
  rw [resolve, Walker.walk, href, left_of_ref h href]
  cases ref with
  | str refPath =>
    dsimp only
    rw [wp_bind, wp_get]
    cases htarget : getList (refName refPath) defs with
    | none =>
      rw [hdefs.of_none htarget, wp_pure]
      refine ⟨⟨.obj ms, ?_, .own (.here href) (.refl ms), h⟩, hdefs⟩
      rw [Walker.walk, href]
      dsimp only
      rw [htarget]
    | some target =>
      obtain ⟨target', hs, hleft⟩ := hdefs.of_some htarget
      rw [hs]
      dsimp only
      rw [wp_bind]
      refine wp_mono (ih target target' s hleft hdefs) ?_ fun _ _ h => h
      rintro p s' ⟨⟨r, hwalk, hgives, hp⟩, hdefs'⟩
      rw [wp_bind, wp_modify, wp_pure]
      refine ⟨⟨r, ?_, hgives.through htarget, h⟩, hdefs'.set htarget hp⟩
      rw [Walker.walk, href]
      dsimp only
      rw [htarget]
      exact hwalk
  | _ => rfl

/-- A node that is unwrapped: what is given of the variant is given of the node, with its description. -/
theorem agrees_single (ih : ∀ a b s, Left a b → LeftDefs defs s → Agrees defs n a b s) {ms ms' v : Members}
    {nullPresent : Bool} (h : Left (.obj ms) (.obj ms')) (hdefs : LeftDefs defs s) (href : getList "$ref" ms = none)
    (hchoice : onlyVariant (stripWalker.kept ms) = .ok (some (v, nullPresent))) :
    Agrees defs (n + 1) (.obj ms) (.obj ms') s := by
  obtain ⟨v', base, hv', honly, hbase, hdescription, hreplaced⟩ := left_single h href hchoice
  have hwalk : ∀ {x}, stripWalker.walk defs n (.obj v) = x → stripWalker.walk defs (n + 1) (.obj ms) =
      (do return preserveDescription (stripWalker.kept ms) (← x) : Except Exn Json) := by
    rintro _ rfl
    rw [Walker.walk, href]
    dsimp only
    rw [hchoice]
    rfl
  have hpreserve : preserveDescription (stripWalker.kept ms') = preserveDescription (stripWalker.kept ms) := by
    funext resolved
    unfold preserveDescription
    rw [getList_kept_of_ne (by decide) (by decide), getList_kept_of_ne (by decide) (by decide), hdescription]
  have hleft : ∀ {left}, Left (.obj v) left →
      Left (.obj ms) (.obj (replaceVariant left (stripWalker.kept ms'))) := by
    intro left hleft
    obtain ⟨v'', rfl⟩ := hleft.isObj
    have heq : replaceVariant (.obj v'') (stripWalker.kept ms') = replaceVariant (.obj v'') (stripWalker.kept ms) := by
      rw [← kept_replaceVariant, hreplaced, kept_replaceVariant, hbase]
    rw [heq]
    exact .single href hchoice (kept_of_keys rfl) hleft
  unfold Agrees
  rw [resolve, left_noRef h href]
  dsimp only
  rw [pop_pop, onlyVariant_kept, honly]
  dsimp only
  rw [wp_bind]
  refine wp_mono (ih _ _ s hv' hdefs) ?_ fun e s' he => ?_
  · rintro ⟨resolved, left⟩ s' ⟨⟨r, hr, hgives, hvariant⟩, hdefs'⟩
    rw [hpreserve]
    -- the description goes to the new value, to what is left of the variant, or to the definition
    cases hgives with
    | fresh hread =>
      exact ⟨⟨_, hwalk hr, .fresh fun s hs => (described_preserveDescription _ (hread s hs)).succ, hleft hvariant⟩,
        hdefs'⟩
    | @own _ _ _ node node' hends hsame =>
      obtain ⟨node'', heq, hsame'⟩ := preserveDescription_obj (stripWalker.kept ms) node'
      exact ⟨⟨.obj node'', (hwalk hr).trans (congrArg _ heq), .own (.variant href hchoice hends) (hsame.trans hsame'),
        hleft (hends.left_change _ hvariant)⟩, hdefs'⟩
    | @definition _ _ _ _ _ _ node' htarget hends hsame =>
      obtain ⟨node'', heq, hsame'⟩ := preserveDescription_obj (stripWalker.kept ms) node'
      exact ⟨⟨.obj node'', (hwalk hr).trans (congrArg _ heq), .definition htarget hends (hsame.trans hsame'),
        hleft hvariant⟩, hdefs'.change htarget fun _ => hends.left_change _⟩
  · exact hwalk he

theorem agrees_node (ih : ∀ a b s, Left a b → LeftDefs defs s → Agrees defs n a b s) {ms ms' : Members}
    (h : Left (.obj ms) (.obj ms')) (hdefs : LeftDefs defs s) (href : getList "$ref" ms = none) :
    Agrees defs (n + 1) (.obj ms) (.obj ms') s := by
  rcases hchoice : onlyVariant (stripWalker.kept ms) with e | (_ | ⟨v, nullPresent⟩)
  · unfold Agrees
    rw [left_of_error h href hchoice, resolve, Walker.walk, href]
    dsimp only
    rw [pop_pop, hchoice]
    rfl
  · have hleft := left_members h href hchoice
    have hwalk : ∀ {x}, (stripWalker.kept ms).mapM (fun e => do return (e.1, ← stripWalker.walk defs n e.2)) = x →
        stripWalker.walk defs (n + 1) (.obj ms) = (do return .obj (← x) : Except Exn Json) := by
      rintro _ rfl
      rw [Walker.walk, href]
      dsimp only
      rw [hchoice]
      rfl
    unfold Agrees
    rw [resolve, left_noRef h href]
    dsimp only
    rw [pop_pop, onlyVariant_left hleft hchoice]
    dsimp only
    rw [wp_bind]
    refine wp_mono (wp_members ih hleft hdefs) ?_ fun e s' he => hwalk he
    rintro ps s' ⟨hps, hdefs'⟩
    obtain ⟨result, hresult, hvalues, hlefts⟩ := answers_entries hps
    rw [wp_pure]
    exact ⟨⟨.obj result, hwalk hresult, .fresh fun s hs => .members (hvalues s hs), .of_entries href hchoice hlefts⟩,
      hdefs'⟩
  · exact agrees_single ih h hdefs href hchoice

/-- Every call agrees with the walk over unchanged values, whatever earlier visits have left. -/
theorem agrees : ∀ (n : ℕ) (a b : Json) (s : Members), Left a b → LeftDefs defs s → Agrees defs n a b s
  | 0, _, _, _, _, _ => rfl
  | n + 1, a, b, s, h, hdefs => by
    cases a with
    | obj ms =>
      obtain ⟨ms', rfl⟩ := h.isObj
      cases href : getList "$ref" ms with
      | none => exact agrees_node (agrees n) h hdefs href
      | some ref => exact agrees_ref (agrees n) h hdefs href
    | arr xs =>
      cases h with
      | same => exact agrees_arr (agrees n) (List.forall₂_same.2 fun x _ => .same x) hdefs
      | arr hys => exact agrees_arr (agrees n) hys hdefs
    | _ =>
      cases h
      exact ⟨⟨_, rfl, .fresh fun _ _ => .refl _ _, .same _⟩, hdefs⟩

/-- Both return, with values that differ in the descriptions of references only, or both raise the same. -/
inductive Alike (n : ℕ) : Except Exn Json → Except Exn Json → Prop
  | ok {r r' : Json} : Described n r r' → Alike n (.ok r) (.ok r')
  | error (e : Exn) : Alike n (.error e) (.error e)

/-- What a visit gives, with the definitions as they are. -/
def visit (limit : ℕ) (value : Json) (defs : Members) : Except Exn Json :=
  match resolve limit value defs with
  | .ok p left => .ok (p.1.value p.2 left)
  | .error e _ => .error e

/-- A visit of what is left of a value gives what the walk over the unchanged value gives. -/
theorem visit_left {b : Json} (limit : ℕ) (hleft : Left a b) (hdefs : LeftDefs defs s) :
    Alike limit (stripWalker.walk defs limit a) (visit limit b s) := by
  have h := agrees limit a b s hleft hdefs
  unfold Agrees wp at h
  unfold visit
  cases hrun : resolve limit b s with
  | ok p s' =>
    rw [hrun] at h
    obtain ⟨⟨r, hwalk, hgives, hp⟩, hdefs'⟩ := h
    rw [hwalk]
    exact .ok (hgives.described hp hdefs')
  | error e s' =>
    rw [hrun] at h
    rw [h]
    exact .error e

/-- `_strip_additional_properties` is the walk over unchanged values, up to the descriptions of references. -/
theorem stripAdditionalProperties_alike (limit : ℕ) (schema : Members) :
    Alike limit (stripWalker.walk (definitions schema) limit (withoutDefs schema))
      (stripAdditionalProperties limit schema) :=
  visit_left limit (.same (withoutDefs schema)) (LeftDefs.refl (definitions schema))

/-! ## A larger limit -/

theorem resolve_succ : ∀ (n : ℕ) (a : Json), Extends (resolve n a) (resolve (n + 1) a)
  | 0, _ => extends_throw _ _
  | n + 1, a => by
    cases a with
    | obj ms =>
      rw [resolve, resolve]
      split
      · refine extends_bind (extends_refl _) fun defs => ?_
        split
        · exact extends_bind (resolve_succ n _) fun _ => extends_refl _
        · exact extends_refl _
      · exact extends_refl _
      · dsimp only
        split
        · exact extends_refl _
        · exact extends_bind (resolve_succ n _) fun _ => extends_refl _
        · refine extends_bind (extends_mapM (fun e : String × Json => ?_) _) fun _ => extends_refl _
          exact extends_bind (resolve_succ n e.2) fun _ => extends_refl _
    | arr xs =>
      rw [resolve, resolve]
      exact extends_bind (extends_mapM (resolve_succ n) xs) fun _ => extends_refl _
    | _ => exact extends_refl _

/-- A result stays with more calls allowed. -/
theorem stripAdditionalProperties_mono {schema : Members} {limit : ℕ} {r : Json}
    (h : stripAdditionalProperties limit schema = .ok r) : ∀ limit', limit ≤ limit' →
      stripAdditionalProperties limit' schema = .ok r := by
  intro limit' hle
  induction limit', hle using Nat.le_induction with
  | base => exact h
  | succ limit' _ ih =>
    unfold stripAdditionalProperties at ih ⊢
    cases hrun : resolve limit' (withoutDefs schema) (definitions schema) with
    | error e s => rw [hrun] at ih; cases ih
    | ok p s =>
      rw [hrun] at ih
      rw [resolve_succ limit' _ _ _ _ hrun]
      exact ih

end GeminiSchema

end TradingAgent
