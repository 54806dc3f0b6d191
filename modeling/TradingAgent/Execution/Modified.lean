/-
Modified approvals. The quantity that a callback asked for reaches the executor only through the order
row, which the transaction of the response writes. `Linked` ties the row to the transactions that
committed; with it the quantity that goes out is the last one committed before the row is read back, or
the original one if none was.
-/
import TradingAgent.Execution.RiskGate

namespace TradingAgent

open Wp Execution ApprovalManager OrderExecutor

variable {env : Env}

/-! ## Traces -/

/-- The quantity of the last transaction that committed one for the request. -/
def lastModified (requestId : RequestId) (t : List Event) : Option ℤ :=
  (t.filterMap fun e => match e with
    | .committed requestId' q => if requestId' = requestId then q else none
    | _ => none).getLast?

/-- The action of the last callback handled for the request. -/
def lastHandled (requestId : RequestId) (t : List Event) : Option String :=
  (t.filterMap fun e => match e with
    | .handled requestId' action => if requestId' = requestId then some action else none
    | _ => none).getLast?

def Event.isReread : Event → Bool
  | .reread _ => true
  | _ => false

def Event.isWaitEnd (requestId : RequestId) : Event → Bool
  | .waitEnded requestId' _ => requestId' == requestId
  | _ => false

/-- What happened before the wait of the request ended. -/
def beforeWaitEnd (requestId : RequestId) (t : List Event) : List Event := t.takeWhile (!·.isWaitEnd requestId)

/-- What happened before the order row was read back. -/
def beforeReread (t : List Event) : List Event := t.takeWhile (!·.isReread)

theorem lastModified_append_committed (requestId requestId' : RequestId) (t : List Event) (q : Option ℤ) :
    lastModified requestId (t ++ [.committed requestId' q]) =
      if requestId' = requestId then q.or (lastModified requestId t) else lastModified requestId t := by
  unfold lastModified
  rw [List.filterMap_append]
  by_cases h : requestId' = requestId
  · cases q with
    | none => simp [h]
    | some m => simp [h]
  · simp [h]

theorem lastModified_append_other (requestId : RequestId) (t : List Event) {e : Event}
    (he : ∀ requestId' q, e ≠ .committed requestId' q) :
    lastModified requestId (t ++ [e]) = lastModified requestId t := by
  unfold lastModified
  rw [List.filterMap_append]
  cases e with
  | committed requestId' q => exact absurd rfl (he requestId' q)
  | _ => simp

theorem beforeReread_append {t t' : List Event} {row : Option Order} (h : ∀ row, .reread row ∉ t) :
    beforeReread (t ++ .reread row :: t') = t := by
  unfold beforeReread
  rw [List.takeWhile_append_of_pos]
  · simp [Event.isReread]
  · intro e he
    cases e with
    | reread row => exact absurd he (h row)
    | _ => rfl

/-! ## The order row and the transactions -/

/-- Neither the request id nor the next order number is in use. -/
structure UnusedIds (requestId : RequestId) (w : World) : Prop where
  approvals : ∀ requestId' row, w.approvals.get? requestId' = some row →
    requestId' ≠ requestId ∧ row.orderId ≠ w.orders.nextId
  apiCalls : ∀ call ∈ w.apiCalls, call.requestId ≠ requestId ∧ call.orderId ≠ w.orders.nextId

/-- Before there is an order: the ids are unused, and nothing was committed since `w₀`. -/
structure Unlinked (requestId : RequestId) (w₀ w : World) : Prop where
  extends_ : w₀.trace <+: w.trace
  unused : UnusedIds requestId w
  nothing : lastModified requestId (w₀.since w) = none

/-- The order is that of the request alone, and its row carries the last quantity committed for it. -/
structure Linked (requestId : RequestId) (w₀ : World) (id : ℕ) (w : World) : Prop where
  extends_ : w₀.trace <+: w.trace
  approvals : ∀ requestId' row, w.approvals.get? requestId' = some row →
    (row.orderId = id ↔ requestId' = requestId)
  apiCalls : ∀ call ∈ w.apiCalls, (call.orderId = id ↔ call.requestId = requestId)
  modified : (w.orders.get? id).map (·.modifiedQuantity) = some (lastModified requestId (w₀.since w))

section Transactions

variable {requestId : RequestId} {w₀ w : World} {id : ℕ}

/-- A change of the rows that keeps the link, with an event that commits nothing, or none. -/
theorem Linked.congr (h : Linked requestId w₀ id w) {w' : World} (htrace : w.trace <+: w'.trace)
    (happrovals : ∀ requestId' row, w'.approvals.get? requestId' = some row →
      (row.orderId = id ↔ requestId' = requestId))
    (hcalls : ∀ call ∈ w'.apiCalls, (call.orderId = id ↔ call.requestId = requestId))
    (hmod : (w'.orders.get? id).map (·.modifiedQuantity) = (w.orders.get? id).map (·.modifiedQuantity))
    (hlast : lastModified requestId (w₀.since w') = lastModified requestId (w₀.since w)) :
    Linked requestId w₀ id w' :=
  ⟨h.extends_.trans htrace, happrovals, hcalls, by rw [hmod, hlast, h.modified]⟩

/-- An event that commits nothing. -/
theorem Linked.log (h : Linked requestId w₀ id w) {e : Event} (he : ∀ requestId' q, e ≠ .committed requestId' q) :
    Linked requestId w₀ id (w.log e) :=
  h.congr (List.prefix_append ..) h.approvals h.apiCalls rfl (by
    rw [since_log h.extends_, lastModified_append_other _ _ he])

/-- An update of an approval row that keeps its order. -/
theorem approvals_modify (approvals : Dict RequestId ApprovalRequestDB) {requestId' : RequestId}
    {f : ApprovalRequestDB → ApprovalRequestDB} (hf : ∀ r, (f r).orderId = r.orderId) {requestId'' : RequestId}
    {row : ApprovalRequestDB} (hrow : (approvals.modify requestId' f).get? requestId'' = some row) :
    ∃ row', approvals.get? requestId'' = some row' ∧ row.orderId = row'.orderId := by
  rw [Dict.get?_modify] at hrow
  split at hrow
  · rename_i heq
    subst heq
    obtain ⟨row', hrow', rfl⟩ := Option.map_eq_some_iff.1 hrow
    exact ⟨row', hrow', hf row'⟩
  · exact ⟨row, hrow, rfl⟩

theorem approvals_writeAnswer {requestId' requestId'' : RequestId} {orderId : ℕ} {status : ApprovalStatus}
    {q : Option ℤ} {reason : String} {row : ApprovalRequestDB}
    (hrow : (w.writeAnswer requestId' orderId status q reason).approvals.get? requestId'' = some row) :
    ∃ row', w.approvals.get? requestId'' = some row' ∧ row.orderId = row'.orderId := by
  unfold World.writeAnswer at hrow
  exact approvals_modify w.approvals (fun _ => by rfl) hrow

theorem map_modifiedQuantity_update (t : Table Order) (id' : ℕ) (f : Order → Order)
    (hf : ∀ o, (f o).modifiedQuantity = o.modifiedQuantity) (id : ℕ) :
    ((t.update id' f).get? id).map (·.modifiedQuantity) = (t.get? id).map (·.modifiedQuantity) := by
  rw [Table.get?_update]
  split
  · rename_i h
    subst h
    rw [Option.map_map]
    congr 1
    funext o
    exact hf o
  · rfl

/-- The transaction of a response, for this request or for another. -/
theorem Linked.writeAnswer (h : Linked requestId w₀ id w) {requestId' : RequestId} {orderId : ℕ}
    (horder : orderId = id ↔ requestId' = requestId) (status : ApprovalStatus) (q : Option ℤ) (reason : String) :
    Linked requestId w₀ id (w.writeAnswer requestId' orderId status q reason) := by
  refine ⟨h.extends_.trans (List.prefix_append ..), fun requestId'' row hrow => ?_, h.apiCalls, ?_⟩
  · obtain ⟨row', hrow', heq⟩ := approvals_writeAnswer hrow
    rw [heq]
    exact h.approvals requestId'' row' hrow'
  · have hsince : w₀.since (w.writeAnswer requestId' orderId status q reason) =
        w₀.since w ++ [.committed requestId' q] := since_log h.extends_ _
    rw [hsince, lastModified_append_committed]
    obtain ⟨row, hrow, hmod⟩ := Option.map_eq_some_iff.1 h.modified
    unfold World.writeAnswer
    rw [Table.get?_update]
    by_cases hid : requestId' = requestId
    · rw [if_pos hid, if_pos (horder.2 hid).symm, horder.2 hid, hrow, ← hmod]
      rfl
    · have hne : id ≠ orderId := fun heq => hid (horder.1 heq.symm)
      rw [if_neg hid, if_neg hne, hrow, ← hmod]
      rfl

theorem Linked.step (h : Linked requestId w₀ id w) (e : Step) : Linked requestId w₀ id (w.step e) := by
  have hmove := step_move w e
  generalize w.step e = w' at hmove
  cases hmove with
  | idle => exact h
  | tap cb =>
    have hlog := h.log (e := .accepted cb.requestId cb.answer.status) (by simp)
    exact hlog.congr (List.prefix_refl _) hlog.approvals hlog.apiCalls rfl rfl
  | fail i cb => exact h.congr (List.prefix_refl _) h.approvals h.apiCalls rfl rfl
  | commit i cb row hcb hphase hrow =>
    have hphase : Linked requestId w₀ id (w.setPhase i cb .redis) :=
      h.congr (List.prefix_refl _) h.approvals h.apiCalls rfl rfl
    exact hphase.writeAnswer (h.approvals cb.requestId row hrow) _ _ _
  | next i cb phase => exact h.congr (List.prefix_refl _) h.approvals h.apiCalls rfl rfl
  | signal i cb =>
    have hlog := h.log (e := .handled cb.requestId cb.action) (by simp)
    exact hlog.congr (List.prefix_refl _) hlog.approvals hlog.apiCalls rfl rfl
  | respond row call hrow hpending horder =>
    have hlog := h.log (e := .accepted call.requestId call.body.newStatus) (by simp)
    refine hlog.congr (List.prefix_refl _) hlog.approvals (fun call' hmem => ?_) rfl rfl
    rcases List.mem_append.1 hmem with hmem | hmem
    · exact h.apiCalls call' hmem
    · rw [List.mem_singleton] at hmem
      subst hmem
      rw [horder]
      exact h.approvals _ row hrow
  | respondFail i call =>
    exact h.congr (List.prefix_refl _) h.approvals (fun c hc => h.apiCalls c (List.mem_of_mem_eraseIdx hc)) rfl rfl
  | respondCommit i call hcall =>
    have herase : Linked requestId w₀ id { w with apiCalls := w.apiCalls.eraseIdx i } :=
      h.congr (List.prefix_refl _) h.approvals (fun c hc => h.apiCalls c (List.mem_of_mem_eraseIdx hc)) rfl rfl
    exact herase.writeAnswer (h.apiCalls call (List.mem_of_getElem? hcall)) _ _ _

/-- Before there is an order, no response of the request can commit. -/
theorem Unlinked.step (h : Unlinked requestId w₀ w) (e : Step) : Unlinked requestId w₀ (w.step e) := by
  have hlog : ∀ e : Event, (∀ q, e ≠ .committed requestId q) →
      lastModified requestId (w₀.since (w.log e)) = none := by
    intro e he
    rw [since_log h.extends_]
    cases e with
    | committed requestId' q =>
      rw [lastModified_append_committed, if_neg fun heq => he q (by rw [heq]), h.nothing]
    | _ => rw [lastModified_append_other _ _ (by simp), h.nothing]
  have hmove := step_move w e
  generalize w.step e = w' at hmove
  cases hmove with
  | idle => exact h
  | tap cb =>
    exact ⟨h.extends_.trans (List.prefix_append ..), ⟨h.unused.approvals, h.unused.apiCalls⟩,
      hlog (.accepted cb.requestId cb.answer.status) (by simp)⟩
  | fail i cb => exact ⟨h.extends_, ⟨h.unused.approvals, h.unused.apiCalls⟩, h.nothing⟩
  | commit i cb row hcb hphase hrow =>
    obtain ⟨hid, _⟩ := h.unused.approvals cb.requestId row hrow
    refine ⟨h.extends_.trans (List.prefix_append ..), ⟨fun requestId' row' hrow' => ?_, h.unused.apiCalls⟩,
      hlog (.committed cb.requestId cb.answer.modifiedQuantity) (by simpa using hid)⟩
    obtain ⟨row'', hrow'', heq⟩ := approvals_writeAnswer hrow'
    rw [heq]
    exact h.unused.approvals requestId' row'' hrow''
  | next i cb phase => exact ⟨h.extends_, ⟨h.unused.approvals, h.unused.apiCalls⟩, h.nothing⟩
  | signal i cb =>
    exact ⟨h.extends_.trans (List.prefix_append ..), ⟨h.unused.approvals, h.unused.apiCalls⟩,
      hlog (.handled cb.requestId cb.action) (by simp)⟩
  | respond row call hrow hpending horder =>
    refine ⟨h.extends_.trans (List.prefix_append ..), ⟨h.unused.approvals, fun call' hmem => ?_⟩,
      hlog (.accepted call.requestId call.body.newStatus) (by simp)⟩
    rcases List.mem_append.1 hmem with hmem | hmem
    · exact h.unused.apiCalls call' hmem
    · rw [List.mem_singleton] at hmem
      subst hmem
      rw [horder]
      exact h.unused.approvals _ row hrow
  | respondFail i call =>
    exact ⟨h.extends_, ⟨h.unused.approvals, fun c hc => h.unused.apiCalls c (List.mem_of_mem_eraseIdx hc)⟩, h.nothing⟩
  | respondCommit i call hcall =>
    obtain ⟨hid, _⟩ := h.unused.apiCalls call (List.mem_of_getElem? hcall)
    refine ⟨h.extends_.trans (List.prefix_append ..),
      ⟨fun requestId' row' hrow' => ?_, fun c hc => h.unused.apiCalls c (List.mem_of_mem_eraseIdx hc)⟩,
      hlog (.committed call.requestId call.body.modifiedQuantity) (by simpa using hid)⟩
    obtain ⟨row'', hrow'', heq⟩ := approvals_writeAnswer hrow'
    rw [heq]
    exact h.unused.approvals requestId' row'' hrow''

/-- The writes of the manager keep the link. -/
theorem manages_linked (id : ℕ) (w₀ : World) : Manages env id (Linked env.requestId w₀ id)
    (Linked env.requestId w₀ id) (Linked env.requestId w₀ id) (fun _ => Linked env.requestId w₀ id)
    (fun _ => Linked env.requestId w₀ id) where
  stepP₀ _ e _ _ h := h.step e
  stepP _ e _ _ h := h.step e
  stepI e _ _ h := h.step e
  stepW _ e _ _ h := h.step e
  stepD _ e _ _ h := h.step e
  insert row w hid _ _ h := by
    refine h.congr (List.prefix_refl _) (fun requestId' row' hrow' => ?_) h.apiCalls rfl rfl
    rw [Dict.get?_set] at hrow'
    split at hrow'
    · rename_i heq
      cases hrow'
      exact iff_of_true hid heq
    · exact h.approvals requestId' row' hrow'
  save messageId w h := by
    refine h.congr (List.prefix_refl _) (fun requestId' row' hrow' => ?_) h.apiCalls rfl rfl
    obtain ⟨row'', hrow'', heq⟩ := approvals_modify w.approvals (fun _ => by rfl) hrow'
    rw [heq]
    exact h.approvals requestId' row'' hrow''
  register _ _ _ h := h.congr (List.prefix_refl _) h.approvals h.apiCalls rfl rfl
  wait w h := by
    unfold endWait
    split
    · exact h.log (by simp)
    · exact (h.log (by simp)).log (by simp)
  skip _ _ _ h := h
  timeout w h := by
    refine h.congr (List.prefix_refl _) (fun requestId' row' hrow' => ?_) h.apiCalls
      (map_modifiedQuantity_update w.orders id (fun o => { o with approvalStatus := .timeout }) (fun _ => rfl) id) rfl
    obtain ⟨row'', hrow'', heq⟩ := approvals_modify w.approvals (fun _ => by rfl) hrow'
    rw [heq]
    exact h.approvals requestId' row'' hrow''
  unregister _ _ h := h.congr (List.prefix_refl _) h.approvals h.apiCalls rfl rfl

/-- A run carries the link along, from unused ids on. -/
theorem carries_linked (run : Run) (w₀ : World) :
    Carries env run (Unlinked env.requestId w₀) (Linked env.requestId w₀) where
  step₀ _ e h := h.step e
  create w h := by
    refine ⟨h.extends_, fun requestId' row hrow => ?_, fun call hcall => ?_, ?_⟩
    · obtain ⟨hne, hid⟩ := h.unused.approvals requestId' row hrow
      exact iff_of_false hid hne
    · obtain ⟨hne, hid⟩ := h.unused.apiCalls call hcall
      exact iff_of_false hid hne
    · rw [Table.get?_insert, if_pos rfl]
      exact congrArg some h.nothing.symm
  step _ _ e h := h.step e
  web id w v h := h.congr (List.prefix_refl _) h.approvals h.apiCalls
    (map_modifiedQuantity_update w.orders id (fun o => { o with
      webVerifyResult := some v.result, webVerifySummary := v.summary }) (fun _ => rfl) id) rfl
  manages id := manages_linked id w₀
  approve id row w hid _ _ h := by
    refine h.congr (List.prefix_refl _) (fun requestId' row' hrow' => ?_) h.apiCalls
      (map_modifiedQuantity_update w.orders id (fun o => { o with approvalStatus := .autoApproved })
        (fun _ => rfl) id) rfl
    rw [Dict.get?_set] at hrow'
    split at hrow'
    · rename_i heq
      cases hrow'
      exact iff_of_true hid heq
    · exact h.approvals requestId' row' hrow'

end Transactions

/-! ## The quantity that goes out -/

/-- The wait ended with an approval, and the last callback handled before asked for the quantity `q`. -/
def DecidedByModify (requestId : RequestId) (q : ℤ) (t : List Event) : Prop :=
  .waitEnded requestId .approved ∈ t ∧
    ∃ action, lastHandled requestId (beforeWaitEnd requestId t) = some action ∧ Modifies action q

/-- The run cannot send more than `q`: the order row cannot be read back, or the last quantity committed
before is at most `q` or stopped by the risk check, or none was committed and the original one is at most
`q`. -/
def QuantityBound (env : Env) (args : EntryArgs) (q : ℤ) (t : List Event) : Prop :=
  env.fault .getOrder ≠ none ∨
    match lastModified env.requestId (beforeReread t) with
    | none => args.tradeDecision.quantity ≤ q
    | some m => m ≤ q ∨ env.fault .riskCheck ≠ none ∨ (recheck env args m).passed = false

/-- In a run that was decided by a modification to `q`, nothing above `q` goes out exactly if the
quantity is bounded. -/
def BoundExactly (env : Env) (args : EntryArgs) (w w' : World) : Prop :=
  ∀ q, DecidedByModify env.requestId q (w.since w') →
    ((∀ r ∈ placements (w.since w'), r.quantity ≤ q) ↔ QuantityBound env args q (w.since w'))

theorem Modifies.pos {action : String} {q : ℤ} (h : Modifies action q) : 0 < q := by
  obtain ⟨_, _, _, hq⟩ := h
  exact hq

theorem boundExactly_of_unapproved {args : EntryArgs} {l : List Event} {w w' : World} (hlogs : Logs l w w')
    (hl : Unapproved env l) : BoundExactly env args w w' := by
  rintro q ⟨hmem, _⟩
  rw [hlogs.mem_since rfl] at hmem
  rcases hl with rfl | ⟨status, hne, rfl⟩
  · cases hmem
  · rw [List.mem_singleton, Event.waitEnded.injEq] at hmem
    exact absurd hmem.2.symm hne

/-- What a placement hands over is at most `q` if its quantity is. -/
theorem OrderExecutor.Placement.bound {run : Run} {id : ℕ} {m q : ℤ} {w w' : World} {res : ExecutionResult}
    (hq : 0 < q) (h : Placement env run id m w res w') :
    (∀ r ∈ placements (w.since w'), r.quantity ≤ q) ↔ m ≤ q := by
  have hone : ∀ r, run.request m = some r → placements (w.since w') = [r] →
      ((∀ r ∈ placements (w.since w'), r.quantity ≤ q) ↔ m ≤ q) := by
    intro r hreq hr
    rw [hr, List.forall_mem_singleton, (Run.request_eq_some hreq).2.2.1]
  cases h with
  | refused hreq hlogs =>
    rw [hlogs.placements]
    have hm := Run.request_eq_none hreq
    exact iff_of_true (fun r hr => by cases hr) (by omega)
  | raised r hreq hlogs => exact hone r hreq hlogs.placements
  | failed r hreq hlogs => exact hone r hreq hlogs.placements
  | filled r hreq hlogs => exact hone r hreq hlogs.placements

/-- The row read back carries the last quantity committed before. -/
theorem reread_modified {id : ℕ} {l : List Event} {w w₁ w₂ w' : World} {row : Option Order}
    (hlogs : Logs l w w₁) (hl : ∀ row, .reread row ∉ l)
    (hread : Reread (Linked env.requestId w) id [] w₁ w₂ row) (htrace : w₂.trace <+: w'.trace) :
    row.bind (·.modifiedQuantity) = lastModified env.requestId (beforeReread (w.since w')) := by
  obtain ⟨w₃, hlinked, hquiet, hrow, hpre⟩ := hread.read
  obtain ⟨rest, hrest⟩ := hpre.trans htrace
  have hsince : w.since w' = w.since w₃ ++ .reread row :: rest := by
    apply since_of_append
    rw [← hrest, ← append_since hlinked.extends_]
    simp
  have hnone : ∀ row, .reread row ∉ w.since w₃ := fun row' hmem => by
    rw [(hlogs.trans hquiet.logs).mem_since rfl, List.append_nil] at hmem
    exact hl row' hmem
  rw [hsince, beforeReread_append hnone, hrow]
  obtain ⟨o, ho, hmod⟩ := Option.map_eq_some_iff.1 hlinked.modified
  rw [ho, Option.bind_some, hmod]

theorem boundExactly_of_sent {args : EntryArgs} {id : ℕ} {l : List Event} {m : ℤ} {row : Option Order}
    {w w₁ w₂ w' : World} {res : ExecutionResult} (hlogs : Logs l w w₁) (hl : ∀ row, .reread row ∉ l)
    (hnone : placements l = []) (hread : Reread (Linked env.requestId w) id [] w₁ w₂ row)
    (hget : env.fault .getOrder = none) (hsends : Sends env args row m)
    (h : Placement env args.run id m w₂ res w') : BoundExactly env args w w' := by
  rintro q ⟨_, _, _, hmodifies⟩
  obtain ⟨l', hlogs', _⟩ := h.logged
  have hto : Logs (l ++ [.reread row]) w w₂ := hlogs.trans hread.quiet.logs
  have hplaced : placements (w.since w') = placements (w₂.since w') := by
    rw [(hto.trans hlogs').placements, hlogs'.placements, placements_append, placements_append, hnone]
    rfl
  have hlast := reread_modified hlogs hl hread hlogs'.extends_
  rw [hplaced, h.bound hmodifies.pos]
  unfold QuantityBound
  cases hsends with
  | original horig =>
    rw [horig] at hlast
    rw [← hlast]
    simp only [hget, ne_eq, not_true_eq_false, false_or]
    rfl
  | modified m' hmod hcheck hpassed =>
    rw [hmod] at hlast
    rw [← hlast, intOr_recheck hpassed]
    simp [hget, hcheck, hpassed]

theorem executeEntry_boundExactly (args : EntryArgs) {w : World} (hids : UnusedIds env.requestId w) :
    wp (executeEntry env args) (fun _ w' => BoundExactly env args w w') (fun _ _ => False) w := by
  refine Goal.submit ⟨?_, ?_⟩ (carries_linked args.run w)
    ⟨List.prefix_refl _, hids, by rw [since_self]; rfl⟩
  · intro _ l w' _ hquiet hun
    exact boundExactly_of_unapproved hquiet.logs hun
  · intro id status w₁ _ happ hlinked
    obtain ⟨l, hlogs, hl, hnone⟩ : ∃ l, Logs l w w₁ ∧ (∀ row, .reread row ∉ l) ∧ placements l = [] := by
      rcases happ with ⟨_, _, hquiet⟩ | ⟨_, hquiet, _⟩ <;> exact ⟨_, hquiet.logs, by simp, rfl⟩
    have hends : ∀ res w', EntryEnd env args (Linked env.requestId w) id [] w₁
        (fun q w₁ => Placement env args.run id q w₁) res w' → BoundExactly env args w w' := by
      intro res w' h
      cases h with
      | unread l' hfault _ hquiet hl' =>
        refine fun q _ => iff_of_true (fun r hr => ?_) (.inl hfault)
        rw [(hlogs.trans hquiet.logs).placements, placements_append, hnone] at hr
        rcases hl' with rfl | ⟨row, rfl⟩ <;> cases hr
      | stopped row m hread _ hmod hstop =>
        refine fun q _ => iff_of_true (fun r hr => ?_) (.inr ?_)
        · rw [(hlogs.trans hread.quiet.logs).placements, placements_append, hnone] at hr
          cases hr
        · rw [← reread_modified hlogs hl hread (List.prefix_refl _), hmod]
          exact .inr hstop
      | sent row q w₂ hread hget hsends hX => exact boundExactly_of_sent hlogs hl hnone hread hget hsends hX
    exact wp_mono (confirmEntry_spec (fun _ _ e h => h.step e)
      (fun q w₁ => execute_placement (trackEntry_tracks args) w₁) (.refl w₁) hlinked)
      hends fun e w' h => wp_mono h hends fun _ _ h => h

/-- For every run that was decided by a callback asking for `q`, and every pattern of failures, no order
above `q` is sent if and only if the order row cannot be read back, or the last quantity committed for the
request before is at most `q` or stopped by the risk check, or none was committed and the original
quantity is at most `q`. -/
theorem modification_binds_iff (env : Env) (args : EntryArgs) (w : World) (q : ℤ)
    (hids : UnusedIds env.requestId w) {res : ExecutionResult} {w' : World}
    (hrun : executeEntry env args w = .ok res w') (hdecided : DecidedByModify env.requestId q (w.since w')) :
    (∀ r ∈ placements (w.since w'), r.quantity ≤ q) ↔ QuantityBound env args q (w.since w') :=
  wp_of_ok (executeEntry_boundExactly args hids) hrun q hdecided

theorem modifies_five : Modifies "modify:5" 5 := ⟨['5'], by decide +kernel, by decide +kernel, by decide⟩

theorem unusedIds_empty (requestId : RequestId) : UnusedIds requestId {} :=
  ⟨fun _ _ h => (by cases h), fun _ h => (by cases h)⟩

/-- Whether a run of ten shares was decided by the action, with the quantities it sent and what the
manager remembers. -/
def modifyOutcome (env : Env) : Option (Bool × Option String × List ℤ × Option ℤ × Option ℤ) :=
  match executeEntry env buyTen {} with
  | .ok _ w' => some ((World.since {} w').any (fun e => match e with
      | .waitEnded 1 .approved => true
      | _ => false), lastHandled 1 (beforeWaitEnd 1 (World.since {} w')),
      (placements (World.since {} w')).map (·.quantity), lastModified 1 (beforeReread (World.since {} w')),
      getModifiedQuantity w' 1)
  | .error _ _ => none

/-- With its transaction committed, a modification to five binds. -/
theorem modification_binds_five : ∃ res w', executeEntry (answeringEnv "modify:5") buyTen {} = .ok res w' ∧
    DecidedByModify 1 5 (World.since {} w') ∧ (placements (World.since {} w')).length = 1 ∧
    ∀ r ∈ placements (World.since {} w'), r.quantity ≤ 5 := by
  have hval : modifyOutcome (answeringEnv "modify:5") = some (true, some "modify:5", [5], some 5, some 5) := by
    decide +kernel
  unfold modifyOutcome at hval
  cases hrun : executeEntry (answeringEnv "modify:5") buyTen {} with
  | error e w' => rw [hrun] at hval; cases hval
  | ok res w' =>
    rw [hrun, Option.some.injEq, Prod.mk.injEq, Prod.mk.injEq, Prod.mk.injEq, Prod.mk.injEq] at hval
    obtain ⟨hwait, hhandled, hplaced, hlast, _⟩ := hval
    have hdecided : DecidedByModify 1 5 (World.since {} w') := by
      refine ⟨?_, "modify:5", hhandled, modifies_five⟩
      obtain ⟨e, hmem, he⟩ := List.any_eq_true.1 hwait
      split at he
      · exact hmem
      · cases he
    refine ⟨res, w', rfl, hdecided, ?_, ?_⟩
    · have := congrArg List.length hplaced
      simpa using this
    · refine (modification_binds_iff (answeringEnv "modify:5") buyTen {} 5 (unusedIds_empty _) hrun hdecided).2
        (.inr ?_)
      rw [show lastModified (answeringEnv "modify:5").requestId (beforeReread (World.since {} w')) = some 5 from hlast]
      exact .inl le_rfl

/-- When the transaction of the callback fails, the original ten shares go out under an approval for five,
which the manager still remembers. -/
theorem lostModification_sends_original : ∃ res w',
    executeEntry (answeringEnv "modify:5" true) buyTen {} = .ok res w' ∧
    DecidedByModify 1 5 (World.since {} w') ∧ getModifiedQuantity w' 1 = some 5 ∧
    ¬ ∀ r ∈ placements (World.since {} w'), r.quantity ≤ 5 := by
  have hval : modifyOutcome (answeringEnv "modify:5" true) = some (true, some "modify:5", [10], none, some 5) := by
    decide +kernel
  unfold modifyOutcome at hval
  cases hrun : executeEntry (answeringEnv "modify:5" true) buyTen {} with
  | error e w' => rw [hrun] at hval; cases hval
  | ok res w' =>
    rw [hrun, Option.some.injEq, Prod.mk.injEq, Prod.mk.injEq, Prod.mk.injEq, Prod.mk.injEq] at hval
    obtain ⟨hwait, hhandled, hplaced, _, hmemory⟩ := hval
    refine ⟨res, w', rfl, ⟨?_, "modify:5", hhandled, modifies_five⟩, hmemory, fun hle => ?_⟩
    · obtain ⟨e, hmem, he⟩ := List.any_eq_true.1 hwait
      split at he
      · exact hmem
      · cases he
    · have hten : (10 : ℤ) ∈ (placements (World.since {} w')).map (·.quantity) := by rw [hplaced]; simp
      obtain ⟨r, hr, hq⟩ := List.mem_map.1 hten
      have := hle r hr
      omega

end TradingAgent
