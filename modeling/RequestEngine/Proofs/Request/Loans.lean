/-
  RequestEngine.Proofs.Request.Loans

  Connections that are lent come back.  An execution borrows a connection when
  its attempt gets one and gives it back when the exchange over it ends, be it
  with an answer, a broken connection, an expired attempt or the end of the whole
  execution, which may be dropped at any time.

    * `LoanTurn` — a turn borrows, gives back or does neither;
    * `Paired`   — loans of one execution follow each other, each given back to
      the node it came from before the next;
    * `BalancedLoans` — the same for a whole request: what is out is what its
      executions are using, nothing is out for an attempt that is reported, and
      nothing at all when the request ends.
-/
import RequestEngine.Proofs.Request.Protocol

namespace RequestEngine

/-- A connection that is borrowed or given back, with its node. -/
inductive Loan where
  | taken (node : Node) (c : Connection)
  | returned (node : Node) (c : Connection)
  deriving DecidableEq

namespace Loan

/-- The connection that is borrowed. -/
def taken? : Loan → Option (Node × Connection)
  | .taken node c => some (node, c)
  | .returned .. => none

/-- The connection that is given back. -/
def returned? : Loan → Option (Node × Connection)
  | .returned node c => some (node, c)
  | .taken .. => none

end Loan

/-- The connection that an action borrows or gives back. -/
def Action.loan? : Action → Option Loan
  | .acquired node c => some (.taken node c)
  | .release node c => some (.returned node c)
  | _ => none

theorem Action.loan?_of_isGeneral (a : Action) (h : a.isGeneral = true) : a.loan? = none := by
  cases a <;> first | rfl | cases h

namespace Deed

/-- The loans of a log, in order. -/
abbrev loans (log : List Deed) : List Loan :=
  seen Action.loan? log

/-- The loans of one execution, in order. -/
def loansOf (index : Nat) (log : List Deed) : List Loan :=
  (actionsOf index log).filterMap Action.loan?

end Deed

-- ============================================================================
-- Loans of one execution
-- ============================================================================

/-- Loans of which each is given back before the next, and the one that is still out. -/
inductive Paired : List Loan → Option (Node × Connection) → Prop where
  | nothing : Paired [] none
  | takes {loans : List Loan} {node : Node} {c : Connection} (before : Paired loans none) :
      Paired (loans ++ [.taken node c]) (some (node, c))
  | returns {loans : List Loan} {node : Node} {c : Connection}
      (before : Paired loans (some (node, c))) : Paired (loans ++ [.returned node c]) none

/-- What a turn may do about loans: what was out before, the loans, and what is out after. -/
inductive LoanTurn : Option (Node × Connection) → List Loan → Option (Node × Connection) →
    Prop where
  | nothing : LoanTurn none [] none
  | takes (node : Node) (c : Connection) : LoanTurn none [.taken node c] (some (node, c))
  | returns (node : Node) (c : Connection) : LoanTurn (some (node, c)) [.returned node c] none

theorem Paired.append {loans more : List Loan} {out out' : Option (Node × Connection)}
    (h : Paired loans out) (turn : LoanTurn out more out') : Paired (loans ++ more) out' := by
  cases turn with
  | nothing => rwa [List.append_nil]
  | takes => exact h.takes
  | returns => exact h.returns

namespace Execution

/-- The connection that an execution is using, with its node. -/
def loan? (e : Execution) : Option (Node × Connection) :=
  e.connection?.map fun c => (e.node, c)

end Execution

/-- The connection that is in use after a turn. -/
def Progress.loan? : Progress → Option (Node × Connection)
  | .goesOn e => e.loan?
  | _ => none

theorem Progress.loan?_of_last {progress : Progress} (last : ∀ e', progress ≠ .goesOn e') :
    progress.loan? = none := by
  cases progress with
  | goesOn e => exact absurd rfl (last e)
  | resolved | cancelled | exhausted => rfl

namespace Execution

variable {s : Settings} {deadline : Option Instant} {m : Moment} {sh sh' : Shared}
  {e e' : Execution} {event : ExecutionEvent} {advance : Advance}

theorem assess_loans (a : Attempt) (error : AttemptError) :
    (e.assess s m a error).filterMap Action.loan? = [] := by
  cases h : error.wasSent <;> simp [assess, h, Action.loan?]

/-- A failed attempt has given back its connection before anything else is done about it. -/
theorem Fails.loanTurn {a : Attempt} {error : AttemptError} {back rest : List Action}
    (h : Fails s deadline m e event a error back) (other : rest.filterMap Action.loan? = []) :
    LoanTurn e.loan? ((back ++ (e.assess s m a error ++ rest)).filterMap Action.loan?) none := by
  rw [List.filterMap_append, List.filterMap_append, assess_loans, other, List.append_nil,
    List.append_nil]
  cases h with
  | refused phase =>
    simp only [Execution.loan?, connection?, phase]
    exact .nothing
  | broken phase | database phase | unexpected phase | expired phase =>
    simp only [Execution.loan?, connection?, phase]
    exact .returns ..

/-- What a turn does about loans. -/
theorem Turn.loanTurn (h : Turn s deadline m sh e event advance) :
    LoanTurn e.loan? (advance.actions.filterMap Action.loan?) advance.progress.loan? := by
  have quiet {actions : List Action} (h : ∀ a ∈ actions, a.isQuiet = true) :
      actions.filterMap Action.loan? = [] :=
    List.filterMap_eq_nil_iff.mpr fun a ha =>
      Action.loan?_of_isGeneral a (Action.isGeneral_of_isQuiet (h a ha))
  cases h with
  | starts onward | stops onward =>
    have hnone : e.loan? = none := by
      rcases onward.origin with ⟨phase, -⟩ | ⟨a, error, d, phase, -⟩ <;>
        simp [Execution.loan?, connection?, phase]
    simp [quiet onward.quiet, Action.loan?, hnone]
    exact .nothing
  | exhausts phase moves take =>
    have hnone : e.loan? = none := by simp [Execution.loan?, connection?, phase]
    rw [quiet (moves.exhausting_quiet take), hnone]
    exact .nothing
  | asks phase | returns phase | throws phase =>
    have hnone : e.loan? = none := by simp [Execution.loan?, connection?, phase]
    rw [hnone]
    exact .nothing
  | sends phase =>
    have hnone : e.loan? = none := by simp [Execution.loan?, connection?, phase]
    rw [hnone]
    exact .takes ..
  | @succeeds a c _ phase | @succeedsLate a c _ phase =>
    have hsome : e.loan? = some (e.node, c) := by simp [Execution.loan?, connection?, phase]
    rw [hsome]
    exact .returns ..
  | rethrows fails | fails fails => exact fails.loanTurn rfl
  | failsLate fails asked =>
    subst asked
    split <;> exact fails.loanTurn rfl

/-- Dropping an execution gives back what it is using. -/
theorem abandon_loanTurn (e : Execution) :
    LoanTurn e.loan? (e.abandon.filterMap Action.loan?) none := by
  cases h : e.phase with
  | exchanging a c =>
    simp only [loan?, abandon, connection?, pending?, h]
    exact .returns ..
  | fresh | announcing | acquiring | reportingSuccess | reportingFailure =>
    simp only [loan?, abandon, connection?, pending?, h]
    exact .nothing

/-- An execution that tells anything uses no connection. -/
theorem loan?_of_told {n : Notification} (tells : n ∈ e.told) : e.loan? = none := by
  cases hphase : e.phase with
  | exchanging => simp [Execution.told, hphase] at tells
  | fresh | announcing | acquiring | reportingSuccess | reportingFailure =>
    simp [Execution.loan?, Execution.connection?, hphase]

/-- A turn that tells something has given back the connection before. -/
theorem Turn.returns_before_telling {actions : List Action} {n : Notification}
    (h : Turn s deadline m sh e event ⟨sh', .goesOn e', actions⟩) (tells : n ∈ e'.told) :
    ∃ lead, actions = lead ++ [.notify n] ∧ lead.filterMap Action.notice? = [] ∧
      LoanTurn e.loan? (lead.filterMap Action.loan?) none := by
  obtain ⟨lead, hactions, hlead⟩ := h.tells_last
  have hloans := h.loanTurn
  have hsilent : ([n].map Action.notify).filterMap Action.loan? = [] := rfl
  simp only [Progress.told, told_eq_singleton tells] at hactions
  simp only [Progress.loan?, loan?_of_told tells, hactions, List.filterMap_append, hsilent,
    List.append_nil] at hloans
  exact ⟨lead, hactions, hlead, hloans⟩

end Execution

namespace Request

/-- The law that the loans of an execution are paired. -/
def Law.loans (s : Settings) : Law s where
  live _ done e := Paired (done.filterMap Action.loan?) e.loan?
  ended _ _ done := Paired (done.filterMap Action.loan?) none
  new _ _ := .nothing
  goesOn := by
    intro deadline m sh sh' e e' event origin done actions h turn
    rw [List.filterMap_append]
    exact h.append turn.loanTurn
  ends := by
    intro deadline m sh sh' e event progress origin done actions h turn last
    have hturn := turn.loanTurn
    rw [Progress.loan?_of_last last] at hturn
    rw [List.filterMap_append]
    exact h.append hturn
  dropped := by
    intro e origin done h
    rw [List.filterMap_append]
    exact h.append e.abandon_loanTurn

-- ============================================================================
-- Loans of a request
-- ============================================================================

/-- The connections that are in use. -/
def State.loans (σ : State) : List (Node × Connection) :=
  σ.executions.filterMap Execution.loan?

/-- The connection that the execution with a given index is using. -/
def State.loanOf (σ : State) (index : Nat) : Option (Node × Connection) :=
  (σ.executions.find? fun e => e.index = index).bind Execution.loan?

/-- The loans of a log are balanced in the state that it led to. -/
structure BalancedLoans (log : List Deed) (σ : State) : Prop where
  /-- Only executions borrow connections and give them back. -/
  owned : ∀ d ∈ log, d.action.loan? ≠ none → d.execution ≠ none
  /-- Each loan of an execution is given back before its next, and what is out is in use. -/
  paired : ∀ index, Paired (Deed.loansOf index log) (σ.loanOf index)
  /-- What was borrowed is what was given back and what is in use. -/
  balance : ((Deed.loans log).filterMap Loan.taken?).Perm
    ((Deed.loans log).filterMap Loan.returned? ++ σ.loans)
  /-- Nothing is out for an execution when it reports on an attempt. -/
  reported : EachAfter (fun before d => ∀ n h, d.action = .notify n → n.report? = some h →
    Paired (Deed.loansOf h.execution before) none) log
  /-- Nothing at all is out when the end of the request is reported. -/
  final : EachAfter (fun before d => ∀ n, d.action = .notify n → n.isFinal = true →
    ∀ index, Paired (Deed.loansOf index before) none) log

/-! ## What is out -/

section Exchange

variable {x : Node × Connection} {executions executions' : List Execution} {e e' : Execution}

/-- Deeds under which one connection stays balanced when the executions in flight change. -/
def Exchange (x : Node × Connection) (executions : List Execution) (deeds : List Deed)
    (executions' : List Execution) : Prop :=
  ((Deed.loans deeds).filterMap Loan.taken?).count x +
      (executions.filterMap Execution.loan?).count x =
    ((Deed.loans deeds).filterMap Loan.returned?).count x +
      (executions'.filterMap Execution.loan?).count x

theorem Exchange.append {middle : List Execution} {deeds more : List Deed}
    (h : Exchange x executions deeds middle) (h' : Exchange x middle more executions') :
    Exchange x executions (deeds ++ more) executions' := by
  simp only [Exchange, Deed.loans, Deed.seen_append, List.filterMap_append,
    List.count_append] at *
  omega

theorem Exchange.of_silent {deeds : List Deed} (silent : Deed.loans deeds = [])
    (same : executions.filterMap Execution.loan? = executions'.filterMap Execution.loan?) :
    Exchange x executions deeds executions' := by
  simp [Exchange, silent, same]

theorem perm_others (distinct : (executions.map Execution.index).Nodup) (mem : e ∈ executions) :
    executions.Perm (e :: executions.filter fun o => o.index ≠ e.index) := by
  induction executions with
  | nil => cases mem
  | cons o rest ih =>
    simp only [List.map_cons, List.nodup_cons] at distinct
    rcases List.mem_cons.mp mem with rfl | hmem
    · have hrest : rest.filter (fun o => o.index ≠ e.index) = rest := by
        refine List.filter_eq_self.mpr fun o ho => ?_
        have hne : o.index ≠ e.index := fun heq =>
          distinct.1 (heq ▸ List.mem_map_of_mem ho)
        simpa using hne
      rw [List.filter_cons_of_neg (by simp), hrest]
    · have hne : o.index ≠ e.index := fun heq =>
        distinct.1 (heq ▸ List.mem_map_of_mem hmem)
      rw [List.filter_cons_of_pos (by simpa using hne)]
      exact ((ih distinct.2 hmem).cons o).trans (.swap e o _)

theorem perm_replaced (distinct : (executions.map Execution.index).Nodup)
    (mem : e ∈ executions) :
    (executions.map fun o => if o.index = e.index then e' else o).Perm
      (e' :: executions.filter fun o => o.index ≠ e.index) := by
  refine ((perm_others distinct mem).map _).trans ?_
  rw [List.map_cons, if_pos rfl]
  refine .of_eq (congrArg (e' :: ·) ?_)
  refine (List.map_congr_left fun o ho => ?_).trans (List.map_id _)
  have hne := (List.mem_filter.mp ho).2
  simp only [decide_eq_true_eq] at hne
  rw [if_neg hne]
  rfl

/-- What a turn does about loans balances with what its execution uses. -/
theorem Exchange.of_loanTurn {out out' : Option (Node × Connection)} {deeds : List Deed}
    (others : List Execution) (turn : LoanTurn out (Deed.loans deeds) out')
    (before : (executions.filterMap Execution.loan?).Perm
      (out.toList ++ others.filterMap Execution.loan?))
    (after : (executions'.filterMap Execution.loan?).Perm
      (out'.toList ++ others.filterMap Execution.loan?)) :
    Exchange x executions deeds executions' := by
  have hturn : ((Deed.loans deeds).filterMap Loan.taken?).count x + out.toList.count x =
      ((Deed.loans deeds).filterMap Loan.returned?).count x + out'.toList.count x := by
    generalize Deed.loans deeds = loans at turn
    cases turn <;> simp [Loan.taken?, Loan.returned?, List.filterMap_cons]
  rw [Exchange, before.count_eq, after.count_eq, List.count_append, List.count_append]
  omega

theorem filterMap_cons_toList {α β : Type} (f : α → Option β) (a : α) (l : List α) :
    (a :: l).filterMap f = (f a).toList ++ l.filterMap f := by
  cases h : f a <;> simp [h]

theorem Exchange.advance {s : Settings} {deadline : Option Instant} {m : Moment}
    {sh sh' : Shared} {event : ExecutionEvent} {actions : List Action}
    (distinct : (executions.map Execution.index).Nodup) (mem : e ∈ executions)
    (turn : e.Turn s deadline m sh event ⟨sh', .goesOn e', actions⟩) :
    Exchange x executions (Deed.ofExecution e.index actions)
      (executions.map fun o => if o.index = e.index then e' else o) := by
  have hturn := turn.loanTurn
  refine .of_loanTurn (executions.filter fun o => o.index ≠ e.index)
    (by simpa [Progress.loan?] using hturn) ?_ ?_
  · exact filterMap_cons_toList .. ▸ (perm_others distinct mem).filterMap _
  · exact filterMap_cons_toList .. ▸ (perm_replaced distinct mem).filterMap _

theorem Exchange.remove {s : Settings} {deadline : Option Instant} {m : Moment}
    {sh sh' : Shared} {event : ExecutionEvent} {progress : Progress} {actions : List Action}
    (distinct : (executions.map Execution.index).Nodup) (mem : e ∈ executions)
    (turn : e.Turn s deadline m sh event ⟨sh', progress, actions⟩)
    (last : ∀ e', progress ≠ .goesOn e') :
    Exchange x executions (Deed.ofExecution e.index actions)
      (executions.filter fun o => o.index ≠ e.index) := by
  have hturn := turn.loanTurn
  rw [Progress.loan?_of_last last, ← @Deed.seen_ofExecution _ _ e.index] at hturn
  refine .of_loanTurn _ hturn ?_ (.refl _)
  exact filterMap_cons_toList .. ▸ (perm_others distinct mem).filterMap _

theorem Exchange.dropAll (executions : List Execution) :
    Exchange x executions (abandonAll executions) [] := by
  induction executions with
  | nil => rfl
  | cons e rest ih =>
    have hturn := e.abandon_loanTurn
    rw [← @Deed.seen_ofExecution _ _ e.index] at hturn
    refine .append (.of_loanTurn rest hturn ?_ (.refl _)) ih
    rw [filterMap_cons_toList]

theorem Exchange.goesOn {r : Running} {σ : State} {more : List Deed} (h : GoesOn r σ more) :
    Exchange x r.executions more σ.executions := by
  cases h with
  | still => exact .of_silent rfl rfl
  | ended noExecution =>
    rw [exhaust_eq, noExecution]
    exact .of_silent rfl rfl

end Exchange

theorem Move.exchange {s : Settings} {m : Moment} {σ σ' : State} {event : Event}
    {deeds : List Deed} {x : Node × Connection} (move : Move s m σ event σ' deeds)
    (distinct : (σ.executions.map Execution.index).Nodup) :
    Exchange x σ.executions deeds σ'.executions := by
  have hgeneral := move.general
  cases move with
  | begins | findsNothing =>
    exact .of_silent (hgeneral.seen_ofRequest Action.loan?_of_isGeneral) rfl
  | forgoes | finishes | forsakes | timesOutLate => exact .of_silent rfl rfl
  | advances mem turn => exact .advance distinct mem turn
  | settles mem turn =>
    refine .append (.remove distinct mem turn (by simp)) (.append (.dropAll _) ?_)
    exact .of_silent rfl rfl
  | cancels mem turn goes | exhausts mem turn goes =>
    exact .append (.remove distinct mem turn (by simp)) (.goesOn goes)
  | speculates =>
    refine .of_silent (hgeneral.seen_ofRequest Action.loan?_of_isGeneral) ?_
    simp [State.executions, Execution.new, Execution.loan?, Execution.connection?]
  | speculatesInVain set due noNode goes =>
    have hgoes := Exchange.goesOn (x := x) goes
    have hfirst : General _ := (List.forall_mem_append.mp hgeneral).1
    have hsilent := hfirst.seen_ofRequest Action.loan?_of_isGeneral
    exact .append (.of_silent hsilent rfl) hgoes
  | timesOut => exact .append (.of_silent rfl rfl) (.append (.dropAll _) (.of_silent rfl rfl))
  | drops => exact .append (.dropAll _) (.of_silent rfl rfl)

variable {s : Settings} {ts : List Transition} {σ : State}

theorem Run.balance (h : Run s ts σ) : ((Deed.loans (log ts)).filterMap Loan.taken?).Perm
    ((Deed.loans (log ts)).filterMap Loan.returned? ++ σ.loans) := by
  refine List.perm_iff_count.mpr fun x => ?_
  rw [List.count_append]
  refine h.invariant (fun ts σ => ((Deed.loans (log ts)).filterMap Loan.taken?).count x =
    ((Deed.loans (log ts)).filterMap Loan.returned?).count x + σ.loans.count x) ?_ ?_
  · rfl
  · intro ts m σ event σ' deeds run ih move
    have hexchange : Exchange x σ.executions deeds σ'.executions :=
      move.exchange run.distinct
    simp only [Exchange, log_concat, Deed.loans, Deed.seen_append, List.filterMap_append,
      List.count_append, State.loans] at *
    omega

/-! ## Loans of each execution -/

theorem find?_of_mem {executions : List Execution} {e : Execution}
    (distinct : (executions.map Execution.index).Nodup) (mem : e ∈ executions) :
    executions.find? (fun o => o.index = e.index) = some e := by
  obtain ⟨o, ho⟩ := Option.isSome_iff_exists.mp
    (List.find?_isSome.mpr ⟨e, mem, by simp⟩ :
      (executions.find? fun o => o.index = e.index).isSome)
  have hindex : o.index = e.index := by simpa using List.find?_some ho
  rw [ho, eq_of_index_eq distinct mem (List.mem_of_find?_eq_some ho) hindex]

theorem State.loanOf_of_mem {e : Execution}
    (distinct : (σ.executions.map Execution.index).Nodup) (mem : e ∈ σ.executions) :
    σ.loanOf e.index = e.loan? := by
  rw [State.loanOf, find?_of_mem distinct mem, Option.bind_some]

theorem Run.paired (h : Run s ts σ) (index : Nat) :
    Paired (Deed.loansOf index (log ts)) (σ.loanOf index) := by
  have absent (h : ∀ e ∈ σ.executions, e.index ≠ index) : σ.loanOf index = none := by
    rw [State.loanOf, List.find?_eq_none.mpr (by simpa using h)]
    rfl
  cases (Law.loans s).record h index with
  | live mem own holds =>
    rw [← own, State.loanOf_of_mem h.distinct mem, own]
    exact holds
  | ended gone holds =>
    rw [absent gone]
    exact holds
  | never gone nothing =>
    rw [absent gone, Deed.loansOf, nothing]
    exact .nothing

theorem Run.owned (h : Run s ts σ) :
    ∀ d ∈ log ts, d.action.loan? ≠ none → d.execution ≠ none :=
  fun d hd hloan hnone => hloan (Action.loan?_of_isGeneral _ (h.general d hd hnone))

/-! ## Loans and notifications -/

theorem loansOf_append (index : Nat) (done more : List Deed) :
    Deed.loansOf index (done ++ more) = Deed.loansOf index done ++ Deed.loansOf index more := by
  simp [Deed.loansOf]

theorem Run.reported (h : Run s ts σ) :
    EachAfter (fun before d => ∀ n h, d.action = .notify n → n.report? = some h →
      Paired (Deed.loansOf h.execution before) none) (log ts) := by
  refine h.eachAfter ?_ ?_
  · rintro n host ⟨⟩ hreport
    cases hreport
  intro ts m σ event σ' deeds run _ move
  by_cases hreport : ∃ n ∈ Deed.notices deeds, ∃ h, n.report? = some h
  · obtain ⟨n, hn, host, hreport⟩ := hreport
    obtain ⟨r, e, e', event, sh, actions, rfl, mem, rfl, htold, turn⟩ :=
      move.tells.report hn hreport
    obtain ⟨lead, rfl, hlead, hloans⟩ := turn.returns_before_telling htold
    have hpaired := run.paired e.index
    rw [State.loanOf_of_mem run.distinct mem] at hpaired
    have hindex := Execution.told_execution htold
    rw [turn.index, Notification.attempt?_of_report hreport] at hindex
    rw [Deed.ofExecution, List.map_append, ← Deed.ofExecution]
    refine EachAfter.concat (.of_forall fun before d hd n' host' hn' _ => ?_) ?_
    · have hnone := List.filterMap_eq_nil_iff.mp hlead _ (Deed.mem_ofExecution.mp hd).2
      rw [hn'] at hnone
      cases hnone
    · rintro n' host' ⟨⟩ hreport'
      rw [hreport, Option.some.injEq] at hreport'
      subst hreport'
      rw [loansOf_append, Option.some.inj hindex, Deed.loansOf, Deed.loansOf,
        Deed.actionsOf_ofExecution_self]
      exact hpaired.append hloans
  · simp only [not_exists, not_and] at hreport
    refine .of_forall fun before d hd n host hn h => ?_
    exact absurd h (hreport n (Deed.mem_seen.mpr ⟨d, hd, by rw [hn]; rfl⟩) host)

/-- A step reports the end of its request after everything that its executions do, and leaves
    none of them in flight. -/
theorem Move.final_last {s : Settings} {m : Moment} {σ σ' : State} {event : Event}
    {deeds : List Deed} (move : Move s m σ event σ' deeds) : Deed.finals deeds = [] ∨
      ∃ lead actions, deeds = lead ++ Deed.ofRequest actions ∧ Deed.finals lead = [] ∧
        σ'.executions = [] := by
  have dropped (executions : List Execution) : Deed.finals (abandonAll executions) = [] :=
    (Deed.neutral_abandonAll executions).finals
  cases move with
  | begins take armed =>
    left
    rw [Deed.finals, Deed.seen_ofRequest]
    exact Action.final?_blind.quiet (armed.beginning_quiet take 0)
  | findsNothing => exact .inr ⟨[], _, rfl, rfl, rfl⟩
  | forgoes | finishes | forsakes | timesOutLate => exact .inl rfl
  | advances mem turn =>
    left
    rw [Deed.finals, Deed.seen_ofExecution]
    exact turn.finals
  | settles mem turn =>
    refine .inr ⟨_, _, (List.append_assoc ..).symm, ?_, rfl⟩
    have hfinals := turn.finals
    simp only [Deed.finals, Deed.seen_append, Deed.seen_ofExecution] at dropped ⊢
    rw [hfinals, dropped, List.append_nil]
  | @cancels _ e _ _ actions _ _ mem turn goes | @exhausts _ e _ _ actions _ _ _ mem turn goes =>
    have hlead : Deed.finals (Deed.ofExecution e.index actions) = [] :=
      Deed.seen_ofExecution.trans turn.finals
    cases goes with
    | still => exact .inl (by rwa [List.append_nil])
    | ended =>
      rw [exhaust_eq]
      exact .inr ⟨_, _, rfl, hlead, rfl⟩
  | speculates set due free take counted armed =>
    left
    exact seen_speculation Action.final?_blind take armed _ _
  | @speculatesInVain _ _ _ consulted _ _ set due noNode goes =>
    have hlead : Deed.finals (Deed.ofRequest (consulted ++ [.remark .noNodeForSpeculation])) =
        [] :=
      Deed.seen_ofRequest.trans (Action.final?_blind.quiet noNode.vain_quiet)
    cases goes with
    | still => exact .inl (by rwa [List.append_nil])
    | ended =>
      rw [exhaust_eq]
      exact .inr ⟨_, _, rfl, hlead, rfl⟩
  | timesOut =>
    refine .inr ⟨_, _, (List.append_assoc ..).symm, ?_, rfl⟩
    simp only [Deed.finals, Deed.seen_append] at dropped ⊢
    rw [dropped, List.append_nil]
    rfl
  | drops => exact .inr ⟨_, _, rfl, dropped _, rfl⟩

theorem loansOf_eq_nil {deeds : List Deed} (h : ∀ d ∈ deeds, d.execution = none) (index : Nat) :
    Deed.loansOf index deeds = [] := by
  have hnone : Deed.actionsOf index deeds = [] :=
    List.filterMap_eq_nil_iff.mpr fun d hd => by simp [h d hd]
  rw [Deed.loansOf, hnone]
  rfl

theorem Run.nothing_out_at_end (h : Run s ts σ) :
    EachAfter (fun before d => ∀ n, d.action = .notify n → n.isFinal = true →
      ∀ index, Paired (Deed.loansOf index before) none) (log ts) := by
  refine h.eachAfter ?_ ?_
  · rintro n ⟨⟩ hfinal
    cases hfinal
  intro ts m σ event σ' deeds run run' move
  have hsilent {part : List Deed} (hpart : Deed.finals part = []) :
      EachAfter (fun before d => ∀ n, d.action = .notify n → n.isFinal = true →
        ∀ index, Paired (Deed.loansOf index (log ts ++ before)) none) part := by
    refine .of_forall fun before d hd n hn hfinal => ?_
    have hnone := List.filterMap_eq_nil_iff.mp hpart d hd
    simp [hn, Action.final?, hfinal] at hnone
  rcases move.final_last with hnone | ⟨lead, actions, rfl, hlead, hover⟩
  · exact hsilent hnone
  · refine (hsilent hlead).append ?_
    intro before d after hsplit n _ _ index
    -- what follows the leading deeds is the request's own, so it changes no loan
    have hpaired := run'.paired index
    have hown (d : Deed) (hd : d ∈ Deed.ofRequest actions) : d.execution = none :=
      (Deed.mem_ofRequest.mp hd).1
    rw [log_concat, State.loanOf, hover, ← List.append_assoc, loansOf_append,
      loansOf_eq_nil hown, List.append_nil] at hpaired
    rw [← List.append_assoc, loansOf_append,
      loansOf_eq_nil fun d hd => hown d (hsplit ▸ List.mem_append_left _ hd), List.append_nil]
    exact hpaired

/-- The loans of every run are balanced in the state that it leads to. -/
theorem Run.balancedLoans (h : Run s ts σ) : BalancedLoans (log ts) σ where
  owned := h.owned
  paired := h.paired
  balance := h.balance
  reported := h.reported
  final := h.nothing_out_at_end

/-- The connections of two executions in flight at once are given back, also that of an attempt
    that fails and that of a result which comes too late. -/
theorem Run.balancedLoans_of_contested :
    BalancedLoans (log contestedSteps) (.finished (.ok sampleAnswer)) ∧
      Deed.loans (log contestedSteps) =
        [.taken default ⟨1, default⟩, .returned default ⟨1, default⟩,
          .taken default ⟨2, default⟩, .taken otherNode ⟨3, default⟩,
          .returned default ⟨2, default⟩, .returned otherNode ⟨3, default⟩] :=
  ⟨Run.balancedLoans contestedRun, by decide +kernel⟩

end Request

end RequestEngine
