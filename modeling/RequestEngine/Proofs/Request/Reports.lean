/-
  RequestEngine.Proofs.Request.Reports

  Which attempt a report belongs to.  What observers keep about an attempt they
  keep under its host, so they rely on this: an execution is alone on its host,
  and whatever is reported of an attempt is reported while the latest thing told
  about its host is that this very attempt has started.

    * `Notification.once?`  — what a request tells at most once; `Run.tellsOnce`;
    * `Run.execution_eq`    — an execution is alone on the hosts that it tries;
    * `latestOn`            — the latest notification about an attempt on a host;
    * `Run.reportsOwn`      — reports follow the start of their own attempt.
-/
import RequestEngine.Proofs.Request.Hosts

namespace RequestEngine

-- ============================================================================
-- What is told once
-- ============================================================================

theorem EachAfter.pairwise {α : Type} {R : α → α → Prop} {l : List α}
    (h : EachAfter (fun before b => ∀ a ∈ before, R a b) l) : l.Pairwise R := by
  refine List.pairwise_iff_getElem.mpr fun i j hi hj hlt => ?_
  have hsplit : l = l.take j ++ l[j] :: l.drop (j + 1) := by
    rw [List.getElem_cons_drop, List.take_append_drop]
  have hbefore : l[i] ∈ l.take j := List.mem_take_iff_getElem.mpr ⟨i, Nat.lt_min.mpr ⟨hlt, hi⟩, rfl⟩
  exact h _ _ _ hsplit l[i] hbefore

/-- Something that a request tells its observers at most once. -/
inductive Once where
  | start
  | speculation (execution : Nat)
  | finish
  deriving DecidableEq, Repr

namespace Notification

/-- What a notification tells that is told at most once. -/
def once? : Notification → Option Once
  | requestStarted => some .start
  | speculated host _ => some (.speculation host.execution)
  | requestSucceeded _ | requestFailed _ | requestCancelled => some .finish
  | _ => none

/-- The execution that a notification announces. -/
def announces? : Notification → Option HostInfo
  | speculated host _ => some host
  | _ => none

theorem isFinal_of_once {n : Notification} (h : n.once? = some .finish) : n.isFinal = true := by
  cases n <;> first | rfl | cases h

theorem started_of_once {n : Notification} (h : n.once? = some .start) : n = .requestStarted := by
  cases n <;> first | rfl | cases h

end Notification

namespace Request

variable {s : Settings} {ts : List Transition} {σ : State} {e o : Execution}

theorem announcements_eq (log : List Deed) :
    Deed.announcements log = (Deed.notices log).filterMap Notification.announces? := by
  rw [Deed.announcements, Deed.seen, Deed.notices, Deed.seen, List.filterMap_filterMap]
  refine List.filterMap_congr fun d _ => ?_
  cases d.action with
  | notify n => cases n <;> rfl
  | _ => rfl

/-- The speculative executions of a request have indices of their own, which are not that of the
    initial one. -/
theorem Run.announcesOnce (h : Run s ts σ) :
    ((Deed.announcements (log ts)).map HostInfo.execution).Nodup ∧
      ∀ host ∈ Deed.announcements (log ts), host.execution ≠ 0 := by
  constructor
  · refine List.nodup_iff_getElem?_ne_getElem?.mpr fun i j hij hj heq => ?_
    rw [List.getElem?_map, List.getElem?_map] at heq
    rw [List.length_map] at hj
    have hi : i < (Deed.announcements (log ts)).length := Nat.lt_trans hij hj
    rw [List.getElem?_eq_getElem hi, List.getElem?_eq_getElem hj] at heq
    have hindex := (h.announced i _ (List.getElem?_eq_getElem hi)).1
    have hindex' := (h.announced j _ (List.getElem?_eq_getElem hj)).1
    simp only [Option.map_some, Option.some.injEq] at heq
    omega
  · intro host hhost
    obtain ⟨i, hi⟩ := List.mem_iff_getElem?.mp hhost
    rw [(h.announced i host hi).1]
    exact Nat.succ_ne_zero i

/-- The start, each speculative execution and the end are told once. -/
theorem Run.tellsOnce (h : Run s ts σ) :
    ((Deed.notices (log ts)).filterMap Notification.once?).Nodup := by
  obtain ⟨rest, hstart, hnever⟩ := h.starts_once
  have hstarts : (Deed.notices (log ts)).Pairwise fun _ n' => n' ≠ .requestStarted := by
    rw [hstart]
    have hothers : ∀ n' ∈ rest, n' ≠ .requestStarted := fun n' hn' heq => hnever (heq ▸ hn')
    exact List.pairwise_cons.mpr ⟨hothers, List.pairwise_of_forall_mem_list fun _ _ => hothers⟩
  have hspeculations := h.announcesOnce.1
  rw [announcements_eq, List.Nodup, List.pairwise_map, List.pairwise_filterMap] at hspeculations
  have hfinals : (Deed.notices (log ts)).Pairwise fun n _ => n.isFinal = false :=
    EachAfter.pairwise h.last
  rw [List.Nodup, List.pairwise_filterMap]
  refine (hstarts.and (hspeculations.and hfinals)).imp ?_
  rintro n n' ⟨hstarted, hspeculated, hfinal⟩ k hk k' hk' rfl
  cases k with
  | start => exact hstarted (Notification.started_of_once hk')
  | finish => exact Bool.false_ne_true (hfinal.symm.trans (Notification.isFinal_of_once hk))
  | speculation execution =>
    cases n with
    | speculated host =>
      cases n' with
      | speculated host' =>
        have hsame := Once.speculation.inj (Option.some.inj (hk.trans hk'.symm))
        exact hspeculated host rfl host' rfl hsame
      | _ => cases hk'
    | _ => cases hk

end Request

-- ============================================================================
-- The latest on a host
-- ============================================================================

/-- The host that a notification about an attempt is about. -/
def Notification.attemptHost? (n : Notification) : Option HostId :=
  n.attempt?.map fun h => h.node.host

/-- The latest notification about an attempt on a host. -/
def latestOn (host : HostId) (ns : List Notification) : Option Notification :=
  (ns.filter fun n => n.attemptHost? = some host).getLast?

theorem latestOn_concat (host : HostId) (ns : List Notification) (n : Notification) :
    latestOn host (ns ++ [n]) =
      if n.attemptHost? = some host then some n else latestOn host ns := by
  by_cases h : n.attemptHost? = some host <;> simp [latestOn, h]

namespace AttemptTrace

variable {index : Nat} {origin : Node} {ns : List Notification} {stage : Stage} {h : HostInfo}

/-- While an attempt is being made, its start is the latest that was told. -/
theorem last_of_during (trace : AttemptTrace index origin ns (.during h)) :
    ns.getLast? = some (.nodeStarted h) := by
  cases trace with
  | starts => exact List.getLast?_concat ..

/-- Whatever is told of an attempt, its start was told. -/
theorem started (trace : AttemptTrace index origin ns stage) :
    ∀ n ∈ ns, n.attempt? = some h → .nodeStarted h ∈ ns := by
  induction trace with
  | nothing => simp
  | starts before _ ih =>
    intro n hn hattempt
    rcases List.mem_append.mp hn with hn | hn
    · exact List.mem_append_left _ (ih n hn hattempt)
    · rw [List.mem_singleton] at hn
      subst hn
      cases hattempt
      exact List.mem_append_right _ (List.mem_singleton_self _)
  | fails before ih | succeeds before ih =>
    intro n hn hattempt
    rcases List.mem_append.mp hn with hn | hn
    · exact List.mem_append_left _ (ih n hn hattempt)
    · rw [List.mem_singleton] at hn
      subst hn
      cases hattempt
      exact List.mem_append_left _ (List.mem_of_getLast? before.last_of_during)

end AttemptTrace

namespace Request

variable {s : Settings} {ts : List Transition} {σ : State} {e o : Execution} {a : Attempt}
  {n : Notification} {host : HostInfo}

/-- Whatever is told of an attempt, its start was told. -/
theorem Run.startTold (h : Run s ts σ) (mem : n ∈ Deed.notices (log ts))
    (attempt : n.attempt? = some host) : .nodeStarted host ∈ Deed.notices (log ts) := by
  obtain ⟨origin, stage, htrace⟩ := h.attemptTrace host.execution
  have hown : n ∈ attemptsOf host.execution (Deed.notices (log ts)) :=
    List.mem_filter.mpr ⟨mem, by simp [attempt]⟩
  exact (List.mem_filter.mp (htrace.started n hown attempt)).1

/-- All that is told of attempts on one host is told by one execution. -/
theorem Run.execution_eq {n' : Notification} {host' : HostInfo} (h : Run s ts σ)
    (told : n ∈ Deed.notices (log ts)) (told' : n' ∈ Deed.notices (log ts))
    (attempt : n.attempt? = some host) (attempt' : n'.attempt? = some host')
    (same : host.node.host = host'.node.host) : host.execution = host'.execution := by
  obtain ⟨grants, -, -, htour⟩ := h.tour
  have granted {n : Notification} {host : HostInfo} (told : n ∈ Deed.notices (log ts))
      (attempt : n.attempt? = some host) : (host.node, host.execution) ∈ grants :=
    htour.granted host (List.mem_filterMap.mpr ⟨_, h.startTold told attempt, rfl⟩)
  have hgrant := htour.grant_eq (granted told attempt) (granted told' attempt') same
  exact congrArg Prod.snd hgrant

/-- The attempt that an execution started last is the latest on its host. -/
theorem Run.latestOn_of_last (h : Run s ts σ)
    (last : (attemptsOf host.execution (Deed.notices (log ts))).getLast? =
      some (.nodeStarted host)) :
    latestOn host.node.host (Deed.notices (log ts)) = some (.nodeStarted host) := by
  have htold : .nodeStarted host ∈ Deed.notices (log ts) :=
    (List.mem_filter.mp (List.mem_of_getLast? last)).1
  have hfilter : (Deed.notices (log ts)).filter (fun n => n.attemptHost? = some host.node.host) =
      (attemptsOf host.execution (Deed.notices (log ts))).filter
        fun n => n.attemptHost? = some host.node.host := by
    rw [attemptsOf, List.filter_filter]
    refine List.filter_congr fun n hn => ?_
    by_cases hhost : n.attemptHost? = some host.node.host
    · obtain ⟨host', hattempt, hsame⟩ := Option.map_eq_some_iff.mp hhost
      simp [hhost, hattempt, h.execution_eq hn htold hattempt rfl hsame]
    · simp [hhost]
  obtain ⟨before, hsplit⟩ := List.getLast?_eq_some_iff.mp last
  rw [latestOn, hfilter, hsplit, List.filter_append]
  simp [Notification.attemptHost?, Notification.attempt?]

/-- While an attempt is pending, the latest that was told about its host is its start. -/
theorem Run.latestOn_pending (h : Run s ts σ) (mem : e ∈ σ.executions)
    (pending : e.pending? = some a) :
    latestOn e.node.host (Deed.notices (log ts)) = some (.nodeStarted (e.host a)) := by
  obtain ⟨origins, chronicle, -⟩ := (Law.attempts s).chronicle h
  obtain ⟨origin, -, hfollowed⟩ := chronicle.live e mem
  have hstage : e.stage = .during (e.host a) := by
    unfold Execution.pending? at pending
    split at pending <;> simp_all [Execution.stage]
  have hlast := (hstage ▸ hfollowed.trace).last_of_during
  rw [← h.attemptsOf_eq] at hlast
  change latestOn (e.host a).node.host _ = _
  exact h.latestOn_of_last hlast

end Request

/-- An execution reports on the attempt that it has been making. -/
theorem Execution.Turn.reported {s : Settings} {deadline : Option Instant} {m : Moment}
    {sh sh' : Shared} {e e' : Execution} {event : ExecutionEvent} {actions : List Action}
    {n : Notification} {host : HostInfo}
    (turn : Turn s deadline m sh e event ⟨sh', .goesOn e', actions⟩) (tells : n ∈ e'.told)
    (report : n.report? = some host) : ∃ a, e.pending? = some a ∧ host = e.host a := by
  cases turn with
  | starts =>
    rw [List.mem_singleton.mp tells] at report
    cases report
  | asks | sends => cases tells
  | @succeeds a _ _ phase =>
    rw [List.mem_singleton.mp tells] at report
    cases report
    exact ⟨a, by rw [pending?, phase], rfl⟩
  | @rethrows _ a _ _ fails | @fails _ a _ _ _ fails =>
    rw [List.mem_singleton.mp tells] at report
    cases report
    refine ⟨a, ?_, rfl⟩
    cases fails <;> simp [pending?, *]

/-- A report is told while the latest that was told about its host is the start of the same
    attempt. -/
theorem Request.Run.reportsOwn {s : Settings} {ts : List Transition} {σ : State}
    (h : Run s ts σ) :
    EachAfter (fun before n => ∀ host, n.report? = some host →
      latestOn host.node.host before = some (.nodeStarted host)) (Deed.notices (log ts)) := by
  refine h.notices_eachAfter (fun host report => by cases report) ?_
  intro ts m σ deeds n run tells host report
  obtain ⟨r, e, e', event, sh, actions, rfl, mem, -, htold, turn⟩ :=
    tells.report (List.mem_singleton_self n) report
  obtain ⟨a, hpending, rfl⟩ := turn.reported htold report
  exact run.latestOn_pending mem hpending

end RequestEngine
