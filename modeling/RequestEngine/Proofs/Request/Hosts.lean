/-
  RequestEngine.Proofs.Request.Hosts

  Who tries which host.  The plan that all executions share gives out each host
  once, to the execution that asked for a node, and this execution stays there
  until it asks for the next one.

    * `Execution.Visit` — what a turn means for where its execution is: another
      attempt, on a node that it comes to by `Onward`, or none;
    * `Tour`            — hosts were granted once, each attempt is on a host that
      was granted to its execution, on which the attempts follow each other, and
      an execution has made one attempt more on its node than it has retries;
    * `Run.tour`        — every run is a tour over the hosts that its plan gave;
    * `Run.repeats`     — when another attempt on the same host is made.
-/
import RequestEngine.Proofs.Request.Loans
import RequestEngine.Proofs.Request.Plans

namespace RequestEngine

-- ============================================================================
-- Attempts that start
-- ============================================================================

/-- The attempt that a notification says to have started. -/
def Notification.start? : Notification → Option HostInfo
  | .nodeStarted h => some h
  | _ => none

/-- The attempts that were started, in order. -/
abbrev Deed.starts (log : List Deed) : List HostInfo :=
  (notices log).filterMap Notification.start?

/-- The index of the execution that an action opens. -/
def Action.opened? : Action → Option Nat
  | .openExecution index => some index
  | _ => none

/-- The indices of the executions that a request opened, in order. -/
def Deed.opened (log : List Deed) : List Nat :=
  log.filterMap fun d => if d.execution = none then d.action.opened? else none

/-- How often a host was tried. -/
def tries (host : HostId) (starts : List HostInfo) : Nat :=
  starts.countP (·.node.host = host)

/-- The node that an execution tried last. -/
def lastTried (index : Nat) (starts : List HostInfo) : Option Node :=
  (starts.filter (·.execution = index)).getLast?.map HostInfo.node

namespace Deed

variable {log log' : List Deed} {index : Nat} {actions : List Action}

@[simp] theorem opened_append : opened (log ++ log') = opened log ++ opened log' :=
  List.filterMap_append

@[simp] theorem opened_ofExecution : opened (ofExecution index actions) = [] := by
  simp [opened, ofExecution]

@[simp] theorem opened_ofRequest : opened (ofRequest actions) =
    actions.filterMap Action.opened? := by
  rw [opened, ofRequest, List.filterMap_map]
  rfl

@[simp] theorem starts_append : starts (log ++ log') = starts log ++ starts log' := by
  rw [starts, notices, seen_append, List.filterMap_append]

@[simp] theorem starts_ofExecution : starts (ofExecution index actions) =
    (actions.filterMap Action.notice?).filterMap Notification.start? := by
  rw [starts, notices, seen_ofExecution]

/-- What a request does as a whole starts no attempt. -/
theorem starts_ofRequest (general : ∀ a ∈ actions, a.isGeneral = true) :
    starts (ofRequest actions) = [] := by
  rw [starts, notices, seen_ofRequest, List.filterMap_filterMap, List.filterMap_eq_nil_iff]
  intro a ha
  have hgeneral := general a ha
  cases a with
  | notify n => cases n <;> first | rfl | cases hgeneral
  | _ => rfl

/-- Deeds that start no attempt and open no execution. -/
def Idle (log : List Deed) : Prop :=
  starts log = [] ∧ opened log = []

theorem Idle.append (h : Idle log) (h' : Idle log') : Idle (log ++ log') :=
  ⟨by rw [starts_append, h.1, h'.1, List.append_nil],
    by rw [opened_append, h.2, h'.2, List.append_nil]⟩

/-- What a request does as a whole, unless it opens an execution. -/
theorem Idle.request (general : ∀ a ∈ actions, a.isGeneral = true)
    (silent : actions.filterMap Action.opened? = []) : Idle (ofRequest actions) :=
  ⟨starts_ofRequest general, by rw [opened_ofRequest, silent]⟩

end Deed

section Tries

variable {starts : List HostInfo} {h : HostInfo} {host : HostId} {index : Nat}

theorem tries_concat : tries host (starts ++ [h]) =
    tries host starts + if h.node.host = host then 1 else 0 := by
  simp [tries, List.countP_append, List.countP_singleton]

theorem tries_eq_zero : tries host starts = 0 ↔ ∀ h ∈ starts, h.node.host ≠ host := by
  simp [tries, List.countP_eq_zero]

theorem lastTried_concat : lastTried index (starts ++ [h]) =
    if h.execution = index then some h.node else lastTried index starts := by
  by_cases heq : h.execution = index <;> simp [lastTried, heq]

end Tries

-- ============================================================================
-- Turns
-- ============================================================================

namespace Execution

/-- What a turn means for where its execution is. -/
inductive Visit (s : Settings) (m : Moment) (sh : Shared) (e : Execution) :
    ExecutionEvent → Shared → Progress → List HostInfo → Prop where
  /-- It makes another attempt. -/
  | tries {event : ExecutionEvent} {sh' : Shared} {e' : Execution} {lead : List Action}
      (onward : Onward s m sh e event sh' e' lead) (free : sh.claim = none) :
      Visit s m sh e event sh' (.goesOn (e'.announce m.now)) [e'.host (e'.nextAttempt m.now)]
  /-- It goes on with the attempt that it is making. -/
  | remains {event : ExecutionEvent} {sh' : Shared} {e' : Execution} (node : e'.node = e.node)
      (retries : e'.retries = e.retries) (plan : sh'.plan = sh.plan)
      (claim : sh'.claim = none → sh.claim = none)
      (begun : e.phase ≠ .fresh ∧ e'.phase ≠ .fresh) : Visit s m sh e event sh' (.goesOn e') []
  /-- It ends. -/
  | leaves {event : ExecutionEvent} {sh' : Shared} {progress : Progress}
      (last : ∀ e', progress ≠ .goesOn e') : Visit s m sh e event sh' progress []

variable {s : Settings} {deadline : Option Instant} {m : Moment} {sh sh' : Shared}
  {e e' : Execution} {event : ExecutionEvent} {lead : List Action} {advance : Advance}

theorem Fails.begun {a : Attempt} {error : AttemptError} {back : List Action}
    (h : Fails s deadline m e event a error back) : e.phase ≠ .fresh := by
  cases h <;> simp [*]

theorem Turn.visit (h : Turn s deadline m sh e event advance) :
    Visit s m sh e event advance.shared advance.progress
      ((advance.actions.filterMap Action.notice?).filterMap Notification.start?) := by
  rw [h.told]
  cases h with
  | starts onward free => exact .tries onward (onward.claim ▸ free)
  | stops | exhausts | succeedsLate | failsLate | returns | throws => exact .leaves (by simp)
  | asks phase | sends phase => exact .remains rfl rfl rfl id (by simp [phase])
  | succeeds phase => exact .remains rfl rfl rfl (by simp) (by simp [phase])
  | rethrows fails | fails fails => exact .remains rfl rfl rfl (by simp [*]) ⟨fails.begun, by simp⟩

/-- Attempts start only while the claim is free. -/
theorem Visit.free {progress : Progress} {tried : List HostInfo}
    (h : Visit s m sh e event sh' progress tried) (some : tried ≠ []) : sh.claim = none := by
  cases h with
  | tries _ free => exact free
  | remains | leaves => exact absurd rfl some

/-- An execution that goes on does not give the claim back. -/
theorem Visit.claim {tried : List HostInfo} (h : Visit s m sh e event sh' (.goesOn e') tried)
    (free : sh'.claim = none) : sh.claim = none := by
  cases h with
  | tries _ free => exact free
  | remains _ _ _ claim => exact claim free
  | leaves last => exact absurd rfl (last e')

/-- An execution that is to stay on its node, and may, makes another attempt there. -/
theorem Turn.stays {progress : Progress} {actions : List Action} {a : Attempt}
    {error : AttemptError} {level : Option Level}
    (h : Turn s deadline m sh e .told ⟨sh', progress, actions⟩)
    (phase : e.phase = .reportingFailure a error (.retrySame level))
    (below : e.retries < s.sameTargetCap) (up : m.liveness.isUp e.node = true)
    (free : sh.claim = none) : ∃ e', progress = .goesOn e' ∧
      ∃ x, (actions.filterMap Action.notice?).filterMap Notification.start? = [x] ∧
        x.node = e.node := by
  rw [h.told]
  have stay {left : List Action} (moves : MovesOn s m e (.retrySame level) left) : False := by
    cases moves with
    | refused _ leave => exact leave ⟨below, up⟩
  cases h with
  | starts onward =>
    refine ⟨_, rfl, _, rfl, ?_⟩
    cases onward with
    | same => rfl
    | next other moves =>
      rw [phase] at other
      cases other
      exact (stay moves).elim
  | stops onward taken => exact absurd (onward.claim.trans free) taken
  | exhausts other moves =>
    rw [phase] at other
    cases other
    exact (stay moves).elim
  | asks other | returns other | throws other =>
    rw [phase] at other
    cases other
  | rethrows fails | fails fails | failsLate fails => cases fails

end Execution

namespace Request

-- ============================================================================
-- Tours
-- ============================================================================

/-- Attempts on hosts that were granted to executions: `grants` are the nodes in the order in
    which the plan gave them, each with the index of the execution it was given to. -/
structure Tour (cap : Nat) (starts : List HostInfo) (grants : List (Node × Nat))
    (executions : List Execution) : Prop where
  distinct : (grants.map fun g => g.1.host).Nodup
  granted : ∀ h ∈ starts, (h.node, h.execution) ∈ grants
  placed : ∀ e ∈ executions, (e.node, e.index) ∈ grants
  arrived : ∀ e ∈ executions, e.phase = .fresh → tries e.node.host starts = 0 ∧ e.retries = 0
  staying : ∀ e ∈ executions, e.phase ≠ .fresh →
    tries e.node.host starts = e.retries + 1 ∧ lastTried e.index starts = some e.node
  capped : ∀ host, tries host starts ≤ cap + 1
  consecutive : EachAfter (fun before h => tries h.node.host before ≠ 0 →
    lastTried h.execution before = some h.node) starts

namespace Tour

variable {cap : Nat} {starts : List HostInfo} {grants : List (Node × Nat)}
  {executions fewer : List Execution} {e e' o : Execution} {node : Node} {index number : Nat}

theorem nothing : Tour cap [] [] [] :=
  ⟨by simp, by simp, by simp, by simp, by simp, by simp [tries], .nil⟩

/-- A host was granted to one execution only. -/
theorem grant_eq (h : Tour cap starts grants executions) {g g' : Node × Nat} (hg : g ∈ grants)
    (hg' : g' ∈ grants) (same : g.1.host = g'.1.host) : g = g' :=
  List.inj_on_of_nodup_map h.distinct hg hg' same

/-- No attempt was made on a host that was not granted. -/
theorem untried (h : Tour cap starts grants executions)
    (new : node.host ∉ grants.map fun g => g.1.host) : tries node.host starts = 0 :=
  tries_eq_zero.mpr fun x hx same =>
    new (List.mem_map.mpr ⟨(x.node, x.execution), h.granted x hx, same⟩)

theorem shrink (h : Tour cap starts grants executions)
    (left : ∀ o ∈ fewer, o ∈ executions) : Tour cap starts grants fewer :=
  { h with
    placed := fun o ho => h.placed o (left o ho)
    arrived := fun o ho => h.arrived o (left o ho)
    staying := fun o ho => h.staying o (left o ho) }

theorem grant (h : Tour cap starts grants executions)
    (new : node.host ∉ grants.map fun g => g.1.host) (index : Nat) :
    Tour cap starts (grants ++ [(node, index)]) executions :=
  { h with
    distinct := by
      rw [List.map_append]
      refine List.nodup_append.mpr ⟨h.distinct, by simp, fun host hhost other hother heq => ?_⟩
      rw [heq, List.mem_singleton.mp hother] at hhost
      exact new hhost
    granted := fun x hx => List.mem_append_left _ (h.granted x hx)
    placed := fun o ho => List.mem_append_left _ (h.placed o ho) }

/-- An execution is opened on a host that was just granted to it. -/
theorem launch (h : Tour cap starts grants executions)
    (new : node.host ∉ grants.map fun g => g.1.host) (level : Level) :
    Tour cap starts (grants ++ [(node, index)])
      (executions ++ [Execution.new index node level]) := by
  have hgrown := h.grant new index
  exact { hgrown with
    placed := List.forall_mem_append.mpr ⟨hgrown.placed, by simp [Execution.new]⟩
    arrived := List.forall_mem_append.mpr ⟨h.arrived, List.forall_mem_singleton.mpr
      fun _ => ⟨h.untried new, rfl⟩⟩
    staying := List.forall_mem_append.mpr ⟨h.staying, by simp [Execution.new]⟩ }

/-- An execution goes on with the attempt that it is making. -/
theorem remain (h : Tour cap starts grants executions) (mem : e ∈ executions)
    (index : e'.index = e.index) (node : e'.node = e.node) (retries : e'.retries = e.retries)
    (begun : e.phase ≠ .fresh ∧ e'.phase ≠ .fresh) : Tour cap starts grants
      (executions.map fun o => if o.index = e.index then e' else o) := by
  refine { h with placed := ?_, arrived := ?_, staying := ?_ }
  · refine forall_mem_replaced ?_ fun o ho _ => h.placed o ho
    rw [node, index]
    exact h.placed e mem
  · exact forall_mem_replaced (fun fresh => absurd fresh begun.2) fun o ho _ => h.arrived o ho
  · refine forall_mem_replaced (fun _ => ?_) fun o ho _ => h.staying o ho
    rw [node, retries, index]
    exact h.staying e mem begun.1

/-- An execution makes another attempt on a node that was granted to it. -/
theorem attempt (h : Tour cap starts grants executions) (index : e'.index = e.index)
    (begun : e'.phase ≠ .fresh)
    (place : (e'.node, e.index) ∈ grants) (count : tries e'.node.host starts = e'.retries)
    (below : e'.retries ≤ cap) (again : e'.retries ≠ 0 → lastTried e.index starts = some e'.node) :
    Tour cap (starts ++ [⟨e'.node, e.index, number⟩]) grants
      (executions.map fun o => if o.index = e.index then e' else o) := by
  -- the other executions are at other hosts
  have elsewhere {o : Execution} (ho : o ∈ executions) (other : o.index ≠ e.index) :
      tries o.node.host (starts ++ [⟨e'.node, e.index, number⟩]) = tries o.node.host starts := by
    rw [tries_concat, if_neg, Nat.add_zero]
    intro same
    have hgrant := h.grant_eq place (h.placed o ho) same
    exact other (congrArg Prod.snd hgrant).symm
  refine ⟨h.distinct, ?_, ?_, ?_, ?_, ?_, ?_⟩
  · exact List.forall_mem_append.mpr ⟨h.granted, List.forall_mem_singleton.mpr place⟩
  · exact forall_mem_replaced (index ▸ place) fun o ho _ => h.placed o ho
  · refine forall_mem_replaced (fun fresh => absurd fresh begun) fun o ho other fresh => ?_
    rw [elsewhere ho other]
    exact h.arrived o ho fresh
  · refine forall_mem_replaced (fun _ => ⟨?_, ?_⟩) fun o ho other started => ?_
    · rw [tries_concat, if_pos rfl, count]
    · rw [lastTried_concat, if_pos index.symm]
    · rw [elsewhere ho other, lastTried_concat, if_neg (Ne.symm other)]
      exact h.staying o ho started
  · intro host
    rw [tries_concat]
    split
    · rename_i same
      rw [← same, count]
      exact Nat.succ_le_succ below
    · exact h.capped host
  · refine h.consecutive.concat fun tried => again ?_
    rwa [← count]

/-- A node that the plan has not given yet was granted to nobody. -/
theorem new_of_yields {p p' : Plan} {live : Liveness} {pool : List Node} {found : Option Node}
    {notes : List PlanNote} (given : grants.map (fun g => g.1.host) = p.yielded.reverse)
    (yields : p.Yields live pool found p' notes) (some : found = some node) (index : Nat) :
    node.host ∉ grants.map (fun g => g.1.host) ∧
      (grants ++ [(node, index)]).map (fun g => g.1.host) = p'.yielded.reverse := by
  obtain ⟨-, -, hnew, hyielded⟩ := yields.some_found node some
  rw [List.map_append, given, hyielded, List.reverse_cons, List.mem_reverse]
  exact ⟨hnew, rfl⟩

/-- Whatever is taken from the plan is granted to an execution. -/
theorem draw {p p' : Plan} {live : Liveness} {notes : List PlanNote}
    (h : Tour cap starts grants executions)
    (given : grants.map (fun g => g.1.host) = p.yielded.reverse) (draws : p.Draws live p' notes)
    (index : Nat) : ∃ more, (grants ++ more).map (fun g => g.1.host) = p'.yielded.reverse ∧
      Tour cap starts (grants ++ more) executions := by
  obtain ⟨found, hyields⟩ := draws
  cases found with
  | none =>
    refine ⟨[], ?_, ?_⟩
    · rw [List.append_nil, given, hyields.none_found rfl]
    · rwa [List.append_nil]
  | some node =>
    obtain ⟨hnew, hgrown⟩ := new_of_yields given hyields rfl index
    exact ⟨[(node, index)], hgrown, h.grant hnew index⟩

/-- An execution comes to a node, its own or the next one of the plan, and tries it. -/
theorem onward {s : Settings} {m : Moment} {sh sh' : Shared} {event : ExecutionEvent}
    {lead : List Action} (h : Tour s.sameTargetCap starts grants executions)
    (given : grants.map (fun g => g.1.host) = sh.plan.yielded.reverse) (mem : e ∈ executions)
    (onward : e.Onward s m sh event sh' e' lead) :
    ∃ more, (grants ++ more).map (fun g => g.1.host) = sh'.plan.yielded.reverse ∧
      Tour s.sameTargetCap (starts ++ [⟨e'.node, e.index, number⟩]) (grants ++ more)
        (executions.map fun o => if o.index = e.index then e'.announce m.now else o) := by
  have hindex : (e'.announce m.now).index = e.index := onward.index
  have hbegun : (e'.announce m.now).phase ≠ .fresh := by simp [Execution.announce]
  cases onward with
  | fresh phase =>
    obtain ⟨huntried, hretries⟩ := h.arrived e mem phase
    refine ⟨[], by rw [List.append_nil, given], ?_⟩
    rw [List.append_nil]
    refine h.attempt hindex hbegun (h.placed e mem) (huntried.trans hretries.symm) ?_
      fun again => absurd hretries again
    exact Nat.le_trans (Nat.le_of_eq hretries) (Nat.zero_le _)
  | same phase below up =>
    obtain ⟨htries, hlast⟩ := h.staying e mem (by simp [phase])
    refine ⟨[], by rw [List.append_nil, given]; rfl, ?_⟩
    rw [List.append_nil]
    exact h.attempt hindex hbegun (h.placed e mem) htries below fun _ => hlast
  | @next a error d node sh' left consulted phase moves take =>
    -- the node was granted to nobody, so nobody has tried it
    have hyields := Plan.next_yields (Shared.nextNode_next take)
    obtain ⟨hnew, hgrown⟩ := new_of_yields given hyields rfl e.index
    refine ⟨[(node, e.index)], hgrown, ?_⟩
    exact (h.grant hnew e.index).attempt hindex hbegun (by simp [Execution.announce])
      (h.untried hnew) (Nat.zero_le _) fun again => absurd rfl again

/-- An execution goes on. -/
theorem advance {s : Settings} {m : Moment} {sh sh' : Shared} {event : ExecutionEvent}
    {tried : List HostInfo} (h : Tour s.sameTargetCap starts grants executions)
    (given : grants.map (fun g => g.1.host) = sh.plan.yielded.reverse) (mem : e ∈ executions)
    (index : e'.index = e.index) (visit : e.Visit s m sh event sh' (.goesOn e') tried) :
    ∃ more, (grants ++ more).map (fun g => g.1.host) = sh'.plan.yielded.reverse ∧
      Tour s.sameTargetCap (starts ++ tried) (grants ++ more)
        (executions.map fun o => if o.index = e.index then e' else o) := by
  cases visit with
  | leaves last => exact absurd rfl (last e')
  | remains node retries plan _ begun =>
    refine ⟨[], by rw [List.append_nil, given, plan], ?_⟩
    rw [List.append_nil, List.append_nil]
    exact h.remain mem index node retries begun
  | @tries e₁ lead onward free =>
    have hhost : e₁.host (e₁.nextAttempt m.now) = ⟨e₁.node, e.index, e₁.attempts + 1⟩ := by
      rw [← onward.index]
      rfl
    rw [hhost]
    exact h.onward given mem onward

end Tour

-- ============================================================================
-- Moves
-- ============================================================================

section Moves

variable {s : Settings} {m : Moment} {sh sh' : Shared} {r : Running} {σ : State}
  {more : List Deed} {e : Execution} {event : ExecutionEvent} {progress : Progress}
  {actions consulted : List Action}

/-- An execution that ends starts no attempt. -/
theorem starts_of_last {deadline : Option Instant} (turn : e.Turn s deadline m sh event
    ⟨sh', progress, actions⟩) (last : ∀ e', progress ≠ .goesOn e') :
    Deed.starts (Deed.ofExecution e.index actions) = [] := by
  have hvisit := turn.visit
  rw [Deed.starts_ofExecution]
  generalize (actions.filterMap Action.notice?).filterMap Notification.start? = tried at hvisit
  cases hvisit with
  | leaves => rfl
  | tries | remains => exact absurd rfl (last _)

@[simp] theorem starts_abandonAll (executions : List Execution) :
    Deed.starts (abandonAll executions) = [] := by
  rw [Deed.starts, Deed.notices, seen_abandonAll Action.notice?_blind]
  rfl

@[simp] theorem opened_abandonAll (executions : List Execution) :
    Deed.opened (abandonAll executions) = [] := by
  induction executions with
  | nil => rfl
  | cons e rest ih =>
    rw [abandonAll, List.flatMap_cons, ← abandonAll, Deed.opened_append, ih,
      Deed.opened_ofExecution]
    rfl

theorem abandonAll_idle (executions : List Execution) : Deed.Idle (abandonAll executions) :=
  ⟨starts_abandonAll executions, opened_abandonAll executions⟩

/-- Nothing starts as an execution ends. -/
theorem idle_of_last {deadline : Option Instant} (turn : e.Turn s deadline m sh event
    ⟨sh', progress, actions⟩) (last : ∀ e', progress ≠ .goesOn e') :
    Deed.Idle (Deed.ofExecution e.index actions) :=
  ⟨starts_of_last turn last, Deed.opened_ofExecution⟩

/-- Nothing starts as a request goes on without one of its parties. -/
theorem GoesOn.idle (h : GoesOn r σ more) : Deed.Idle more := by
  cases h with
  | still => exact ⟨rfl, rfl⟩
  | ended =>
    rw [exhaust_eq]
    exact ⟨by cases exhaustion r <;> rfl, rfl⟩

/-- A request that goes on does so as it is. -/
theorem GoesOn.of_running {r' : Running} (h : GoesOn r (.running r') more) : r' = r := by
  generalize hσ : State.running r' = σ at h
  cases h with
  | still =>
    cases hσ
    rfl
  | ended =>
    rw [exhaust_eq] at hσ
    cases hσ

/-- A request that goes on or ends has no other executions than before. -/
theorem GoesOn.executions (h : GoesOn r σ more) : σ.executions.Sublist r.executions := by
  cases h with
  | still => exact .refl _
  | ended =>
    rw [exhaust_eq]
    exact List.nil_sublist _

theorem nextNode_opened {found : Option Node} {live : Liveness}
    (take : sh.nextNode live = (found, sh', consulted)) :
    consulted.filterMap Action.opened? = [] :=
  Shared.nextNode_shows_nothing (fun _ => rfl) take

theorem Armed.opened {now : Instant} {metrics : Metrics} {started : Nat} {timer : Option Timer}
    {asked : List Action} (h : Armed s now metrics started timer asked) :
    asked.filterMap Action.opened? = [] := by
  cases h <;> rfl

theorem NoNode.opened (h : NoNode m sh sh' consulted) :
    consulted.filterMap Action.opened? = [] :=
  h.shows_nothing fun _ => rfl

/-- All that is done when an execution is opened opens no other. -/
theorem opened_launch {now : Instant} {metrics : Metrics} {started : Nat} {timer : Option Timer}
    {asked : List Action} {found : Option Node} {live : Liveness}
    (take : sh.nextNode live = (found, sh', consulted))
    (armed : Armed s now metrics started timer asked) (announced : List Action)
    (silent : announced.filterMap Action.opened? = []) (index : Nat) :
    Deed.opened (Deed.ofRequest
      (consulted ++ (announced ++ ([.openExecution index] ++ asked)))) = [index] := by
  simp [nextNode_opened take, armed.opened, silent, Action.opened?]

/-- If no node is found for an execution, none is opened. -/
theorem NoNode.opens_nothing (h : NoNode m sh sh' consulted) :
    (consulted ++ [Action.remark .noNodeForSpeculation]).filterMap Action.opened? = [] := by
  simp [h.opened, Action.opened?]

/-- The executions that wait for their turn to begin. -/
def waiting (executions : List Execution) : List Execution :=
  executions.filter fun e => e.phase = .fresh

/-- What a step means for where the executions are, with the attempts and executions that it
    starts. -/
inductive Route (s : Settings) (m : Moment) :
    State → Event → State → List HostInfo → List Nat → Prop where
  /-- An execution goes on. -/
  | advances {r : Running} {e e' : Execution} {event : ExecutionEvent} {sh : Shared}
      {tried : List HostInfo} (mem : e ∈ r.executions) (index : e'.index = e.index)
      (visit : e.Visit s m r.shared event sh (.goesOn e') tried) :
      Route s m (.running r) (.execution e.index event)
        (.running { r with shared := sh, executions := r.replaced e.index e' }) tried []
  /-- An execution is opened on the next node of the plan. -/
  | launches {σ : State} {event : Event} {r : Running} {p : Plan} {node : Node}
      {notes : List PlanNote} {index : Nat} (source : σ.plan? s = some p)
      (take : p.next m.liveness = (some node, r.shared.plan, notes))
      (executions : r.executions = σ.executions ++ [Execution.new index node s.routing.level])
      (opener : σ = .starting ∧ index = 0 ∨
        ∃ r₀, σ = .running r₀ ∧ r₀.shared.claim = none ∧ event = .speculate ∧ index = r₀.started) :
      Route s m σ event (.running r) [] [index]
  /-- Nothing of this kind happens: if the request is still open, nothing that waits and
      nothing of the plan is gone. -/
  | quiet {σ σ' : State} {event : Event} (fewer : σ'.executions.Sublist σ.executions)
      (kept : ∀ r', σ' = .running r' → r'.shared.claim = none → ∃ r, σ = .running r ∧
        r.shared.claim = none ∧ r'.shared.plan.yielded = r.shared.plan.yielded ∧
          waiting r'.executions = waiting r.executions) : Route s m σ event σ' [] []

theorem nextNode_none_yielded {live : Liveness}
    (take : sh.nextNode live = (none, sh', consulted)) :
    sh'.plan.yielded = sh.plan.yielded :=
  (Plan.next_yields (Shared.nextNode_next take)).none_found rfl

theorem waiting_others {executions : List Execution}
    (distinct : (executions.map Execution.index).Nodup) (mem : e ∈ executions)
    (begun : e.phase ≠ .fresh) :
    waiting (executions.filter fun o => o.index ≠ e.index) = waiting executions := by
  rw [waiting, List.filter_filter]
  refine List.filter_congr fun o ho => ?_
  by_cases heq : o.index = e.index
  · rw [eq_of_index_eq distinct mem ho heq]
    simp [begun]
  · simp [heq]

namespace Route

/-- Where nothing starts, the deeds show nothing of the route. -/
theorem idle {σ' : State} {event : Event} {deeds : List Deed} (h : Deed.Idle deeds)
    (route : Route s m σ event σ' [] []) :
    Route s m σ event σ' (Deed.starts deeds) (Deed.opened deeds) := by
  rwa [h.1, h.2]

/-- A request that ends has no plan and no execution any more. -/
theorem ends {σ' : State} {event : Event} (none : σ'.executions = [])
    (ended : ∀ r', σ' ≠ .running r') : Route s m σ event σ' [] [] :=
  .quiet (none ▸ List.nil_sublist _) fun r' target => absurd target (ended r')

/-- The plan gives a node, and an execution is opened on it. -/
theorem opens {event : Event} {asked : List Action} {now : Instant} {metrics : Metrics}
    {started index : Nat} {timer : Option Timer} {node : Node} (announced : List Action)
    (take : sh.nextNode m.liveness = (some node, r.shared, consulted))
    (armed : Armed s now metrics started timer asked)
    (general : ∀ a ∈ consulted ++ (announced ++ ([.openExecution index] ++ asked)),
      a.isGeneral = true)
    (silent : announced.filterMap Action.opened? = []) (source : σ.plan? s = some sh.plan)
    (executions : r.executions = σ.executions ++ [Execution.new index node s.routing.level])
    (opener : σ = .starting ∧ index = 0 ∨
      ∃ r₀, σ = .running r₀ ∧ r₀.shared.claim = none ∧ event = .speculate ∧ index = r₀.started) :
    let deeds := Deed.ofRequest (consulted ++ (announced ++ ([.openExecution index] ++ asked)))
    Route s m σ event (.running r) (Deed.starts deeds) (Deed.opened deeds) := by
  dsimp only
  rw [Deed.starts_ofRequest general, opened_launch take armed announced silent index]
  exact .launches source (Shared.nextNode_next take) executions opener

/-- An execution is cancelled only after somebody claimed the request. -/
theorem cancels {deadline : Option Instant}
    (turn : e.Turn s deadline m r.shared event ⟨sh, .cancelled, actions⟩)
    (goes : GoesOn { r with shared := sh, executions := r.others e.index } σ more) :
    Route s m (.running r) (.execution e.index event) σ [] [] := by
  refine .quiet (goes.executions.trans List.filter_sublist) ?_
  rintro r' rfl hfree
  obtain rfl := goes.of_running
  cases turn.effect with
  | none claim _ _ _ late => exact absurd (claim.symm.trans hfree) (late rfl)

/-- The plan gave nothing to an execution that is exhausted, which has begun long before. -/
theorem exhausts {deadline : Option Instant} {lastIgnored : Option AttemptError}
    (distinct : (r.executions.map Execution.index).Nodup) (mem : e ∈ r.executions)
    (turn : e.Turn s deadline m r.shared event ⟨sh, .exhausted lastIgnored, actions⟩)
    (goes : GoesOn { r with
      shared := sh, executions := r.others e.index, timer := none, lastIgnored } σ more) :
    Route s m (.running r) (.execution e.index event) σ [] [] := by
  refine .quiet (goes.executions.trans List.filter_sublist) ?_
  rintro r' rfl hfree
  obtain rfl := goes.of_running
  cases turn with
  | exhausts phase moves take =>
    have hclaim := Execution.nextNode_claim take
    have hyielded := nextNode_none_yielded take
    exact ⟨r, rfl, hclaim.symm.trans hfree, hyielded,
      waiting_others distinct mem (by simp [phase])⟩

/-- The plan gave nothing for a speculative execution. -/
theorem findsNoNode (noNode : NoNode m r.shared sh consulted)
    (goes : GoesOn { r with shared := sh, timer := none } σ more) :
    Route s m (.running r) .speculate σ [] [] := by
  refine .quiet goes.executions ?_
  rintro r' rfl hfree
  obtain rfl := goes.of_running
  refine ⟨r, rfl, noNode.claim.symm.trans hfree, ?_, rfl⟩
  cases noNode with
  | taken => rfl
  | planEmpty _ take => exact nextNode_none_yielded take

end Route

/-- Every step has its route. -/
theorem Move.route {σ' : State} {event : Event} {deeds : List Deed}
    (move : Move s m σ event σ' deeds)
    (distinct : (σ.executions.map Execution.index).Nodup) :
    Route s m σ event σ' (Deed.starts deeds) (Deed.opened deeds) := by
  have general := move.general
  cases move with
  | begins take armed =>
    exact .opens [] take armed general.actions rfl rfl rfl (.inl ⟨rfl, rfl⟩)
  | findsNothing take =>
    exact .idle (.request general.actions (by simp [nextNode_opened take, Action.opened?]))
      (.ends rfl (by simp))
  | forgoes | finishes | forsakes => exact .ends rfl (by simp)
  | advances mem turn =>
    rw [Deed.starts_ofExecution, Deed.opened_ofExecution]
    exact .advances mem turn.index turn.visit
  | settles mem turn =>
    have hreport := general.of_append.2.of_append.2.actions
    exact .idle ((idle_of_last turn (by simp)).append
      ((abandonAll_idle _).append (.request hreport rfl))) (.ends rfl (by simp))
  | cancels mem turn goes =>
    exact .idle ((idle_of_last turn (by simp)).append goes.idle) (.cancels turn goes)
  | exhausts mem turn goes =>
    exact .idle ((idle_of_last turn (by simp)).append goes.idle)
      (.exhausts distinct mem turn goes)
  | speculates set due free take counted armed =>
    exact .opens [.notify _] take armed general.actions rfl rfl rfl
      (.inr ⟨_, rfl, free, rfl, rfl⟩)
  | speculatesInVain set due noNode goes =>
    have hvain := general.of_append.1.actions
    exact .idle ((Deed.Idle.request hvain noNode.opens_nothing).append goes.idle)
      (.findsNoNode noNode goes)
  | timesOut =>
    have hclaim := general.of_append.1.actions
    have hreport := general.of_append.2.of_append.2.actions
    exact .idle ((Deed.Idle.request hclaim rfl).append
      ((abandonAll_idle _).append (.request hreport rfl))) (.ends rfl (by simp))
  | drops =>
    have hreport := general.of_append.2.actions
    exact .idle ((abandonAll_idle _).append (.request hreport rfl)) (.ends rfl (by simp))
  | timesOutLate _ _ _ _ taken =>
    refine .quiet (.refl _) ?_
    rintro _ ⟨⟩ hfree
    exact absurd hfree taken

end Moves

-- ============================================================================
-- A whole run
-- ============================================================================

/-- What a run amounts to: a tour over the hosts that its plan gave, each of which was given for
    one execution at most to begin on. -/
def Toured (s : Settings) (ts : List Transition) (σ : State) : Prop :=
  ∃ grants, grants.map (fun g => g.1.host) = given ts ∧
    (Deed.opened (log ts)).length ≤ grants.length ∧
      Tour s.sameTargetCap (Deed.starts (log ts)) grants σ.executions

variable {s : Settings} {ts : List Transition} {σ : State}

/-- Every run is a tour over the hosts that its plan gave. -/
theorem Run.tour (h : Run s ts σ) : Toured s ts σ := by
  refine h.invariant (Toured s) ⟨[], rfl, Nat.zero_le _, .nothing⟩ ?_
  intro ts m σ event σ' deeds run ih move
  obtain ⟨grants, hgrants, hopened, htour⟩ := ih
  have hroute := move.route run.distinct
  rw [Toured, log_concat, Deed.starts_append, Deed.opened_append, List.length_append]
  generalize Deed.starts deeds = tried, Deed.opened deeds = opened at hroute ⊢
  cases hroute with
  | advances mem index visit =>
    have hbefore := run.yielded rfl
    obtain ⟨more, hmore, hadvanced⟩ :=
      htour.advance (hgrants.trans hbefore.symm) mem index visit
    refine ⟨grants ++ more, ?_, ?_, hadvanced⟩
    · rw [given_concat]
      exact hmore
    · rw [List.length_append]
      exact Nat.le_trans hopened (Nat.le_add_right ..)
  | @launches _ _ r p node notes index source take executions =>
    have hbefore := run.yielded source
    obtain ⟨hnew, hgrown⟩ := Tour.new_of_yields (hgrants.trans hbefore.symm)
      (Plan.next_yields take) rfl index
    refine ⟨grants ++ [(node, index)], ?_, ?_, ?_⟩
    · rw [given_concat]
      exact hgrown
    · rw [List.length_append]
      exact Nat.add_le_add_right hopened 1
    · rw [List.append_nil, State.executions, executions]
      exact htour.launch hnew s.routing.level
  | quiet fewer =>
    rw [List.append_nil]
    rcases run.given_step move with hgiven | ⟨p, p', notes, hbefore, draws, hafter⟩
    · exact ⟨grants, hgrants.trans hgiven.symm, hopened, htour.shrink fewer.subset⟩
    · obtain ⟨more, hmore, hdrawn⟩ := htour.draw (hgrants.trans hbefore.symm) draws 0
      refine ⟨grants ++ more, hmore.trans hafter.symm, ?_, hdrawn.shrink fewer.subset⟩
      rw [List.length_append]
      exact Nat.le_trans hopened (Nat.le_add_right ..)

-- ============================================================================
-- Repetitions
-- ============================================================================

/-- A step starts another attempt on a node that was tried before. -/
def Repeats (before : List Transition) (t : Transition) (node : Node) : Prop :=
  tries node.host (Deed.starts (log before)) ≠ 0 ∧ ∃ h ∈ Deed.starts t.deeds, h.node = node

/-- When another attempt on a node is made: the observers know of the failure of the latest one,
    after which the policy decided to stay; fewer attempts than the cap allows were retries on
    this host, the node is up, and the request is still open. -/
inductive MayRepeat (s : Settings) (before : List Transition) (t : Transition) (node : Node) :
    Prop where
  | intro {r : Running} {e : Execution} {a : Attempt} {error : AttemptError}
      {level : Option Level} (source : t.source = .running r) (mem : e ∈ r.executions)
      (told : t.event = .execution e.index .told)
      (decided : e.phase = .reportingFailure a error (.retrySame level)) (place : e.node = node)
      (below : tries node.host (Deed.starts (log before)) - 1 < s.sameTargetCap)
      (up : t.moment.liveness.isUp node = true) (free : r.shared.claim = none)

section Repetitions

variable {m : Moment} {σ' : State} {event : Event} {deeds : List Deed} {node : Node}

theorem Run.mayRepeat (run : Run s ts σ) (move : Move s m σ event σ' deeds)
    (repeats : Repeats ts ⟨m, σ, event, σ', deeds⟩ node) :
    MayRepeat s ts ⟨m, σ, event, σ', deeds⟩ node := by
  obtain ⟨htried, x, hx, rfl⟩ := repeats
  obtain ⟨grants, hgrants, -, htour⟩ := run.tour
  have hroute := move.route run.distinct
  generalize Deed.starts deeds = tried, Deed.opened deeds = opened at hroute hx
  cases hroute with
  | launches | quiet => cases hx
  | @advances r e _ _ _ _ mem _ visit =>
    cases visit with
    | remains | leaves => cases hx
    | tries onward free =>
      rw [List.mem_singleton] at hx
      subst hx
      cases onward with
      | fresh phase => exact absurd (htour.arrived e mem phase).1 htried
      | same phase below up =>
        have hfewer : tries e.node.host (Deed.starts (log ts)) - 1 < s.sameTargetCap := by
          rw [(htour.staying e mem (by simp [phase])).1]
          exact below
        exact .intro rfl mem rfl phase rfl hfewer up free
      | next phase moves take =>
        have hbefore := run.yielded rfl
        have hyields := Plan.next_yields (Shared.nextNode_next take)
        obtain ⟨hnew, -⟩ := Tour.new_of_yields (hgrants.trans hbefore.symm) hyields rfl e.index
        exact absurd (htour.untried hnew) htried

theorem Run.repeats_of_mayRepeat (run : Run s ts σ) (move : Move s m σ event σ' deeds)
    (may : MayRepeat s ts ⟨m, σ, event, σ', deeds⟩ node) :
    Repeats ts ⟨m, σ, event, σ', deeds⟩ node := by
  obtain ⟨rfl, mem, told, phase, rfl, below, up, free⟩ := may
  obtain ⟨grants, -, -, htour⟩ := run.tour
  have htries := (htour.staying _ mem (by simp [phase])).1
  rw [htries] at below
  have own {e o : Execution} {r : Running} (run : Run s ts (.running r)) (he : e ∈ r.executions)
      (ho : o ∈ r.executions) {met : ExecutionEvent}
      (same : Event.execution o.index met = .execution e.index .told) : o = e ∧ met = .told := by
    cases (Event.execution.inj same).2
    exact ⟨eq_of_index_eq run.distinct he ho (Event.execution.inj same).1, rfl⟩
  refine ⟨by rw [htries]; exact Nat.succ_ne_zero _, ?_⟩
  cases move with
  | advances other turn =>
    obtain ⟨rfl, rfl⟩ := own run mem other told
    obtain ⟨-, -, x, hx, hnode⟩ := turn.stays phase below up free
    refine ⟨x, ?_, hnode⟩
    rw [Deed.starts_ofExecution, hx]
    exact List.mem_singleton_self x
  | settles other turn | cancels other turn | exhausts other turn =>
    obtain ⟨rfl, rfl⟩ := own run mem other told
    obtain ⟨_, hgoes, -⟩ := turn.stays phase below up free
    cases hgoes
  | speculates | speculatesInVain | timesOut | timesOutLate | drops => cases told

/-- Another attempt on a node that was tried before is made exactly when it may be. -/
theorem Run.repeats (h : Run s ts σ) :
    EachAfter (fun before t => ∀ node, Repeats before t node ↔ MayRepeat s before t node) ts := by
  refine h.invariant (fun ts _ => EachAfter
    (fun before t => ∀ node, Repeats before t node ↔ MayRepeat s before t node) ts) .nil ?_
  intro ts m σ event σ' deeds run ih move
  exact ih.concat fun node => ⟨run.mayRepeat move, run.repeats_of_mayRepeat move⟩

end Repetitions

end Request

end RequestEngine
