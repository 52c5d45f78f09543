import FluxBroker.Thread

/-!
What `module_thread` has sent when it closes its handle.

Only `mod_main` and the code after it send on the handle: a setup step that fails jumps to
`done:` with nothing sent, and once `mod_main` has returned, the EXITED report is the last
message, unless its `flux_rpc_pack` fails. The report carries `mod_main_errno`, which is
zero exactly when `mod_main` returned a non-negative value.
-/

namespace FluxBroker.ThreadExit

open FluxBroker.Message FluxBroker.Record FluxBroker.Thread

/-- The EXITED report of `module_thread`. -/
def exitedReport (errnum : ℤ) : Msg := statusRequest FLUX_MODSTATE_EXITED (some errnum) true 0

lemma mainErrno_eq_zero {rc errno : ℤ} : mainErrno rc errno = 0 ↔ 0 ≤ rc := by
  unfold mainErrno ECONNRESET
  split_ifs <;> omega

/-- What the thread has sent, by where it is. -/
def Report (t : ThreadPart) : Prop :=
  match t.pc with
  | .start | .setup _ => t.sent = [] ∧ t.mainRet = none
  | .main => t.mainRet = none
  | .finalizing e _ | .drain e | .exiting e => t.mainRet.map (fun r => mainErrno r.1 r.2) = some e
  | .closed => (t.mainRet = none → t.sent = []) ∧
      ∀ rc er, t.mainRet = some (rc, er) → t.sendErr = false →
        t.sent.getLast? = some (exitedReport (mainErrno rc er))
  | .cancelled => True

lemma report_tstep {s s' : Sys} {a : TAct} (h : tstep s a = some s') (hr : Report s.thr) :
    Report s'.thr := by
  cases tstep_cases h
  case cancel => trivial
  all_goals simp only [Report, Sys.thr, Sys.emit, ‹s.pc = _›] at hr ⊢
  case connect ok _ => cases ok <;> simp [hr]
  case setup k ok _ =>
    cases ok
    · simp [hr]
    · rcases k.next_cases with ⟨k', hk⟩ | hk <;> simp [hk, hr]
  case exit | exitFail =>
    obtain ⟨⟨rc, er⟩, h1, rfl⟩ := Option.map_eq_some'.mp hr
    simp [h1, exitedReport]
  all_goals first | exact hr | rfl

lemma report_step {s s' : Sys} {a : Act} (h : step s a = some s') (hr : Report s.thr) :
    Report s'.thr := by
  cases a with
  | thread a => exact report_tstep h hr
  | broker a => rwa [bstep_thr h]

lemma reachable_report {s : Sys} (h : Reachable s) : Report s.thr := by
  induction h with
  | init p => simp [Report, Sys.thr, init]
  | step a _ hs ih => exact report_step hs ih

/-- **The report before `flux_close`.** When `module_thread` has closed its handle, it has
sent nothing at all if `mod_main` never ran, and otherwise, unless the `flux_rpc_pack` of
a report failed, its last message is the EXITED report, whose errnum is zero exactly when
`mod_main` returned a non-negative value. -/
theorem closed_thread_report {s : Sys} (h : Reachable s) (hc : s.pc = .closed) :
    (s.mainRet = none → s.sent = []) ∧
    ∀ rc errno, s.mainRet = some (rc, errno) → s.sendErr = false →
      s.sent.getLast? = some (exitedReport (mainErrno rc errno)) ∧
      (mainErrno rc errno = 0 ↔ 0 ≤ rc) := by
  have hr := reachable_report h
  simp only [Report, Sys.thr, hc] at hr
  exact ⟨hr.1, fun rc errno hm he => ⟨hr.2 rc errno hm he, mainErrno_eq_zero⟩⟩

theorem echoEnd_report :
    echoEnd.sent.getLast? = some (exitedReport (mainErrno 0 0)) ∧ (mainErrno 0 0 = 0 ↔ 0 ≤ (0 : ℤ)) :=
  (closed_thread_report reachable_echoEnd (by decide)).2 0 0 (by decide) (by decide)

/-- A setup call after `flux_open` fails: `module_thread` jumps to `done:` and closes its
handle having sent nothing, no EXITED report included. -/
theorem setup_failure_sends_nothing :
    (run (init echo) [.thread (.connect true), .thread (.setup false)]).map (fun s => (s.pc, s.sent)) =
      some (.closed, []) := by
  decide

end FluxBroker.ThreadExit
