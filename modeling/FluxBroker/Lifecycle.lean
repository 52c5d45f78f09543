import FluxBroker.Record

/-!
The lifecycle of a module record: `module_start`, `module_cancel`, `module_set_status` as
the broker calls it, and `module_destroy`.

The status is written by `module_set_status` alone, whose two assertions forbid
re-entering INIT and leaving EXITED; nothing else orders the states. `module_destroy`
joins the thread of a started module and moves it to EXITED if it is not there yet, so a
module that was started announces EXITED to the broker's status callback exactly once.

The calls to the outside world (threads, the reactor watcher, the status callback, the
dynamic loader) are recorded in the order they are made. `pthread_create` and
`pthread_join` are inputs: what they return, and what a failed `pthread_create` leaves
in `p->t`, which POSIX leaves unspecified.
-/

namespace FluxBroker.Lifecycle

open FluxBroker.Message FluxBroker.Record

/-! ### Calls -/

/-- The calls of the lifecycle functions to the outside world; `statusCb` is the status
callback with the previous and the current status, `abort` a failed `assert`, and `exit` the
end of the broker in `log_errn_exit`. -/
inductive Call
  | watcherStart
  | pthreadCreate
  | pthreadCancel (t : ℕ)
  | pthreadJoin (t : ℕ)
  | statusCb (prev cur : ℤ)
  | abort
  | exit
  | disconnectDestroy
  | watcherStop
  | watcherDestroy
  | zsockDestroy
  | dlclose
  | free
  deriving DecidableEq, Repr

def Call.cb? : Call → Option (ℤ × ℤ)
  | .statusCb prev cur => some (prev, cur)
  | _ => none

def cbCalls (cb : Option (ℤ × ℤ)) : List Call := cb.toList.map fun c => .statusCb c.1 c.2

@[simp] lemma cbCalls_filterMap (cb : Option (ℤ × ℤ)) : (cbCalls cb).filterMap Call.cb? = cb.toList := by
  cases cb <;> rfl

/-! ### The host functions -/

/-- What `pthread_create` does: it starts the thread and writes its id, or fails with an
error number and leaves `p->t` holding `t`. -/
inductive Spawn
  | ok (tid : ℕ)
  | fail (errnum : ℤ) (t : ℕ)
  deriving DecidableEq, Repr

/-- `module_start`: `flux_watcher_start (p->broker_w)`, then `pthread_create (&p->t, ...)`;
`.error` carries the errno of a -1 return. -/
def moduleStart (p : Module) : Spawn → Module × Except ℤ Unit
  | .ok tid => ({ p with watching := true, t := tid }, .ok ())
  | .fail e t => ({ p with watching := true, t := t }, .error e)

/-- `module_cancel`, when `pthread_cancel` returns `e`: the calls, and the result. -/
def moduleCancel (p : Module) (e : ℤ) : List Call × Except ℤ Unit :=
  if p.t ≠ 0 then
    ([.pthreadCancel p.t], if e ≠ 0 ∧ e ≠ ESRCH then .error e else .ok ())
  else ([], .ok ())

/-- What `module_destroy` does once the thread is dealt with. -/
def teardown : List Call :=
  [.disconnectDestroy, .watcherStop, .watcherDestroy, .zsockDestroy, .dlclose, .free]

/-- `module_destroy`, when `pthread_join` returns `joinErr`: the calls, and the record as
it is freed (`none` when the broker exits or aborts first). -/
def moduleDestroy (p : Module) (joinErr : ℤ) : List Call × Option Module :=
  if p.t ≠ 0 then
    if joinErr ≠ 0 then ([.pthreadJoin p.t, .exit], none)
    else if p.status ≠ FLUX_MODSTATE_EXITED then
      match moduleSetStatus p FLUX_MODSTATE_EXITED with
      | some (q, cb) => (.pthreadJoin p.t :: cbCalls cb ++ teardown, some q)
      | none => ([.pthreadJoin p.t, .abort], none)
    else (.pthreadJoin p.t :: teardown, some p)
  else (teardown, some p)

lemma moduleDestroy_no_abort (p : Module) (joinErr : ℤ) : Call.abort ∉ (moduleDestroy p joinErr).1 := by
  unfold moduleDestroy
  split_ifs with ht hj hs
  · simp
  · rw [moduleSetStatus, if_pos ⟨by decide, hs⟩]
    cases p.statusCb <;> simp [cbCalls, teardown]
  · simp [teardown]
  · simp [teardown]

/-! ### Runs of `module_set_status` -/

/-- The broker's calls `module_set_status (p, n)` for each `n` in turn; `none` when an
assertion fails. -/
def setStatusRun (p : Module) : List ℤ → Option Module
  | [] => some p
  | n :: ns => (moduleSetStatus p n).bind fun r => setStatusRun r.1 ns

lemma moduleSetStatus_eq (p : Module) (n : ℤ) : moduleSetStatus p n =
    if n ≠ FLUX_MODSTATE_INIT ∧ p.status ≠ FLUX_MODSTATE_EXITED then
      some ({ p with status := n }, if p.statusCb then some (p.status, n) else none)
    else none := rfl

/-- **Runs of `module_set_status`.** A run of calls passes the assertions exactly when no
call passes INIT and no call comes once the status is EXITED, and it leaves the status at
the last value passed. So INIT is never re-entered and EXITED is terminal, and nothing
else is enforced: any other value, in any order, is taken. -/
theorem set_status_run {p q : Module} {ns : List ℤ} :
    setStatusRun p ns = some q ↔
      (∀ n ∈ ns, n ≠ FLUX_MODSTATE_INIT) ∧ FLUX_MODSTATE_EXITED ∉ (p.status :: ns).dropLast ∧
      q = { p with status := (p.status :: ns).getLast (List.cons_ne_nil _ _) } := by
  induction ns generalizing p with
  | nil => simp [setStatusRun, eq_comm]
  | cons n ns ih =>
    simp only [setStatusRun, moduleSetStatus_eq]
    by_cases hc : n ≠ FLUX_MODSTATE_INIT ∧ p.status ≠ FLUX_MODSTATE_EXITED
    · rw [if_pos hc, Option.some_bind, ih, List.getLast_cons (List.cons_ne_nil _ _)]
      simp [hc.1, hc.2.symm, List.dropLast_cons₂]
    · rw [if_neg hc, Option.none_bind]
      simp only [reduceCtorEq, false_iff, not_and]
      intro hn hx
      simp_all [List.dropLast_cons₂]

theorem set_status_moves_back :
    (setStatusRun echo [FLUX_MODSTATE_FINALIZING, FLUX_MODSTATE_RUNNING]).map Module.status =
      some FLUX_MODSTATE_RUNNING ∧
    (setStatusRun echo [5]).map Module.status = some 5 := by
  decide

/-! ### Status chains -/

/-- The `(previous, current)` pairs passed to the status callback lead from `s` to `e`,
each starting where the one before ended. -/
def StatusChain : ℤ → List (ℤ × ℤ) → ℤ → Prop
  | s, [], e => s = e
  | s, c :: cs, e => c.1 = s ∧ StatusChain c.2 cs e

lemma statusChain_append {s e : ℤ} {c : ℤ × ℤ} :
    ∀ {cs : List (ℤ × ℤ)}, StatusChain s (cs ++ [c]) e ↔ StatusChain s cs c.1 ∧ c.2 = e
  | [] => by simp [StatusChain, eq_comm]
  | c' :: cs => by simp [StatusChain, statusChain_append, and_assoc]

lemma StatusChain.dropLast_ne {x : ℤ} {cs : List (ℤ × ℤ)} (hx : ∀ c ∈ cs, c.1 ≠ x) :
    ∀ {s e : ℤ}, StatusChain s cs e → ∀ c ∈ cs.dropLast, c.2 ≠ x := by
  induction cs with
  | nil => simp
  | cons c cs ih =>
    intro s e h d hd
    cases cs with
    | nil => simp at hd
    | cons c' cs =>
      obtain ⟨-, h1, h2⟩ := h
      rw [List.dropLast_cons₂, List.mem_cons] at hd
      rcases hd with rfl | hd
      · exact h1 ▸ hx c' (by simp)
      · exact ih (fun c hc => hx c (List.mem_cons_of_mem _ hc)) ⟨h1, h2⟩ d hd

lemma StatusChain.exists_into : ∀ {cs : List (ℤ × ℤ)} {s e : ℤ}, StatusChain s cs e → s ≠ e →
    ∃ c ∈ cs, c.2 = e
  | [], _, _, h, hne => absurd h hne
  | c :: cs, _, e, ⟨_, h⟩, _ => by
    by_cases hc : c.2 = e
    · exact ⟨c, by simp, hc⟩
    · obtain ⟨d, hd, he⟩ := StatusChain.exists_into h hc
      exact ⟨d, List.mem_cons_of_mem _ hd, he⟩

lemma StatusChain.countP_le {x : ℤ} {cs : List (ℤ × ℤ)} {s e : ℤ} (h : StatusChain s cs e)
    (hx : ∀ c ∈ cs, c.1 ≠ x) : cs.countP (·.2 = x) ≤ 1 := by
  rcases List.eq_nil_or_concat cs with rfl | ⟨L, c, rfl⟩
  · simp
  · rw [List.concat_eq_append] at h hx ⊢
    have hL := h.dropLast_ne hx
    rw [List.dropLast_concat] at hL
    rw [List.countP_append, List.countP_eq_zero.mpr (by simpa using hL)]
    simp only [List.countP_singleton, Nat.zero_add]
    split <;> omega

/-! ### The record's life -/

/-- A record as `module_create` returns it: `calloc` left the status INIT and no thread,
and the watcher is created but not started. -/
structure Fresh (p : Module) : Prop where
  status : p.status = FLUX_MODSTATE_INIT
  t : p.t = 0
  watching : p.watching = false

/-- A record along its life: whether `module_start` returned 0 once it has been called, the
calls made so far, and whether `module_destroy` has been called (`gone`) and freed the
record. -/
structure Life where
  p : Module
  started : Option Bool
  calls : List Call
  freed : Bool
  gone : Bool

def Life.init (p : Module) : Life := ⟨p, none, [], false, false⟩

def Life.cbs (l : Life) : List (ℤ × ℤ) := l.calls.filterMap Call.cb?

/-- The broker's calls on a record after `module_create`. -/
inductive LAct
  | start (sp : Spawn)
  | cancel (e : ℤ)
  | setStatus (n : ℤ)
  | destroy (joinErr : ℤ)
  deriving DecidableEq, Repr

/-- One call. `module_start` is called once, and a successful `pthread_create` writes a
nonzero id (a glibc `pthread_t` is the address of the thread's descriptor); a call of
`module_set_status` whose assertion fails aborts the broker and ends the run; nothing is
called on a destroyed record. -/
def lstep (l : Life) : LAct → Option Life
  | .start sp =>
    if l.gone ∨ l.started.isSome ∨ sp = .ok 0 then none
    else
      let r := moduleStart l.p sp
      some { l with p := r.1, started := some r.2.isOk, calls := l.calls ++ [.watcherStart, .pthreadCreate] }
  | .cancel e => if l.gone then none else some { l with calls := l.calls ++ (moduleCancel l.p e).1 }
  | .setStatus n =>
    if l.gone then none
    else (moduleSetStatus l.p n).map fun r => { l with p := r.1, calls := l.calls ++ cbCalls r.2 }
  | .destroy e =>
    if l.gone then none
    else
      let r := moduleDestroy l.p e
      some { l with p := r.2.getD l.p, calls := l.calls ++ r.1, freed := r.2.isSome, gone := true }

def lrun (l : Life) : List LAct → Option Life
  | [] => some l
  | a :: as => (lstep l a).bind (lrun · as)

@[simp] lemma lrun_nil (l : Life) : lrun l [] = some l := rfl
@[simp] lemma lrun_cons (l : Life) (a : LAct) (as : List LAct) :
    lrun l (a :: as) = (lstep l a).bind (lrun · as) := rfl

@[simp] lemma cbs_append (l : Life) (p : Module) (cs : List Call) (st : Option Bool) (fr g : Bool) :
    ({ p := p, started := st, calls := l.calls ++ cs, freed := fr, gone := g } : Life).cbs =
      l.cbs ++ cs.filterMap Call.cb? := List.filterMap_append ..

/-- What `module_destroy` does to the status, with a status callback registered: nothing
when it ends the broker, nothing when there is no thread or the status is EXITED, and
otherwise one move to EXITED with its callback. -/
lemma moduleDestroy_cases (p : Module) (e : ℤ) (hcb : p.statusCb = true) :
    ((moduleDestroy p e).1.filterMap Call.cb? = [] ∧ (moduleDestroy p e).2 = none) ∨
    ((moduleDestroy p e).1.filterMap Call.cb? = [] ∧ (moduleDestroy p e).2 = some p ∧
      (p.t ≠ 0 → p.status = FLUX_MODSTATE_EXITED)) ∨
    ((moduleDestroy p e).1.filterMap Call.cb? = [(p.status, FLUX_MODSTATE_EXITED)] ∧
      (moduleDestroy p e).2 = some { p with status := FLUX_MODSTATE_EXITED } ∧
      p.status ≠ FLUX_MODSTATE_EXITED) := by
  unfold moduleDestroy
  split_ifs with ht hj hs
  · simp [Call.cb?]
  · rw [moduleSetStatus_eq, if_pos ⟨by decide, hs⟩]
    simp [hcb, cbCalls, teardown, Call.cb?, hs]
  · simp_all [teardown, Call.cb?]
  · simp_all [teardown, Call.cb?]

/-! ### The invariant -/

/-- The callbacks chain from INIT to the current status, none leaves EXITED or enters INIT,
no assertion has failed, and a started module is EXITED once freed. -/
structure LInv (l : Life) : Prop where
  chain : StatusChain FLUX_MODSTATE_INIT l.cbs l.p.status
  pairs : ∀ c ∈ l.cbs, c.1 ≠ FLUX_MODSTATE_EXITED ∧ c.2 ≠ FLUX_MODSTATE_INIT
  no_abort : Call.abort ∉ l.calls
  cb : l.p.statusCb = true
  tid : l.started = some true → l.p.t ≠ 0
  freed : l.freed = true → l.started = some true → l.p.status = FLUX_MODSTATE_EXITED
  freed_gone : l.freed = true → l.gone = true

lemma linv_init {p : Module} (hp : Fresh p) (hcb : p.statusCb = true) : LInv (Life.init p) :=
  ⟨hp.status.symm, by simp [Life.init, Life.cbs], by simp [Life.init], hcb, by simp [Life.init],
    by simp [Life.init], by simp [Life.init]⟩

lemma linv_move {l : Life} (hi : LInv l) {n : ℤ} (hn : n ≠ FLUX_MODSTATE_INIT)
    (hs : l.p.status ≠ FLUX_MODSTATE_EXITED) :
    StatusChain FLUX_MODSTATE_INIT (l.cbs ++ [(l.p.status, n)]) n ∧
    ∀ c ∈ l.cbs ++ [(l.p.status, n)], c.1 ≠ FLUX_MODSTATE_EXITED ∧ c.2 ≠ FLUX_MODSTATE_INIT :=
  ⟨statusChain_append.mpr ⟨hi.chain, rfl⟩, fun c hc => by
    rcases List.mem_append.mp hc with hc | hc
    · exact hi.pairs c hc
    · simp only [List.mem_singleton] at hc; subst hc; exact ⟨hs, hn⟩⟩

lemma moduleCancel_calls (p : Module) (e : ℤ) :
    (moduleCancel p e).1.filterMap Call.cb? = [] ∧ Call.abort ∉ (moduleCancel p e).1 := by
  unfold moduleCancel; split_ifs <;> simp [Call.cb?]

lemma cbCalls_no_abort (cb : Option (ℤ × ℤ)) : Call.abort ∉ cbCalls cb := by
  cases cb <;> simp [cbCalls]

lemma LInv.not_freed {l : Life} (hi : LInv l) (hg : l.gone = false) : l.freed = false :=
  Bool.eq_false_iff.mpr fun hf => by simp [hi.freed_gone hf] at hg

section Steps

/-! Each call on a live record keeps the invariant. -/

variable {l : Life} (hi : LInv l)
include hi

lemma linv_start (hg : l.gone = false) {sp : Spawn} (hsp : sp ≠ .ok 0) :
    LInv { l with
      p := (moduleStart l.p sp).1
      started := some (moduleStart l.p sp).2.isOk
      calls := l.calls ++ [.watcherStart, .pthreadCreate] } := by
  have hst : (moduleStart l.p sp).1.status = l.p.status ∧
      (moduleStart l.p sp).1.statusCb = l.p.statusCb := by
    cases sp <;> exact ⟨rfl, rfl⟩
  have htid : (moduleStart l.p sp).2.isOk = true → (moduleStart l.p sp).1.t ≠ 0 := by
    cases sp <;> simp_all [moduleStart, Except.isOk, Except.toBool]
  have hcbs : [Call.watcherStart, .pthreadCreate].filterMap Call.cb? = [] := rfl
  exact ⟨by simpa only [cbs_append, hcbs, List.append_nil, hst.1] using hi.chain,
    by simpa only [cbs_append, hcbs, List.append_nil] using hi.pairs,
    by simp [hi.no_abort], hst.2 ▸ hi.cb, fun h => htid (by simpa using h),
    by simp [hi.not_freed hg], by simp [hi.not_freed hg]⟩

lemma linv_cancel (e : ℤ) : LInv { l with calls := l.calls ++ (moduleCancel l.p e).1 } := by
  obtain ⟨h1, h2⟩ := moduleCancel_calls l.p e
  exact ⟨by simpa only [cbs_append, h1, List.append_nil] using hi.chain,
    by simpa only [cbs_append, h1, List.append_nil] using hi.pairs, by simp [hi.no_abort, h2],
    hi.cb, hi.tid, hi.freed, hi.freed_gone⟩

lemma linv_setStatus (hg : l.gone = false) {n : ℤ} {q : Module} {cb : Option (ℤ × ℤ)}
    (hs : moduleSetStatus l.p n = some (q, cb)) : LInv { l with p := q, calls := l.calls ++ cbCalls cb } := by
  obtain ⟨rfl, hn, hx, rfl⟩ := moduleSetStatus_some _ hs
  obtain ⟨h1, h2⟩ := linv_move hi hn hx
  exact ⟨by simpa only [cbs_append, cbCalls_filterMap, hi.cb, if_true, Option.toList_some] using h1,
    by simpa only [cbs_append, cbCalls_filterMap, hi.cb, if_true, Option.toList_some] using h2,
    by simpa [hi.no_abort] using cbCalls_no_abort _, hi.cb, hi.tid, by simp [hi.not_freed hg],
    by simp [hi.not_freed hg]⟩

lemma linv_destroy (e : ℤ) :
    LInv { l with
      p := (moduleDestroy l.p e).2.getD l.p
      calls := l.calls ++ (moduleDestroy l.p e).1
      freed := (moduleDestroy l.p e).2.isSome
      gone := true } := by
  have habort : Call.abort ∉ l.calls ++ (moduleDestroy l.p e).1 := by
    simp [hi.no_abort, moduleDestroy_no_abort]
  rcases moduleDestroy_cases l.p e hi.cb with ⟨h1, h2⟩ | ⟨h1, h2, h3⟩ | ⟨h1, h2, h3⟩
  case inl =>
    rw [h2]
    exact ⟨by simpa only [cbs_append, h1, List.append_nil] using hi.chain,
      by simpa only [cbs_append, h1, List.append_nil] using hi.pairs, habort, hi.cb, hi.tid, nofun,
      fun _ => rfl⟩
  case inr.inl =>
    rw [h2]
    exact ⟨by simpa only [cbs_append, h1, List.append_nil] using hi.chain,
      by simpa only [cbs_append, h1, List.append_nil] using hi.pairs, habort, hi.cb, hi.tid,
      fun _ hs => h3 (hi.tid hs), fun _ => rfl⟩
  case inr.inr =>
    obtain ⟨c1, c2⟩ := linv_move hi (by decide : FLUX_MODSTATE_EXITED ≠ FLUX_MODSTATE_INIT) h3
    rw [h2]
    exact ⟨by simpa only [cbs_append, h1] using c1, by simpa only [cbs_append, h1] using c2, habort,
      hi.cb, hi.tid, fun _ _ => rfl, fun _ => rfl⟩

end Steps

lemma lstep_inv {l l' : Life} {a : LAct} (h : lstep l a = some l') (hi : LInv l) : LInv l' := by
  cases a with
  | start sp =>
    simp only [lstep, Bool.not_eq_true] at h
    split_ifs at h with hg
    cases h
    simp only [not_or, Option.not_isSome_iff_eq_none, Bool.not_eq_true] at hg
    exact linv_start hi hg.1 hg.2.2
  | cancel e =>
    simp only [lstep] at h
    split_ifs at h
    cases h
    exact linv_cancel hi e
  | setStatus n =>
    simp only [lstep] at h
    split_ifs at h with hg
    obtain ⟨⟨q, cb⟩, hs, rfl⟩ := Option.map_eq_some'.mp h
    exact linv_setStatus hi (Bool.eq_false_iff.mpr hg) hs
  | destroy e =>
    simp only [lstep] at h
    split_ifs at h
    cases h
    exact linv_destroy hi e

lemma lrun_inv : ∀ {as : List LAct} {l l' : Life}, lrun l as = some l' → LInv l → LInv l'
  | [], _, _, h, hi => by cases h; exact hi
  | _ :: _, _, _, h, hi => by
    obtain ⟨l1, h1, h2⟩ := Option.bind_eq_some.mp h
    exact lrun_inv h2 (lstep_inv h1 hi)

/-- **The status callbacks of a record's life.** On every run of `module_start`,
`module_cancel`, the broker's `module_set_status` calls that pass the assertions and
`module_destroy`, from a record as `module_create` returns it with the status callback
registered: the `(previous, current)` pairs passed to the callback lead from INIT to the
record's status; `module_destroy` fails no assertion; the callback reports EXITED at most
once, and no callback follows it; and when the record is freed after `module_start`
returned 0, the status is EXITED and the callback has reported it exactly once. -/
theorem status_callbacks {p : Module} {as : List LAct} {l : Life} (hp : Fresh p)
    (hcb : p.statusCb = true) (h : lrun (Life.init p) as = some l) :
    StatusChain FLUX_MODSTATE_INIT l.cbs l.p.status ∧ Call.abort ∉ l.calls ∧
    (∀ c ∈ l.cbs.dropLast, c.2 ≠ FLUX_MODSTATE_EXITED) ∧
    l.cbs.countP (·.2 = FLUX_MODSTATE_EXITED) ≤ 1 ∧
    (l.freed = true → l.started = some true →
      l.p.status = FLUX_MODSTATE_EXITED ∧ l.cbs.countP (·.2 = FLUX_MODSTATE_EXITED) = 1) := by
  have hi := lrun_inv h (linv_init hp hcb)
  have hx : ∀ c ∈ l.cbs, c.1 ≠ FLUX_MODSTATE_EXITED := fun c hc => (hi.pairs c hc).1
  have hle := hi.chain.countP_le hx
  refine ⟨hi.chain, hi.no_abort, hi.chain.dropLast_ne hx, hle, fun hf hs => ?_⟩
  have he := hi.freed hf hs
  obtain ⟨c, hc, hc2⟩ := hi.chain.exists_into (by rw [he]; decide)
  exact ⟨he, le_antisymm hle (List.countP_pos_iff.mpr ⟨c, hc, by simp [hc2, he]⟩)⟩

def echoLife : List LAct :=
  [.start (.ok 42), .setStatus FLUX_MODSTATE_RUNNING, .cancel 0, .destroy 0]

def echoLifeEnd : Life := (lrun (Life.init echo) echoLife).getD (Life.init echo)

theorem echoLife_exited_once :
    echoLifeEnd.p.status = FLUX_MODSTATE_EXITED ∧
      echoLifeEnd.cbs.countP (·.2 = FLUX_MODSTATE_EXITED) = 1 :=
  (status_callbacks ⟨rfl, rfl, rfl⟩ rfl
    (rfl : lrun (Life.init echo) echoLife = some echoLifeEnd)).2.2.2.2 rfl rfl

theorem start_failure_changes_record :
    (lrun (Life.init echo) [.start (.fail EAGAIN 0)]).map (fun l => (l.started, l.p.watching)) =
      some (some false, true) ∧
    (lrun (Life.init echo) [.start (.fail EAGAIN 7), .cancel 0, .destroy 0]).map Life.calls =
      some [.watcherStart, .pthreadCreate, .pthreadCancel 7, .pthreadJoin 7,
        .statusCb FLUX_MODSTATE_INIT FLUX_MODSTATE_EXITED, .disconnectDestroy, .watcherStop,
        .watcherDestroy, .zsockDestroy, .dlclose, .free] := by
  decide

end FluxBroker.Lifecycle
