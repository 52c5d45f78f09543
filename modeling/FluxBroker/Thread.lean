import Mathlib.Logic.Relation
import FluxBroker.Record

/-!
One module and the broker as two threads sharing the module's channel.

The module thread runs `module_thread`: it opens its handle, makes the setup calls, runs
`mod_main`, synchronises FINALIZING with the broker (`module_finalizing`), answers the
requests left in its queue with `ENOSYS`, sends the EXITED report and closes the handle.
The broker reads what the module sends (`module_recvmsg`), answers requests, runs the
`broker.module-status` handler, and sends requests and events to the module through
`module_sendmsg` and `module_event_cast`, in any order with the module's steps.

Each direction of the channel is a FIFO. The broker-to-module direction numbers every
write, so that a request can be followed from the broker's `module_sendmsg` to the module
thread. Messages the module's handle reads and does not return are requeued on the handle
(`hq`) and stay there. A step is a function of the state and of an action naming the
nondeterministic choice it makes (which setup call fails, what `mod_main` returns, what
the broker sends), so a run is a list of actions.
-/

namespace FluxBroker.Thread

open FluxBroker.Message FluxBroker.Record

/-! ### The module thread's position -/

/-- The setup calls of `module_thread` between `flux_open` and `mod_main`, in order. -/
inductive Setup
  | attrCache | conf | modservice | sigfillset | sigmask | argv
  deriving DecidableEq, Repr

/-- Where `module_thread` is: before `flux_open`, about to make a setup call, inside
`mod_main`, in `module_finalizing` waiting in `flux_rpc_get` for the response with matchtag
`tag`, in the loop answering residual requests, about to send the EXITED report, past
`flux_close`, or cancelled. -/
inductive Pc
  | start
  | setup (k : Setup)
  | main
  | finalizing (errnum : ℤ) (tag : ℕ)
  | drain (errnum : ℤ)
  | exiting (errnum : ℤ)
  | closed
  | cancelled
  deriving DecidableEq, Repr

def Setup.next : Setup → Pc
  | .attrCache => .setup .conf
  | .conf => .setup .modservice
  | .modservice => .setup .sigfillset
  | .sigfillset => .setup .sigmask
  | .sigmask => .setup .argv
  | .argv => .main

lemma Setup.next_cases (k : Setup) : (∃ k', k.next = .setup k') ∨ k.next = .main := by
  cases k
  case argv => exact .inr rfl
  all_goals exact .inl ⟨_, rfl⟩

@[simp] lemma Setup.next_ne_finalizing (k : Setup) (e : ℤ) (t : ℕ) : k.next ≠ .finalizing e t := by
  rcases k.next_cases with ⟨_, h⟩ | h <;> simp [h]
@[simp] lemma Setup.next_ne_drain (k : Setup) (e : ℤ) : k.next ≠ .drain e := by
  rcases k.next_cases with ⟨_, h⟩ | h <;> simp [h]
@[simp] lemma Setup.next_ne_exiting (k : Setup) (e : ℤ) : k.next ≠ .exiting e := by
  rcases k.next_cases with ⟨_, h⟩ | h <;> simp [h]
@[simp] lemma Setup.next_ne_closed (k : Setup) : k.next ≠ .closed := by
  rcases k.next_cases with ⟨_, h⟩ | h <;> simp [h]

/-- `mod_main_errno` after `mod_main` returned `rc` with `errno` set to `errno`. -/
def mainErrno (rc errno : ℤ) : ℤ :=
  if rc < 0 then (if errno = 0 then ECONNRESET else errno) else 0

/-! ### The system -/

/-- The broker's record and the channel, the broker-to-module direction numbering each write
with a serial; the requests the broker has read and not answered; the messages the module's
handle has read and requeued (`hq`); the module thread's position, next matchtag and whether
`module_finalizing` returned 0. The rest are logs: every message the module side has
written; the serials of the requests written to the module, of those `mod_main` received,
and of those the drain loop passed to `flux_respond_error (h, msg, ENOSYS, NULL)`; what
`mod_main` returned and `errno` then; and whether a send of `module_thread` itself failed. -/
structure Sys where
  p : Module
  toMod : List (ℕ × Msg)
  toBrk : List Msg
  pending : List Msg
  hq : List (ℕ × Msg)
  pc : Pc
  tag : ℕ
  finalized : Bool
  serial : ℕ
  sent : List Msg
  reqs : List ℕ
  got : List ℕ
  answered : List ℕ
  mainRet : Option (ℤ × ℤ)
  sendErr : Bool

/-- The system once `module_create` has built `p`, before the thread runs. -/
def init (p : Module) : Sys where
  p := p
  toMod := []
  toBrk := []
  pending := []
  hq := []
  pc := .start
  tag := 1
  finalized := false
  serial := 0
  sent := []
  reqs := []
  got := []
  answered := []
  mainRet := none
  sendErr := false

def reqSerial (x : ℕ × Msg) : Option ℕ := if x.2.type = .request then some x.1 else none

def reqSerials (l : List (ℕ × Msg)) : List ℕ := l.filterMap reqSerial

def Sys.emit (s : Sys) (m : Msg) : Sys := { s with toBrk := s.toBrk ++ [m], sent := s.sent ++ [m] }

def Sys.deliver (s : Sys) : Except ℤ (Option Msg) → Sys
  | .ok (some m) =>
    { s with toMod := s.toMod ++ [(s.serial, m)], serial := s.serial + 1,
             reqs := s.reqs ++ (reqSerial (s.serial, m)).toList }
  | _ => s

/-! ### Reading requests -/

def scan : List (ℕ × Msg) → List (ℕ × Msg) × Option (ℕ × Msg) × List (ℕ × Msg)
  | [] => ([], none, [])
  | x :: rest =>
    if x.2.type = .request then ([], some x, rest)
    else let r := scan rest; (x :: r.1, r.2.1, r.2.2)

/-- Modelled from the spec: `flux_recv (h, FLUX_MATCH_REQUEST, FLUX_O_NONBLOCK)` (libflux,
not in src/). The first request requeued on the handle, else the first request read from
the channel, with what was read before it requeued; `none` when there is none, with all
that was read requeued. Returns the request, the handle's queue and the channel. -/
def recvRequest (hq ch : List (ℕ × Msg)) :
    Option (ℕ × Msg) × List (ℕ × Msg) × List (ℕ × Msg) :=
  match hq.find? (fun x => x.2.type = .request) with
  | some x => (some x, hq.erase x, ch)
  | none => let r := scan ch; (r.2.1, hq ++ r.1, r.2.2)

@[simp] lemma reqSerials_nil : reqSerials [] = [] := rfl
@[simp] lemma reqSerials_cons (x : ℕ × Msg) (l : List (ℕ × Msg)) :
    reqSerials (x :: l) = (reqSerial x).toList ++ reqSerials l := by
  simp only [reqSerials, List.filterMap_cons]; cases reqSerial x <;> rfl
@[simp] lemma reqSerials_append (l l' : List (ℕ × Msg)) :
    reqSerials (l ++ l') = reqSerials l ++ reqSerials l' := List.filterMap_append ..

lemma reqSerial_eq_none {x : ℕ × Msg} : reqSerial x = none ↔ x.2.type ≠ .request := by
  simp [reqSerial]

lemma reqSerial_of_request {x : ℕ × Msg} (h : x.2.type = .request) : reqSerial x = some x.1 := by
  simp [reqSerial, h]

lemma reqSerials_eq_nil {l : List (ℕ × Msg)} :
    reqSerials l = [] ↔ ∀ x ∈ l, x.2.type ≠ .request := by
  simp only [reqSerials, List.filterMap_eq_nil_iff, reqSerial_eq_none]

lemma scan_spec : ∀ ch : List (ℕ × Msg),
    (scan ch).1 ++ (scan ch).2.1.toList ++ (scan ch).2.2 = ch ∧
    reqSerials (scan ch).1 = [] ∧
    (∀ x, (scan ch).2.1 = some x → x.2.type = .request) ∧
    ((scan ch).2.1 = none → (scan ch).2.2 = [])
  | [] => by simp [scan]
  | x :: rest => by
    obtain ⟨ih1, ih2, ih3, ih4⟩ := scan_spec rest
    by_cases hx : x.2.type = .request
    · simp [scan, hx]
    · simp only [scan, hx, if_false]
      exact ⟨by simpa using ih1, by simp [reqSerial, hx, ih2], ih3, ih4⟩

lemma recvRequest_sub {hq ch hq' ch' : List (ℕ × Msg)} {o : Option (ℕ × Msg)}
    (h : recvRequest hq ch = (o, hq', ch')) : ∀ x ∈ ch', x ∈ ch := by
  unfold recvRequest at h
  split at h <;> simp only [Prod.mk.injEq] at h <;> obtain ⟨-, -, rfl⟩ := h
  · exact fun x hx => hx
  · intro x hx
    rw [← (scan_spec ch).1]
    simp [hx]

lemma recvRequest_some {hq ch hq' ch' : List (ℕ × Msg)} {x : ℕ × Msg}
    (h : recvRequest hq ch = (some x, hq', ch')) : x.2.type = .request ∧
    (reqSerials ch' ++ reqSerials hq' ++ [x.1]).Perm (reqSerials ch ++ reqSerials hq) := by
  unfold recvRequest at h
  split at h <;> simp only [Prod.mk.injEq, Option.some.injEq] at h
  · rename_i y hf
    obtain ⟨rfl, rfl, rfl⟩ := h
    have hx : y.2.type = .request := by simpa using List.find?_some hf
    obtain ⟨l₁, l₂, -, e₁, e₂⟩ := List.exists_erase_eq (List.mem_of_find?_eq_some hf)
    refine ⟨hx, ?_⟩
    rw [e₂, e₁, List.append_assoc]
    refine List.Perm.append_left _ ?_
    simp only [reqSerials_append, reqSerials_cons, reqSerial_of_request hx, Option.toList_some]
    rw [List.append_assoc]
    exact List.Perm.append_left _ List.perm_append_comm
  · rename_i hf
    obtain ⟨hx, rfl, rfl⟩ := h
    obtain ⟨h1, h2, h3, -⟩ := scan_spec ch
    have hq : reqSerials hq = [] := reqSerials_eq_nil.mpr fun x hx => by simpa using List.find?_eq_none.mp hf x hx
    refine ⟨h3 x hx, ?_⟩
    conv_rhs => rw [← h1]
    simp only [hx, reqSerials_append, h2, hq, Option.toList_some, reqSerials_cons,
      reqSerial_of_request (h3 x hx)]
    simp

lemma recvRequest_none {hq ch hq' ch' : List (ℕ × Msg)}
    (h : recvRequest hq ch = (none, hq', ch')) :
    reqSerials hq' = [] ∧ ch' = [] ∧ reqSerials ch = [] ∧ reqSerials hq = [] := by
  unfold recvRequest at h
  split at h <;> simp only [Prod.mk.injEq, reduceCtorEq, false_and] at h
  rename_i hf
  obtain ⟨hx, rfl, rfl⟩ := h
  obtain ⟨h1, h2, -, h4⟩ := scan_spec ch
  have hq : reqSerials hq = [] := reqSerials_eq_nil.mpr fun x hx => by simpa using List.find?_eq_none.mp hf x hx
  refine ⟨by simp [h2, hq], h4 hx, ?_, hq⟩
  rw [← h1, hx, h4 hx]
  simp [h2]

/-! ### The broker's handler -/

/-- Modelled from the spec: the broker's `broker.module-status` handler (broker.c, not in
src/). It decodes `{status, errnum?}`; on FINALIZING it calls `module_mute` before the
acknowledgement is sent (section 4.3), on EXITED it stores the errnum, then it calls
`module_set_status` (`none`: an assertion failed) and responds unless asked not to. A body
it cannot decode gets an `EPROTO` response. -/
def statusHandler (p : Module) (r : Msg) : Option (Module × Option Msg) :=
  match r.payload with
  | .status st e =>
    let p := if st = FLUX_MODSTATE_FINALIZING then moduleMute p else p
    let p := if st = FLUX_MODSTATE_EXITED then moduleSetErrnum p (e.getD 0) else p
    (moduleSetStatus p st).map fun q => (q.1, respond r 0)
  | _ => some (p, respond r EPROTO)

/-! ### Steps -/

/-- The choices of the module thread: whether `flux_open` and each setup call succeed; what
`mod_main` receives (a requeued message, or the next one on the channel), requeues, sends
and returns, with whether `flux_rpc_pack` of the FINALIZING report succeeds; what
`flux_rpc_get` reads, or its failure; for each call of `flux_recv` in the drain loop, whether
the response goes out; whether `flux_rpc_pack` of the EXITED report succeeds; and
`module_cancel`. -/
inductive TAct
  | connect (ok : Bool)
  | setup (ok : Bool)
  | recv (x : Option (ℕ × Msg))
  | defer
  | emit (m : Msg)
  | ret (rc errno : ℤ) (pack : Bool)
  | ack
  | ackFail
  | drain (send : Bool)
  | exit (pack : Bool)
  | cancel
  deriving DecidableEq, Repr

/-- The choices of the broker: read the next message from the module (`module_recvmsg`),
answer a pending request with `errnum` (the status handler ignores it), `module_sendmsg` of
a request, event or control message, `module_event_cast` of an event, `module_subscribe`
and `module_unsubscribe`. -/
inductive BAct
  | recv
  | serve (r : Msg) (errnum : ℤ) (io : Io)
  | send (m : Msg) (io : Io)
  | cast (m : Msg) (io : Io)
  | subscribe (topic : String) (alloc : Bool)
  | unsubscribe (topic : String)
  deriving DecidableEq, Repr

inductive Act
  | thread (a : TAct)
  | broker (a : BAct)
  deriving DecidableEq, Repr

/-- A step of `module_thread`. -/
def tstep (s : Sys) (a : TAct) : Option Sys :=
  match s.pc, a with
  | .start, .connect ok => some { s with pc := if ok then .setup .attrCache else .closed }
  | .setup k, .setup ok => some { s with pc := if ok then k.next else .closed }
  | .main, .recv none => match s.toMod with
    | x :: rest => some { s with toMod := rest, got := s.got ++ (reqSerial x).toList }
    | [] => none
  | .main, .recv (some x) =>
    if x ∈ s.hq then some { s with hq := s.hq.erase x, got := s.got ++ (reqSerial x).toList }
    else none
  | .main, .defer => match s.toMod with
    | x :: rest => some { s with toMod := rest, hq := s.hq ++ [x] }
    | [] => none
  | .main, .emit m =>
    if m.type = .request ∧ m.noresponse = false then
      some ({ s with tag := s.tag + 1 }.emit { m with matchtag := s.tag })
    else some (s.emit m)
  | .main, .ret rc e pack =>
    if pack then
      some ({ s with pc := .finalizing (mainErrno rc e) s.tag, tag := s.tag + 1,
                     mainRet := some (rc, e) }.emit
        (statusRequest FLUX_MODSTATE_FINALIZING none false s.tag))
    else some { s with pc := .drain (mainErrno rc e), mainRet := some (rc, e), sendErr := true }
  | .finalizing e t, .ack => match s.toMod with
    | x :: rest =>
      if x.2.type = .response ∧ x.2.matchtag = t then
        some { s with toMod := rest, pc := .drain e, finalized := decide (x.2.errnum = 0) }
      else some { s with toMod := rest, hq := s.hq ++ [x] }
    | [] => none
  | .finalizing e _, .ackFail => some { s with pc := .drain e }
  | .drain e, .drain ok =>
    match recvRequest s.hq s.toMod with
    | (some x, hq, ch) =>
      let s := { s with hq := hq, toMod := ch, answered := s.answered ++ [x.1] }
      match respond x.2 ENOSYS with
      | none => some s
      | some r => some (if ok then s.emit r else { s with sendErr := true })
    | (none, hq, ch) => some { s with hq := hq, toMod := ch, pc := .exiting e }
  | .exiting e, .exit pack =>
    if pack then
      some ({ s with pc := .closed }.emit (statusRequest FLUX_MODSTATE_EXITED (some e) true 0))
    else some { s with pc := .closed, sendErr := true }
  | .closed, .cancel | .cancelled, .cancel => none
  | _, .cancel => some { s with pc := .cancelled }
  | _, _ => none

/-- A step of the broker. -/
def bstep (s : Sys) : BAct → Option Sys
  | .recv => match s.toBrk with
    | [] => none
    | m :: rest =>
      match moduleRecvmsg s.p (.ok m) with
      | .ok m' =>
        some (if m'.type = .request then { s with toBrk := rest, pending := s.pending ++ [m'] }
          else { s with toBrk := rest })
      | .error _ => some { s with toBrk := rest }
  | .serve r e io =>
    if r ∈ s.pending then
      let s := { s with pending := s.pending.erase r }
      if r.topic = some moduleStatusTopic then
        (statusHandler s.p r).map fun q =>
          { s with p := q.1 }.deliver (q.2.elim (.ok none) fun m => moduleSendmsg q.1 (some m) io)
      else some (s.deliver ((respond r e).elim (.ok none) fun m => moduleSendmsg s.p (some m) io))
    else none
  | .send m io => if m.type = .response then none else some (s.deliver (moduleSendmsg s.p (some m) io))
  | .cast m io => if m.type = .event then some (s.deliver (moduleEventCast s.p m io)) else none
  | .subscribe t a => match moduleSubscribe s.p t a with
    | .ok q => some { s with p := q }
    | .error _ => some s
  | .unsubscribe t => some { s with p := moduleUnsubscribe s.p t }

def step (s : Sys) : Act → Option Sys
  | .thread a => tstep s a
  | .broker a => bstep s a

/-! ### What a step of the module thread does -/

/-- The steps of `module_thread`, one constructor for each branch of `tstep`, with the
guard the branch takes. -/
inductive TStep (s : Sys) : Sys → Prop
  | connect (ok : Bool) : s.pc = .start →
      TStep s { s with pc := if ok then .setup .attrCache else .closed }
  | setup (k : Setup) (ok : Bool) : s.pc = .setup k →
      TStep s { s with pc := if ok then k.next else .closed }
  | recvNext (x : ℕ × Msg) (rest : List (ℕ × Msg)) : s.pc = .main → s.toMod = x :: rest →
      TStep s { s with toMod := rest, got := s.got ++ (reqSerial x).toList }
  | recvQueued (x : ℕ × Msg) : s.pc = .main → x ∈ s.hq →
      TStep s { s with hq := s.hq.erase x, got := s.got ++ (reqSerial x).toList }
  | defer (x : ℕ × Msg) (rest : List (ℕ × Msg)) : s.pc = .main → s.toMod = x :: rest →
      TStep s { s with toMod := rest, hq := s.hq ++ [x] }
  | emitRequest (m : Msg) : s.pc = .main → m.type = .request ∧ m.noresponse = false →
      TStep s ({ s with tag := s.tag + 1 }.emit { m with matchtag := s.tag })
  | emit (m : Msg) : s.pc = .main → ¬(m.type = .request ∧ m.noresponse = false) →
      TStep s (s.emit m)
  | ret (rc e : ℤ) : s.pc = .main →
      TStep s ({ s with pc := .finalizing (mainErrno rc e) s.tag, tag := s.tag + 1,
                        mainRet := some (rc, e) }.emit
        (statusRequest FLUX_MODSTATE_FINALIZING none false s.tag))
  | retFail (rc e : ℤ) : s.pc = .main →
      TStep s { s with pc := .drain (mainErrno rc e), mainRet := some (rc, e), sendErr := true }
  | ack (e : ℤ) (t : ℕ) (x : ℕ × Msg) (rest : List (ℕ × Msg)) : s.pc = .finalizing e t →
      s.toMod = x :: rest → x.2.type = .response ∧ x.2.matchtag = t →
      TStep s { s with toMod := rest, pc := .drain e, finalized := decide (x.2.errnum = 0) }
  | ackOther (e : ℤ) (t : ℕ) (x : ℕ × Msg) (rest : List (ℕ × Msg)) : s.pc = .finalizing e t →
      s.toMod = x :: rest → ¬(x.2.type = .response ∧ x.2.matchtag = t) →
      TStep s { s with toMod := rest, hq := s.hq ++ [x] }
  | ackFail (e : ℤ) (t : ℕ) : s.pc = .finalizing e t → TStep s { s with pc := .drain e }
  | drainQuiet (e : ℤ) (x : ℕ × Msg) (hq ch : List (ℕ × Msg)) : s.pc = .drain e →
      recvRequest s.hq s.toMod = (some x, hq, ch) → respond x.2 ENOSYS = none →
      TStep s { s with hq := hq, toMod := ch, answered := s.answered ++ [x.1] }
  | drainReply (e : ℤ) (x : ℕ × Msg) (hq ch : List (ℕ × Msg)) (r : Msg) : s.pc = .drain e →
      recvRequest s.hq s.toMod = (some x, hq, ch) → respond x.2 ENOSYS = some r →
      TStep s ({ s with hq := hq, toMod := ch, answered := s.answered ++ [x.1] }.emit r)
  | drainReplyFail (e : ℤ) (x : ℕ × Msg) (hq ch : List (ℕ × Msg)) (r : Msg) : s.pc = .drain e →
      recvRequest s.hq s.toMod = (some x, hq, ch) → respond x.2 ENOSYS = some r →
      TStep s { s with hq := hq, toMod := ch, answered := s.answered ++ [x.1], sendErr := true }
  | drainEnd (e : ℤ) (hq ch : List (ℕ × Msg)) : s.pc = .drain e →
      recvRequest s.hq s.toMod = (none, hq, ch) →
      TStep s { s with hq := hq, toMod := ch, pc := .exiting e }
  | exit (e : ℤ) : s.pc = .exiting e →
      TStep s ({ s with pc := .closed }.emit (statusRequest FLUX_MODSTATE_EXITED (some e) true 0))
  | exitFail (e : ℤ) : s.pc = .exiting e → TStep s { s with pc := .closed, sendErr := true }
  | cancel : s.pc ≠ .closed → s.pc ≠ .cancelled → TStep s { s with pc := .cancelled }

lemma tstep_cases {s s' : Sys} {a : TAct} (h : tstep s a = some s') : TStep s s' := by
  unfold tstep at h
  split at h
  next _ _ ok hpc => cases h; exact .connect ok hpc
  next _ _ k ok hpc => cases h; exact .setup k ok hpc
  next _ _ hpc =>
    split at h
    next x rest ht => cases h; exact .recvNext x rest hpc ht
    next => cases h
  next _ _ x hpc =>
    split_ifs at h with hx
    cases h; exact .recvQueued x hpc hx
  next _ _ hpc =>
    split at h
    next x rest ht => cases h; exact .defer x rest hpc ht
    next => cases h
  next _ _ m hpc =>
    split_ifs at h with hm <;> cases h
    exacts [.emitRequest m hpc hm, .emit m hpc hm]
  next _ _ rc e pack hpc =>
    split_ifs at h <;> cases h
    exacts [.ret rc e hpc, .retFail rc e hpc]
  next _ _ e t hpc =>
    split at h
    next x rest ht =>
      split_ifs at h with hx <;> cases h
      exacts [.ack e t x rest hpc ht hx, .ackOther e t x rest hpc ht hx]
    next => cases h
  next _ _ e t hpc => cases h; exact .ackFail e t hpc
  next _ _ e ok hpc =>
    split at h
    next x hq ch hr =>
      split at h
      next hn => cases h; exact .drainQuiet e x hq ch hpc hr hn
      next r hn =>
        cases ok <;> cases h
        exacts [.drainReplyFail e x hq ch r hpc hr hn, .drainReply e x hq ch r hpc hr hn]
    next hq ch hr => cases h; exact .drainEnd e hq ch hpc hr
  next _ _ e pack hpc =>
    split_ifs at h <;> cases h
    exacts [.exit e hpc, .exitFail e hpc]
  next => cases h
  next => cases h
  next _ _ h1 h2 => cases h; exact .cancel h1 h2
  next => cases h

/-! ### What a step of the broker does -/

/-- The steps of the broker, one constructor for each branch of `bstep`, with the guard the
branch takes. -/
inductive BStep (s : Sys) : Sys → Prop
  | recvRequest (m : Msg) (rest : List Msg) (m' : Msg) : s.toBrk = m :: rest →
      moduleRecvmsg s.p (.ok m) = .ok m' → m'.type = .request →
      BStep s { s with toBrk := rest, pending := s.pending ++ [m'] }
  | recvOther (m : Msg) (rest : List Msg) (m' : Msg) : s.toBrk = m :: rest →
      moduleRecvmsg s.p (.ok m) = .ok m' → m'.type ≠ .request → BStep s { s with toBrk := rest }
  | recvFail (m : Msg) (rest : List Msg) (e : ℤ) : s.toBrk = m :: rest →
      moduleRecvmsg s.p (.ok m) = .error e → BStep s { s with toBrk := rest }
  | serveStatus (r : Msg) (io : Io) (q : Module) (o : Option Msg) : r ∈ s.pending →
      r.topic = some moduleStatusTopic → statusHandler s.p r = some (q, o) →
      BStep s ({ s with pending := s.pending.erase r, p := q }.deliver
        (o.elim (.ok none) fun m => moduleSendmsg q (some m) io))
  | serveOther (r : Msg) (e : ℤ) (io : Io) : r ∈ s.pending → r.topic ≠ some moduleStatusTopic →
      BStep s ({ s with pending := s.pending.erase r }.deliver
        ((respond r e).elim (.ok none) fun m => moduleSendmsg s.p (some m) io))
  | send (m : Msg) (io : Io) : m.type ≠ .response →
      BStep s (s.deliver (moduleSendmsg s.p (some m) io))
  | cast (m : Msg) (io : Io) : m.type = .event → BStep s (s.deliver (moduleEventCast s.p m io))
  | subscribe (t : String) (alloc : Bool) (q : Module) : moduleSubscribe s.p t alloc = .ok q →
      BStep s { s with p := q }
  | subscribeFail (t : String) (alloc : Bool) (e : ℤ) : moduleSubscribe s.p t alloc = .error e →
      BStep s s
  | unsubscribe (t : String) : BStep s { s with p := moduleUnsubscribe s.p t }

lemma bstep_cases {s s' : Sys} {a : BAct} (h : bstep s a = some s') : BStep s s' := by
  cases a with
  | recv =>
    simp only [bstep] at h
    split at h
    · cases h
    · next m rest hb =>
      split at h
      · next m' hr =>
        split_ifs at h with ht <;> cases h
        exacts [.recvRequest m rest m' hb hr ht, .recvOther m rest m' hb hr ht]
      · next e hr => cases h; exact .recvFail m rest e hb hr
  | serve r e io =>
    simp only [bstep] at h
    split_ifs at h with hr ht
    · obtain ⟨⟨q, o⟩, hq, rfl⟩ := Option.map_eq_some'.mp h
      exact .serveStatus r io q o hr ht hq
    · cases h; exact .serveOther r e io hr ht
  | send m io => simp only [bstep] at h; split_ifs at h with ht; cases h; exact .send m io ht
  | cast m io => simp only [bstep] at h; split_ifs at h with ht; cases h; exact .cast m io ht
  | subscribe t alloc =>
    simp only [bstep] at h
    split at h <;> cases h
    · next q hq => exact .subscribe t alloc q hq
    · next e hq => exact .subscribeFail t alloc e hq
  | unsubscribe t => cases h; exact .unsubscribe t

/-! ### Frames -/

/-- The part of the state only the module thread writes. -/
structure ThreadPart where
  pc : Pc
  hq : List (ℕ × Msg)
  tag : ℕ
  finalized : Bool
  sent : List Msg
  got : List ℕ
  answered : List ℕ
  mainRet : Option (ℤ × ℤ)
  sendErr : Bool

def Sys.thr (s : Sys) : ThreadPart :=
  ⟨s.pc, s.hq, s.tag, s.finalized, s.sent, s.got, s.answered, s.mainRet, s.sendErr⟩

/-- The part of the state only the broker writes. -/
structure BrokerPart where
  p : Module
  pending : List Msg
  serial : ℕ
  reqs : List ℕ

def Sys.brk (s : Sys) : BrokerPart := ⟨s.p, s.pending, s.serial, s.reqs⟩

@[simp] lemma deliver_error (s : Sys) (e : ℤ) : s.deliver (.error e) = s := rfl
@[simp] lemma deliver_none (s : Sys) : s.deliver (.ok none) = s := rfl
@[simp] lemma deliver_thr (s : Sys) (r : Except ℤ (Option Msg)) : (s.deliver r).thr = s.thr := by
  unfold Sys.deliver; split <;> rfl
@[simp] lemma deliver_p (s : Sys) (r : Except ℤ (Option Msg)) : (s.deliver r).p = s.p := by
  unfold Sys.deliver; split <;> rfl
@[simp] lemma deliver_pending (s : Sys) (r : Except ℤ (Option Msg)) :
    (s.deliver r).pending = s.pending := by
  unfold Sys.deliver; split <;> rfl
@[simp] lemma deliver_toBrk (s : Sys) (r : Except ℤ (Option Msg)) :
    (s.deliver r).toBrk = s.toBrk := by
  unfold Sys.deliver; split <;> rfl

@[simp] lemma emit_brk (s : Sys) (m : Msg) : (s.emit m).brk = s.brk := rfl
@[simp] lemma emit_toMod (s : Sys) (m : Msg) : (s.emit m).toMod = s.toMod := rfl

lemma bstep_thr {s s' : Sys} {a : BAct} (h : bstep s a = some s') : s'.thr = s.thr := by
  cases bstep_cases h
  case serveStatus | serveOther | send | cast => exact deliver_thr _ _
  all_goals rfl

lemma tstep_brk {s s' : Sys} {a : TAct} (h : tstep s a = some s') : s'.brk = s.brk := by
  cases tstep_cases h <;> rfl

/-- The states reachable from a freshly created record. -/
inductive Reachable : Sys → Prop
  | init (p : Module) : Reachable (init p)
  | step {s s' : Sys} (a : Act) : Reachable s → step s a = some s' → Reachable s'

def Step (s s' : Sys) : Prop := ∃ a, step s a = some s'

def run (s : Sys) : List Act → Option Sys
  | [] => some s
  | a :: as => (step s a).bind (run · as)

lemma Reachable.run {s s' : Sys} (h : Reachable s) : ∀ {as : List Act}, run s as = some s' →
    Reachable s'
  | [], hr => by cases hr; exact h
  | a :: as, hr => by
    simp only [FluxBroker.Thread.run, Option.bind_eq_some] at hr
    obtain ⟨s1, h1, hr⟩ := hr
    exact (h.step a h1).run hr

/-! ### A run -/

def ping (tag : ℕ) : Msg where
  type := .request
  topic := some "echo.ping"
  route := some []
  cred := ⟨1000, FLUX_ROLE_OWNER⟩
  matchtag := tag
  errnum := 0
  noresponse := false
  payload := .none

def echoFinReport : Msg :=
  { statusRequest FLUX_MODSTATE_FINALIZING none false 1 with
    route := some ["m"]
    cred := ⟨1000, FLUX_ROLE_OWNER ||| FLUX_ROLE_LOCAL⟩ }

/-- `mod_main` receives one request and returns; two more requests race its exit, and the
thread requeues them while it waits for the acknowledgement, then answers them. -/
def echoRun : List Act :=
  [.thread (.connect true)] ++ List.replicate 6 (.thread (.setup true)) ++
  [.broker (.send (ping 1) Io.ok), .thread (.recv none), .broker (.send (ping 2) Io.ok),
   .thread (.ret 0 0 true), .broker .recv, .broker (.send (ping 3) Io.ok),
   .broker (.serve echoFinReport 0 Io.ok), .thread .ack, .thread .ack, .thread .ack,
   .thread (.drain true), .thread (.drain true), .thread (.drain true), .thread (.exit true)]

def echoEnd : Sys := (run (init echo) echoRun).getD (init echo)

lemma reachable_echoEnd : Reachable echoEnd := @Reachable.run _ echoEnd (.init echo) echoRun rfl

end FluxBroker.Thread
