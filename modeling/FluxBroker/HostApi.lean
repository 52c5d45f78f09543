import FluxBroker.Record

/-!
The host API as the broker thread calls it on one record, with the broker-to-module
direction of the channel.

Every call of `module.c` that the broker makes on a record outside the lifecycle is one
step: sending and casting (which may write to the channel), subscriptions, status and
errnum, the pending admin requests, and the mute. A muted record stays muted, and from then
on the channel takes nothing but the response to the module's status report: every other
send fails with `ENOSYS` (or `EPROTO`, for a message without a topic) and leaves record and
channel as they were, while an event no subscription matches is dropped with a return of 0.
-/

namespace FluxBroker.HostApi

open FluxBroker.Message FluxBroker.Record

/-- A record and what the broker has written to its module. -/
structure Host where
  p : Module
  ch : List Msg

/-- The broker's calls on a record. -/
inductive HostOp
  | sendmsg (msg : Option Msg) (io : Io)
  | eventCast (m : Msg) (io : Io)
  | subscribe (topic : String) (alloc : Bool)
  | unsubscribe (topic : String)
  | setStatus (status : ℤ)
  | setErrnum (errnum : ℤ)
  | pushRmmod (m : Msg) (copy push : Bool)
  | popRmmod
  | pushInsmod (m : Msg) (copy : Bool)
  | popInsmod
  | mute
  deriving DecidableEq, Repr

/-- The channel after a send: what `module_sendmsg` wrote, if anything. -/
def Host.deliver (h : Host) : Except ℤ (Option Msg) → Host
  | .ok (some m) => { h with ch := h.ch ++ [m] }
  | _ => h

/-- The record after a call that returns the new record or an error. -/
def Host.update (h : Host) : Except ℤ Module → Host
  | .ok q => { h with p := q }
  | .error _ => h

/-- One call; `none` when an assertion of `module_set_status` fails. -/
def hostStep (h : Host) : HostOp → Option Host
  | .sendmsg msg io => some (h.deliver (moduleSendmsg h.p msg io))
  | .eventCast m io => some (h.deliver (moduleEventCast h.p m io))
  | .subscribe t alloc => some (h.update (moduleSubscribe h.p t alloc))
  | .unsubscribe t => some { h with p := moduleUnsubscribe h.p t }
  | .setStatus n => (moduleSetStatus h.p n).map fun r => { h with p := r.1 }
  | .setErrnum e => some { h with p := moduleSetErrnum h.p e }
  | .pushRmmod m copy push => some (h.update (modulePushRmmod h.p m copy push))
  | .popRmmod => some { h with p := (modulePopRmmod h.p).1 }
  | .pushInsmod m copy => some (h.update (modulePushInsmod h.p m copy))
  | .popInsmod => some { h with p := (modulePopInsmod h.p).1 }
  | .mute => some { h with p := moduleMute h.p }

def hostRun (h : Host) : List HostOp → Option Host
  | [] => some h
  | op :: ops => (hostStep h op).bind (hostRun · ops)

@[simp] lemma deliver_p (h : Host) (r : Except ℤ (Option Msg)) : (h.deliver r).p = h.p := by
  unfold Host.deliver; split <;> rfl

@[simp] lemma update_ch (h : Host) (r : Except ℤ Module) : (h.update r).ch = h.ch := by
  unfold Host.update; split <;> rfl

/-! ### Steps on a muted record -/

lemma moduleSendmsg_muted {p : Module} (hm : p.muted = true) {m : Msg} (io : Io)
    (hr : m.type ≠ .response ∨ m.topic ≠ some moduleStatusTopic) :
    moduleSendmsg p (some m) io = .error (if m.topic = none then EPROTO else ENOSYS) := by
  unfold moduleSendmsg
  rcases ht : m.topic with _ | t
  · simp [ht]
  · have : (m.type != .response || t != moduleStatusTopic) = true := by
      rcases hr with hr | hr <;> simp_all
    simp [ht, hm, this]

lemma moduleSendmsg_muted_ok {p : Module} (hm : p.muted = true) {msg : Option Msg} {io : Io}
    {m : Msg} (h : moduleSendmsg p msg io = .ok (some m)) :
    m.type = .response ∧ m.topic = some moduleStatusTopic := by
  cases msg with
  | none => cases h
  | some m0 =>
    obtain ⟨he, hmu⟩ := moduleSendmsg_ok p h
    cases he
    exact hmu hm

lemma hostStep_muted {h h' : Host} {op : HostOp} (hs : hostStep h op = some h')
    (hm : h.p.muted = true) : h'.p.muted = true ∧ ∃ new, h'.ch = h.ch ++ new ∧
      ∀ m ∈ new, m.type = .response ∧ m.topic = some moduleStatusTopic := by
  have same : h'.p.muted = true → h'.ch = h.ch → h'.p.muted = true ∧ ∃ new, h'.ch = h.ch ++ new ∧
      ∀ m ∈ new, m.type = .response ∧ m.topic = some moduleStatusTopic :=
    fun h1 h2 => ⟨h1, [], by simp [h2], by simp⟩
  have send : ∀ r : Except ℤ (Option Msg), (∀ m, r = .ok (some m) →
      m.type = .response ∧ m.topic = some moduleStatusTopic) → h' = h.deliver r →
      h'.p.muted = true ∧ ∃ new, h'.ch = h.ch ++ new ∧
        ∀ m ∈ new, m.type = .response ∧ m.topic = some moduleStatusTopic := by
    rintro r hr rfl
    refine ⟨by simpa using hm, ?_⟩
    unfold Host.deliver
    split
    · exact ⟨_, rfl, by simpa using hr _ rfl⟩
    · exact ⟨[], by simp, by simp⟩
  cases op <;> simp only [hostStep, Option.some.injEq] at hs
  case sendmsg msg io => exact send _ (fun m hr => moduleSendmsg_muted_ok hm hr) hs.symm
  case eventCast m io =>
    refine send _ (fun m' hr => ?_) hs.symm
    rcases moduleEventCast_ok _ hr with hr | hr
    · cases hr
    · exact moduleSendmsg_muted_ok hm hr
  case setStatus n =>
    obtain ⟨⟨q, cb⟩, hq, rfl⟩ := Option.map_eq_some'.mp hs
    obtain ⟨rfl, -⟩ := moduleSetStatus_some _ hq
    exact same hm rfl
  case subscribe | pushRmmod | pushInsmod =>
    subst hs
    refine same ?_ (update_ch _ _)
    unfold Host.update
    split
    · rename_i heq
      simp only [moduleSubscribe, modulePushRmmod, modulePushInsmod] at heq
      split_ifs at heq
      cases heq
      exact hm
    · exact hm
  all_goals subst hs; exact same (by simp [hm, moduleUnsubscribe, moduleSetErrnum, modulePopRmmod,
    modulePopInsmod, moduleMute]) rfl

lemma hostRun_muted : ∀ {ops : List HostOp} {h h' : Host}, hostRun h ops = some h' →
    h.p.muted = true → h'.p.muted = true ∧ ∃ new, h'.ch = h.ch ++ new ∧
      ∀ m ∈ new, m.type = .response ∧ m.topic = some moduleStatusTopic
  | [], _, _, hr, hm => by cases hr; exact ⟨hm, [], by simp, by simp⟩
  | _ :: _, _, _, hr, hm => by
    obtain ⟨h1, hs, hr⟩ := Option.bind_eq_some.mp hr
    obtain ⟨hm1, n1, hc1, hn1⟩ := hostStep_muted hs hm
    obtain ⟨hm2, n2, hc2, hn2⟩ := hostRun_muted hr hm1
    refine ⟨hm2, n1 ++ n2, by rw [hc2, hc1, List.append_assoc], fun m hm => ?_⟩
    rcases List.mem_append.mp hm with hm | hm
    · exact hn1 m hm
    · exact hn2 m hm

lemma moduleEventCast_muted {p : Module} (hm : p.muted = true) {m : Msg} (io : Io)
    (hr : m.type ≠ .response ∨ m.topic ≠ some moduleStatusTopic) :
    moduleEventCast p m io = match m.topic with
      | none => .error EPROTO
      | some t => if matchSub p t then .error ENOSYS else .ok none := by
  unfold moduleEventCast
  rcases ht : m.topic with _ | t
  · rfl
  · simp only
    split_ifs
    · simp [moduleSendmsg_muted hm io hr, ht]
    · rfl

/-- **A muted module takes only the response to its status report.** Along every run of
the host API from a muted record, the record stays muted and every message written to the
channel is a response with topic `broker.module-status`. From then on a call of
`module_sendmsg` or `module_event_cast` with any other message changes neither record nor
channel; `module_sendmsg` fails with `ENOSYS` (`EPROTO` without a topic), and
`module_event_cast` returns 0, having sent nothing, exactly when no subscription matches
the topic. -/
theorem muted_module_takes_only_status_responses {h h' : Host} {ops : List HostOp}
    (hm : h.p.muted = true) (hr : hostRun h ops = some h') :
    h'.p.muted = true ∧
    (∃ new, h'.ch = h.ch ++ new ∧ ∀ m ∈ new, m.type = .response ∧ m.topic = some moduleStatusTopic) ∧
    ∀ (m : Msg) (io : Io), m.type ≠ .response ∨ m.topic ≠ some moduleStatusTopic →
      hostStep h' (.sendmsg (some m) io) = some h' ∧ hostStep h' (.eventCast m io) = some h' ∧
      moduleSendmsg h'.p (some m) io = .error (if m.topic = none then EPROTO else ENOSYS) ∧
      (moduleEventCast h'.p m io = .ok none ↔ ∃ t, m.topic = some t ∧ matchSub h'.p t = false) := by
  obtain ⟨hm', hch⟩ := hostRun_muted hr hm
  refine ⟨hm', hch, fun m io hne => ?_⟩
  have hs := moduleSendmsg_muted hm' io hne
  have he := moduleEventCast_muted hm' io hne
  refine ⟨by simp [hostStep, hs, Host.deliver], ?_, hs, ?_⟩ <;> rcases ht : m.topic with _ | t <;>
    simp only [ht] at he
  · simp [hostStep, he, Host.deliver]
  · split_ifs at he <;> simp [hostStep, he, Host.deliver]
  · simp [he]
  · split_ifs at he with hs <;> simp [he, hs]

/-- On a muted record, the broker moves the status to FINALIZING, acknowledges the report
and refuses a request. -/
def finalizingOps : List HostOp :=
  [.setStatus FLUX_MODSTATE_FINALIZING,
   .sendmsg (some { statusRequest FLUX_MODSTATE_FINALIZING none false 1 with
     type := .response
     route := some ["m"] }) Io.ok,
   .sendmsg (some { statusRequest FLUX_MODSTATE_EXITED none false 2 with topic := some "echo.ping" })
     Io.ok]

def finalizingEnd : Host := (hostRun ⟨moduleMute echo, []⟩ finalizingOps).getD ⟨echo, []⟩

lemma hostRun_finalizingOps : hostRun ⟨moduleMute echo, []⟩ finalizingOps = some finalizingEnd := rfl

theorem finalizingEnd_status_only : finalizingEnd.p.muted = true ∧
    ∀ m ∈ finalizingEnd.ch, m.type = .response ∧ m.topic = some moduleStatusTopic := by
  obtain ⟨hm, ⟨new, hc, hn⟩, -⟩ :=
    muted_module_takes_only_status_responses (by rfl) hostRun_finalizingOps
  exact ⟨hm, fun m h => hn m (by rw [hc] at h; simpa using h)⟩

theorem muted_event_cast_returns_zero :
    moduleEventCast (moduleMute echo)
      { type := .event, topic := some "heartbeat.pulse", route := some [], cred := ⟨0, 0⟩
        matchtag := 0, errnum := 0, noresponse := true, payload := .none } Io.ok = .ok none ∧
    moduleSendmsg (moduleMute echo) none Io.ok = .ok none :=
  ⟨rfl, rfl⟩

end FluxBroker.HostApi
