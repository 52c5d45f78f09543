import FluxBroker.Message

/-!
The broker's record of one loaded module (`struct broker_module`) and the host API of
`module.c` that reads and writes it: sending to and receiving from the module with the
route rewriting that makes the point-to-point channel look like a DEALER/ROUTER pair, the
mute flag, the status and its callback, subscriptions and the pending admin requests.

A call that writes to the channel returns the message it wrote; the channel itself is part
of the system model built on top. The allocations and socket writes that can fail are
inputs (`Io`), so every error path of the code is a path of the model.
-/

namespace FluxBroker.Record

open FluxBroker.Message

/-- The fields of `struct broker_module` that the modelled functions read or write: `uuid_str`
(the module's route identity), `parent_uuid_str` (the broker's), `pthread_t t` (zero until
`pthread_create` writes it), whether `broker_w` is started, and whether a status callback is
registered. `module_create` makes the channel's credential owner and local and nothing
changes it afterwards, so the `assert` of `module_recvmsg` holds of every record. -/
structure Module where
  uuid : String
  parentUuid : String
  name : String
  path : String
  cred : Cred
  cred_owner : cred.rolemask &&& FLUX_ROLE_OWNER ≠ 0
  t : ℕ
  watching : Bool
  argz : List String
  status : ℤ
  errnum : ℤ
  muted : Bool
  statusCb : Bool
  rmmod : List Msg
  insmod : Option Msg
  subs : List String

/-- Outcomes of the calls that can fail for want of memory or on a broken socket: whether
`flux_msg_copy` allocates, and the errno of a failed `zmqutil_msg_send`. -/
structure Io where
  copy : Bool
  sendErr : Option ℤ
  deriving DecidableEq, Repr

def Io.ok : Io := ⟨true, none⟩

variable (p : Module)

/-- `zmqutil_msg_send`: the message written, or the socket's errno. -/
def sockSend (io : Io) (m : Msg) : Except ℤ Msg :=
  match io.sendErr with
  | none => .ok m
  | some e => .error e

/-- `flux_msg_copy (msg, true)`. -/
def msgCopy (io : Io) (m : Msg) : Except ℤ Msg :=
  if io.copy then .ok m else .error ENOMEM

@[simp] lemma sockSend_eq_ok {io : Io} {m m' : Msg} :
    sockSend io m = .ok m' ↔ io.sendErr = none ∧ m = m' := by
  unfold sockSend; split <;> simp_all

@[simp] lemma msgCopy_eq_ok {io : Io} {m m' : Msg} :
    msgCopy io m = .ok m' ↔ io.copy = true ∧ m = m' := by
  unfold msgCopy; split <;> simp_all

/-! ### `module_sendmsg`, `module_recvmsg` -/

/-- `module_sendmsg`: what the broker writes to the module's channel. `.ok none` is the
early return on a NULL message; a muted module takes only the response to its status
report; a request gets the broker's identity pushed (DEALER), a response has its last hop
popped (ROUTER), anything else is written as it is. -/
def moduleSendmsg (msg : Option Msg) (io : Io) : Except ℤ (Option Msg) :=
  match msg with
  | none => .ok none
  | some m =>
    match m.topic with
    | none => .error EPROTO
    | some topic =>
      if p.muted && (m.type != .response || topic != moduleStatusTopic) then .error ENOSYS
      else
        match m.type with
        | .request => some <$> (msgCopy io m >>= routePush p.parentUuid >>= sockSend io)
        | .response => some <$> (msgCopy io m >>= routeDeleteLast >>= sockSend io)
        | _ => some <$> sockSend io m

def sendRoute (m : Msg) : Option (List String) :=
  match m.type with
  | .request => m.route.map (p.parentUuid :: ·)
  | .response => m.route.map List.tail
  | _ => m.route

lemma moduleSendmsg_ok {m : Msg} {io : Io} {o : Option Msg}
    (h : moduleSendmsg p (some m) io = .ok o) :
    o = some { m with route := sendRoute p m } ∧
      (p.muted → m.type = .response ∧ m.topic = some moduleStatusTopic) := by
  unfold moduleSendmsg at h
  rcases ht : m.topic with _ | topic <;> simp only [ht] at h
  · cases h
  split_ifs at h with hmute
  refine ⟨?_, fun hp => by simp_all⟩
  cases hty : m.type <;>
    simp only [hty, map_eq_ok, bind_eq_ok, msgCopy_eq_ok, sockSend_eq_ok, routePush_eq_ok,
      routeDeleteLast_eq_ok] at h
  iterate 2
    obtain ⟨_, ⟨_, ⟨_, ⟨-, rfl⟩, r, hr, rfl⟩, -, rfl⟩, rfl⟩ := h
    cases m; simp_all [sendRoute]
  all_goals obtain ⟨_, ⟨-, rfl⟩, rfl⟩ := h; cases m; simp_all [sendRoute]

def recvRoute (m : Msg) : Except ℤ Msg :=
  match m.type with
  | .response => routeDeleteLast m
  | .request | .event => routePush p.uuid m
  | .control => .ok m

def recvCred (c : Cred) : Cred where
  userid := if c.userid = FLUX_USERID_UNKNOWN then p.cred.userid else c.userid
  rolemask := if c.rolemask = FLUX_ROLE_NONE then p.cred.rolemask else c.rolemask

/-- `module_recvmsg` on what `zmqutil_msg_recv` returned (a message or its errno). -/
def moduleRecvmsg (raw : Except ℤ Msg) : Except ℤ Msg := do
  let m ← raw
  let m ← recvRoute p m
  pure { m with cred := recvCred p m.cred }

lemma moduleRecvmsg_eq_ok {m m' : Msg} :
    moduleRecvmsg p (.ok m) = .ok m' ↔
      ∃ a, recvRoute p m = .ok a ∧ { a with cred := recvCred p a.cred } = m' := by
  show recvRoute p m >>= (fun a => .ok { a with cred := recvCred p a.cred }) = .ok m' ↔ _
  simp only [bind_eq_ok, Except.ok.injEq]

lemma moduleRecvmsg_ok {m m' : Msg} (h : moduleRecvmsg p (.ok m) = .ok m') :
    ∃ r c, m' = { m with route := r, cred := c } := by
  obtain ⟨a, ha, rfl⟩ := (moduleRecvmsg_eq_ok p).mp h
  unfold recvRoute at ha
  split at ha <;> simp only [routePush_eq_ok, routeDeleteLast_eq_ok, Except.ok.injEq] at ha
  all_goals obtain ⟨r, -, rfl⟩ := ha; exact ⟨_, _, rfl⟩

/-! ### Status, mute, errnum -/

def moduleMute : Module := { p with muted := true }

@[simp] lemma moduleMute_muted : (moduleMute p).muted = true := rfl

/-- `module_set_status`: `none` when one of its two assertions fails (the broker aborts);
otherwise the new record and the `(previous, current)` pair passed to the status callback,
if one is registered. -/
def moduleSetStatus (newStatus : ℤ) : Option (Module × Option (ℤ × ℤ)) :=
  if newStatus ≠ FLUX_MODSTATE_INIT ∧ p.status ≠ FLUX_MODSTATE_EXITED then
    some ({ p with status := newStatus }, if p.statusCb then some (p.status, newStatus) else none)
  else none

lemma moduleSetStatus_some {n : ℤ} {q : Module} {cb : Option (ℤ × ℤ)}
    (h : moduleSetStatus p n = some (q, cb)) :
    q = { p with status := n } ∧ n ≠ FLUX_MODSTATE_INIT ∧ p.status ≠ FLUX_MODSTATE_EXITED ∧
      cb = if p.statusCb then some (p.status, n) else none := by
  unfold moduleSetStatus at h
  by_cases hc : n ≠ FLUX_MODSTATE_INIT ∧ p.status ≠ FLUX_MODSTATE_EXITED
  · rw [if_pos hc, Option.some.injEq, Prod.mk.injEq] at h
    obtain ⟨rfl, rfl⟩ := h
    exact ⟨rfl, hc.1, hc.2, rfl⟩
  · rw [if_neg hc] at h; cases h

def moduleSetErrnum (errnum : ℤ) : Module := { p with errnum := errnum }

@[simp] lemma moduleSetErrnum_muted (e : ℤ) : (moduleSetErrnum p e).muted = p.muted := rfl

/-! ### Subscriptions and events -/

def strstarts (topic s : String) : Bool := s.toList.isPrefixOf topic.toList

/-- `match_sub`: some subscription is a prefix of the topic. -/
def matchSub (topic : String) : Bool := p.subs.any (strstarts topic)

/-- `module_subscribe`; `alloc` is whether `strdup` and `zlist_push` succeed. `zlist_push`
puts the copy at the head of the list. -/
def moduleSubscribe (topic : String) (alloc : Bool) : Except ℤ Module :=
  if alloc then .ok { p with subs := topic :: p.subs } else .error ENOMEM

/-- `module_unsubscribe`: the first equal subscription goes. -/
def moduleUnsubscribe (topic : String) : Module := { p with subs := p.subs.erase topic }

/-- `module_event_cast`: the event is sent iff a subscription matches its topic. -/
def moduleEventCast (m : Msg) (io : Io) : Except ℤ (Option Msg) :=
  match m.topic with
  | none => .error EPROTO
  | some topic => if matchSub p topic then moduleSendmsg p (some m) io else .ok none

lemma moduleEventCast_ok {m : Msg} {io : Io} {o : Option Msg}
    (h : moduleEventCast p m io = .ok o) : o = none ∨ moduleSendmsg p (some m) io = .ok o := by
  unfold moduleEventCast at h
  split at h
  · cases h
  · split_ifs at h
    · exact .inr h
    · exact .inl (Except.ok.inj h).symm

/-! ### Pending admin requests -/

/-- `flux_msg_copy (msg, false)`: the copy drops the payload. -/
def copyNoPayload (m : Msg) : Msg := { m with payload := .none }

/-- `module_push_rmmod`; `copy` and `push` say whether the copy and `zlist_push` succeed.
`zlist_push` puts the copy at the head of the list. -/
def modulePushRmmod (m : Msg) (copy push : Bool) : Except ℤ Module :=
  if !copy then .error ENOMEM
  else if !push then .error ENOMEM
  else .ok { p with rmmod := copyNoPayload m :: p.rmmod }

/-- `module_pop_rmmod`: `zlist_pop` takes the head. -/
def modulePopRmmod : Module × Option Msg := ({ p with rmmod := p.rmmod.tail }, p.rmmod.head?)

/-- `module_push_insmod`: there can be only one. -/
def modulePushInsmod (m : Msg) (copy : Bool) : Except ℤ Module :=
  if copy then .ok { p with insmod := some (copyNoPayload m) } else .error ENOMEM

def modulePopInsmod : Module × Option Msg := ({ p with insmod := none }, p.insmod)

/-! ### A record -/

def echo : Module where
  uuid := "m"
  parentUuid := "b"
  name := "echo"
  path := "./echo.so"
  cred := ⟨1000, FLUX_ROLE_OWNER ||| FLUX_ROLE_LOCAL⟩
  cred_owner := by decide
  t := 0
  watching := false
  argz := []
  status := FLUX_MODSTATE_INIT
  errnum := 0
  muted := false
  statusCb := true
  rmmod := []
  insmod := none
  subs := []

end FluxBroker.Record
