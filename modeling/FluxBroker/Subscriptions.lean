import FluxBroker.HostApi

/-!
The subscriptions of a record and the events they let through.

`module_subscribe` pushes a copy of the topic on the list and `module_unsubscribe` takes the
first equal one off, so over any run of the host API the list holds each topic as many times
as it was subscribed, less the unsubscriptions, an unsubscription of a topic not held
changing nothing. `module_event_cast` sends an event iff some subscription is a prefix of
its topic, and then through `module_sendmsg`: a muted record refuses it, a failed write of
the channel loses it, and an event without a topic is refused before any subscription is
read.
-/

namespace FluxBroker.Subscriptions

open FluxBroker.Message FluxBroker.Record FluxBroker.HostApi

/-- The count of the topic `t` after a call, from the count `c` before it: a
`module_subscribe (t)` whose `strdup` and `zlist_push` succeed adds one, a
`module_unsubscribe (t)` takes one off (none when there is none), and no other call moves
it. -/
def subCount (t : String) (c : ℕ) : HostOp → ℕ
  | .subscribe t' true => if t' = t then c + 1 else c
  | .unsubscribe t' => if t' = t then c - 1 else c
  | _ => c

/-- Some topic counted at least once is a prefix of `top`. -/
def Live (c : String → ℕ) (top : String) : Prop := ∃ t, 0 < c t ∧ strstarts top t = true

lemma hostStep_count {h h' : Host} {op : HostOp} (hs : hostStep h op = some h') (t : String) :
    h'.p.subs.count t = subCount t (h.p.subs.count t) op := by
  cases op <;> simp only [hostStep, Option.some.injEq] at hs
  case subscribe t' alloc =>
    subst hs
    cases alloc
    · rfl
    · by_cases ht : t' = t <;> simp [Host.update, moduleSubscribe, subCount, List.count_cons, ht]
  case unsubscribe t' =>
    subst hs
    by_cases ht : t' = t <;> simp [moduleUnsubscribe, subCount, List.count_erase, ht]
  case setStatus n =>
    obtain ⟨⟨q, cb⟩, hq, rfl⟩ := Option.map_eq_some'.mp hs
    obtain ⟨rfl, -⟩ := moduleSetStatus_some _ hq
    rfl
  case pushRmmod m copy push =>
    subst hs
    unfold Host.update modulePushRmmod
    split_ifs <;> rfl
  case pushInsmod m copy =>
    subst hs
    unfold Host.update modulePushInsmod
    split_ifs <;> rfl
  all_goals subst hs; simp [subCount, moduleSetErrnum, modulePopRmmod, modulePopInsmod, moduleMute]

lemma hostRun_count : ∀ {ops : List HostOp} {h h' : Host}, hostRun h ops = some h' →
    ∀ t, h'.p.subs.count t = ops.foldl (subCount t) (h.p.subs.count t)
  | [], _, _, hr, _ => by cases hr; rfl
  | _ :: _, _, _, hr, t => by
    obtain ⟨h1, hs, hr⟩ := Option.bind_eq_some.mp hr
    rw [hostRun_count hr t, hostStep_count hs t, List.foldl_cons]

lemma matchSub_iff (p : Module) (top : String) :
    matchSub p top = true ↔ ∃ t, 0 < p.subs.count t ∧ strstarts top t = true := by
  simp [matchSub, List.any_eq_true, List.count_pos_iff]

lemma moduleEventCast_event (p : Module) {m : Msg} {top : String} (ht : m.type = .event)
    (htop : m.topic = some top) {io : Io} (hio : io.sendErr = none) :
    moduleEventCast p m io =
      if matchSub p top then (if p.muted then .error ENOSYS else .ok (some m)) else .ok none := by
  unfold moduleEventCast moduleSendmsg
  cases hm : p.muted <;> simp [htop, ht, hm, sockSend, hio, Functor.map, Except.map]

/-- **Subscriptions count, and events go where they are counted.** Along every run of the
host API, the subscription list holds each topic `t` exactly `c t` times, where `c t` starts
at the count before the run, goes up by one at each successful `module_subscribe (t)` and
down by one, stopping at 0, at each `module_unsubscribe (t)`. After the run, for every
event with a topic and a channel that takes what is written, `module_event_cast` writes the
event as it is and returns 0 iff the record is not muted and some topic with `c t > 0` is a
prefix of the event's topic, fails with `ENOSYS` writing nothing if such a topic exists and
the record is muted, and otherwise returns 0 writing nothing. An event without a topic is
refused with `EPROTO`, and a failed write of the channel makes the call fail with the
socket's error, nothing written. -/
theorem subscriptions_count_event_cast {h h' : Host} {ops : List HostOp}
    (hr : hostRun h ops = some h') :
    (∀ t, h'.p.subs.count t = ops.foldl (subCount t) (h.p.subs.count t)) ∧
    ∀ (m : Msg) (io : Io), m.type = .event →
      (∀ top, m.topic = some top → io.sendErr = none →
        let c := fun t => ops.foldl (subCount t) (h.p.subs.count t)
        (h'.p.muted = false → Live c top → moduleEventCast h'.p m io = .ok (some m)) ∧
        (h'.p.muted = true → Live c top → moduleEventCast h'.p m io = .error ENOSYS) ∧
        (¬ Live c top → moduleEventCast h'.p m io = .ok none)) ∧
      (m.topic = none → moduleEventCast h'.p m io = .error EPROTO) ∧
      (∀ top e, m.topic = some top → io.sendErr = some e → h'.p.muted = false →
        matchSub h'.p top = true → moduleEventCast h'.p m io = .error e) := by
  have hc := hostRun_count hr
  refine ⟨hc, fun m io ht => ⟨fun top htop hio => ?_, fun htop => ?_, fun top e htop hio hm hs => ?_⟩⟩
  · have hlive : matchSub h'.p top = true ↔ Live (fun t => ops.foldl (subCount t) (h.p.subs.count t)) top :=
      (matchSub_iff h'.p top).trans (by simp only [Live, hc])
    rw [moduleEventCast_event h'.p ht htop hio]
    refine ⟨fun hm hl => ?_, fun hm hl => ?_, fun hl => ?_⟩
    · simp [hlive.mpr hl, hm]
    · simp [hlive.mpr hl, hm]
    · simp [Bool.eq_false_iff.mpr (mt hlive.mp hl)]
  · simp [moduleEventCast, htop]
  · simp [moduleEventCast, moduleSendmsg, htop, hs, hm, ht, sockSend, hio, Functor.map, Except.map]

/-- Two subscriptions to `heartbeat`, one taken off, and one to a topic never held. -/
def heartbeatOps : List HostOp :=
  [.subscribe "heartbeat" true, .subscribe "heartbeat" true, .unsubscribe "heartbeat",
   .unsubscribe "nothing"]

def heartbeat : Msg where
  type := .event
  topic := some "heartbeat.pulse"
  route := some []
  cred := ⟨0, 0⟩
  matchtag := 0
  errnum := 0
  noresponse := true
  payload := .none

theorem heartbeat_delivered :
    ∃ h', hostRun ⟨echo, []⟩ heartbeatOps = some h' ∧ h'.p.subs.count "heartbeat" = 1 ∧
      moduleEventCast h'.p heartbeat Io.ok = .ok (some heartbeat) := by
  refine ⟨_, rfl, ?_⟩
  obtain ⟨hc, hev⟩ := subscriptions_count_event_cast (rfl : hostRun ⟨echo, []⟩ heartbeatOps = _)
  exact ⟨hc "heartbeat", ((hev heartbeat Io.ok rfl).1 "heartbeat.pulse" rfl rfl).1 rfl
    ⟨"heartbeat", by decide, by decide⟩⟩

theorem event_cast_fails_without_topic_or_write :
    moduleEventCast echo { heartbeat with topic := none } Io.ok = .error EPROTO ∧
    moduleEventCast { echo with subs := ["heartbeat"] } heartbeat ⟨true, some EIO⟩ = .error EIO :=
  ⟨rfl, rfl⟩

end FluxBroker.Subscriptions
