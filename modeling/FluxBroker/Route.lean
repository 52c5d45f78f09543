import FluxBroker.Thread

/-!
The route rewriting of `module_sendmsg` and `module_recvmsg`.

The channel to a module is point-to-point, but each side must see its peer as it would
through a DEALER/ROUTER pair. A request the broker sends gets the broker's identity pushed,
as a DEALER socket would, and the response coming back loses it again; a request or event
the module sends gets the module's identity pushed, as a ROUTER socket would record the
sender, and the broker's response to it is written with that hop popped. Both round trips
leave the route stack as it was.
-/

namespace FluxBroker.Route

open FluxBroker.Message FluxBroker.Record

lemma moduleSendmsg_unmuted (p : Module) {m : Msg} {r : List String} (hr : m.route = some r)
    (ht : m.topic ≠ none) (hp : p.muted = false) :
    moduleSendmsg p (some m) Io.ok = .ok (some { m with route := sendRoute p m }) := by
  obtain ⟨t, ht⟩ := Option.ne_none_iff_exists'.mp ht
  unfold moduleSendmsg sendRoute
  cases hty : m.type <;>
    simp [ht, hp, hty, hr, msgCopy, sockSend, routePush, routeDeleteLast, Io.ok, bind, Except.bind,
      Functor.map, Except.map]
  all_goals cases m; simp_all

lemma moduleRecvmsg_route (p : Module) {m : Msg} {r : List String} (hr : m.route = some r) :
    ∃ m', moduleRecvmsg p (.ok m) = .ok m' ∧
      m'.route = some (match m.type with
        | .response => r.tail
        | .request | .event => p.uuid :: r
        | .control => r) := by
  simp only [moduleRecvmsg_eq_ok, recvRoute]
  cases hty : m.type <;> simp [routePush, routeDeleteLast, hr]

lemma sendRoute_request (p : Module) {m : Msg} {r : List String} (ht : m.type = .request)
    (hr : m.route = some r) : sendRoute p m = some (p.parentUuid :: r) := by
  simp [sendRoute, ht, hr]

lemma sendRoute_response (p : Module) {m : Msg} {r : List String} (ht : m.type = .response)
    (hr : m.route = some r) : sendRoute p m = some r.tail := by
  simp [sendRoute, ht, hr]

/-- **Route stacks survive both round trips.** For every route stack `r`: a request the
broker sends with stack `r` is written, whenever it is written, with the broker's identity
pushed and all else unchanged, and is written on an unmuted record when every call
succeeds; a response that comes back with that stack is read with stack `r`. A request or
event the module sends with stack `r` is read with the module's identity pushed; a response
written back with that stack is written, whenever it is written, with stack `r`, and is
written on an unmuted record when every call succeeds. -/
theorem route_round_trip (p : Module) (r : List String) :
    (∀ m : Msg, m.type = .request → m.route = some r →
      (∀ io o, moduleSendmsg p (some m) io = .ok (some o) →
        o = { m with route := some (p.parentUuid :: r) }) ∧
      (m.topic ≠ none → p.muted = false →
        moduleSendmsg p (some m) Io.ok = .ok (some { m with route := some (p.parentUuid :: r) })) ∧
      ∀ resp : Msg, resp.type = .response → resp.route = some (p.parentUuid :: r) →
        ∃ m', moduleRecvmsg p (.ok resp) = .ok m' ∧ m'.route = some r) ∧
    (∀ m : Msg, (m.type = .request ∨ m.type = .event) → m.route = some r →
      (∃ m', moduleRecvmsg p (.ok m) = .ok m' ∧ m'.route = some (p.uuid :: r)) ∧
      ∀ resp : Msg, resp.type = .response → resp.route = some (p.uuid :: r) →
        (∀ io o, moduleSendmsg p (some resp) io = .ok (some o) → o = { resp with route := some r }) ∧
        (resp.topic ≠ none → p.muted = false →
          moduleSendmsg p (some resp) Io.ok = .ok (some { resp with route := some r }))) := by
  refine ⟨fun m ht hr => ⟨fun io o h => ?_, fun htop hp => ?_, fun resp hrt hrr => ?_⟩,
    fun m ht hr => ⟨?_, fun resp hrt hrr => ⟨fun io o h => ?_, fun htop hp => ?_⟩⟩⟩
  · rw [Option.some.inj (moduleSendmsg_ok p h).1, sendRoute_request p ht hr]
  · rw [moduleSendmsg_unmuted p hr htop hp, sendRoute_request p ht hr]
  · obtain ⟨m', h1, h2⟩ := moduleRecvmsg_route p hrr
    exact ⟨m', h1, by rw [h2, hrt]; rfl⟩
  · obtain ⟨m', h1, h2⟩ := moduleRecvmsg_route p hr
    exact ⟨m', h1, by rcases ht with ht | ht <;> rw [h2, ht]⟩
  · rw [Option.some.inj (moduleSendmsg_ok p h).1, sendRoute_response p hrt hrr, List.tail_cons]
  · rw [moduleSendmsg_unmuted p hrr htop hp, sendRoute_response p hrt hrr, List.tail_cons]

theorem ping_round_trip :
    moduleSendmsg echo (some (Thread.ping 1)) Io.ok = .ok (some { Thread.ping 1 with route := some ["b"] }) ∧
    (∃ m', moduleRecvmsg echo (.ok { Thread.ping 1 with type := .response, route := some ["b"] }) = .ok m' ∧
      m'.route = some []) ∧
    (∃ m', moduleRecvmsg echo (.ok (Thread.ping 1)) = .ok m' ∧ m'.route = some ["m"]) ∧
    moduleSendmsg echo (some { Thread.ping 1 with type := .response, route := some ["m"] }) Io.ok =
      .ok (some { Thread.ping 1 with type := .response, route := some [] }) :=
  have h := route_round_trip echo []
  have hb := h.1 (Thread.ping 1) rfl rfl
  have hm := h.2 (Thread.ping 1) (.inl rfl) rfl
  ⟨hb.2.1 (by decide) rfl, hb.2.2 _ rfl rfl, hm.1, (hm.2 _ rfl rfl).2 (by decide) rfl⟩

/-- A control message, which has no topic, with routing enabled. -/
def control : Msg where
  type := .control
  topic := none
  route := some []
  cred := ⟨FLUX_USERID_UNKNOWN, FLUX_ROLE_NONE⟩
  matchtag := 0
  errnum := 0
  noresponse := true
  payload := .none

/-- **What each direction accepts.** With routing enabled, `module_recvmsg` returns a message
for every message, whatever its type; `module_sendmsg` on an unmuted record, every call
succeeding, writes exactly the messages with a topic, and refuses one without a topic with
`EPROTO` before anything else is tried. -/
theorem sendmsg_recvmsg_accept (p : Module) {m : Msg} {r : List String} (hr : m.route = some r) :
    (∃ m', moduleRecvmsg p (.ok m) = .ok m') ∧
    (p.muted = false → ((∃ o, moduleSendmsg p (some m) Io.ok = .ok (some o)) ↔ m.topic ≠ none)) ∧
    (m.topic = none → ∀ io, moduleSendmsg p (some m) io = .error EPROTO) := by
  have hnone : m.topic = none → ∀ io, moduleSendmsg p (some m) io = .error EPROTO := fun ht io => by
    simp [moduleSendmsg, ht]
  obtain ⟨m', hm', -⟩ := moduleRecvmsg_route p hr
  refine ⟨⟨m', hm'⟩, fun hp => ⟨fun ⟨o, ho⟩ ht => ?_, fun ht => ⟨_, moduleSendmsg_unmuted p hr ht hp⟩⟩,
    hnone⟩
  rw [hnone ht] at ho
  cases ho

theorem control_accepted :
    (∃ m', moduleRecvmsg echo (.ok control) = .ok m') ∧
    (echo.muted = false →
      ((∃ o, moduleSendmsg echo (some control) Io.ok = .ok (some o)) ↔ control.topic ≠ none)) ∧
    (control.topic = none → ∀ io, moduleSendmsg echo (some control) io = .error EPROTO) :=
  sendmsg_recvmsg_accept echo (rfl : control.route = some [])

/-- A control message the module sends reaches the broker, but the same message sent to the
module is refused with `EPROTO`. -/
theorem control_refused_by_sendmsg :
    moduleRecvmsg echo (.ok control) = .ok { control with cred := echo.cred } ∧
    moduleSendmsg echo (some control) Io.ok = .error EPROTO :=
  ⟨rfl, rfl⟩

end FluxBroker.Route
