import Mathlib.Data.List.Basic

/-!
Messages as the broker and its modules exchange them, with the parts of `libflux` that
`module.c` calls on them.

A message has a type, an optional topic (control messages carry none), a route stack that
exists only when routing is enabled, the sender's credential, a matchtag, the error number
of a response, the no-response flag of a request, and a payload. The payload is opaque
except for the one body the host itself builds and reads: the `{status, errnum}` object of
a `broker.module-status` report.

`libflux` is not part of the sources: the route stack, the derived responses and the
constants below follow the spec's words and the flux headers.
-/

namespace FluxBroker.Message

/-! ### Constants -/

/-- Error numbers (`errno.h`). -/
def ESRCH : ℤ := 3
def ENOENT : ℤ := 2
def EIO : ℤ := 5
def EAGAIN : ℤ := 11
def ENOMEM : ℤ := 12
def EEXIST : ℤ := 17
def EINVAL : ℤ := 22
def ENOSYS : ℤ := 38
def EPROTO : ℤ := 71
def ECONNRESET : ℤ := 104

/-- Modelled from the spec: the module states at the interface, "INIT=0, RUNNING=1,
FINALIZING=2, EXITED=3 (names normative, numeric codes fixed by the broker protocol)". -/
def FLUX_MODSTATE_INIT : ℤ := 0
def FLUX_MODSTATE_RUNNING : ℤ := 1
def FLUX_MODSTATE_FINALIZING : ℤ := 2
def FLUX_MODSTATE_EXITED : ℤ := 3

/-- Role bits and the unknown user id of a credential (`flux/core.h`). -/
def FLUX_ROLE_NONE : ℕ := 0
def FLUX_ROLE_OWNER : ℕ := 1
def FLUX_ROLE_LOCAL : ℕ := 4
def FLUX_USERID_UNKNOWN : ℕ := 0xFFFFFFFF

/-- The topic of the status report a module sends to the broker. -/
def moduleStatusTopic : String := "broker.module-status"

/-! ### Messages -/

inductive MsgType
  | request | response | event | control
  deriving DecidableEq, Repr

structure Cred where
  userid : ℕ
  rolemask : ℕ
  deriving DecidableEq, Repr

/-- The payload: opaque bytes, or the body `{"status":i[, "errnum":i]}` of a status report. -/
inductive Payload
  | none
  | status (status : ℤ) (errnum : Option ℤ)
  | data (bytes : List ℕ)
  deriving DecidableEq, Repr

/-- A message; the route stack has the most recent hop first and is `none` when routing is
not enabled. -/
structure Msg where
  type : MsgType
  topic : Option String
  route : Option (List String)
  cred : Cred
  matchtag : ℕ
  errnum : ℤ
  noresponse : Bool
  payload : Payload
  deriving DecidableEq, Repr

/-! ### Route stack -/

/-- Modelled from the spec: `flux_msg_route_push`. The route stack is "ordered list of
identity strings prepended to a message", so a push puts the hop in front; without routing
the call fails with `EPROTO`. -/
def routePush (id : String) (m : Msg) : Except ℤ Msg :=
  match m.route with
  | some r => .ok { m with route := some (id :: r) }
  | none => .error EPROTO

/-- Modelled from the spec: `flux_msg_route_delete_last`, which pops "the last route
entry", the hop pushed most recently; an empty stack is left empty. -/
def routeDeleteLast (m : Msg) : Except ℤ Msg :=
  match m.route with
  | some r => .ok { m with route := some r.tail }
  | none => .error EPROTO

@[simp] lemma routePush_eq_ok {id : String} {m m' : Msg} :
    routePush id m = .ok m' ↔ ∃ r, m.route = some r ∧ m' = { m with route := some (id :: r) } := by
  unfold routePush; split <;> simp_all [eq_comm]

@[simp] lemma routeDeleteLast_eq_ok {m m' : Msg} :
    routeDeleteLast m = .ok m' ↔ ∃ r, m.route = some r ∧ m' = { m with route := some r.tail } := by
  unfold routeDeleteLast; split <;> simp_all [eq_comm]

/-! ### Results -/

lemma bind_eq_ok {ε α β : Type} {x : Except ε α} {f : α → Except ε β} {b : β} :
    x >>= f = .ok b ↔ ∃ a, x = .ok a ∧ f a = .ok b := by
  cases x with
  | error e => exact ⟨nofun, fun ⟨_, h, _⟩ => nomatch h⟩
  | ok a => exact ⟨fun h => ⟨a, rfl, h⟩, fun ⟨_, h, h'⟩ => by cases h; exact h'⟩

lemma map_eq_ok {ε α β : Type} {x : Except ε α} {f : α → β} {b : β} :
    f <$> x = .ok b ↔ ∃ a, x = .ok a ∧ f a = b := by
  cases x with
  | error e => exact ⟨nofun, fun ⟨_, h, _⟩ => nomatch h⟩
  | ok a => exact ⟨fun h => ⟨a, rfl, Except.ok.inj h⟩, fun ⟨_, h, h'⟩ => by cases h; rw [← h']; rfl⟩

/-! ### Responses -/

/-- Modelled from the spec: the response `flux_respond` (`errnum = 0`) or
`flux_respond_error` derives from a request ("respond with an unsupported-operation
error"): same topic, route and matchtag. A request that asked for no response gets none. -/
def respond (req : Msg) (errnum : ℤ) : Option Msg :=
  if req.noresponse then none
  else some { req with type := .response, errnum := errnum, payload := .none }

@[simp] lemma respond_eq_some {req m : Msg} {errnum : ℤ} :
    respond req errnum = some m ↔
      req.noresponse = false ∧ m = { req with type := .response, errnum := errnum, payload := .none } := by
  unfold respond
  split
  · simp_all
  · simp only [Option.some.injEq]
    constructor
    · rintro rfl; simp_all
    · rintro ⟨-, rfl⟩; rfl

@[simp] lemma respond_eq_none {req : Msg} {errnum : ℤ} :
    respond req errnum = none ↔ req.noresponse = true := by
  unfold respond; split <;> simp_all

/-- A request of the module's handle asking for a response carries the next matchtag; one
that asks for none carries `FLUX_MATCHTAG_NONE`. -/
def statusRequest (status : ℤ) (errnum : Option ℤ) (noresponse : Bool) (tag : ℕ) : Msg where
  type := .request
  topic := some moduleStatusTopic
  route := some []
  cred := ⟨FLUX_USERID_UNKNOWN, FLUX_ROLE_NONE⟩
  matchtag := if noresponse then 0 else tag
  errnum := 0
  noresponse := noresponse
  payload := .status status errnum

end FluxBroker.Message
