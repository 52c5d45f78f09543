import FluxBroker.Message

/-!
`servhash`: the service registrations a router keeps on behalf of its clients, each mirrored
by a registration with the upstream broker.

`servhash_add` and `servhash_remove` send `service.add` and `service.remove` upstream and
answer the client from the continuation of the future, once upstream has answered. The
upstream broker processes the requests in the order they were sent; a future is fulfilled
when its answer arrives, and its continuation runs in a later step of the reactor. Deleting
an entry destroys its futures, so a continuation that has not run by then never runs, and
sends an "open loop" `service.remove` when `needs_unregister` says a registration may be
left upstream.

The client's request messages are numbered, and the calls of `respond_cb` are logged with
the message they answer.
-/

namespace FluxBroker.Servhash

open FluxBroker.Message

/-- `struct servhash_entry`, with its futures by number; `uuid` is the owner. -/
structure Entry where
  name : String
  uuid : String
  addRequest : ℕ
  removeRequest : Option ℕ
  fAdd : Option ℕ
  fRemove : Option ℕ
  live : Bool
  deriving DecidableEq, Repr

/-- A future of this servhash: its answer once upstream has sent it, and whether its
continuation has run. -/
structure Future where
  id : ℕ
  result : Option ℤ
  ran : Bool
  deriving DecidableEq, Repr

structure Req where
  fut : ℕ
  register : Bool
  name : String
  deriving DecidableEq, Repr

/-- The servhash, its futures, the requests upstream has not processed yet, and the names
upstream holds on behalf of this servhash (`mine`) and of other peers (`others`); `next`
numbers the futures. `responded` logs the calls of `respond_cb` with the request answered
and the errnum, and `accepted` the requests for which `servhash_add` or `servhash_remove`
returned 0. -/
structure State where
  services : List Entry
  futures : List Future
  upstream : List Req
  mine : List String
  others : List String
  next : ℕ
  responded : List (ℕ × ℤ)
  accepted : List ℕ
  deriving DecidableEq, Repr

/-! ### Futures and entries -/

def State.lookup (s : State) (name : String) : Option Entry := s.services.find? (·.name = name)

lemma State.lookup_not_isSome {s : State} {name : String} (h : ¬ (s.lookup name).isSome) :
    ∀ x ∈ s.services, x.name ≠ name := fun x hx hn =>
  List.find?_eq_none.mp (Option.not_isSome_iff_eq_none.mp h) x hx (decide_eq_true hn)

def State.future (s : State) (f : ℕ) : Option Future := s.futures.find? (·.id = f)

/-- `flux_future_is_ready`. -/
def State.isReady (s : State) (f : ℕ) : Bool := ((s.future f).bind Future.result).isSome

/-- `needs_unregister`: the `service.add` is pending, or it succeeded and no `service.remove`
was sent. -/
def needsUnregister (s : State) (e : Entry) : Bool :=
  (!e.live && e.fAdd.isSome && !(e.fAdd.elim false s.isReady)) || (e.live && e.fRemove.isNone)

/-- `flux_future_destroy`: a destroyed future is gone, and its continuation with it. -/
def State.destroyFuture (s : State) : Option ℕ → State
  | some f => { s with futures := s.futures.filter (·.id ≠ f) }
  | none => s

section DestroyFuture

variable (s : State) (f : Option ℕ)

@[simp] lemma State.destroyFuture_services : (s.destroyFuture f).services = s.services := by
  cases f <;> rfl
@[simp] lemma State.destroyFuture_upstream : (s.destroyFuture f).upstream = s.upstream := by
  cases f <;> rfl
@[simp] lemma State.destroyFuture_mine : (s.destroyFuture f).mine = s.mine := by cases f <;> rfl
@[simp] lemma State.destroyFuture_others : (s.destroyFuture f).others = s.others := by cases f <;> rfl
@[simp] lemma State.destroyFuture_next : (s.destroyFuture f).next = s.next := by cases f <;> rfl

end DestroyFuture

def State.send (s : State) (register : Bool) (name : String) (keep : Bool) : State :=
  { s with upstream := s.upstream ++ [⟨s.next, register, name⟩], next := s.next + 1,
           futures := if keep then s.futures ++ [⟨s.next, none, false⟩] else s.futures }

section Send

variable (s : State) (register : Bool) (name : String) (keep : Bool)

@[simp] lemma State.send_services : (s.send register name keep).services = s.services := rfl
@[simp] lemma State.send_futures : (s.send register name keep).futures =
    if keep then s.futures ++ [⟨s.next, none, false⟩] else s.futures := rfl
@[simp] lemma State.send_next : (s.send register name keep).next = s.next + 1 := rfl
@[simp] lemma State.send_responded : (s.send register name keep).responded = s.responded := rfl
@[simp] lemma State.send_accepted : (s.send register name keep).accepted = s.accepted := rfl
@[simp] lemma State.send_upstream :
    (s.send register name keep).upstream = s.upstream ++ [⟨s.next, register, name⟩] := rfl
@[simp] lemma State.send_mine : (s.send register name keep).mine = s.mine := rfl
@[simp] lemma State.send_others : (s.send register name keep).others = s.others := rfl

end Send

/-- `servhash_entry_destroy`: the open-loop `service.remove` if needed, then the futures. -/
def entryDestroy (s : State) (e : Entry) : State :=
  let s := if needsUnregister s e then s.send false e.name false else s
  (s.destroyFuture e.fAdd).destroyFuture e.fRemove

/-- `zhashx_delete (sh->services, name)`, which runs the destructor on the entry. -/
def State.delete (s : State) (name : String) : State :=
  match s.lookup name with
  | some e => entryDestroy { s with services := s.services.filter (·.name ≠ name) } e
  | none => s

def State.setEntry (s : State) (e : Entry) : State :=
  { s with services := s.services.map fun e' => if e'.name = e.name then e else e' }

@[simp] lemma State.setEntry_futures (s : State) (e : Entry) : (s.setEntry e).futures = s.futures := rfl
@[simp] lemma State.setEntry_next (s : State) (e : Entry) : (s.setEntry e).next = s.next := rfl
@[simp] lemma State.setEntry_responded (s : State) (e : Entry) :
    (s.setEntry e).responded = s.responded := rfl
@[simp] lemma State.setEntry_accepted (s : State) (e : Entry) : (s.setEntry e).accepted = s.accepted := rfl

/-! ### The calls -/

/-- Where `servhash_add` fails, with the `errno` it then returns: `servhash_entry_create` (an
allocation), `flux_service_register` (nothing sent), or `flux_future_then` (the request is
sent). The `errno` is the failing call's, or what `servhash_entry_destroy` on the error path
leaves, so it is chosen with the failure. -/
inductive AddFail
  | none
  | create (errno : ℤ)
  | register (errno : ℤ)
  | then_ (errno : ℤ)
  deriving DecidableEq, Repr

/-- Where `servhash_remove` fails, with the `errno` of the failing call:
`flux_service_unregister` (nothing sent) or `flux_future_then` (the request is sent; the
deletion keeps `errno` with `ERRNO_SAFE_WRAP`). -/
inductive RemoveFail
  | none
  | unregister (errno : ℤ)
  | then_ (errno : ℤ)
  deriving DecidableEq, Repr

/-- `servhash_add (sh, name, uuid, msg)`. -/
def servhashAdd (s : State) (name uuid : String) (msg : ℕ) : AddFail → State × Except ℤ Unit
  | fail =>
    if (s.lookup name).isSome then (s, .error EEXIST)
    else
      let e : Entry := ⟨name, uuid, msg, none, none, none, false⟩
      match fail with
      | .create errno => (s, .error errno)
      | .register errno => (entryDestroy s e, .error errno)
      | .then_ errno => (entryDestroy (s.send true name true) { e with fAdd := some s.next }, .error errno)
      | .none =>
        ({ s.send true name true with
            services := s.services ++ [{ e with fAdd := some s.next }]
            accepted := s.accepted ++ [msg] }, .ok ())

/-- `servhash_remove (sh, name, uuid, msg)`. -/
def servhashRemove (s : State) (name uuid : String) (msg : ℕ) (fail : RemoveFail) :
    State × Except ℤ Unit :=
  match s.lookup name with
  | none => (s, .error ENOENT)
  | some e =>
    if e.uuid ≠ uuid ∨ e.fRemove.isSome then (s, .error ENOENT)
    else
      let e := { e with removeRequest := some msg }
      match fail with
      | .unregister errno => (s.setEntry e, .error errno)
      | .then_ errno => (((s.setEntry { e with fRemove := some s.next }).send false name true).delete name,
          .error errno)
      | .none => ({ (s.setEntry { e with fRemove := some s.next }).send false name true with
          accepted := s.accepted ++ [msg] }, .ok ())

/-- `servhash_disconnect (sh, uuid)`: over the keys as they were, delete each entry the
client owns. -/
def servhashDisconnect (s : State) (uuid : String) : State :=
  (s.services.map (·.name)).foldl
    (fun s name => if (s.lookup name).any (·.uuid = uuid) then s.delete name else s) s

/-- `servhash_destroy`: `zhashx_destroy` runs the destructor on every entry. -/
def servhashDestroy (s : State) : State :=
  (s.services.map (·.name)).foldl State.delete s

/-- `add_continuation`, run on the fulfilled future of entry `e` with result `r`. -/
def addContinuation (s : State) (e : Entry) (r : ℤ) : State :=
  let e := if r = 0 then { e with live := true } else e
  let s := { s.setEntry e with responded := s.responded ++ [(e.addRequest, r)] }
  if r ≠ 0 then s.delete e.name else s

/-- `remove_continuation`. -/
def removeContinuation (s : State) (e : Entry) (r : ℤ) : State :=
  let e := if r = 0 then { e with live := false } else e
  let s := { s.setEntry e with responded := s.responded ++ e.removeRequest.toList.map (·, r) }
  s.delete e.name

/-! ### Steps -/

/-- The calls of the router, the upstream broker processing the oldest request and answering
it, and the continuation of a fulfilled future running in the reactor. -/
inductive Act
  | add (name uuid : String) (msg : ℕ) (fail : AddFail)
  | remove (name uuid : String) (msg : ℕ) (fail : RemoveFail)
  | disconnect (uuid : String)
  | destroy
  | upstream
  | cont (f : ℕ)
  deriving DecidableEq, Repr

/-- Upstream's answer to a request, and its registrations after it: a name is registered if
it is free, and unregistered if this servhash registered it. -/
def answer (s : State) (q : Req) : ℤ × List String :=
  if q.register then
    if q.name ∉ s.mine ∧ q.name ∉ s.others then (0, s.mine ++ [q.name]) else (EEXIST, s.mine)
  else if q.name ∈ s.mine then (0, s.mine.erase q.name) else (ENOENT, s.mine)

def State.fulfil (s : State) (f : ℕ) (r : ℤ) : State :=
  { s with futures := s.futures.map fun x => if x.id = f then { x with result := some r } else x }

def State.markRan (s : State) (f : ℕ) : State :=
  { s with futures := s.futures.map fun x => if x.id = f then { x with ran := true } else x }

section Futures

variable (s : State) (f : ℕ) (r : ℤ)

@[simp] lemma State.fulfil_services : (s.fulfil f r).services = s.services := rfl
@[simp] lemma State.fulfil_next : (s.fulfil f r).next = s.next := rfl
@[simp] lemma State.fulfil_responded : (s.fulfil f r).responded = s.responded := rfl
@[simp] lemma State.fulfil_accepted : (s.fulfil f r).accepted = s.accepted := rfl
@[simp] lemma State.fulfil_upstream : (s.fulfil f r).upstream = s.upstream := rfl
@[simp] lemma State.fulfil_mine : (s.fulfil f r).mine = s.mine := rfl
@[simp] lemma State.fulfil_others : (s.fulfil f r).others = s.others := rfl
@[simp] lemma State.markRan_services : (s.markRan f).services = s.services := rfl
@[simp] lemma State.markRan_next : (s.markRan f).next = s.next := rfl
@[simp] lemma State.markRan_responded : (s.markRan f).responded = s.responded := rfl
@[simp] lemma State.markRan_accepted : (s.markRan f).accepted = s.accepted := rfl
@[simp] lemma State.markRan_upstream : (s.markRan f).upstream = s.upstream := rfl
@[simp] lemma State.markRan_mine : (s.markRan f).mine = s.mine := rfl
@[simp] lemma State.markRan_others : (s.markRan f).others = s.others := rfl

end Futures

def step (s : State) : Act → Option State
  | .add name uuid msg fail => some (servhashAdd s name uuid msg fail).1
  | .remove name uuid msg fail => some (servhashRemove s name uuid msg fail).1
  | .disconnect uuid => some (servhashDisconnect s uuid)
  | .destroy => some (servhashDestroy s)
  | .upstream => match s.upstream with
    | q :: rest =>
      let a := answer s q
      some ({ s with upstream := rest, mine := a.2 }.fulfil q.fut a.1)
    | [] => none
  | .cont f => match s.future f with
    | some ⟨_, some r, false⟩ =>
      let s' := s.markRan f
      match s.services.find? (·.fAdd = some f), s.services.find? (·.fRemove = some f) with
      | some e, _ => some (addContinuation s' e r)
      | none, some e => some (removeContinuation s' e r)
      | none, none => none
    | _ => none

def run (s : State) : List Act → Option State
  | [] => some s
  | a :: as => (step s a).bind (run · as)

/-- A servhash just created, with upstream holding the registrations `others` of other
peers. -/
def init (others : List String) : State := ⟨[], [], [], [], others, 0, [], []⟩

theorem disconnect_leaks_registration :
    (run (init []) [.add "foo" "c1" 1 .none, .upstream, .disconnect "c1"]).map
      (fun s => (s.services, s.upstream, s.mine)) = some ([], [], ["foo"]) := by
  decide

theorem failed_add_drops_remove :
    (run (init ["foo"]) [.add "foo" "c1" 1 .none, .remove "foo" "c1" 2 .none, .upstream, .upstream,
      .cont 0]).map (fun s => (s.upstream, s.futures, s.accepted, s.responded)) =
      some ([], [], [1, 2], [(1, EEXIST)]) := by
  decide

end FluxBroker.Servhash
