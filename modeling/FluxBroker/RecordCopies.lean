import FluxBroker.Pending
import Mathlib.Data.Multiset.Basic
import Mathlib.Tactic.Abel

/-!
The copies a record keeps: of the pending admin requests, and of its subscriptions.

`module_push_rmmod` and `module_push_insmod` keep a `flux_msg_copy` of the request, the pops
hand the copy to their caller, `module_push_insmod` destroys the copy it replaces, and
`module_destroy` destroys what is left. `module_subscribe` keeps a `strdup` of the topic (and
frees it again when `zlist_push` fails), `module_unsubscribe` frees the first equal one, and
`module_destroy` frees the rest. The ledger of a call lists the copies it makes, hands out,
destroys, and loses: when `zlist_push` fails, `module_push_rmmod` returns -1 without
destroying its copy, which nothing points to any more.

Over every run of the broker's calls followed by `module_destroy`, every copy is, once,
handed out, destroyed or lost, and every subscription kept is freed once.
-/

namespace FluxBroker.RecordCopies

open FluxBroker.Message FluxBroker.Record FluxBroker.HostApi FluxBroker.Pending

/-- What `module_destroy` frees of the pending requests and subscriptions, in its order: the
`rmmod` list popped to the end and the `insmod` slot, then the subscriptions. -/
def moduleDestroyFrees (p : Module) : List Msg × List String := (p.rmmod ++ p.insmod.toList, p.subs)

/-- The copies of requests a call makes with `flux_msg_copy`, hands to its caller, destroys
with `flux_msg_destroy` and loses, and the topics it keeps and frees. -/
structure Copies where
  copied : List Msg := []
  handed : List Msg := []
  freed : List Msg := []
  lost : List Msg := []
  subscribed : List String := []
  unsubscribed : List String := []
  deriving DecidableEq, Repr

instance : Append Copies :=
  ⟨fun a b => ⟨a.copied ++ b.copied, a.handed ++ b.handed, a.freed ++ b.freed, a.lost ++ b.lost,
    a.subscribed ++ b.subscribed, a.unsubscribed ++ b.unsubscribed⟩⟩

section Append

variable (a b : Copies)

@[simp] lemma Copies.append_copied : (a ++ b).copied = a.copied ++ b.copied := rfl
@[simp] lemma Copies.append_handed : (a ++ b).handed = a.handed ++ b.handed := rfl
@[simp] lemma Copies.append_freed : (a ++ b).freed = a.freed ++ b.freed := rfl
@[simp] lemma Copies.append_lost : (a ++ b).lost = a.lost ++ b.lost := rfl
@[simp] lemma Copies.append_subscribed : (a ++ b).subscribed = a.subscribed ++ b.subscribed := rfl
@[simp] lemma Copies.append_unsubscribed : (a ++ b).unsubscribed = a.unsubscribed ++ b.unsubscribed :=
  rfl

end Append

/-- The ledger of one of the broker's calls on the record `p`. -/
def opCopies (p : Module) : HostOp → Copies
  | .pushRmmod m copy push =>
    if copy then
      if push then { copied := [copyNoPayload m] }
      else { copied := [copyNoPayload m], lost := [copyNoPayload m] }
    else {}
  | .popRmmod => { handed := p.rmmod.head?.toList }
  | .pushInsmod m copy => if copy then { copied := [copyNoPayload m], freed := p.insmod.toList } else {}
  | .popInsmod => { handed := p.insmod.toList }
  | .subscribe topic alloc => if alloc then { subscribed := [topic] } else {}
  | .unsubscribe topic => { unsubscribed := if topic ∈ p.subs then [topic] else [] }
  | .sendmsg .. | .eventCast .. | .setStatus _ | .setErrnum _ | .mute => {}

def runCopies (h : Host) : List HostOp → Copies
  | [] => {}
  | op :: ops =>
    match hostStep h op with
    | some h' => opCopies h.p op ++ runCopies h' ops
    | none => {}

/-- The copies of requests the record holds. -/
def pendingCopies (p : Module) : Multiset Msg := (p.rmmod : Multiset Msg) + p.insmod.toList

/-! ### One call -/

lemma frame_balance {p q : Module} {op : HostOp} (ho : opCopies p op = {}) (hr : q.rmmod = p.rmmod)
    (hi : q.insmod = p.insmod) (hsub : q.subs = p.subs) :
    ((opCopies p op).copied : Multiset Msg) + pendingCopies p =
        pendingCopies q + (opCopies p op).handed + (opCopies p op).freed + (opCopies p op).lost ∧
      ((opCopies p op).subscribed : Multiset String) + p.subs = q.subs + (opCopies p op).unsubscribed := by
  simp [ho, pendingCopies, hr, hi, hsub]

lemma pushRmmod_balance (p : Module) (m : Msg) (copy push : Bool) :
    ((opCopies p (.pushRmmod m copy push)).copied : Multiset Msg) + pendingCopies p =
      pendingCopies (keep p (modulePushRmmod p m copy push)) +
        (opCopies p (.pushRmmod m copy push)).handed + (opCopies p (.pushRmmod m copy push)).freed +
        (opCopies p (.pushRmmod m copy push)).lost := by
  rw [keep_pushRmmod]
  cases copy <;> cases push <;>
    simp only [opCopies, pendingCopies, Bool.and_self, Bool.and_false, Bool.false_and, if_true,
      if_false, Bool.false_eq_true, Multiset.coe_nil, add_zero, zero_add, Multiset.coe_singleton,
      ← Multiset.cons_coe, ← Multiset.singleton_add]
  all_goals abel

lemma pushInsmod_balance (p : Module) (m : Msg) (copy : Bool) :
    ((opCopies p (.pushInsmod m copy)).copied : Multiset Msg) + pendingCopies p =
      pendingCopies (keep p (modulePushInsmod p m copy)) + (opCopies p (.pushInsmod m copy)).handed +
        (opCopies p (.pushInsmod m copy)).freed + (opCopies p (.pushInsmod m copy)).lost := by
  cases copy
  · simp [opCopies, modulePushInsmod, keep]
  · simp only [opCopies, modulePushInsmod, keep, pendingCopies, if_true, List.nil_append,
      Multiset.coe_nil, add_zero, Option.toList_some]
    abel

lemma unsubscribe_balance (p : Module) (topic : String) :
    (p.subs : Multiset String) =
      (moduleUnsubscribe p topic).subs + (opCopies p (.unsubscribe topic)).unsubscribed := by
  by_cases ht : topic ∈ p.subs
  · simp only [moduleUnsubscribe, opCopies, if_pos ht, ← Multiset.coe_erase, Multiset.coe_singleton]
    rw [add_comm, Multiset.singleton_add, Multiset.cons_erase (Multiset.mem_coe.mpr ht)]
  · simp [moduleUnsubscribe, opCopies, ht, List.erase_of_not_mem ht]

/-- **Each call keeps the books.** The copies a call makes, with those the record held, are
those it holds after the call, hands out, destroys and loses; the topics it keeps, with the
record's subscriptions, are the subscriptions after it and those it frees. -/
lemma opCopies_balance {h h' : Host} {op : HostOp} (hs : hostStep h op = some h') :
    ((opCopies h.p op).copied : Multiset Msg) + pendingCopies h.p =
        pendingCopies h'.p + (opCopies h.p op).handed + (opCopies h.p op).freed +
          (opCopies h.p op).lost ∧
      ((opCopies h.p op).subscribed : Multiset String) + h.p.subs =
        h'.p.subs + (opCopies h.p op).unsubscribed := by
  cases op with
  | sendmsg msg io => cases hs; exact frame_balance rfl (by simp) (by simp) (by simp)
  | eventCast m io => cases hs; exact frame_balance rfl (by simp) (by simp) (by simp)
  | setStatus n =>
    obtain ⟨⟨q, cb⟩, hq, rfl⟩ := Option.map_eq_some'.mp hs
    obtain ⟨rfl, -⟩ := moduleSetStatus_some _ hq
    exact frame_balance rfl rfl rfl rfl
  | setErrnum e => cases hs; exact frame_balance rfl rfl rfl rfl
  | mute => cases hs; exact frame_balance rfl rfl rfl rfl
  | pushRmmod m copy push =>
    cases hs
    rw [update_eq]
    refine ⟨pushRmmod_balance h.p m copy push, ?_⟩
    rw [keep_pushRmmod]
    cases copy <;> cases push <;> simp [opCopies]
  | popRmmod =>
    cases hs
    refine ⟨?_, by simp [opCopies, modulePopRmmod]⟩
    cases hr : h.p.rmmod <;>
      simp only [opCopies, pendingCopies, modulePopRmmod, hr, List.head?_nil, List.head?_cons,
        List.tail_nil, List.tail_cons, Option.toList_none, Option.toList_some, Multiset.coe_nil,
        add_zero, zero_add, Multiset.coe_singleton, ← Multiset.cons_coe, ← Multiset.singleton_add]
    abel
  | pushInsmod m copy =>
    cases hs
    rw [update_eq]
    refine ⟨pushInsmod_balance h.p m copy, ?_⟩
    cases copy <;> simp [opCopies, modulePushInsmod, keep]
  | popInsmod =>
    cases hs
    refine ⟨?_, by simp [opCopies, modulePopInsmod]⟩
    simp only [opCopies, pendingCopies, modulePopInsmod, Option.toList_none, Multiset.coe_nil,
      add_zero, zero_add]
  | subscribe topic alloc =>
    cases hs
    rw [update_eq]
    cases alloc <;>
      simp [opCopies, moduleSubscribe, keep, pendingCopies, ← Multiset.cons_coe, ← Multiset.singleton_add]
  | unsubscribe topic =>
    cases hs
    refine ⟨by simp [opCopies, pendingCopies, moduleUnsubscribe], ?_⟩
    simpa [opCopies] using unsubscribe_balance h.p topic

lemma runCopies_balance : ∀ {ops : List HostOp} {h h' : Host}, hostRun h ops = some h' →
    ((runCopies h ops).copied : Multiset Msg) + pendingCopies h.p =
        pendingCopies h'.p + (runCopies h ops).handed + (runCopies h ops).freed +
          (runCopies h ops).lost ∧
      ((runCopies h ops).subscribed : Multiset String) + h.p.subs =
        h'.p.subs + (runCopies h ops).unsubscribed
  | [], _, _, hr => by cases hr; simp [runCopies]
  | op :: ops, h, h', hr => by
    obtain ⟨h₁, hs, hr'⟩ := Option.bind_eq_some.mp hr
    obtain ⟨c1, t1⟩ := opCopies_balance hs
    obtain ⟨c2, t2⟩ := runCopies_balance hr'
    simp only [runCopies, hs, Copies.append_copied, Copies.append_handed, Copies.append_freed,
      Copies.append_lost, Copies.append_subscribed, Copies.append_unsubscribed, ← Multiset.coe_add]
    constructor
    · refine add_right_cancel (?_ : _ + pendingCopies h₁.p = _ + pendingCopies h₁.p)
      convert congrArg₂ HAdd.hAdd c1 c2 using 1 <;> abel
    · refine add_right_cancel (?_ : _ + (h₁.p.subs : Multiset String) = _ + h₁.p.subs)
      convert congrArg₂ HAdd.hAdd t1 t2 using 1 <;> abel

/-! ### Runs ending in `module_destroy` -/

/-- **Every copy is given up once.** Along every run of the broker's calls on a record,
followed by `module_destroy`, the copies of admin requests the record held or made are, each
once, handed to a caller by a pop, destroyed (the `insmod` copy a push replaces, and what
`module_destroy` frees) or lost (the copy `module_push_rmmod` makes when its `zlist_push`
fails); and every subscription the record held or kept is freed once, by
`module_unsubscribe` or `module_destroy`. -/
theorem copies_released {p : Module} {ch : List Msg} {ops : List HostOp} {h : Host}
    (hr : hostRun ⟨p, ch⟩ ops = some h) :
    ((runCopies ⟨p, ch⟩ ops).copied : Multiset Msg) + p.rmmod + p.insmod.toList =
        (runCopies ⟨p, ch⟩ ops).handed + (runCopies ⟨p, ch⟩ ops).freed +
          (moduleDestroyFrees h.p).1 + (runCopies ⟨p, ch⟩ ops).lost ∧
      ((runCopies ⟨p, ch⟩ ops).subscribed : Multiset String) + p.subs =
        (runCopies ⟨p, ch⟩ ops).unsubscribed + (moduleDestroyFrees h.p).2 := by
  obtain ⟨hc, ht⟩ := runCopies_balance hr
  constructor
  · rw [add_assoc, ← pendingCopies, hc, moduleDestroyFrees, ← Multiset.coe_add, pendingCopies]
    abel
  · rw [ht, moduleDestroyFrees, add_comm]

/-- Calls on the record of `./echo.so`: a push whose `zlist_push` fails and one that
succeeds, two pushes of `insmod`, a pop, and a subscription. -/
def adminCalls : List HostOp :=
  [.pushRmmod (removeRequest 1) true false, .pushRmmod (removeRequest 2) true true,
    .pushInsmod (removeRequest 3) true, .pushInsmod (removeRequest 4) true, .popRmmod,
    .subscribe "heartbeat" true]

theorem failed_push_lost :
    ∃ h, hostRun ⟨echo, []⟩ adminCalls = some h ∧
      ((runCopies ⟨echo, []⟩ adminCalls).copied : Multiset Msg) + echo.rmmod + echo.insmod.toList =
          (runCopies ⟨echo, []⟩ adminCalls).handed + (runCopies ⟨echo, []⟩ adminCalls).freed +
            (moduleDestroyFrees h.p).1 + (runCopies ⟨echo, []⟩ adminCalls).lost ∧
        ((runCopies ⟨echo, []⟩ adminCalls).subscribed : Multiset String) + echo.subs =
          (runCopies ⟨echo, []⟩ adminCalls).unsubscribed + (moduleDestroyFrees h.p).2 :=
  ⟨_, rfl, @copies_released echo [] adminCalls _ rfl⟩

/-- The copy of a push whose `zlist_push` fails is lost. -/
example : (runCopies ⟨echo, []⟩ [.pushRmmod (removeRequest 1) true false]).lost =
    [copyNoPayload (removeRequest 1)] := rfl

end FluxBroker.RecordCopies
