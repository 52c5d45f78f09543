import FluxBroker.HostApi
import Mathlib.Data.List.ReduceOption

/-!
The pending admin requests of a record: the `rmmod` list and the `insmod` slot.

The spec calls the `rmmod` list a FIFO, but `module_push_rmmod` puts the copy at the head
with `zlist_push` and `module_pop_rmmod` takes the head with `zlist_pop`, so the list is a
stack. Over every interleaving of pushes and pops nothing is lost or duplicated, and a pop
returns `NULL` exactly when every request pushed has been popped; but a pop returns the
newest request still pending, and requests pushed in a row come out in reverse. The two
orders agree on the runs that never hold two requests at once. The `insmod` slot holds the
copy of the last request pushed since the last pop, as the spec says, and a push whose copy
or insertion fails leaves the record as it was.
-/

namespace FluxBroker.Pending

open FluxBroker.Message FluxBroker.Record FluxBroker.HostApi

/-- The record after a call that returns the new record or fails: a failed call changes
nothing. -/
def keep (p : Module) : Except ℤ Module → Module
  | .ok q => q
  | .error _ => p

lemma update_eq (h : Host) (r : Except ℤ Module) : h.update r = { h with p := keep h.p r } := by
  cases r <;> rfl

/-! ### The `rmmod` list -/

/-- The calls on the `rmmod` list: a push, with whether its copy and its `zlist_push`
succeed, and a pop. -/
inductive RmOp
  | push (m : Msg) (copy push : Bool)
  | pop
  deriving DecidableEq, Repr

/-- A run of calls on the `rmmod` list: the record after it and what each pop returned. -/
def rmRun (p : Module) : List RmOp → Module × List (Option Msg)
  | [] => (p, [])
  | .push m copy push :: ops => rmRun (keep p (modulePushRmmod p m copy push)) ops
  | .pop :: ops =>
    let r := rmRun (modulePopRmmod p).1 ops
    (r.1, (modulePopRmmod p).2 :: r.2)

def pushed : List RmOp → List Msg
  | [] => []
  | .push m copy push :: ops => (if copy && push then [copyNoPayload m] else []) ++ pushed ops
  | .pop :: ops => pushed ops

/-- The spec's "FIFO of pending remove-module requests", from its words: a push that
succeeds puts a copy at the back, a pop takes the front. -/
def fifoRun (q : List Msg) : List RmOp → List Msg × List (Option Msg)
  | [] => (q, [])
  | .push m copy push :: ops => fifoRun (if copy && push then q ++ [copyNoPayload m] else q) ops
  | .pop :: ops =>
    let r := fifoRun q.tail ops
    (r.1, q.head? :: r.2)

lemma keep_pushRmmod (p : Module) (m : Msg) (copy push : Bool) :
    keep p (modulePushRmmod p m copy push) =
      if copy && push then { p with rmmod := copyNoPayload m :: p.rmmod } else p := by
  cases copy <;> cases push <;> rfl

/-- **Nothing lost or duplicated.** Along every run, the requests popped and those still
pending are, up to order, those pending before and the copies of those pushed. -/
lemma rmRun_perm (p : Module) (ops : List RmOp) :
    ((rmRun p ops).2.reduceOption ++ (rmRun p ops).1.rmmod).Perm (p.rmmod ++ pushed ops) := by
  induction ops generalizing p with
  | nil => simp [rmRun, pushed, List.reduceOption_nil]
  | cons op ops ih =>
    cases op with
    | push m copy push =>
      rw [rmRun, pushed, keep_pushRmmod]
      split_ifs with hs
      · exact (ih _).trans (by simpa using List.perm_middle.symm)
      · simpa using ih p
    | pop =>
      rcases hq : p.rmmod with _ | ⟨c, t⟩ <;>
        simp only [rmRun, modulePopRmmod, pushed, hq, List.head?_nil, List.head?_cons, List.tail_nil,
          List.tail_cons, List.reduceOption_cons_of_none, List.reduceOption_cons_of_some]
      · simpa [hq] using ih { p with rmmod := [] }
      · exact (ih { p with rmmod := t }).cons c

lemma rmRun_append (p : Module) (pre ops : List RmOp) :
    rmRun p (pre ++ ops) =
      ((rmRun (rmRun p pre).1 ops).1, (rmRun p pre).2 ++ (rmRun (rmRun p pre).1 ops).2) := by
  induction pre generalizing p with
  | nil => rfl
  | cons op pre ih => cases op <;> simp [rmRun, ih]

/-- **A pop returns `NULL` exactly when every request has been popped.** After any calls
`pre`, the next pop returns a request iff fewer have been popped than were pending before
the run or pushed during it. -/
theorem rmmod_pop_null_iff (p : Module) (pre post : List RmOp) :
    ∃ o rest, (rmRun p (pre ++ .pop :: post)).2 = (rmRun p pre).2 ++ o :: rest ∧
      (o = none ↔ (rmRun p pre).2.reduceOption.length = p.rmmod.length + (pushed pre).length) := by
  have hlen := (rmRun_perm p pre).length_eq
  rw [List.length_append, List.length_append] at hlen
  refine ⟨_, _, by rw [rmRun_append]; rfl, ?_⟩
  rcases hq : (rmRun p pre).1.rmmod with _ | ⟨c, t⟩ <;>
    simp only [modulePopRmmod, hq, List.head?_nil, List.head?_cons, List.length_nil,
      List.length_cons, true_iff, reduceCtorEq, false_iff] at hlen ⊢ <;> omega

lemma rmRun_pushes (q : Module) (ms : List Msg) :
    rmRun q (ms.map (.push · true true)) =
      ({ q with rmmod := (ms.map copyNoPayload).reverse ++ q.rmmod }, []) := by
  induction ms generalizing q with
  | nil => rfl
  | cons m ms ih => simp [rmRun, keep_pushRmmod, ih]

lemma rmRun_pops (l : List Msg) : ∀ q : Module, q.rmmod = l →
    (rmRun q (List.replicate l.length .pop)).2 = l.map some := by
  induction l with
  | nil => intro q _; rfl
  | cons c l ih =>
    intro q hq
    simp only [List.length_cons, List.replicate_succ, rmRun, modulePopRmmod, hq, List.head?_cons,
      List.tail_cons, List.map_cons, ih { q with rmmod := l } rfl]

lemma fifoRun_pushes (q : List Msg) (ms : List Msg) (ops : List RmOp) :
    fifoRun q (ms.map (.push · true true) ++ ops) = fifoRun (q ++ ms.map copyNoPayload) ops := by
  induction ms generalizing q with
  | nil => simp
  | cons m ms ih => simp [fifoRun, ih]

lemma fifoRun_pops (q : List Msg) : (fifoRun q (List.replicate q.length .pop)).2 = q.map some := by
  induction q with
  | nil => rfl
  | cons c q ih => simp [fifoRun, List.replicate_succ, ih]

def removeRequest (tag : ℕ) : Msg where
  type := .request
  topic := some "module.remove"
  route := some ["client"]
  cred := ⟨1000, FLUX_ROLE_OWNER⟩
  matchtag := tag
  errnum := 0
  noresponse := false
  payload := .none

/-- **Requests come out newest first.** Requests pushed in a row onto an empty list, every
copy and insertion succeeding, are popped in the reverse of the order they were pushed in,
where the spec's FIFO would return them in that order. -/
theorem rmmod_lifo (p : Module) (hp : p.rmmod = []) (ms : List Msg) :
    (rmRun p (ms.map (.push · true true) ++ List.replicate ms.length .pop)).2 =
      (ms.map copyNoPayload).reverse.map some ∧
    (fifoRun [] (ms.map (.push · true true) ++ List.replicate ms.length .pop)).2 =
      (ms.map copyNoPayload).map some := by
  constructor
  · rw [rmRun_append, rmRun_pushes, List.nil_append]
    simpa [hp] using rmRun_pops _ { p with rmmod := (ms.map copyNoPayload).reverse } rfl
  · rw [fifoRun_pushes, List.nil_append]
    simpa using fifoRun_pops (ms.map copyNoPayload)

theorem two_removes_reversed :
    (rmRun echo ([removeRequest 1, removeRequest 2].map (.push · true true) ++
        List.replicate 2 .pop)).2 =
      ([removeRequest 1, removeRequest 2].map copyNoPayload).reverse.map some ∧
    (fifoRun [] ([removeRequest 1, removeRequest 2].map (.push · true true) ++
        List.replicate 2 .pop)).2 =
      ([removeRequest 1, removeRequest 2].map copyNoPayload).map some :=
  rmmod_lifo echo rfl [removeRequest 1, removeRequest 2]

/-- Whether a run from `n` pending requests never holds two: a push that succeeds comes only
when none is pending. -/
def atMostOne : ℕ → List RmOp → Bool
  | _, [] => true
  | n, .push _ copy push :: ops => if copy && push then n = 0 && atMostOne 1 ops else atMostOne n ops
  | n, .pop :: ops => atMostOne (n - 1) ops

/-- **The stack is a FIFO while it holds one request at most.** On a run that never holds two
requests, the pops return what the spec's FIFO returns, and the list ends the same. -/
theorem rmRun_eq_fifo (p : Module) (ops : List RmOp) (hp : p.rmmod.length ≤ 1)
    (h : atMostOne p.rmmod.length ops = true) :
    rmRun p ops = ({ p with rmmod := (fifoRun p.rmmod ops).1 }, (fifoRun p.rmmod ops).2) := by
  induction ops generalizing p with
  | nil => rfl
  | cons op ops ih =>
    cases op with
    | push m copy push =>
      rw [rmRun, fifoRun, keep_pushRmmod]
      by_cases hs : (copy && push) = true
      · simp only [atMostOne, hs, if_true, Bool.and_eq_true, decide_eq_true_eq] at h
        have h0 : p.rmmod = [] := List.length_eq_zero.mp h.1
        simp only [hs, if_true, h0, List.nil_append]
        exact ih { p with rmmod := [copyNoPayload m] } le_rfl h.2
      · simp only [atMostOne, hs, Bool.false_eq_true, if_false] at h ⊢
        exact ih p hp h
    | pop =>
      have ht : p.rmmod.tail = [] := List.eq_nil_of_length_eq_zero (by rw [List.length_tail]; omega)
      have hn : p.rmmod.length - 1 = 0 := by omega
      simp only [atMostOne, hn] at h
      simp only [rmRun, fifoRun, modulePopRmmod]
      rw [ih { p with rmmod := p.rmmod.tail } (by simp [ht]) (by simpa [ht] using h)]

theorem one_at_a_time_fifo :
    rmRun echo [.push (removeRequest 1) true true, .pop, .push (removeRequest 2) true true, .pop] =
      ({ echo with rmmod := (fifoRun echo.rmmod [.push (removeRequest 1) true true, .pop,
          .push (removeRequest 2) true true, .pop]).1 },
        (fifoRun echo.rmmod [.push (removeRequest 1) true true, .pop,
          .push (removeRequest 2) true true, .pop]).2) :=
  rmRun_eq_fifo echo _ (by decide) (by decide)

/-- Two remove requests pushed and popped: the second comes out first, where the spec's FIFO
returns the first. -/
theorem rmmod_pops_newest_first :
    (rmRun echo [.push (removeRequest 1) true true, .push (removeRequest 2) true true, .pop, .pop]).2 =
      [some (removeRequest 2), some (removeRequest 1)] ∧
    (fifoRun [] [.push (removeRequest 1) true true, .push (removeRequest 2) true true, .pop, .pop]).2 =
      [some (removeRequest 1), some (removeRequest 2)] :=
  ⟨rfl, rfl⟩

/-! ### The `insmod` slot -/

/-- The calls on the `insmod` slot: a push, with whether its copy succeeds, and a pop. -/
inductive InsOp
  | push (m : Msg) (copy : Bool)
  | pop
  deriving DecidableEq, Repr

/-- A run of calls on the `insmod` slot: the record after it and what each pop returned. -/
def insRun (p : Module) : List InsOp → Module × List (Option Msg)
  | [] => (p, [])
  | .push m copy :: ops => insRun (keep p (modulePushInsmod p m copy)) ops
  | .pop :: ops =>
    let r := insRun (modulePopInsmod p).1 ops
    (r.1, (modulePopInsmod p).2 :: r.2)

/-- The calls that decide what the slot holds: a push that stores its copy, and a pop. -/
def InsOp.settles : InsOp → Bool
  | .push _ copy => copy
  | .pop => true

/-- The spec's slot, from its words ("at-most-one install-module request; push replaces any
prior"): after the calls `pre`, the slot holds the copy of the newest request pushed since
the last pop, nothing if a pop came after every push, and what it held before if there was
neither. -/
def sinceLastPop (init : Option Msg) (pre : List InsOp) : Option Msg :=
  match pre.reverse.find? InsOp.settles with
  | some (.push m _) => some (copyNoPayload m)
  | some .pop => none
  | none => init

lemma keep_pushInsmod (p : Module) (m : Msg) (copy : Bool) :
    keep p (modulePushInsmod p m copy) =
      if copy then { p with insmod := some (copyNoPayload m) } else p := by
  cases copy <;> rfl

lemma sinceLastPop_cons (init : Option Msg) (op : InsOp) (pre : List InsOp) :
    sinceLastPop init (op :: pre) = sinceLastPop (match op with
      | .push m copy => if copy then some (copyNoPayload m) else init
      | .pop => none) pre := by
  unfold sinceLastPop
  rw [List.reverse_cons, List.find?_append]
  rcases pre.reverse.find? InsOp.settles with _ | ⟨_ | _⟩ <;> cases op <;> try rfl
  all_goals rename_i c; cases c <;> rfl

lemma insRun_insmod (p : Module) (pre : List InsOp) :
    (insRun p pre).1.insmod = sinceLastPop p.insmod pre := by
  induction pre generalizing p with
  | nil => rfl
  | cons op pre ih =>
    rw [sinceLastPop_cons]
    cases op with
    | push m copy => rw [insRun, ih, keep_pushInsmod]; cases copy <;> rfl
    | pop => rw [insRun, ih]; rfl

lemma insRun_append (p : Module) (pre ops : List InsOp) :
    insRun p (pre ++ ops) =
      ((insRun (insRun p pre).1 ops).1, (insRun p pre).2 ++ (insRun (insRun p pre).1 ops).2) := by
  induction pre generalizing p with
  | nil => rfl
  | cons op pre ih => cases op <;> simp [insRun, ih]

/-- **The `insmod` slot is the spec's.** After any calls `pre`, the next pop returns the copy
of the newest request pushed since the previous pop, `NULL` if none was, and what the slot
held before the run if there was no pop and no push; a push whose copy fails changes
nothing. -/
theorem insmod_slot (p : Module) (pre post : List InsOp) :
    (∃ rest, (insRun p (pre ++ .pop :: post)).2 = (insRun p pre).2 ++ sinceLastPop p.insmod pre :: rest) ∧
    ∀ m, insRun p (.push m false :: post) = insRun p post := by
  refine ⟨⟨(insRun (modulePopInsmod (insRun p pre).1).1 post).2, ?_⟩, fun m => ?_⟩
  · rw [insRun_append, ← insRun_insmod]
    rfl
  · rw [insRun, keep_pushInsmod, if_neg Bool.false_ne_true]

end FluxBroker.Pending
