import FluxBroker.ServhashFutures

/-!
The references the servhash keeps on its clients' request messages.

`servhash_add` takes a reference on the request with `flux_msg_incref` and keeps it as the
entry's `add_request`, `servhash_remove` takes one and keeps it as `remove_request`, and
`servhash_entry_destroy` releases both with `flux_msg_decref`. The ledger of a call lists the
references it takes and releases, and those it loses: `servhash_remove` stores its reference
over `remove_request` without releasing what was there. An entry holds one there only if an
earlier `servhash_remove` took it and then failed at `flux_service_unregister`, which leaves
`f_remove` unset, so the check guarding the call lets a second `servhash_remove` through.

Over every run, the references taken are those the entries hold, those released and those
lost, each once, and every reference lost is the request of a call that failed at
`flux_service_unregister`.
-/

namespace FluxBroker.ServhashRefs

open FluxBroker.Message FluxBroker.Servhash FluxBroker.ServhashAnswers
open FluxBroker.ServhashRegistrations FluxBroker.ServhashFutures

/-! ### The ledger of a call -/

/-- The requests entry `e` holds a reference on: `add_request`, and `remove_request` once
set. -/
def entryMsgs (e : Entry) : List ℕ := e.addRequest :: e.removeRequest.toList

/-- The references the entries hold. -/
def held (l : List Entry) : Multiset ℕ := (l.map fun e => (entryMsgs e : Multiset ℕ)).sum

/-- What `zhashx_delete (sh->services, name)` releases: the requests of the entry its
destructor destroys. -/
def deleteMsgs (s : State) (name : String) : List ℕ := ((s.lookup name).map entryMsgs).getD []

/-- The references a call takes with `flux_msg_incref`, releases with `flux_msg_decref`, and
loses by storing another over the pointer that held them. -/
structure Refs where
  taken : List ℕ := []
  released : List ℕ := []
  lost : List ℕ := []
  deriving DecidableEq, Repr

instance : Append Refs :=
  ⟨fun a b => ⟨a.taken ++ b.taken, a.released ++ b.released, a.lost ++ b.lost⟩⟩

@[simp] lemma Refs.append_taken (a b : Refs) : (a ++ b).taken = a.taken ++ b.taken := rfl
@[simp] lemma Refs.append_released (a b : Refs) : (a ++ b).released = a.released ++ b.released := rfl
@[simp] lemma Refs.append_lost (a b : Refs) : (a ++ b).lost = a.lost ++ b.lost := rfl

/-- `servhash_add`: the reference is taken once `servhash_entry_create` has succeeded, and a
failure after that destroys the entry, which releases it. -/
def addRefs (s : State) (name uuid : String) (msg : ℕ) (fail : AddFail) : Refs :=
  if (s.lookup name).isSome then {}
  else
    let e : Entry := ⟨name, uuid, msg, none, none, none, false⟩
    match fail with
    | .create _ => {}
    | .register _ => { taken := [msg], released := entryMsgs e }
    | .then_ _ => { taken := [msg], released := entryMsgs { e with fAdd := some s.next } }
    | .none => { taken := [msg] }

/-- `servhash_remove`: the reference is taken once the checks pass and stored over the one the
entry holds; a failure of `flux_future_then` deletes the entry. -/
def removeRefs (s : State) (name uuid : String) (msg : ℕ) (fail : RemoveFail) : Refs :=
  match s.lookup name with
  | none => {}
  | some e =>
    if e.uuid ≠ uuid ∨ e.fRemove.isSome then {}
    else
      let e' := { e with removeRequest := some msg }
      match fail with
      | .unregister _ | .none => { taken := [msg], lost := e.removeRequest.toList }
      | .then_ _ => { taken := [msg], released := entryMsgs e', lost := e.removeRequest.toList }

/-- What a walk of `zhashx_delete` over the keys `ns` releases, deleting the keys `p` picks in
the table as the walk has left it. -/
def walkMsgs (p : State → String → Bool) : State → List String → List ℕ
  | _, [] => []
  | t, n :: ns => if p t n then deleteMsgs t n ++ walkMsgs p (t.delete n) ns else walkMsgs p t ns

/-- The continuation of the fulfilled future `f`: `add_continuation` destroys the entry when
the `service.add` failed, `remove_continuation` always. -/
def contRefs (s : State) (f : ℕ) : Refs :=
  match s.future f with
  | some ⟨_, some r, false⟩ =>
    match s.services.find? (·.fAdd = some f), s.services.find? (·.fRemove = some f) with
    | some e, _ => if r ≠ 0 then { released := entryMsgs e } else {}
    | none, some e => { released := entryMsgs e }
    | none, none => {}
  | _ => {}

def stepRefs (s : State) : Act → Refs
  | .add name uuid msg fail => addRefs s name uuid msg fail
  | .remove name uuid msg fail => removeRefs s name uuid msg fail
  | .disconnect uuid =>
    { released := walkMsgs (fun t name => (t.lookup name).any (·.uuid = uuid)) s
        (s.services.map (·.name)) }
  | .destroy => { released := walkMsgs (fun _ _ => true) s (s.services.map (·.name)) }
  | .upstream => {}
  | .cont f => contRefs s f

def runRefs (s : State) : List Act → Refs
  | [] => {}
  | a :: as =>
    match step s a with
    | some s' => stepRefs s a ++ runRefs s' as
    | none => {}

/-- The request of a call of `servhash_remove` made to fail at `flux_service_unregister`. -/
def failedUnregister : Act → List ℕ
  | .remove _ _ msg (.unregister _) => [msg]
  | _ => []

/-! ### What the entries hold -/

@[simp] lemma held_nil : held [] = 0 := rfl

@[simp] lemma held_append (l l' : List Entry) : held (l ++ l') = held l + held l' := by
  simp [held]

@[simp] lemma held_cons (e : Entry) (l : List Entry) : held (e :: l) = entryMsgs e + held l := by
  simp [held]

lemma entryMsgs_coe (e : Entry) :
    (entryMsgs e : Multiset ℕ) = {e.addRequest} + (e.removeRequest.toList : Multiset ℕ) := by
  simp [entryMsgs]

lemma held_split (pre post : List Entry) (e : Entry) :
    held (pre ++ e :: post) = held (pre ++ post) + entryMsgs e := by
  simp only [held_append, held_cons]
  abel

lemma filter_split {pre post : List Entry} {e : Entry} (hpre : ∀ x ∈ pre, x.name ≠ e.name)
    (hpost : ∀ x ∈ post, x.name ≠ e.name) {e' : Entry} (hname : e'.name = e.name) :
    (pre ++ e' :: post).filter (·.name ≠ e.name) = pre ++ post := by
  rw [List.filter_append, List.filter_cons_of_neg (by simpa using hname),
    List.filter_eq_self.mpr fun x hx => by simpa using hpre x hx,
    List.filter_eq_self.mpr fun x hx => by simpa using hpost x hx]

lemma held_delete {t : State} (hn : (t.services.map (·.name)).Nodup) (n : String) :
    held t.services = held (t.delete n).services + deleteMsgs t n := by
  cases hl : t.lookup n with
  | none => simp [State.delete, deleteMsgs, hl]
  | some e =>
    obtain rfl : e.name = n := by simpa using List.find?_some hl
    obtain ⟨pre, post, hs, hpre, hpost⟩ := split_of_mem hn (List.mem_of_find?_eq_some hl)
    rw [delete_services, hs, filter_split hpre hpost rfl, deleteMsgs, hl, held_split]
    rfl

lemma held_walk (p : State → String → Bool) : ∀ (ns : List String) (t : State),
    (t.services.map (·.name)).Nodup →
    held t.services =
      held (ns.foldl (fun t n => if p t n then t.delete n else t) t).services + walkMsgs p t ns
  | [], t, _ => by simp [walkMsgs]
  | n :: ns, t, hn => by
    by_cases hp : p t n
    · have hn' := hn.sublist ((delete_shrinks t n).services.map (·.name))
      simp only [List.foldl_cons, hp, if_true, walkMsgs, ← Multiset.coe_add]
      rw [held_delete hn n, held_walk p ns _ hn']
      abel
    · simp only [List.foldl_cons, hp, Bool.false_eq_true, if_false, walkMsgs]
      exact held_walk p ns t hn

/-! ### One call keeps the books -/

lemma add_balance (s : State) (name uuid : String) (msg : ℕ) (fail : AddFail) :
    held s.services + (addRefs s name uuid msg fail).taken =
      held (servhashAdd s name uuid msg fail).1.services + (addRefs s name uuid msg fail).released +
        (addRefs s name uuid msg fail).lost := by
  unfold servhashAdd addRefs
  split
  · simp
  · cases fail <;> simp [entryDestroy_services, entryMsgs]

section Balance

variable {s : State} (hn : (s.services.map (·.name)).Nodup)
include hn

lemma remove_balance (name uuid : String) (msg : ℕ) (fail : RemoveFail) :
    held s.services + (removeRefs s name uuid msg fail).taken =
      held (servhashRemove s name uuid msg fail).1.services +
        (removeRefs s name uuid msg fail).released + (removeRefs s name uuid msg fail).lost := by
  unfold servhashRemove removeRefs
  cases hl : s.lookup name with
  | none => simp
  | some e =>
    obtain rfl : e.name = name := by simpa using List.find?_some hl
    obtain ⟨pre, post, hs, hpre, hpost⟩ := split_of_mem hn (List.mem_of_find?_eq_some hl)
    dsimp only
    split
    · simp
    · rw [hs, held_split]
      cases fail <;> dsimp only <;>
        simp only [State.send_services, delete_services, setEntry_split hs hpre hpost,
          filter_split hpre hpost, held_split, entryMsgs_coe, Option.toList_some,
          Multiset.coe_singleton, Multiset.coe_nil, add_zero] <;>
        abel

lemma cont_services {s' : State} {f : ℕ} (h : step s (.cont f) = some s') :
    ∃ pre post e, s.services = pre ++ e :: post ∧
      ((s'.services = pre ++ post ∧ contRefs s f = { released := entryMsgs e }) ∨
        ∃ live, s'.services = pre ++ { e with live := live } :: post ∧ contRefs s f = {}) := by
  obtain ⟨i, r, e, hfut, ⟨ha, rfl⟩ | ⟨ha, hrem, rfl⟩⟩ := cont_cases h
  · obtain ⟨pre, post, hs, hpre, hpost⟩ := split_of_mem hn (List.mem_of_find?_eq_some ha)
    have hs' : (s.markRan f).services = pre ++ e :: post := hs
    refine ⟨pre, post, e, hs, ?_⟩
    simp only [contRefs, hfut, ha]
    unfold addContinuation
    dsimp only
    split_ifs with h0 h1
    · exact .inl ⟨by simp only [delete_services, setEntry_split hs' hpre hpost,
        filter_split hpre hpost], rfl⟩
    · exact .inr ⟨true, setEntry_split hs' hpre hpost rfl, rfl⟩
    · exact absurd (not_not.mp h0) h1
  · obtain ⟨pre, post, hs, hpre, hpost⟩ := split_of_mem hn (List.mem_of_find?_eq_some hrem)
    have hs' : (s.markRan f).services = pre ++ e :: post := hs
    refine ⟨pre, post, e, hs, .inl ⟨?_, by simp only [contRefs, hfut, ha, hrem]⟩⟩
    unfold removeContinuation
    split_ifs <;> simp only [delete_services, setEntry_split hs' hpre hpost, filter_split hpre hpost]

lemma cont_balance {s' : State} {f : ℕ} (h : step s (.cont f) = some s') :
    held s.services + (contRefs s f).taken =
      held s'.services + (contRefs s f).released + (contRefs s f).lost := by
  obtain ⟨pre, post, e, hs, ⟨hs', hr⟩ | ⟨live, hs', hr⟩⟩ := cont_services hn h <;>
    simp only [hs, hs', hr, held_split, Multiset.coe_nil, add_zero]
  rfl

/-- **One call keeps the books.** What the entries held and the call took is what they hold
after it, what it released and what it lost. -/
lemma step_balance {s' : State} {a : Act} (h : step s a = some s') :
    held s.services + (stepRefs s a).taken =
      held s'.services + (stepRefs s a).released + (stepRefs s a).lost := by
  cases a with
  | add name uuid msg fail => cases h; exact add_balance s name uuid msg fail
  | remove name uuid msg fail => cases h; exact remove_balance hn name uuid msg fail
  | disconnect uuid => cases h; simpa [stepRefs] using held_walk _ _ s hn
  | destroy => cases h; simpa [stepRefs] using held_walk (fun _ _ => true) _ s hn
  | upstream =>
    dsimp only [step] at h
    split at h
    · cases h; simp [stepRefs]
    · cases h
  | cont f => exact cont_balance hn h

end Balance

lemma run_balance : ∀ {as : List Act} {s s' : State}, run s as = some s' → Inv s →
    held s.services + (runRefs s as).taken =
      held s'.services + (runRefs s as).released + (runRefs s as).lost
  | [], _, _, h, _ => by cases h; simp [runRefs]
  | a :: as, s, s', h, hi => by
    obtain ⟨s₁, h₁, h₂⟩ := Option.bind_eq_some.mp h
    have h1 := step_balance hi.names h₁
    have h2 := run_balance h₂ (step_inv hi h₁)
    simp only [runRefs, h₁, Refs.append_taken, Refs.append_released, Refs.append_lost,
      ← Multiset.coe_add]
    calc held s.services + ((stepRefs s a).taken + (runRefs s₁ as).taken)
        = held s.services + (stepRefs s a).taken + (runRefs s₁ as).taken := (add_assoc _ _ _).symm
      _ = held s₁.services + (runRefs s₁ as).taken + (stepRefs s a).released +
          (stepRefs s a).lost := by rw [h1]; abel
      _ = _ := by rw [h2]; abel

/-! ### References lost -/

/-- The `remove_request` references of the entries that have no `f_remove`: only a failed
`flux_service_unregister` leaves one, and the next `servhash_remove` stores over it. -/
def stranded (l : List Entry) : Multiset ℕ :=
  (l.map fun e => if e.fRemove = none then (e.removeRequest.toList : Multiset ℕ) else 0).sum

@[simp] lemma stranded_nil : stranded [] = 0 := rfl

@[simp] lemma stranded_append (l l' : List Entry) :
    stranded (l ++ l') = stranded l + stranded l' := by
  simp [stranded]

@[simp] lemma stranded_cons (e : Entry) (l : List Entry) :
    stranded (e :: l) =
      (if e.fRemove = none then (e.removeRequest.toList : Multiset ℕ) else 0) + stranded l := by
  simp [stranded]

lemma stranded_split (pre post : List Entry) (e : Entry) :
    stranded (pre ++ e :: post) = stranded (pre ++ post) +
      if e.fRemove = none then (e.removeRequest.toList : Multiset ℕ) else 0 := by
  simp only [stranded_append, stranded_cons]
  abel

lemma stranded_mono {l l' : List Entry} (h : l'.Sublist l) : stranded l' ≤ stranded l :=
  (h.map _).sum_le_sum fun _ _ => zero_le _

lemma add_stranded (s : State) (name uuid : String) (msg : ℕ) (fail : AddFail) :
    ((addRefs s name uuid msg fail).lost : Multiset ℕ) +
      stranded (servhashAdd s name uuid msg fail).1.services ≤ stranded s.services := by
  unfold servhashAdd addRefs
  split
  · simp
  · cases fail <;> simp [entryDestroy_services, stranded]

section Lost

variable {s : State} (hn : (s.services.map (·.name)).Nodup)
include hn

lemma remove_stranded (name uuid : String) (msg : ℕ) (fail : RemoveFail) :
    ((removeRefs s name uuid msg fail).lost : Multiset ℕ) +
      stranded (servhashRemove s name uuid msg fail).1.services ≤
        stranded s.services + (failedUnregister (.remove name uuid msg fail) : Multiset ℕ) := by
  unfold servhashRemove removeRefs
  cases hl : s.lookup name with
  | none => simp
  | some e =>
    obtain rfl : e.name = name := by simpa using List.find?_some hl
    obtain ⟨pre, post, hs, hpre, hpost⟩ := split_of_mem hn (List.mem_of_find?_eq_some hl)
    dsimp only
    split
    · simp
    · rename_i hc
      have hf : e.fRemove = none := Option.not_isSome_iff_eq_none.mp (not_or.mp hc).2
      rw [hs, stranded_split]
      cases fail <;> dsimp only <;>
        simp only [State.send_services, delete_services, setEntry_split hs hpre hpost,
          filter_split hpre hpost, stranded_split, hf, failedUnregister, Option.toList_some,
          Option.some_ne_none, if_true, if_false, Multiset.coe_singleton, Multiset.coe_nil,
          add_zero] <;>
        exact le_of_eq (by abel)

/-- **No call loses a reference except over a failed `flux_service_unregister`.** What a call
loses, with what it leaves stranded, is at most what was stranded and the request of the
call if it failed at `flux_service_unregister`. -/
lemma step_stranded {s' : State} {a : Act} (h : step s a = some s') :
    ((stepRefs s a).lost : Multiset ℕ) + stranded s'.services ≤
      stranded s.services + (failedUnregister a : Multiset ℕ) := by
  cases a with
  | add name uuid msg fail => cases h; simpa [failedUnregister] using add_stranded s name uuid msg fail
  | remove name uuid msg fail => cases h; exact remove_stranded hn name uuid msg fail
  | disconnect uuid =>
    cases h; simpa [stepRefs, failedUnregister] using stranded_mono (servhashDisconnect_shrinks s uuid).services
  | destroy => cases h; simpa [stepRefs, failedUnregister] using stranded_mono (servhashDestroy_shrinks s).services
  | upstream =>
    dsimp only [step] at h
    split at h
    · cases h; simp [stepRefs, failedUnregister]
    · cases h
  | cont f =>
    obtain ⟨pre, post, e, hs, ⟨hs', hr⟩ | ⟨live, hs', hr⟩⟩ := cont_services hn h <;>
      simp only [stepRefs, hs, hs', hr, stranded_split, failedUnregister, Multiset.coe_nil,
        zero_add, add_zero]
    · exact le_add_right le_rfl
    · exact le_rfl

end Lost

lemma run_stranded : ∀ {as : List Act} {s s' : State}, run s as = some s' → Inv s →
    ((runRefs s as).lost : Multiset ℕ) + stranded s'.services ≤
      stranded s.services + (as.flatMap failedUnregister : Multiset ℕ)
  | [], _, _, h, _ => by cases h; simp [runRefs]
  | a :: as, s, s', h, hi => by
    obtain ⟨s₁, h₁, h₂⟩ := Option.bind_eq_some.mp h
    have h1 := step_stranded hi.names h₁
    have h2 := run_stranded h₂ (step_inv hi h₁)
    simp only [runRefs, h₁, Refs.append_lost, List.flatMap_cons, ← Multiset.coe_add]
    calc ((stepRefs s a).lost : Multiset ℕ) + (runRefs s₁ as).lost + stranded s'.services
        ≤ (stepRefs s a).lost + (stranded s₁.services + (as.flatMap failedUnregister : Multiset ℕ)) := by
          rw [add_assoc]; exact add_le_add_left h2 _
      _ ≤ stranded s.services + failedUnregister a + (as.flatMap failedUnregister : Multiset ℕ) := by
          rw [← add_assoc]; exact add_le_add_right h1 _
      _ = _ := add_assoc _ _ _

lemma run_append (s : State) (as bs : List Act) : run s (as ++ bs) = (run s as).bind (run · bs) := by
  induction as generalizing s with
  | nil => rfl
  | cons a as ih => simp only [List.cons_append, run, List.append_eq, ih, Option.bind_assoc]

/-! ### Every reference is accounted for -/

lemma held_init (others : List String) : held (init others).services = 0 := rfl

lemma stranded_init (others : List String) : stranded (init others).services = 0 := rfl

/-- **Every reference the servhash takes is accounted for.** On every run of the servhash
from its creation, the references taken on the clients' requests are, each once, those the
entries hold, those `servhash_entry_destroy` released, and those `servhash_remove` lost by
storing over `remove_request`; and every reference lost is the request of a
`servhash_remove` of the run that failed at `flux_service_unregister`, each lost at most
once. -/
theorem refs_balance {others : List String} {as : List Act} {s : State}
    (h : run (init others) as = some s) :
    ((runRefs (init others) as).taken : Multiset ℕ) =
      held s.services + (runRefs (init others) as).released + (runRefs (init others) as).lost ∧
    ((runRefs (init others) as).lost : Multiset ℕ) ≤ (as.flatMap failedUnregister : Multiset ℕ) := by
  have hb := run_balance h (init_inv others)
  have hl := run_stranded h (init_inv others)
  rw [held_init, zero_add] at hb
  rw [stranded_init, zero_add] at hl
  exact ⟨hb, le_self_add.trans hl⟩

/-- `servhash_remove` of `foo` fails at `flux_service_unregister`, and the client retries. -/
def retriedRemove : List Act :=
  [.add "foo" "c1" 1 .none, .upstream, .cont 0, .remove "foo" "c1" 2 (.unregister ENOMEM),
    .remove "foo" "c1" 3 .none]

theorem retried_remove_balance :
    ∃ s, run (init []) retriedRemove = some s ∧
      ((runRefs (init []) retriedRemove).taken : Multiset ℕ) =
        held s.services + (runRefs (init []) retriedRemove).released +
          (runRefs (init []) retriedRemove).lost ∧
      ((runRefs (init []) retriedRemove).lost : Multiset ℕ) ≤
        (retriedRemove.flatMap failedUnregister : Multiset ℕ) :=
  ⟨_, rfl, @refs_balance [] retriedRemove _ rfl⟩

/-- The retry stores its reference over the one the failed call took on request 2, which is
never released. -/
example : (runRefs (init []) retriedRemove).lost = [2] ∧
    (runRefs (init []) retriedRemove).taken = [1, 2, 3] := by
  decide

/-- **Without a failed `flux_service_unregister`, `servhash_destroy` settles every
reference.** On every run of the servhash from its creation in which no `servhash_remove`
fails at `flux_service_unregister`, once `servhash_destroy` has run, the references
released are exactly those taken: each reference is released once, none leaks and none is
released twice. -/
theorem destroy_releases_each_ref {others : List String} {as : List Act} {s : State}
    (h : run (init others) as = some s) (hu : as.flatMap failedUnregister = []) :
    ((runRefs (init others) (as ++ [.destroy])).taken : Multiset ℕ) =
      (runRefs (init others) (as ++ [.destroy])).released := by
  have hd : run (init others) (as ++ [.destroy]) = some (servhashDestroy s) := by
    rw [run_append, h]
    rfl
  have hl := run_stranded hd (init_inv others)
  rw [servhashDestroy_services, stranded_init, List.flatMap_append, hu] at hl
  have hl0 : ((runRefs (init others) (as ++ [.destroy])).lost : Multiset ℕ) = 0 :=
    nonpos_iff_eq_zero.mp (by simpa [failedUnregister] using hl)
  have hb := run_balance hd (init_inv others)
  rwa [servhashDestroy_services, held_init, held_nil, hl0, zero_add, add_zero, zero_add] at hb

theorem removed_then_destroyed :
    ∃ s, run (init []) [.add "foo" "c1" 1 .none, .upstream, .cont 0, .remove "foo" "c1" 2 .none] =
        some s ∧
      ((runRefs (init []) ([.add "foo" "c1" 1 .none, .upstream, .cont 0, .remove "foo" "c1" 2 .none] ++
          [.destroy])).taken : Multiset ℕ) =
        (runRefs (init []) ([.add "foo" "c1" 1 .none, .upstream, .cont 0, .remove "foo" "c1" 2 .none] ++
          [.destroy])).released :=
  ⟨_, rfl, @destroy_releases_each_ref [] [.add "foo" "c1" 1 .none, .upstream, .cont 0,
    .remove "foo" "c1" 2 .none] _ rfl rfl⟩

end FluxBroker.ServhashRefs
