import FluxBroker.ServhashRefs
import FluxBroker.ServhashReplies

/-!
Work in flight settles.

The servhash starts work with `servhash_add`, `servhash_remove` and the destructor's open-loop
`service.remove`; upstream's answers and the reactor's continuations settle it. Each settling
step takes a request off the upstream queue or runs a continuation, which queues at most one
request as it deletes its entry, so any schedule of them ends. A reachable servhash on which
none of them can step has nothing queued and no continuation left: upstream's answer is
queued for every future still waiting, and a future it has answered always finds its entry.
An orderly run can so always be completed, and then every accepted request has been answered
exactly once.
-/

namespace FluxBroker.ServhashSettle

open FluxBroker.Message FluxBroker.Servhash FluxBroker.ServhashAnswers
open FluxBroker.ServhashRegistrations FluxBroker.ServhashFutures FluxBroker.ServhashRefs
open FluxBroker.ServhashReplies

/-- The steps that settle work in flight: upstream answering its oldest request, and the
reactor running a continuation. -/
def settling : Act → Bool
  | .upstream | .cont _ => true
  | .add .. | .remove .. | .disconnect _ | .destroy => false

/-- Nothing is queued upstream, and every continuation has run. -/
def Settled (s : State) : Prop := s.upstream = [] ∧ ∀ x ∈ s.futures, x.ran = true

instance (s : State) : Decidable (Settled s) := inferInstanceAs (Decidable (_ ∧ ∀ _ ∈ _, _))

/-! ### Every schedule ends -/

/-- What is left to settle: the requests queued upstream, and two for each continuation not
yet run, which may queue one open-loop `service.remove` as it deletes its entry. -/
def pending (s : State) : ℕ := s.upstream.length + 2 * s.futures.countP fun x => !x.ran

lemma countP_fulfil (s : State) (f : ℕ) (r : ℤ) :
    (s.fulfil f r).futures.countP (fun x => !x.ran) = s.futures.countP fun x => !x.ran := by
  simp only [State.fulfil, List.countP_map]
  congr 1
  funext x
  simp only [Function.comp_apply]
  split <;> rfl

lemma countP_markRan {s : State} {f i : ℕ} {r : ℤ} (hfut : s.future f = some ⟨i, some r, false⟩) :
    (s.markRan f).futures.countP (fun x => !x.ran) < s.futures.countP fun x => !x.ran := by
  have hid : i = f := by simpa using List.find?_some hfut
  have hran : (fun x : Future => !(if x.id = f then { x with ran := true } else x).ran) =
      fun x => decide (x.id ≠ f) && !x.ran := by
    funext x
    by_cases h : x.id = f <;> simp [h]
  simp only [State.markRan, List.countP_map, Function.comp_def, hran]
  rw [← List.countP_filter, List.countP_eq_length_filter, List.countP_eq_length_filter]
  refine List.length_filter_lt_length_iff_exists.mpr
    ⟨_, List.mem_filter.mpr ⟨List.mem_of_find?_eq_some hfut, rfl⟩, ?_⟩
  simp [hid]

lemma pending_markRan {s : State} {f i : ℕ} {r : ℤ} (hfut : s.future f = some ⟨i, some r, false⟩) :
    pending (s.markRan f) + 2 ≤ pending s := by
  have := countP_markRan hfut
  simp only [pending, State.markRan_upstream]
  omega

lemma pending_entryDestroy (t : State) (e : Entry) : pending (entryDestroy t e) ≤ pending t + 1 := by
  have hf := (entryDestroy_futures_sublist t e).countP_le fun x => !x.ran
  have hu : (entryDestroy t e).upstream.length ≤ t.upstream.length + 1 := by
    rw [entryDestroy_upstream]
    split <;> simp
  unfold pending
  omega

lemma pending_delete (t : State) (n : String) : pending (t.delete n) ≤ pending t + 1 := by
  unfold State.delete
  split
  · exact pending_entryDestroy _ _
  · omega

lemma upstream_pending {s s' : State} (hs : step s .upstream = some s') : pending s' < pending s := by
  dsimp only [step] at hs
  split at hs
  · next q rest hq =>
    cases hs
    simp only [pending, State.fulfil_upstream, countP_fulfil, hq, List.length_cons]
    omega
  · cases hs

lemma cont_pending {s s' : State} {f : ℕ} (hs : step s (.cont f) = some s') : pending s' < pending s := by
  obtain ⟨i, r, e, hfut, ⟨-, rfl⟩ | ⟨-, -, rfl⟩⟩ := cont_cases hs <;> have hm := pending_markRan hfut
  · unfold addContinuation
    dsimp only
    split
    · exact (pending_delete _ _).trans_lt (Nat.lt_of_succ_le hm)
    · exact Nat.lt_of_succ_le (Nat.le_of_succ_le hm)
  · exact (pending_delete _ _).trans_lt (Nat.lt_of_succ_le hm)

lemma settling_pending {s s' : State} {b : Act} (hb : settling b = true) (hs : step s b = some s') :
    pending s' < pending s := by
  cases b with
  | upstream => exact upstream_pending hs
  | cont f => exact cont_pending hs
  | add _ _ _ _ | remove _ _ _ _ | disconnect _ | destroy => cases hb

/-- **Every schedule of settling steps ends.** From any servhash, a run of upstream answers
and continuations takes at most as many steps as there are requests queued upstream and
twice the continuations not yet run, less what it leaves. -/
theorem settling_run_bounded : ∀ {bs : List Act} {s s' : State}, bs.all settling = true →
    run s bs = some s' → bs.length + pending s' ≤ pending s
  | [], _, _, _, h => by cases h; simp
  | b :: bs, s, s', hb, h => by
    obtain ⟨s₁, h₁, h₂⟩ := Option.bind_eq_some.mp h
    simp only [List.all_cons, Bool.and_eq_true] at hb
    have h1 := settling_pending hb.1 h₁
    have h2 := settling_run_bounded hb.2 h₂
    simp only [List.length_cons]
    omega

theorem add_settles_in_two :
    ∃ s s', run (init []) [.add "foo" "c1" 1 .none] = some s ∧ run s [.upstream, .cont 0] = some s' ∧
      [Act.upstream, .cont 0].length + pending s' ≤ pending s :=
  ⟨_, _, rfl, rfl, @settling_run_bounded [.upstream, .cont 0] _ _ (by decide) rfl⟩

/-! ### Nothing is stuck -/

/-- Every future upstream has not answered has its request queued upstream. -/
def Queued (s : State) : Prop := ∀ x ∈ s.futures, x.result = none → ∃ q ∈ s.upstream, q.fut = x.id

lemma init_queued (others : List String) : Queued (init others) := fun _ h => nomatch h

lemma Queued.of_map {s t : State} (h : Queued s)
    (hf : ∀ x ∈ t.futures, ∃ y ∈ s.futures, y.id = x.id ∧ y.result = x.result)
    (hu : ∀ q ∈ s.upstream, q ∈ t.upstream) : Queued t := fun x hx hr => by
  obtain ⟨y, hy, hid, hres⟩ := hf x hx
  obtain ⟨q, hq, hqf⟩ := h y hy (hres.trans hr)
  exact ⟨q, hu q hq, hqf.trans hid⟩

lemma Queued.send {s : State} (h : Queued s) (register : Bool) (name : String) (keep : Bool) :
    Queued (s.send register name keep) := fun x hx hr => by
  have old : ∀ x ∈ s.futures, x.result = none →
      ∃ q ∈ (s.send register name keep).upstream, q.fut = x.id := fun x hx hr => by
    obtain ⟨q, hq, hqf⟩ := h x hx hr
    exact ⟨q, List.mem_append_left _ hq, hqf⟩
  rw [State.send_futures] at hx
  split at hx
  · rcases List.mem_append.mp hx with hx | hx
    · exact old x hx hr
    · obtain rfl := List.mem_singleton.mp hx
      exact ⟨_, List.mem_append_right _ (List.mem_singleton_self _), rfl⟩
  · exact old x hx hr

lemma Queued.congr {s t : State} (h : Queued s) (hf : t.futures = s.futures)
    (hu : t.upstream = s.upstream) : Queued t := by
  unfold Queued
  rw [hf, hu]
  exact h

lemma Queued.setEntry {s : State} (h : Queued s) (e : Entry) : Queued (s.setEntry e) := h

lemma Queued.markRan {s : State} (h : Queued s) (f : ℕ) : Queued (s.markRan f) :=
  h.of_map (fun x hx => by
    obtain ⟨y, hy, rfl⟩ := List.mem_map.mp hx
    exact ⟨y, hy, by split <;> rfl, by split <;> rfl⟩) fun _ hq => hq

lemma Queued.entryDestroy {t : State} (h : Queued t) (e : Entry) : Queued (entryDestroy t e) :=
  h.of_map (fun x hx => ⟨x, (mem_entryDestroy hx).1, rfl, rfl⟩) fun q hq => by
    rw [entryDestroy_upstream]
    exact List.mem_append_left _ hq

lemma Queued.delete {t : State} (h : Queued t) (n : String) : Queued (t.delete n) := by
  unfold State.delete
  split
  · exact Queued.entryDestroy (by exact h) _
  · exact h

lemma Queued.foldl {g : State → String → State} (hg : ∀ t n, Queued t → Queued (g t n)) :
    ∀ (ns : List String) (t : State), Queued t → Queued (ns.foldl g t)
  | [], _, h => h
  | n :: ns, t, h => Queued.foldl hg ns _ (hg t n h)

lemma servhashAdd_queued {s : State} (h : Queued s) (name uuid : String) (msg : ℕ) (fail : AddFail) :
    Queued (servhashAdd s name uuid msg fail).1 := by
  unfold servhashAdd
  split_ifs
  · exact h
  cases fail with
  | create => exact h
  | register => exact h.entryDestroy _
  | then_ => exact (h.send true name true).entryDestroy _
  | none => exact h.send true name true

lemma servhashRemove_queued {s : State} (h : Queued s) (name uuid : String) (msg : ℕ)
    (fail : RemoveFail) : Queued (servhashRemove s name uuid msg fail).1 := by
  unfold servhashRemove
  cases s.lookup name with
  | none => exact h
  | some e =>
    dsimp only
    split
    · exact h
    · cases fail with
      | unregister => exact h.setEntry _
      | then_ => exact ((h.setEntry _).send false name true).delete name
      | none => exact (h.setEntry _).send false name true

lemma upstream_queued {s s' : State} (h : Queued s) (hs : step s .upstream = some s') : Queued s' := by
  dsimp only [step] at hs
  split at hs
  · next q rest hq =>
    cases hs
    intro x hx hr
    obtain ⟨y, hy, rfl⟩ := List.mem_map.mp hx
    by_cases hyf : y.id = q.fut
    · simp [hyf] at hr
    · rw [if_neg hyf] at hr ⊢
      obtain ⟨q', hq', hf⟩ := h y hy hr
      rw [hq] at hq'
      rcases List.mem_cons.mp hq' with rfl | hq'
      · exact absurd hf.symm hyf
      · exact ⟨q', hq', hf⟩
  · cases hs

lemma cont_queued {s s' : State} {f : ℕ} (h : Queued s) (hs : step s (.cont f) = some s') : Queued s' := by
  obtain ⟨-, r, e, -, ⟨-, rfl⟩ | ⟨-, -, rfl⟩⟩ := cont_cases hs
  · unfold addContinuation
    dsimp only
    split
    · apply Queued.delete
      exact (h.markRan f).congr rfl rfl
    · exact (h.markRan f).congr rfl rfl
  · unfold removeContinuation
    dsimp only
    apply Queued.delete
    exact (h.markRan f).congr rfl rfl

lemma step_queued {s s' : State} {a : Act} (h : Queued s) (hs : step s a = some s') : Queued s' := by
  cases a with
  | add name uuid msg fail => cases hs; exact servhashAdd_queued h name uuid msg fail
  | remove name uuid msg fail => cases hs; exact servhashRemove_queued h name uuid msg fail
  | disconnect uuid =>
    cases hs
    exact Queued.foldl (fun t n ht => by split; exacts [ht.delete n, ht]) _ s h
  | destroy => cases hs; exact Queued.foldl (fun t n ht => ht.delete n) _ s h
  | upstream => exact upstream_queued h hs
  | cont f => exact cont_queued h hs

lemma run_queued : ∀ {as : List Act} {s s' : State}, run s as = some s' → Queued s → Queued s'
  | [], _, _, h, hq => by cases h; exact hq
  | _ :: _, _, _, h, hq => by
    obtain ⟨s₁, h₁, h₂⟩ := Option.bind_eq_some.mp h
    exact run_queued h₂ (step_queued hq h₁)

lemma cont_isSome {s : State} (ho : Owned s) {x : Future} (hx : x ∈ s.futures) {r : ℤ}
    (hr : x.result = some r) (hran : x.ran = false) : (step s (.cont x.id)).isSome := by
  have hfut : s.future x.id = some ⟨x.id, some r, false⟩ := by
    rw [future_of_mem ho.ids_nodup hx, ← hr, ← hran]
  obtain ⟨e, he, hfe⟩ := mem_refs.mp (ho.perm.subset (List.mem_map_of_mem _ hx))
  simp only [step, hfut]
  cases ha : s.services.find? (·.fAdd = some x.id) with
  | some _ => rfl
  | none =>
    have hrem : e.fRemove = some x.id :=
      hfe.resolve_left fun h' => by simpa [Option.mem_def.mp h'] using List.find?_eq_none.mp ha e he
    have hsome : (s.services.find? (·.fRemove = some x.id)).isSome :=
      List.find?_isSome.mpr ⟨e, he, by simpa using hrem⟩
    obtain ⟨e', he'⟩ := Option.isSome_iff_exists.mp hsome
    rw [he']
    rfl

lemma settled_or_steps {s : State} (ho : Owned s) (hq : Queued s) :
    Settled s ∨ ∃ b, settling b = true ∧ (step s b).isSome := by
  cases hu : s.upstream with
  | cons q rest => exact .inr ⟨.upstream, rfl, by simp [step, hu]⟩
  | nil =>
    by_cases hall : ∀ x ∈ s.futures, x.ran = true
    · exact .inl ⟨hu, hall⟩
    · simp only [not_forall, Bool.not_eq_true] at hall
      obtain ⟨x, hx, hran⟩ := hall
      cases hr : x.result with
      | none =>
        obtain ⟨q, hq', -⟩ := hq x hx hr
        rw [hu] at hq'
        cases hq'
      | some r => exact .inr ⟨.cont x.id, rfl, cont_isSome ho hx hr hran⟩

lemma settled_stuck {s : State} (hs : Settled s) {b : Act} (hb : settling b = true) : step s b = none := by
  cases b with
  | upstream => simp [step, hs.1]
  | cont f =>
    cases hf : s.future f with
    | none => simp [step, hf]
    | some x =>
      obtain ⟨i, res, ran⟩ := x
      obtain rfl : ran = true := hs.2 _ (List.mem_of_find?_eq_some hf)
      cases res <;> simp [step, hf]
  | add _ _ _ _ | remove _ _ _ _ | disconnect _ | destroy => cases hb

/-- **Nothing is stuck.** On every reachable servhash, neither upstream nor any continuation
can step exactly when nothing is queued upstream and every continuation has run: no future
waits for an answer no request will bring, and no continuation finds its entry gone. -/
theorem settled_iff_stuck {others : List String} {as : List Act} {s : State}
    (h : run (init others) as = some s) :
    (∀ b, settling b = true → step s b = none) ↔ Settled s := by
  refine ⟨fun hst => ?_, fun hs _ hb => settled_stuck hs hb⟩
  rcases settled_or_steps (run_owned h (init_owned others)) (run_queued h (init_queued others)) with
    hs | ⟨b, hb, hsome⟩
  · exact hs
  · simp [hst b hb] at hsome

theorem settled_iff_stuck_foo :
    ∃ s, run (init []) [.add "foo" "c1" 1 .none, .upstream, .cont 0] = some s ∧
      ((∀ b, settling b = true → step s b = none) ↔ Settled s) :=
  ⟨_, rfl, @settled_iff_stuck [] [.add "foo" "c1" 1 .none, .upstream, .cont 0] _ rfl⟩

/-! ### Orderly runs complete -/

lemma settle {s : State} (ho : Owned s) (hq : Queued s) :
    ∃ bs, bs.all settling = true ∧ ∃ s', run s bs = some s' ∧ Settled s' := by
  rcases settled_or_steps ho hq with hs | ⟨b, hb, hsome⟩
  · exact ⟨[], rfl, s, rfl, hs⟩
  · obtain ⟨s₁, h₁⟩ := Option.isSome_iff_exists.mp hsome
    have := settling_pending hb h₁
    obtain ⟨bs, hbs, s', hr, hs'⟩ := settle (step_owned ho h₁) (step_queued hq h₁)
    exact ⟨b :: bs, by simp [hb, hbs], s', by simp [run, h₁, hr], hs'⟩
termination_by pending s

lemma orderly_settling : ∀ {bs : List Act} {t : State}, bs.all settling = true → orderly t bs = true
  | [], _, _ => rfl
  | b :: bs, t, hb => by
    simp only [List.all_cons, Bool.and_eq_true] at hb
    have ho : Orderly t b := by
      cases b with
      | upstream | cont _ => trivial
      | add _ _ _ _ | remove _ _ _ _ | disconnect _ | destroy => cases hb.1
    cases hs : step t b with
    | none => simp [orderly, ho, hs]
    | some t' => simp [orderly, ho, hs, orderly_settling hb.2]

lemma orderly_append : ∀ {as : List Act} {s t : State} {bs : List Act}, run s as = some t →
    orderly s as = true → orderly t bs = true → orderly s (as ++ bs) = true
  | [], _, _, _, h, _, hb => by cases h; exact hb
  | a :: as, s, _, _, h, ha, hb => by
    obtain ⟨s₁, h₁, h₂⟩ := Option.bind_eq_some.mp h
    simp only [orderly, Bool.and_eq_true, h₁, Option.elim] at ha
    simp only [List.cons_append, orderly, List.append_eq, h₁, Option.elim, ha.1,
      orderly_append h₂ ha.2 hb, Bool.and_self]

/-- **Orderly runs complete, each request answered once.** From every servhash an orderly
run reaches from its creation, upstream answering the queued requests and the reactor
running the continuations reach a settled servhash, in which the requests answered by
`respond_cb` are the requests accepted, each once. -/
theorem orderly_run_completes {others : List String} {as : List Act} {s : State}
    (h : run (init others) as = some s) (ho : orderly (init others) as = true) :
    ∃ bs, bs.all settling = true ∧ ∃ s', run s bs = some s' ∧ Settled s' ∧
      s'.accepted.Perm (s'.responded.map Prod.fst) := by
  obtain ⟨bs, hbs, s', hr, hs⟩ :=
    settle (run_owned h (init_owned others)) (run_queued h (init_queued others))
  have hrun : run (init others) (as ++ bs) = some s' := by rw [run_append, h]; exact hr
  have hb := orderly_accepted hrun (orderly_append h ho (orderly_settling hbs))
  rw [replies, owedAll_ran hs.2, add_zero] at hb
  exact ⟨bs, hbs, s', hr, hs, Multiset.coe_eq_coe.mp hb⟩

theorem remove_in_flight_completes :
    ∃ s, run (init []) [.add "foo" "c1" 1 .none, .upstream, .cont 0, .remove "foo" "c1" 2 .none] =
      some s ∧ ∃ bs, bs.all settling = true ∧ ∃ s', run s bs = some s' ∧ Settled s' ∧
        s'.accepted.Perm (s'.responded.map Prod.fst) :=
  ⟨_, rfl, @orderly_run_completes [] [.add "foo" "c1" 1 .none, .upstream, .cont 0,
    .remove "foo" "c1" 2 .none] _ rfl (by decide)⟩

end FluxBroker.ServhashSettle
