import FluxBroker.ServhashDisconnect

/-!
The futures of a servhash belong to its entries.

`servhash_add` and `servhash_remove` keep the future of the request they send in the entry,
and `servhash_entry_destroy` destroys the futures of the entry it destroys; the future of an
open-loop `service.remove` is destroyed as soon as the request is sent. So on every
reachable servhash the live futures are exactly those the entries hold, each held by one
entry once: no future outlives its entry, none is destroyed twice, and the continuation of
every fulfilled future finds its entry in the table. `servhash_destroy` leaves no entry and
no future.
-/

namespace FluxBroker.ServhashFutures

open FluxBroker.Message FluxBroker.Servhash FluxBroker.ServhashAnswers
  FluxBroker.ServhashRegistrations FluxBroker.ServhashDisconnect

/-- The live futures are those the entries hold, each held once. -/
structure Owned (s : State) : Prop where
  apart : Apart s
  perm : (s.futures.map (·.id)).Perm (refs s.services)

lemma Owned.ids_nodup {s : State} (h : Owned s) : (s.futures.map (·.id)).Nodup :=
  h.perm.nodup_iff.mpr h.apart.refs

lemma init_owned (others : List String) : Owned (init others) :=
  ⟨⟨init_inv others, List.nodup_nil⟩, List.Perm.nil⟩

/-! ### Taking an entry's futures out -/

lemma ids_filter (fs : List Future) (R : List ℕ) :
    (fs.filter fun x => x.id ∉ R).map (·.id) = (fs.map (·.id)).filter (· ∉ R) := by
  rw [List.filter_map]; rfl

lemma perm_drop {l : List ℕ} {pre post : List Entry} {e : Entry}
    (hn : (refs (pre ++ e :: post)).Nodup) (hp : l.Perm (refs (pre ++ e :: post))) :
    (l.filter (· ∉ refs [e])).Perm (refs (pre ++ post)) := by
  have hd := refs_disjoint hn
  have keep : ∀ l' : List ℕ, l' ⊆ refs (pre ++ post) → l'.filter (· ∉ refs [e]) = l' :=
    fun l' hl => List.filter_eq_self.mpr fun f hf => decide_eq_true fun he => hd f he (hl hf)
  have hpre : refs pre ⊆ refs (pre ++ post) := by rw [refs_append]; exact List.subset_append_left _ _
  have hpost : refs post ⊆ refs (pre ++ post) := by rw [refs_append]; exact List.subset_append_right _ _
  have hself : (refs [e]).filter (· ∉ refs [e]) = [] :=
    List.filter_eq_nil_iff.mpr fun f hf => by simpa using hf
  refine (hp.filter _).trans ?_
  rw [show pre ++ e :: post = pre ++ [e] ++ post from by simp, refs_append, refs_append,
    List.filter_append, List.filter_append, keep _ hpre, keep _ hpost, hself, List.append_nil,
    refs_append]

lemma delete_perm {t : State} (hn : (t.services.map (·.name)).Nodup) (hr : (refs t.services).Nodup)
    (hp : (t.futures.map (·.id)).Perm (refs t.services)) (n : String) :
    ((t.delete n).futures.map (·.id)).Perm (refs (t.delete n).services) := by
  cases hl : t.lookup n with
  | none => simpa only [State.delete, hl] using hp
  | some e =>
    have hname : e.name = n := by simpa using List.find?_some hl
    obtain ⟨pre, post, hs, hpre, hpost⟩ := split_of_mem hn (List.mem_of_find?_eq_some hl)
    subst hname
    rw [delete_split hs hpre hpost, entryDestroy_futures, entryDestroy_services, ids_filter]
    rw [hs] at hr hp
    exact perm_drop hr hp

lemma Owned.delete {t : State} (h : Owned t) (n : String) : Owned (t.delete n) :=
  ⟨h.apart.of_shrinks (delete_shrinks t n), delete_perm h.apart.inv.names h.apart.refs h.perm n⟩

lemma foldl_owned {g : State → String → State} (hg : ∀ t n, Owned t → Owned (g t n)) :
    ∀ (ns : List String) (t : State), Owned t → Owned (ns.foldl g t)
  | [], _, h => h
  | n :: ns, t, h => foldl_owned hg ns _ (hg t n h)

/-! ### The calls -/

lemma ids_send_destroy {s : State} (hi : Inv s) :
    ((s.futures ++ [(⟨s.next, none, false⟩ : Future)]).map (·.id)).filter (· ∉ [s.next]) =
      s.futures.map (·.id) := by
  have hold : (s.futures.map (·.id)).filter (· ∉ [s.next]) = s.futures.map (·.id) :=
    List.filter_eq_self.mpr fun f hf => by
      obtain ⟨x, hx, rfl⟩ := List.mem_map.mp hf
      simpa using (hi.future_lt x hx).ne
  rw [List.map_append, List.filter_append, hold]
  simp

lemma servhashAdd_perm {s : State} (hi : Owned s) (name uuid : String) (msg : ℕ) (fail : AddFail) :
    ((servhashAdd s name uuid msg fail).1.futures.map (·.id)).Perm
      (refs (servhashAdd s name uuid msg fail).1.services) := by
  unfold servhashAdd
  split_ifs
  · exact hi.perm
  cases fail with
  | create => exact hi.perm
  | register =>
    dsimp only
    rw [entryDestroy_futures, entryDestroy_services, ids_filter]
    simpa [refs] using hi.perm
  | then_ =>
    dsimp only
    have hr : refs [(⟨name, uuid, msg, none, some s.next, none, false⟩ : Entry)] = [s.next] := rfl
    rw [entryDestroy_futures, entryDestroy_services, ids_filter, State.send_futures, if_pos rfl, hr,
      ids_send_destroy hi.apart.inv]
    exact hi.perm
  | none =>
    show ((s.futures ++ [(_ : Future)]).map (·.id)).Perm (refs (s.services ++ [(_ : Entry)]))
    rw [List.map_append, refs_append]
    exact hi.perm.append (List.Perm.refl _)

lemma sent_remove_perm {s : State} (hi : Owned s) {e e' : Entry} (he : e ∈ s.services)
    (hr : e.fRemove = none) (hname : e'.name = e.name) (hfa : e'.fAdd = e.fAdd)
    (hfr : e'.fRemove = some s.next) :
    (s.futures.map (·.id) ++ [s.next]).Perm (refs (s.setEntry e').services) := by
  obtain ⟨pre, post, h1, h2⟩ := refs_setEntry hi.apart.inv.names he hname
  have hp := hi.perm
  rw [h1, hr] at hp
  rw [h2, hfa, hfr]
  simp only [Option.toList_none, List.append_nil, Option.toList_some, List.append_assoc] at hp ⊢
  refine (List.perm_append_singleton _ _).trans ((hp.cons _).trans ?_)
  simpa only [List.append_assoc] using (@List.perm_middle _ s.next (refs pre ++ e.fAdd.toList) (refs post)).symm

lemma servhashRemove_perm {s : State} (hi : Owned s) (name uuid : String) (msg : ℕ)
    (fail : RemoveFail) :
    ((servhashRemove s name uuid msg fail).1.futures.map (·.id)).Perm
      (refs (servhashRemove s name uuid msg fail).1.services) := by
  unfold servhashRemove
  split
  · exact hi.perm
  rename_i e hl
  have he := List.mem_of_find?_eq_some hl
  have hname : e.name = name := by simpa using List.find?_some hl
  split_ifs with hc
  · exact hi.perm
  have hr : e.fRemove = none := by simpa using (not_or.mp hc).2
  have sent := @sent_remove_perm s hi e { e with removeRequest := some msg, fRemove := some s.next }
    he hr rfl rfl rfl
  cases fail with
  | none =>
    show ((s.futures ++ [(_ : Future)]).map (·.id)).Perm _
    rw [List.map_append]
    exact sent
  | unregister =>
    show (s.futures.map (·.id)).Perm (refs (s.setEntry _).services)
    rw [@refs_setEntry_eq s hi.apart.inv.names e { e with removeRequest := some msg } he rfl rfl rfl]
    exact hi.perm
  | then_ =>
    dsimp only
    refine delete_perm ?_ ?_ (by simpa using sent) name
    · simpa only [State.send_services, setEntry_names] using hi.apart.inv.names
    · exact refs_setEntry_fresh hi.apart he rfl rfl hr rfl

lemma setEntry_owned {s : State} (hi : Owned s) {t : State} (ht : t.services = s.services)
    (hf : t.futures.map (·.id) = s.futures.map (·.id)) {e e' : Entry} (he : e ∈ s.services)
    (hname : e'.name = e.name) (hfa : e'.fAdd = e.fAdd) (hfr : e'.fRemove = e.fRemove) :
    ((t.setEntry e').services.map (·.name)).Nodup ∧ (refs (t.setEntry e').services).Nodup ∧
      ((t.setEntry e').futures.map (·.id)).Perm (refs (t.setEntry e').services) := by
  have hnames : (t.services.map (·.name)).Nodup := ht ▸ hi.apart.inv.names
  have hrefs := @refs_setEntry_eq t hnames e e' (ht ▸ he) hname hfa hfr
  rw [setEntry_names, hrefs, State.setEntry_futures, hf, ht]
  exact ⟨hi.apart.inv.names, hi.apart.refs, hi.perm⟩

lemma cont_cases {s s' : State} {f : ℕ} (h : step s (.cont f) = some s') :
    ∃ i r e, s.future f = some ⟨i, some r, false⟩ ∧
      ((s.services.find? (·.fAdd = some f) = some e ∧ s' = addContinuation (s.markRan f) e r) ∨
        (s.services.find? (·.fAdd = some f) = none ∧ s.services.find? (·.fRemove = some f) = some e ∧
          s' = removeContinuation (s.markRan f) e r)) := by
  dsimp only [step] at h
  split at h
  · rename_i i r hfut
    split at h
    · rename_i e ha
      cases h
      exact ⟨i, r, e, hfut, .inl ⟨ha, rfl⟩⟩
    · rename_i e ha hrem
      cases h
      exact ⟨i, r, e, hfut, .inr ⟨ha, hrem, rfl⟩⟩
    · cases h
  · cases h

lemma cont_perm {s s' : State} {f : ℕ} (hi : Owned s) (h : step s (.cont f) = some s') :
    (s'.futures.map (·.id)).Perm (refs s'.services) := by
  obtain ⟨-, r, e, -, ⟨ha, rfl⟩ | ⟨-, ha, rfl⟩⟩ := cont_cases h <;>
    have hset := fun e' => @setEntry_owned s hi (s.markRan f) rfl (markRan_ids s f) e e'
      (List.mem_of_find?_eq_some ha)
  · unfold addContinuation
    dsimp only
    split_ifs with h0 h1
    · obtain ⟨hn, hr, hp⟩ := hset e rfl rfl rfl
      refine delete_perm ?_ ?_ ?_ _
      exacts [hn, hr, hp]
    · exact (hset { e with live := true } rfl rfl rfl).2.2
    · exact absurd (not_not.mp h0) h1
  · unfold removeContinuation
    dsimp only
    split_ifs
    · obtain ⟨hn, hr, hp⟩ := hset { e with live := false } rfl rfl rfl
      refine delete_perm ?_ ?_ ?_ _
      exacts [hn, hr, hp]
    · obtain ⟨hn, hr, hp⟩ := hset e rfl rfl rfl
      refine delete_perm ?_ ?_ ?_ _
      exacts [hn, hr, hp]

lemma step_owned {s s' : State} {a : Act} (hi : Owned s) (h : step s a = some s') : Owned s' := by
  cases a with
  | add name uuid msg fail =>
    cases h; exact ⟨servhashAdd_apart hi.apart name uuid msg fail, servhashAdd_perm hi name uuid msg fail⟩
  | remove name uuid msg fail =>
    cases h
    exact ⟨servhashRemove_apart hi.apart name uuid msg fail, servhashRemove_perm hi name uuid msg fail⟩
  | disconnect uuid =>
    cases h
    exact foldl_owned (fun t n ht => by split; exacts [ht.delete n, ht]) _ s hi
  | destroy => cases h; exact foldl_owned (fun t n ht => ht.delete n) _ s hi
  | upstream =>
    refine ⟨upstream_apart hi.apart h, ?_⟩
    dsimp only [step] at h
    split at h
    · cases h; rw [fulfil_ids]; exact hi.perm
    · cases h
  | cont f => exact ⟨cont_apart hi.apart h, cont_perm hi h⟩

lemma run_owned : ∀ {as : List Act} {s s' : State}, run s as = some s' → Owned s → Owned s'
  | [], _, _, h, hi => by cases h; exact hi
  | _ :: _, _, _, h, hi => by
    obtain ⟨s₁, h₁, h₂⟩ := Option.bind_eq_some.mp h
    exact run_owned h₂ (step_owned hi h₁)

/-! ### What the invariant gives -/

/-- **Every live future belongs to one entry.** On every servhash reachable from its
creation, over any interleaving of the client's calls, upstream's answers, the
continuations, `servhash_disconnect` and `servhash_destroy`, the futures alive are exactly
those the entries hold as `f_add` or `f_remove`, and none is held twice: no future outlives
the entry that holds it, and no two entries, nor the two futures of one, share a future, so
`servhash_entry_destroy` never destroys a future twice. -/
theorem futures_held_once {others : List String} {as : List Act} {s : State}
    (h : run (init others) as = some s) :
    (s.futures.map (·.id)).Perm (refs s.services) ∧ (refs s.services).Nodup :=
  have ho := run_owned h (init_owned others)
  ⟨ho.perm, ho.apart.refs⟩

theorem futures_held_once_foo :
    ∃ s, run (init []) [.add "foo" "c1" 1 .none, .add "bar" "c2" 2 .none, .upstream, .cont 0,
        .remove "foo" "c1" 3 .none] = some s ∧
      (s.futures.map (·.id)).Perm (refs s.services) ∧ (refs s.services).Nodup :=
  ⟨_, rfl, @futures_held_once [] [.add "foo" "c1" 1 .none, .add "bar" "c2" 2 .none, .upstream,
    .cont 0, .remove "foo" "c1" 3 .none] _ rfl⟩

lemma holder_eq {l : List Entry} (hr : (refs l).Nodup) {e e' : Entry} (he : e ∈ l) (he' : e' ∈ l)
    {f : ℕ} (hf : f ∈ refs [e]) (hf' : f ∈ refs [e']) : e' = e := by
  obtain ⟨pre, post, rfl⟩ := List.append_of_mem he
  by_contra hne
  have hmem : e' ∈ pre ++ post := by
    rcases List.mem_append.mp he' with h1 | h1
    · exact List.mem_append_left _ h1
    · exact List.mem_append_right _ ((List.mem_cons.mp h1).resolve_left hne)
  exact refs_disjoint hr f hf ((refs_sublist (List.singleton_sublist.mpr hmem)).subset hf')

lemma find?_holder {l : List Entry} (hr : (refs l).Nodup) {e : Entry} (he : e ∈ l) {f : ℕ}
    {p : Entry → Bool} (hp : ∀ e', p e' = true → f ∈ refs [e']) (hpe : p e = true) :
    l.find? p = some e := by
  obtain ⟨e', he'⟩ := Option.isSome_iff_exists.mp (List.find?_isSome.mpr ⟨e, he, hpe⟩)
  rw [he', holder_eq hr he (List.mem_of_find?_eq_some he') (hp e hpe) (hp e' (List.find?_some he'))]

/-- **A continuation never runs on a destroyed entry.** On every reachable servhash, the
continuation of each future that upstream has answered and whose continuation has not run
finds the one entry holding the future: `add_continuation` runs on it if the future is its
`f_add`, `remove_continuation` if it is its `f_remove`. -/
theorem continuation_finds_entry {others : List String} {as : List Act} {s : State}
    (h : run (init others) as = some s) {x : Future} (hx : x ∈ s.futures) {r : ℤ}
    (hr : x.result = some r) (hran : x.ran = false) :
    ∃ e ∈ s.services,
      (e.fAdd = some x.id ∧ step s (.cont x.id) = some (addContinuation (s.markRan x.id) e r)) ∨
      (e.fRemove = some x.id ∧
        step s (.cont x.id) = some (removeContinuation (s.markRan x.id) e r)) := by
  have ho := run_owned h (init_owned others)
  have hfut : s.future x.id = some ⟨x.id, some r, false⟩ := by
    rw [future_of_mem ho.ids_nodup hx, ← hr, ← hran]
  obtain ⟨e, he, hfe⟩ := mem_refs.mp (ho.perm.subset (List.mem_map_of_mem _ hx))
  have holds : ∀ e', e'.fAdd = some x.id ∨ e'.fRemove = some x.id → x.id ∈ refs [e'] :=
    fun e' h' => by rcases h' with h' | h' <;> simp [refs, h']
  have hfind : ∀ {p : Entry → Bool}, (∀ e', p e' = true → x.id ∈ refs [e']) → p e = true →
      s.services.find? p = some e := fun hp hpe => find?_holder ho.apart.refs he hp hpe
  refine ⟨e, he, ?_⟩
  rcases hfe with hadd | hrem
  · have hadd : e.fAdd = some x.id := hadd
    have hf : s.services.find? (fun e => decide (e.fAdd = some x.id)) = some e :=
      hfind (fun e' h' => holds e' (.inl (of_decide_eq_true h'))) (decide_eq_true hadd)
    exact .inl ⟨hadd, by simp only [step, hfut, hf]⟩
  · have hrem : e.fRemove = some x.id := hrem
    have hnone : s.services.find? (fun e => decide (e.fAdd = some x.id)) = none :=
      List.find?_eq_none.mpr fun e' he' h' => by
        have hadd := of_decide_eq_true h'
        obtain rfl := holder_eq ho.apart.refs he he' (holds e (.inr hrem)) (holds e' (.inl hadd))
        simpa [refs, hadd, hrem] using
          ho.apart.refs.sublist (refs_sublist (List.singleton_sublist.mpr he))
    have hf : s.services.find? (fun e => decide (e.fRemove = some x.id)) = some e :=
      hfind (fun e' h' => holds e' (.inr (of_decide_eq_true h'))) (decide_eq_true hrem)
    exact .inr ⟨hrem, by simp only [step, hfut, hnone, hf]⟩

theorem add_continuation_runs :
    ∃ s, run (init []) [.add "foo" "c1" 1 .none, .upstream] = some s ∧ ∃ e ∈ s.services,
      (e.fAdd = some 0 ∧ step s (.cont 0) = some (addContinuation (s.markRan 0) e 0)) ∨
      (e.fRemove = some 0 ∧ step s (.cont 0) = some (removeContinuation (s.markRan 0) e 0)) :=
  ⟨_, rfl, @continuation_finds_entry [] [.add "foo" "c1" 1 .none, .upstream] _ rfl
    ⟨0, some 0, false⟩ (by decide) 0 rfl rfl⟩

lemma delete_services (t : State) (n : String) :
    (t.delete n).services = t.services.filter (·.name ≠ n) := by
  cases hl : t.lookup n with
  | none =>
    simp only [State.delete, hl]
    exact (List.filter_eq_self.mpr fun x hx => by simpa using List.find?_eq_none.mp hl x hx).symm
  | some e => simp only [State.delete, hl, entryDestroy_services]

lemma foldl_delete_services : ∀ (ns : List String) (t : State),
    (ns.foldl State.delete t).services = t.services.filter fun x => x.name ∉ ns
  | [], t => by simp
  | n :: ns, t => by
    rw [List.foldl_cons, foldl_delete_services ns, delete_services, List.filter_filter]
    congr 1
    funext x
    simp [Bool.and_comm]

lemma servhashDestroy_services (s : State) : (servhashDestroy s).services = [] := by
  rw [servhashDestroy, foldl_delete_services]
  exact List.filter_eq_nil_iff.mpr fun x hx => by simpa using List.mem_map_of_mem (·.name) hx

/-- **`servhash_destroy` leaves nothing behind.** On every reachable servhash,
`servhash_destroy` deletes every entry and destroys every future: no continuation can run
after it, and none of the router's futures leaks. -/
theorem destroy_releases_all {others : List String} {as : List Act} {s : State}
    (h : run (init others) as = some s) :
    (servhashDestroy s).services = [] ∧ (servhashDestroy s).futures = [] := by
  have hp := (step_owned (run_owned h (init_owned others)) (rfl : step s .destroy = _)).perm
  rw [servhashDestroy_services, refs, List.flatMap_nil] at hp
  exact ⟨servhashDestroy_services s, List.map_eq_nil_iff.mp hp.eq_nil⟩

theorem destroy_releases_all_foo :
    ∃ s, run (init []) [.add "foo" "c1" 1 .none, .add "bar" "c2" 2 .none, .upstream] = some s ∧
      (servhashDestroy s).services = [] ∧ (servhashDestroy s).futures = [] :=
  ⟨_, rfl, @destroy_releases_all [] [.add "foo" "c1" 1 .none, .add "bar" "c2" 2 .none, .upstream] _
    rfl⟩

end FluxBroker.ServhashFutures
