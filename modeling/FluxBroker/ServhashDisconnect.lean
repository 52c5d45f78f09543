import FluxBroker.ServhashRegistrations

/-!
`servhash_disconnect`, which walks a snapshot of the keys and deletes from the live table.

Deleting an entry runs its destructor, which reads the table's futures to decide on the
open-loop `service.remove` and destroys the entry's own futures. On a reachable servhash no
future belongs to two entries and no two entries share a name, so deleting one entry
changes neither what the walk finds for the next key nor what the destructor decides for
it: the call is the same as deleting the client's entries all at once, each deciding on the
table as it was before the call, in the order of the table.
-/

namespace FluxBroker.ServhashDisconnect

open FluxBroker.Message FluxBroker.Servhash FluxBroker.ServhashAnswers
  FluxBroker.ServhashRegistrations

/-! ### The futures of the entries stay apart -/

lemma next_not_mem_refs {s : State} (hi : Inv s) : s.next ∉ refs s.services := fun h => by
  obtain ⟨x, hx, hf⟩ := mem_refs.mp h
  rcases hf with hf | hf
  exacts [lt_irrefl _ ((hi.entry_lt x hx).1 _ hf), lt_irrefl _ ((hi.entry_lt x hx).2 _ hf)]

/-- The invariant of every reachable servhash that the walk needs: that of `ServhashAnswers`,
and no future held by two entries, or twice by one. -/
structure Apart (s : State) : Prop where
  inv : Inv s
  refs : (refs s.services).Nodup

lemma refs_delete {t : State} (h : (refs t.services).Nodup) (n : String) :
    (refs (t.delete n).services).Nodup :=
  h.sublist (refs_sublist (delete_shrinks t n).services)

lemma Apart.of_shrinks {s t : State} (hi : Apart s) (h : Shrinks s t) : Apart t :=
  ⟨h.inv hi.inv, hi.refs.sublist (refs_sublist h.services)⟩

lemma refs_setEntry {s : State} (hn : (s.services.map (·.name)).Nodup) {e e' : Entry}
    (he : e ∈ s.services) (hname : e'.name = e.name) :
    ∃ pre post, refs s.services = refs pre ++ (e.fAdd.toList ++ e.fRemove.toList) ++ refs post ∧
      refs (s.setEntry e').services =
        refs pre ++ (e'.fAdd.toList ++ e'.fRemove.toList) ++ refs post := by
  obtain ⟨pre, post, hs, hpre, hpost⟩ := split_of_mem hn he
  refine ⟨pre, post, ?_, ?_⟩
  · simp only [hs, refs_append, refs_cons, List.append_assoc]
  · simp only [setEntry_split hs hpre hpost hname, refs_append, refs_cons, List.append_assoc]

lemma refs_setEntry_eq {s : State} (hn : (s.services.map (·.name)).Nodup) {e e' : Entry}
    (he : e ∈ s.services) (hname : e'.name = e.name) (hfa : e'.fAdd = e.fAdd)
    (hfr : e'.fRemove = e.fRemove) : refs (s.setEntry e').services = refs s.services := by
  obtain ⟨pre, post, h1, h2⟩ := refs_setEntry hn he hname
  rw [h1, h2, hfa, hfr]

lemma refs_setEntry_fresh {s : State} (hi : Apart s) {e e' : Entry} (he : e ∈ s.services)
    (hname : e'.name = e.name) (hfa : e'.fAdd = e.fAdd) (hr : e.fRemove = none)
    (hfr : e'.fRemove = some s.next) : (refs (s.setEntry e').services).Nodup := by
  obtain ⟨pre, post, h1, h2⟩ := refs_setEntry hi.inv.names he hname
  have hfresh := next_not_mem_refs hi.inv
  have hn := hi.refs
  rw [h1, hr] at hfresh hn
  rw [h2, hfa, hfr]
  have hp : (refs pre ++ (e.fAdd.toList ++ (some s.next).toList) ++ refs post).Perm
      (s.next :: (refs pre ++ (e.fAdd.toList ++ none.toList) ++ refs post)) := by
    simpa using @List.perm_middle _ s.next (refs pre ++ e.fAdd.toList) (refs post)
  exact hp.nodup_iff.mpr (List.nodup_cons.mpr ⟨hfresh, hn⟩)

lemma servhashAdd_apart {s : State} (hi : Apart s) (name uuid : String) (msg : ℕ)
    (fail : AddFail) : Apart (servhashAdd s name uuid msg fail).1 := by
  refine ⟨servhashAdd_inv hi.inv name uuid msg fail, ?_⟩
  unfold servhashAdd
  split_ifs
  · exact hi.refs
  cases fail
  · show (refs (s.services ++ [_])).Nodup
    rw [refs_append]
    exact (List.perm_append_singleton _ _).nodup_iff.mpr
      (List.nodup_cons.mpr ⟨next_not_mem_refs hi.inv, hi.refs⟩)
  · exact hi.refs
  · rw [entryDestroy_services]; exact hi.refs
  · rw [entryDestroy_services]; exact hi.refs

lemma servhashRemove_apart {s : State} (hi : Apart s) (name uuid : String) (msg : ℕ)
    (fail : RemoveFail) : Apart (servhashRemove s name uuid msg fail).1 := by
  refine ⟨servhashRemove_inv hi.inv name uuid msg fail, ?_⟩
  unfold servhashRemove
  split
  · exact hi.refs
  rename_i e hl
  have he := List.mem_of_find?_eq_some hl
  split_ifs with hc
  · exact hi.refs
  have hr : e.fRemove = none := by simpa using (not_or.mp hc).2
  have fresh := @refs_setEntry_fresh s hi e { e with removeRequest := some msg, fRemove := some s.next }
    he rfl rfl hr rfl
  cases fail
  · exact fresh
  · rw [@refs_setEntry_eq s hi.inv.names e { e with removeRequest := some msg } he rfl rfl rfl]
    exact hi.refs
  · refine refs_delete ?_ _
    exact fresh

lemma upstream_apart {s s' : State} (hi : Apart s) (h : step s .upstream = some s') :
    Apart s' := by
  refine ⟨upstream_inv hi.inv h, ?_⟩
  dsimp only [step] at h
  split at h
  · cases h; exact hi.refs
  · cases h

lemma cont_apart {s s' : State} {f : ℕ} (hi : Apart s) (h : step s (.cont f) = some s') :
    Apart s' := by
  refine ⟨cont_inv hi.inv h, ?_⟩
  have hset : ∀ e ∈ s.services, ∀ e' : Entry, e'.name = e.name → e'.fAdd = e.fAdd →
      e'.fRemove = e.fRemove → (refs ((s.markRan f).setEntry e').services).Nodup :=
    fun e he e' h1 h2 h3 => (@refs_setEntry_eq (s.markRan f) hi.inv.names e e' he h1 h2 h3).symm ▸ hi.refs
  dsimp only [step] at h
  split at h
  · split at h
    · rename_i e ha
      cases h
      have he := List.mem_of_find?_eq_some ha
      unfold addContinuation
      dsimp only
      split_ifs with h1 h2
      · refine refs_delete ?_ _
        exact hset e he e rfl rfl rfl
      · exact hset e he { e with live := true } rfl rfl rfl
      · exact absurd (not_not.mp h1) h2
    · rename_i e _ hr
      cases h
      have he := List.mem_of_find?_eq_some hr
      unfold removeContinuation
      dsimp only
      refine refs_delete ?_ _
      split_ifs
      · exact hset e he { e with live := false } rfl rfl rfl
      · exact hset e he e rfl rfl rfl
    · cases h
  · cases h

lemma step_apart {s s' : State} {a : Act} (hi : Apart s) (h : step s a = some s') : Apart s' := by
  cases a with
  | add name uuid msg fail => cases h; exact servhashAdd_apart hi name uuid msg fail
  | remove name uuid msg fail => cases h; exact servhashRemove_apart hi name uuid msg fail
  | disconnect uuid => cases h; exact hi.of_shrinks (servhashDisconnect_shrinks s uuid)
  | destroy => cases h; exact hi.of_shrinks (servhashDestroy_shrinks s)
  | upstream => exact upstream_apart hi h
  | cont f => exact cont_apart hi h

lemma run_apart : ∀ {as : List Act} {s s' : State}, run s as = some s' → Apart s → Apart s'
  | [], _, _, h, hi => by cases h; exact hi
  | _ :: _, _, _, h, hi => by
    obtain ⟨s₁, h₁, h₂⟩ := Option.bind_eq_some.mp h
    exact run_apart h₂ (step_apart hi h₁)

/-! ### One entry deleted at a time -/

lemma names_apart {pre post : List Entry} {e : Entry}
    (hn : ((pre ++ e :: post).map (·.name)).Nodup) :
    (∀ x ∈ pre, x.name ≠ e.name) ∧ ∀ x ∈ post, x.name ≠ e.name := by
  simp only [List.map_append, List.map_cons, List.nodup_append, List.nodup_cons, List.mem_map,
    List.disjoint_cons_right] at hn
  exact ⟨fun x hx h => hn.2.2.1 ⟨x, hx, h⟩, fun x hx h => hn.2.1.1 ⟨x, hx, h⟩⟩

lemma state_ext {a b : State} (h1 : a.services = b.services) (h2 : a.futures = b.futures)
    (h3 : a.upstream = b.upstream) (h4 : a.mine = b.mine) (h5 : a.others = b.others)
    (h6 : a.next = b.next) (h7 : a.responded = b.responded) (h8 : a.accepted = b.accepted) :
    a = b := by
  cases a
  cases b
  simp only [State.mk.injEq]
  exact ⟨h1, h2, h3, h4, h5, h6, h7, h8⟩

lemma destroyFuture_futures (t : State) (f : Option ℕ) :
    (t.destroyFuture f).futures = t.futures.filter fun x => x.id ∉ f.toList := by
  cases f <;> simp [State.destroyFuture]

lemma entryDestroy_futures (t : State) (e : Entry) :
    (entryDestroy t e).futures = t.futures.filter fun x => x.id ∉ refs [e] := by
  have hsend : (if needsUnregister t e then t.send false e.name false else t).futures = t.futures := by
    split <;> simp
  simp only [entryDestroy, destroyFuture_futures, hsend, List.filter_filter]
  congr 1
  funext x
  simp [refs, Bool.and_comm]

lemma find?_filter_id {fs : List Future} {P : Future → Bool} {f : ℕ}
    (hP : ∀ x ∈ fs, x.id = f → P x = true) :
    (fs.filter P).find? (·.id = f) = fs.find? (·.id = f) := by
  induction fs with
  | nil => rfl
  | cons y ys ih =>
    have ih' := ih fun x hx => hP x (List.mem_cons_of_mem _ hx)
    by_cases hy : y.id = f
    · simp [List.filter_cons, hP y (List.mem_cons_self _ _) hy, hy]
    · by_cases hp : P y = true <;> simp [List.filter_cons, hp, hy, ih']

/-- The `service.remove` requests `l` sends, for the entries `needs_unregister` holds for in
`s`, numbered from the counter of `s`. -/
def unregisters (s : State) (l : List Entry) : List Req :=
  ((l.filter (needsUnregister s)).enumFrom s.next).map fun p => ⟨p.1, false, p.2.name⟩

lemma unregisters_snoc (s : State) (l : List Entry) (e : Entry) :
    unregisters s (l ++ [e]) = unregisters s l ++
      if needsUnregister s e then [⟨s.next + (l.filter (needsUnregister s)).length, false, e.name⟩]
      else [] := by
  unfold unregisters
  cases h : needsUnregister s e <;> simp [List.filter_append, h, List.enumFrom_append]

/-- The body of the loop of `servhash_disconnect`: the entry named `name`, if the client owns
it, is deleted. -/
def dropOwned (uuid : String) (t : State) (name : String) : State :=
  if (t.lookup name).any (·.uuid = uuid) then t.delete name else t

lemma servhashDisconnect_eq (s : State) (uuid : String) :
    servhashDisconnect s uuid = (s.services.map (·.name)).foldl (dropOwned uuid) s := rfl

/-- The table once the walk has passed the entries `pre` with `rest` to go: the client's
entries among `pre` deleted, each having decided on the table as it was. -/
def walked (s : State) (uuid : String) (pre rest : List Entry) : State :=
  { s with
    services := pre.filter (·.uuid ≠ uuid) ++ rest
    futures := s.futures.filter fun x => x.id ∉ refs (pre.filter (·.uuid = uuid))
    upstream := s.upstream ++ unregisters s (pre.filter (·.uuid = uuid))
    next := s.next + ((pre.filter (·.uuid = uuid)).filter (needsUnregister s)).length }

lemma walked_start (s : State) (uuid : String) : walked s uuid [] s.services = s := by
  cases s
  simp [walked, unregisters, refs]

lemma walk_step {s : State} (hi : Apart s) (uuid : String) {pre rest : List Entry} {e : Entry}
    (hs : s.services = pre ++ e :: rest) :
    dropOwned uuid (walked s uuid pre (e :: rest)) e.name = walked s uuid (pre ++ [e]) rest := by
  obtain ⟨hpre, hpost⟩ := names_apart (hs ▸ hi.inv.names)
  have hpre' : ∀ x ∈ pre.filter (·.uuid ≠ uuid), x.name ≠ e.name := fun x hx =>
    hpre x (List.mem_of_mem_filter hx)
  have hts : (walked s uuid pre (e :: rest)).services = pre.filter (·.uuid ≠ uuid) ++ e :: rest := rfl
  rw [dropOwned, lookup_split hts hpre']
  by_cases hu : e.uuid = uuid
  · rw [if_pos (by simp [hu]), delete_split hts hpre' hpost]
    set t' : State := { walked s uuid pre (e :: rest) with
      services := pre.filter (·.uuid ≠ uuid) ++ rest }
    have hfresh : ∀ f ∈ refs [e], f ∉ refs (pre.filter (·.uuid = uuid)) := fun f hf hf' =>
      refs_disjoint (hs ▸ hi.refs) f hf ((refs_sublist ((List.filter_sublist _).trans
        (List.sublist_append_left pre rest))).subset hf')
    have hneeds : needsUnregister t' e = needsUnregister s e := by
      unfold needsUnregister State.isReady State.future
      cases ha : e.fAdd with
      | none => rfl
      | some f =>
        have hf : f ∉ refs (pre.filter (·.uuid = uuid)) := hfresh f (by simp [refs, ha])
        simp only [t', walked, Option.elim]
        rw [find?_filter_id fun x _ hx => by simpa [hx] using hf]
    have hg : (pre ++ [e]).filter (·.uuid = uuid) = pre.filter (·.uuid = uuid) ++ [e] := by
      simp [List.filter_append, hu]
    refine state_ext ?_ ?_ ?_ (entryDestroy_mine _ _) (entryDestroy_others _ _) ?_
      (entryDestroy_shrinks _ _).responded (entryDestroy_shrinks _ _).accepted
    · simp [entryDestroy_services, t', walked, List.filter_append, hu]
    · rw [entryDestroy_futures]
      simp only [t', walked, hg, List.filter_filter, refs_append]
      congr 1
      funext x
      simp [Bool.and_comm]
    · rw [entryDestroy_upstream, hneeds]
      simp only [t', walked, hg, unregisters_snoc, List.append_assoc]
    · rw [entryDestroy_next, hneeds]
      cases h : needsUnregister s e <;> simp [t', walked, hg, h, Nat.add_assoc]
  · have hf : (pre ++ [e]).filter (·.uuid = uuid) = pre.filter (·.uuid = uuid) := by
      simp [List.filter_append, hu]
    rw [if_neg (by simp [hu])]
    simp [walked, hf, List.filter_append, hu]

lemma walk_fold {s : State} (hi : Apart s) (uuid : String) :
    ∀ (rest pre : List Entry), s.services = pre ++ rest →
      (rest.map (·.name)).foldl (dropOwned uuid) (walked s uuid pre rest) = walked s uuid s.services []
  | [], pre, hs => by rw [List.append_nil] at hs; rw [hs]; rfl
  | e :: rest, pre, hs => by
    rw [List.map_cons, List.foldl_cons, walk_step hi uuid hs]
    exact walk_fold hi uuid rest (pre ++ [e]) (by rw [hs, List.append_assoc]; rfl)

/-! ### The law -/

/-- **`servhash_disconnect` deletes exactly the client's entries.** On every servhash reachable
from its creation, `servhash_disconnect (sh, uuid)` leaves the entries of other clients, in
order and as they were; takes out exactly the futures the client's entries held, each entry
destroyed once; sends, in the order of the table, one open-loop `service.remove` for each
of the client's entries `needs_unregister` holds for in the table as it was before the call,
and nothing else; and changes nothing else. The futures of the entries it keeps all stay. -/
theorem disconnect_deletes_owned {others : List String} {as : List Act} {s : State}
    (h : run (init others) as = some s) (uuid : String) :
    servhashDisconnect s uuid = { s with
      services := s.services.filter (·.uuid ≠ uuid)
      futures := s.futures.filter fun x => x.id ∉ refs (s.services.filter (·.uuid = uuid))
      upstream := s.upstream ++ unregisters s (s.services.filter (·.uuid = uuid))
      next := s.next + ((s.services.filter (·.uuid = uuid)).filter (needsUnregister s)).length } ∧
    ∀ e ∈ s.services, e.uuid ≠ uuid → ∀ x ∈ s.futures, x.id ∈ refs [e] →
      x ∈ (servhashDisconnect s uuid).futures := by
  have hi := run_apart h ⟨init_inv others, List.nodup_nil⟩
  have hw : servhashDisconnect s uuid = walked s uuid s.services [] := by
    have := walk_fold hi uuid s.services [] rfl
    rwa [walked_start, ← servhashDisconnect_eq] at this
  refine ⟨by rw [hw, walked, List.append_nil], fun e he hu x hx hf => ?_⟩
  obtain ⟨pre, post, hs⟩ := List.append_of_mem he
  have hsub : refs (s.services.filter (·.uuid = uuid)) ⊆ refs (pre ++ post) := by
    refine (refs_sublist ?_).subset
    rw [hs, List.filter_append, List.filter_cons_of_neg (by simpa using hu)]
    exact (List.filter_sublist _).append (List.filter_sublist _)
  rw [hw]
  exact List.mem_filter.mpr ⟨hx, decide_eq_true fun h' => refs_disjoint (hs ▸ hi.refs) _ hf (hsub h')⟩

/-- Two clients, one of them with two services, and one `service.add` answered. -/
def twoClients : List Act :=
  [.add "job" "c1" 1 .none, .add "kvs" "c2" 2 .none, .upstream, .add "sched" "c1" 3 .none]

theorem disconnect_two_clients :
    ∃ s, run (init []) twoClients = some s ∧
      (servhashDisconnect s "c1").services = s.services.filter (·.uuid ≠ "c1") ∧
      (servhashDisconnect s "c1").upstream =
        s.upstream ++ unregisters s (s.services.filter (·.uuid = "c1")) := by
  obtain ⟨h1, -⟩ := disconnect_deletes_owned (rfl : run (init []) twoClients = _) "c1"
  exact ⟨_, rfl, congrArg State.services h1, congrArg State.upstream h1⟩

end FluxBroker.ServhashDisconnect
