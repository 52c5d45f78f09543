import FluxBroker.ServhashFutures

/-!
Where the answers to the clients' requests go.

`servhash_add` and `servhash_remove` accept a request by returning 0, and `respond_cb`
answers it from the continuation of the request's future. The entry owes the answer while
that future waits (`owed`). Destroying the entry destroys the future, and then the answer is
never given. The ledger of a call lists the requests whose answers it drops so: those still
owed by the entries that `servhash_disconnect`, `servhash_destroy`, the continuation of a
failed `service.add`, `remove_continuation`, or a failed `flux_future_then` in
`servhash_remove` destroy.

Over every run, the requests accepted are, each once, those answered, those owed and those
dropped. A run that never sends a `service.remove` while the entry's `service.add` waits, and
calls neither `servhash_disconnect` nor `servhash_destroy`, drops none: once every
continuation has run, each accepted request has been answered exactly once.
-/

namespace FluxBroker.ServhashReplies

open FluxBroker.Message FluxBroker.Servhash FluxBroker.ServhashAnswers
open FluxBroker.ServhashRegistrations FluxBroker.ServhashDisconnect FluxBroker.ServhashFutures

/-! ### The ledger of a call -/

/-- The answers given and owed. -/
def replies (s : State) : Multiset ℕ :=
  (s.responded.map Prod.fst : Multiset ℕ) + owedAll s.futures s.services

/-- What `zhashx_delete (sh->services, name)` drops: the answers the entry its destructor
destroys still owes. -/
def deleteOwed (s : State) (name : String) : Multiset ℕ :=
  ((s.lookup name).map (owed s.futures)).getD 0

/-- What a walk of `zhashx_delete` over the keys `ns` drops, deleting the keys `p` picks in
the table as the walk has left it. -/
def walkOwed (p : State → String → Bool) : State → List String → Multiset ℕ
  | _, [] => 0
  | t, n :: ns => if p t n then deleteOwed t n + walkOwed p (t.delete n) ns else walkOwed p t ns

/-- `servhash_remove`: a failure of `flux_future_then` destroys the entry with what it owed,
its own request refused. -/
def removeDropped (s : State) (name uuid : String) (fail : RemoveFail) : Multiset ℕ :=
  match s.lookup name with
  | none => 0
  | some e =>
    if e.uuid ≠ uuid ∨ e.fRemove.isSome then 0
    else
      match fail with
      | .then_ _ => owed s.futures e
      | .none | .unregister _ => 0

/-- The continuation of the fulfilled future `f`: `add_continuation` destroys the entry when
the `service.add` failed, `remove_continuation` always, with what the entry still owes once
its own answer is given. -/
def contDropped (s : State) (f : ℕ) : Multiset ℕ :=
  match s.future f with
  | some ⟨_, some r, false⟩ =>
    match s.services.find? (·.fAdd = some f), s.services.find? (·.fRemove = some f) with
    | some e, _ => if r ≠ 0 then owed (s.markRan f).futures e else 0
    | none, some e => owed (s.markRan f).futures e
    | none, none => 0
  | _ => 0

/-- The answers a call drops; a failure of `servhash_add` destroys only the entry it created,
whose request it refuses. -/
def stepDropped (s : State) : Act → Multiset ℕ
  | .add .. => 0
  | .remove name uuid _ fail => removeDropped s name uuid fail
  | .disconnect uuid =>
    walkOwed (fun t name => (t.lookup name).any (·.uuid = uuid)) s (s.services.map (·.name))
  | .destroy => walkOwed (fun _ _ => true) s (s.services.map (·.name))
  | .upstream => 0
  | .cont f => contDropped s f

def runDropped (s : State) : List Act → Multiset ℕ
  | [] => 0
  | a :: as =>
    match step s a with
    | some s' => stepDropped s a + runDropped s' as
    | none => 0

/-! ### Futures taken out -/

lemma waits_filter (fs : List Future) {R : List ℕ} {f : Option ℕ} (hf : ∀ g ∈ f, g ∉ R) :
    waits (fs.filter (·.id ∉ R)) f = waits fs f := by
  cases f with
  | none => rfl
  | some g =>
    simp only [waits, Option.any_some, List.any_filter]
    congr 1
    funext x
    by_cases hx : x.id = g
    · simp [hx, hf g rfl]
    · simp [hx]

lemma owedAll_filter (fs : List Future) {R : List ℕ} {l : List Entry}
    (hl : ∀ x ∈ l, ∀ g ∈ refs [x], g ∉ R) : owedAll (fs.filter (·.id ∉ R)) l = owedAll fs l :=
  owedAll_congr fun x hx => by
    have h := hl x hx
    simp only [refs, List.flatMap_cons, List.flatMap_nil, List.append_nil, List.mem_append,
      Option.mem_toList] at h
    simp only [owed, waits_filter fs fun g hg => h g (.inl hg), waits_filter fs fun g hg => h g (.inr hg)]

lemma owedAll_singleton (fs : List Future) (x : Entry) : owedAll fs [x] = owed fs x := by
  simp [owedAll]

lemma owedAll_append (fs : List Future) (l l' : List Entry) :
    owedAll fs (l ++ l') = owedAll fs l + owedAll fs l' := by
  simp [owedAll]

lemma owedAll_split_mid (fs : List Future) (pre post : List Entry) (e : Entry) :
    owedAll fs (pre ++ e :: post) = owedAll fs (pre ++ post) + owed fs e := by
  rw [owedAll_split, owedAll_append]
  exact add_right_comm _ _ _

lemma others_apart {pre post : List Entry} {e : Entry} (hr : (refs (pre ++ e :: post)).Nodup) :
    ∀ x ∈ pre ++ post, ∀ g ∈ refs [x], g ∉ refs [e] := fun _ hx g hg hge =>
  refs_disjoint hr g hge ((refs_sublist (List.singleton_sublist.mpr hx)).subset hg)

lemma owedAll_delete_split {t : State} {pre post : List Entry} {e : Entry}
    (hs : t.services = pre ++ e :: post) (hpre : ∀ x ∈ pre, x.name ≠ e.name)
    (hpost : ∀ x ∈ post, x.name ≠ e.name) (hr : (refs (pre ++ e :: post)).Nodup) :
    owedAll (t.delete e.name).futures (t.delete e.name).services = owedAll t.futures (pre ++ post) := by
  rw [delete_split hs hpre hpost, entryDestroy_futures, entryDestroy_services,
    owedAll_filter _ (others_apart hr)]

lemma owedAll_delete {t : State} (hi : Apart t) (n : String) :
    owedAll t.futures t.services =
      owedAll (t.delete n).futures (t.delete n).services + deleteOwed t n := by
  cases hl : t.lookup n with
  | none => simp [State.delete, deleteOwed, hl]
  | some e =>
    obtain rfl : e.name = n := by simpa using List.find?_some hl
    obtain ⟨pre, post, hs, hpre, hpost⟩ := split_of_mem hi.inv.names (List.mem_of_find?_eq_some hl)
    have hr := hi.refs
    rw [hs] at hr
    rw [owedAll_delete_split hs hpre hpost hr, deleteOwed, hl, hs, owedAll_split, owedAll_append]
    exact add_right_comm _ _ _

lemma owedAll_walk (p : State → String → Bool) : ∀ (ns : List String) (t : State), Apart t →
    owedAll t.futures t.services =
      owedAll (ns.foldl (fun t n => if p t n then t.delete n else t) t).futures
        (ns.foldl (fun t n => if p t n then t.delete n else t) t).services + walkOwed p t ns
  | [], t, _ => by simp [walkOwed]
  | n :: ns, t, hi => by
    by_cases hp : p t n
    · simp only [List.foldl_cons, hp, if_true, walkOwed]
      rw [owedAll_delete hi n, owedAll_walk p ns _ (hi.of_shrinks (delete_shrinks t n)), add_assoc,
        add_comm (walkOwed _ _ _)]
    · simp only [List.foldl_cons, hp, Bool.false_eq_true, if_false, walkOwed]
      exact owedAll_walk p ns t hi

/-! ### What the calls owe -/

lemma filter_new {s : State} (hi : Inv s) :
    (s.futures ++ [(⟨s.next, none, false⟩ : Future)]).filter (·.id ∉ [s.next]) = s.futures := by
  rw [List.filter_append, List.filter_eq_self.mpr fun x hx => by simpa using (hi.future_lt x hx).ne]
  simp

lemma owedAll_append_new {s : State} (hi : Inv s) {l : List Entry} (hl : ∀ x ∈ l, x ∈ s.services) :
    owedAll (s.futures ++ [⟨s.next, none, false⟩]) l = owedAll s.futures l :=
  owedAll_congr fun x hx => owed_append_new hi (hl x hx)

lemma add_replies {s : State} (hi : Inv s) (name uuid : String) (msg : ℕ) (fail : AddFail) :
    replies (servhashAdd s name uuid msg fail).1 + (s.accepted : Multiset ℕ) =
      replies s + (servhashAdd s name uuid msg fail).1.accepted := by
  unfold servhashAdd
  split_ifs
  · rfl
  cases fail with
  | create => rfl
  | register => rfl
  | then_ =>
    dsimp only
    have hf : (entryDestroy (s.send true name true)
        ⟨name, uuid, msg, none, some s.next, none, false⟩).futures = s.futures := by
      rw [entryDestroy_futures, State.send_futures, if_pos rfl]
      exact filter_new hi
    have hd := entryDestroy_shrinks (s.send true name true) ⟨name, uuid, msg, none, some s.next, none, false⟩
    simp only [replies, hf, entryDestroy_services, hd.responded, hd.accepted, State.send_services,
      State.send_responded, State.send_accepted]
  | none =>
    show replies { s.send true name true with
      services := s.services ++ [⟨name, uuid, msg, none, some s.next, none, false⟩],
      accepted := s.accepted ++ [msg] } + _ = _
    simp only [replies, State.send_futures, State.send_responded, if_pos, owedAll_append,
      owedAll_append_new hi fun _ h => h, owedAll_singleton, owed, waits_new, waits_none, if_true,
      Bool.false_eq_true, if_false, add_zero, ← Multiset.coe_add, Multiset.coe_singleton]
    abel

lemma remove_replies {s : State} (hi : Apart s) (name uuid : String) (msg : ℕ) (fail : RemoveFail) :
    replies (servhashRemove s name uuid msg fail).1 + removeDropped s name uuid fail +
        (s.accepted : Multiset ℕ) = replies s + (servhashRemove s name uuid msg fail).1.accepted := by
  unfold servhashRemove removeDropped
  cases hl : s.lookup name with
  | none => simp
  | some e =>
    obtain rfl : e.name = name := by simpa using List.find?_some hl
    have he := List.mem_of_find?_eq_some hl
    obtain ⟨pre, post, hs, hpre, hpost⟩ := split_of_mem hi.inv.names he
    have hin : ∀ x ∈ pre ++ post, x ∈ s.services := fun x hx => by
      rw [hs]
      rcases List.mem_append.mp hx with hx | hx
      exacts [List.mem_append_left _ hx, List.mem_append_right _ (List.mem_cons_of_mem _ hx)]
    have hlt := (hi.inv.entry_lt e he).1
    dsimp only
    split
    · simp
    · rename_i hc
      have hf : e.fRemove = none := Option.not_isSome_iff_eq_none.mp (not_or.mp hc).2
      have hrs : replies s = (s.responded.map Prod.fst : Multiset ℕ) +
          owedAll (s.futures ++ [⟨s.next, none, false⟩]) (pre ++ post) + owed s.futures e := by
        rw [replies, hs, owedAll_split_mid, owedAll_append_new hi.inv hin, add_assoc]
      rw [hrs]
      cases fail <;> dsimp only
      · simp only [replies, State.send_futures, State.send_responded, State.send_services,
          State.setEntry_responded, State.setEntry_futures, State.setEntry_next, if_true,
          setEntry_split hs hpre hpost, owedAll_split_mid, owed, hf, waits_append_new _ hlt, waits_new, waits_none,
          Bool.false_eq_true, if_false, add_zero, Option.toList_some, Multiset.coe_singleton,
          ← Multiset.coe_add]
        abel
      · simp only [replies, State.setEntry_responded, State.setEntry_futures, State.setEntry_accepted,
          setEntry_split hs hpre hpost, owedAll_split_mid, owedAll_append_new hi.inv hin, owed, hf,
          waits_none, Bool.false_eq_true, if_false, add_zero, add_assoc]
      · have hs' : ((s.setEntry { e with removeRequest := some msg, fRemove := some s.next }).send
            false e.name true).services =
            pre ++ { e with removeRequest := some msg, fRemove := some s.next } :: post :=
          setEntry_split hs hpre hpost rfl
        have hr' : (refs (pre ++ { e with removeRequest := some msg, fRemove := some s.next } ::
            post)).Nodup := by
          rw [← hs']
          exact refs_setEntry_fresh hi he rfl rfl hf rfl
        rw [replies, owedAll_delete_split hs' hpre hpost hr', (delete_shrinks _ _).responded,
          (delete_shrinks _ _).accepted]
        simp only [State.send_futures, State.send_responded, State.send_accepted,
          State.setEntry_responded, State.setEntry_futures, State.setEntry_accepted,
          State.setEntry_next, if_true]

/-! ### Continuations -/

lemma owedAll_markRan (s : State) {f : ℕ} {l : List Entry} (hl : ∀ x ∈ l, f ∉ refs [x]) :
    owedAll (s.markRan f).futures l = owedAll s.futures l :=
  owedAll_congr fun x hx => by
    have ha : x.fAdd ≠ some f := fun h => hl x hx (by simp [refs, h])
    have hr : x.fRemove ≠ some f := fun h => hl x hx (by simp [refs, h])
    simp [owed, waits_markRan, ha, hr]

lemma waits_of_future {s : State} {f i : ℕ} {r : ℤ} (hfut : s.future f = some ⟨i, some r, false⟩) :
    waits s.futures (some f) = true := by
  simp only [waits, Option.any_some, List.any_eq_true]
  exact ⟨_, List.mem_of_find?_eq_some hfut, by simpa using List.find?_some hfut⟩

lemma owed_markRan_add_eq (s : State) {e : Entry} {f : ℕ} (hfa : e.fAdd = some f)
    (hfr : e.fRemove ≠ some f) (hw : waits s.futures (some f) = true) :
    owed s.futures e = {e.addRequest} + owed (s.markRan f).futures e := by
  simp [owed, waits_markRan, hfa, hfr, hw]

lemma owed_markRan_remove_eq (s : State) {e : Entry} {f : ℕ} (hfr : e.fRemove = some f)
    (hfa : e.fAdd ≠ some f) (hw : waits s.futures (some f) = true) :
    owed s.futures e = owed (s.markRan f).futures e + (e.removeRequest.toList : Multiset ℕ) := by
  simp [owed, waits_markRan, hfa, hfr, hw]

lemma owed_live (fs : List Future) (e : Entry) (b : Bool) : owed fs { e with live := b } = owed fs e :=
  rfl

lemma replies_split_markRan {s : State} {pre post : List Entry} {e : Entry} (f : ℕ)
    (hs : s.services = pre ++ e :: post) (hr : (refs (pre ++ e :: post)).Nodup) (hfe : f ∈ refs [e]) :
    replies s = (s.responded.map Prod.fst : Multiset ℕ) + owedAll (s.markRan f).futures (pre ++ post) +
      owed s.futures e := by
  rw [replies, hs, owedAll_split_mid, owedAll_markRan s fun x hx hfx => others_apart hr x hx f hfx hfe,
    add_assoc]

lemma addContinuation_replies {s : State} {f i : ℕ} {r : ℤ} {e : Entry} (hi : Apart s)
    (hfut : s.future f = some ⟨i, some r, false⟩) (ha : s.services.find? (·.fAdd = some f) = some e) :
    replies (addContinuation (s.markRan f) e r) +
        (if r ≠ 0 then owed (s.markRan f).futures e else 0) + (s.accepted : Multiset ℕ) =
      replies s + (addContinuation (s.markRan f) e r).accepted := by
  have hfa : e.fAdd = some f := by simpa using List.find?_some ha
  obtain ⟨pre, post, hs, hpre, hpost⟩ := split_of_mem hi.inv.names (List.mem_of_find?_eq_some ha)
  have hr : (refs (pre ++ e :: post)).Nodup := hs ▸ hi.refs
  have hfr : e.fRemove ≠ some f := fun h' => by
    simpa [refs, hfa, h'] using hr.sublist (refs_sublist (List.singleton_sublist.mpr
      (List.mem_append_right pre (List.mem_cons_self e post))))
  have hs' : (s.markRan f).services = pre ++ e :: post := hs
  rw [replies_split_markRan f hs hr (by simp [refs, hfa]),
    owed_markRan_add_eq s hfa hfr (waits_of_future hfut)]
  unfold addContinuation
  dsimp only
  split_ifs with h0 h1
  · have hs1 : ∀ rs : List (ℕ × ℤ),
        ({ (s.markRan f).setEntry e with responded := rs } : State).services = pre ++ e :: post :=
      fun _ => setEntry_split hs' hpre hpost rfl
    rw [replies, owedAll_delete_split (hs1 _) hpre hpost hr, (delete_shrinks _ _).responded,
      (delete_shrinks _ _).accepted]
    simp only [State.setEntry_futures, State.markRan_responded, State.setEntry_accepted,
      State.markRan_accepted, List.map_append, List.map_cons, List.map_nil, ← Multiset.coe_add,
      Multiset.coe_singleton]
    abel
  · simp only [replies, State.setEntry_futures, State.markRan_responded, State.setEntry_accepted,
      State.markRan_accepted, setEntry_split hs' hpre hpost, owedAll_split_mid, owed_live,
      List.map_append, List.map_cons, List.map_nil, ← Multiset.coe_add, Multiset.coe_singleton,
      add_zero]
    abel
  · exact absurd (not_not.mp h0) h1

lemma removeContinuation_replies {s : State} {f i : ℕ} {r : ℤ} {e : Entry} (hi : Apart s)
    (hfut : s.future f = some ⟨i, some r, false⟩) (ha : s.services.find? (·.fAdd = some f) = none)
    (hrem : s.services.find? (·.fRemove = some f) = some e) :
    replies (removeContinuation (s.markRan f) e r) + owed (s.markRan f).futures e +
        (s.accepted : Multiset ℕ) = replies s + (removeContinuation (s.markRan f) e r).accepted := by
  have he := List.mem_of_find?_eq_some hrem
  have hfr : e.fRemove = some f := by simpa using List.find?_some hrem
  have hfa : e.fAdd ≠ some f := by simpa using List.find?_eq_none.mp ha e he
  obtain ⟨pre, post, hs, hpre, hpost⟩ := split_of_mem hi.inv.names he
  have hr : (refs (pre ++ e :: post)).Nodup := hs ▸ hi.refs
  have hs' : (s.markRan f).services = pre ++ e :: post := hs
  rw [replies_split_markRan f hs hr (by simp [refs, hfr]),
    owed_markRan_remove_eq s hfr hfa (waits_of_future hfut)]
  unfold removeContinuation
  dsimp only
  have hs1 : ∀ (e' : Entry), e'.name = e.name → ∀ rs : List (ℕ × ℤ),
      ({ (s.markRan f).setEntry e' with responded := rs } : State).services = pre ++ e' :: post :=
    fun _ hn _ => setEntry_split hs' hpre hpost hn
  have hrr : ((e.removeRequest.toList.map (·, r)).map Prod.fst : Multiset ℕ) =
      e.removeRequest.toList := by
    rw [List.map_map]
    exact congrArg _ (List.map_id _)
  split_ifs
  on_goal 1 => rw [replies, owedAll_delete_split (hs1 { e with live := false } rfl _) hpre hpost
    (by simpa only [refs_append, refs_cons] using hr)]
  on_goal 2 => rw [replies, owedAll_delete_split (hs1 e rfl _) hpre hpost hr]
  all_goals
    rw [(delete_shrinks _ _).responded, (delete_shrinks _ _).accepted]
    simp only [State.setEntry_futures, State.markRan_responded, State.setEntry_accepted,
      State.markRan_accepted, List.map_append, ← Multiset.coe_add, hrr]
    abel

/-- A continuation answers the request of its future, and its deletion drops what the entry
still owes. -/
lemma cont_replies {s s' : State} {f : ℕ} (hi : Apart s) (h : step s (.cont f) = some s') :
    replies s' + contDropped s f + (s.accepted : Multiset ℕ) = replies s + s'.accepted := by
  obtain ⟨i, r, e, hfut, ⟨ha, rfl⟩ | ⟨ha, hrem, rfl⟩⟩ := cont_cases h
  · simpa only [contDropped, hfut, ha] using addContinuation_replies hi hfut ha
  · simpa only [contDropped, hfut, ha, hrem] using removeContinuation_replies hi hfut ha hrem

/-! ### Runs -/

/-- **Each call keeps the books.** What was given and owed, with what the call accepts, is
what is given and owed after it, with what it drops. -/
lemma step_replies {s s' : State} {a : Act} (hi : Owned s) (h : step s a = some s') :
    replies s' + stepDropped s a + (s.accepted : Multiset ℕ) = replies s + s'.accepted := by
  cases a with
  | add name uuid msg fail =>
    cases h
    simpa only [stepDropped, add_zero] using add_replies hi.apart.inv name uuid msg fail
  | remove name uuid msg fail => cases h; exact remove_replies hi.apart name uuid msg fail
  | disconnect uuid =>
    cases h
    rw [replies, replies, (servhashDisconnect_shrinks s uuid).responded,
      (servhashDisconnect_shrinks s uuid).accepted, owedAll_walk _ _ s hi.apart, stepDropped]
    unfold servhashDisconnect
    abel
  | destroy =>
    cases h
    have hw := owedAll_walk (fun _ _ => true) (s.services.map (·.name)) s hi.apart
    simp only [if_true] at hw
    rw [replies, replies, (servhashDestroy_shrinks s).responded, (servhashDestroy_shrinks s).accepted,
      hw, stepDropped]
    unfold servhashDestroy
    abel
  | upstream =>
    dsimp only [step] at h
    split at h
    · cases h
      simp only [replies, stepDropped, State.fulfil_responded, State.fulfil_services,
        State.fulfil_accepted, add_zero]
      congr 2
      exact owedAll_congr fun x _ => by simp only [owed, waits_fulfil]
    · cases h
  | cont f => exact cont_replies hi.apart h

lemma run_replies : ∀ {as : List Act} {s s' : State}, run s as = some s' → Owned s →
    replies s' + runDropped s as + (s.accepted : Multiset ℕ) = replies s + s'.accepted
  | [], _, _, h, _ => by cases h; simp [runDropped]
  | a :: as, s, s', h, hi => by
    obtain ⟨s₁, h₁, h₂⟩ := Option.bind_eq_some.mp h
    have h1 := step_replies hi h₁
    have h2 := run_replies h₂ (step_owned hi h₁)
    simp only [runDropped, h₁]
    refine add_right_cancel (b := (s₁.accepted : Multiset ℕ)) ?_
    calc replies s' + (stepDropped s a + runDropped s₁ as) + s.accepted + s₁.accepted
        = replies s' + runDropped s₁ as + s₁.accepted + (stepDropped s a + s.accepted) := by abel
      _ = replies s₁ + stepDropped s a + s.accepted + s'.accepted := by rw [h2]; abel
      _ = replies s + s'.accepted + s₁.accepted := by rw [h1]; abel

lemma replies_init (others : List String) : replies (init others) = 0 := rfl

/-- **Every accepted request is answered, owed or dropped, once.** On every run of the
servhash from its creation, the requests `servhash_add` and `servhash_remove` accepted are,
each once, those `respond_cb` answered, those an entry still owes an answer to while the
request's future waits, and those dropped when a call destroyed their entry before the
continuation ran. -/
theorem accepted_balance {others : List String} {as : List Act} {s : State}
    (h : run (init others) as = some s) :
    (s.accepted : Multiset ℕ) = (s.responded.map Prod.fst : Multiset ℕ) +
      owedAll s.futures s.services + runDropped (init others) as := by
  have hb := run_replies h (init_owned others)
  rw [replies_init, zero_add] at hb
  rw [← hb, replies]
  exact add_zero _

theorem accepted_balance_disconnect :
    ∃ s, run (init []) [.add "foo" "c1" 1 .none, .add "bar" "c2" 2 .none, .upstream, .cont 0,
        .disconnect "c2"] = some s ∧
      (s.accepted : Multiset ℕ) = (s.responded.map Prod.fst : Multiset ℕ) +
        owedAll s.futures s.services + runDropped (init []) [.add "foo" "c1" 1 .none,
          .add "bar" "c2" 2 .none, .upstream, .cont 0, .disconnect "c2"] :=
  ⟨_, rfl, @accepted_balance [] [.add "foo" "c1" 1 .none, .add "bar" "c2" 2 .none, .upstream,
    .cont 0, .disconnect "c2"] _ rfl⟩

/-- `servhash_disconnect` drops the answer `bar` owed. -/
example : runDropped (init []) [.add "foo" "c1" 1 .none, .add "bar" "c2" 2 .none, .upstream,
    .cont 0, .disconnect "c2"] = {2} := by decide

/-! ### Orderly runs -/

/-- The entries `P` picks wait on their `service.add` no more. -/
def AddAnswered (P : Entry → Bool) (s : State) : Prop :=
  ∀ e ∈ s.services, P e = true → waits s.futures e.fAdd = false

/-- An entry sends its `service.remove` only once its `service.add` has been answered. -/
abbrev AddSettled : State → Prop := AddAnswered fun e => e.fRemove.isSome

section AddAnswered

variable {P : Entry → Bool}

lemma AddAnswered.of_shrinks {s t : State} (h : AddAnswered P s) (hs : Shrinks s t) : AddAnswered P t :=
  fun x hx hr => Bool.eq_false_iff.mpr fun hw => by
    simpa [h x (hs.services.subset hx) hr] using waits_mono hs.futures hw

lemma AddAnswered.markRan {s : State} (h : AddAnswered P s) (f : ℕ) : AddAnswered P (s.markRan f) :=
  fun x hx hr => by rw [waits_markRan, h x hx hr, Bool.false_and]

lemma AddAnswered.setEntry {s : State} (h : AddAnswered P s) {e : Entry}
    (he : P e = true → waits s.futures e.fAdd = false) : AddAnswered P (s.setEntry e) :=
  fun x hx => (mem_setEntry hx).elim (fun hx => hx ▸ he) (h x)

lemma AddAnswered.send {s : State} (h : AddAnswered P s)
    (hlt : ∀ x ∈ s.services, ∀ g ∈ x.fAdd, g < s.next) (register : Bool) (name : String) (keep : Bool) :
    AddAnswered P (s.send register name keep) :=
  fun x hx hr => by
    rw [State.send_futures]
    split
    · rw [waits_append_new _ (hlt x hx)]; exact h x hx hr
    · exact h x hx hr

lemma servhashAdd_answered {s : State} (hi : Inv s) (h : AddAnswered P s)
    (hP : ∀ e : Entry, e.fRemove = none → e.live = false → P e = false) (name uuid : String) (msg : ℕ)
    (fail : AddFail) : AddAnswered P (servhashAdd s name uuid msg fail).1 := by
  have hs := h.send fun x hx => (hi.entry_lt x hx).1
  unfold servhashAdd
  split_ifs
  · exact h
  cases fail with
  | create => exact h
  | register => dsimp only; exact h.of_shrinks (entryDestroy_shrinks _ _)
  | then_ => dsimp only; exact (hs true name true).of_shrinks (entryDestroy_shrinks _ _)
  | none =>
    intro x hx
    rcases List.mem_append.mp hx with hx | hx
    · exact hs true name true x hx
    · obtain rfl := List.mem_singleton.mp hx
      intro hr
      rw [hP _ rfl rfl] at hr
      cases hr

end AddAnswered

/-- Whether a call drops no answer: `servhash_remove` waits for the entry's `service.add` to be
answered, and neither `servhash_disconnect` nor `servhash_destroy` is called. -/
def Orderly (s : State) : Act → Prop
  | .remove name .. => ∀ e ∈ s.lookup name, waits s.futures e.fAdd = false
  | .disconnect _ | .destroy => False
  | .add .. | .upstream | .cont _ => True

instance (s : State) : (a : Act) → Decidable (Orderly s a)
  | .remove name .. => inferInstanceAs (Decidable (∀ e ∈ s.lookup name, _))
  | .disconnect _ | .destroy => isFalse id
  | .add .. | .upstream | .cont _ => isTrue trivial

lemma servhashRemove_answered {P : Entry → Bool} {s : State} (hi : Inv s) (h : AddAnswered P s)
    {name : String} (hrm : ∀ e ∈ s.lookup name, ∀ r f,
      P { e with removeRequest := r, fRemove := f } = true → waits s.futures e.fAdd = false)
    (uuid : String) (msg : ℕ) (fail : RemoveFail) : AddAnswered P (servhashRemove s name uuid msg fail).1 := by
  unfold servhashRemove
  cases hl : s.lookup name with
  | none => exact h
  | some e =>
    have he := List.mem_of_find?_eq_some hl
    have hsent := (h.setEntry (hrm e hl (some msg) (some s.next))).send fun x hx => (mem_setEntry hx).elim
      (fun hx => by subst hx; exact (hi.entry_lt e he).1) fun hx => (hi.entry_lt x hx).1
    dsimp only
    split
    · exact h
    · cases fail with
      | unregister => exact h.setEntry (hrm e hl (some msg) e.fRemove)
      | then_ => exact (hsent false name true).of_shrinks (delete_shrinks _ _)
      | none => exact hsent false name true

lemma cont_settled {s s' : State} {f : ℕ} (h : AddSettled s) (hs : step s (.cont f) = some s') :
    AddSettled s' := by
  obtain ⟨-, r, e, -, ⟨ha, rfl⟩ | ⟨-, ha, rfl⟩⟩ := cont_cases hs
  · have hm := h.markRan f
    have he := hm e (List.mem_of_find?_eq_some ha)
    unfold addContinuation
    dsimp only
    split_ifs
    · exact AddAnswered.of_shrinks (by exact hm.setEntry he) (delete_shrinks _ _)
    · exact hm.setEntry he
    · exact hm.setEntry he
  · have hm := h.markRan f
    have he := hm e (List.mem_of_find?_eq_some ha)
    unfold removeContinuation
    dsimp only
    split_ifs
    all_goals exact AddAnswered.of_shrinks (by exact hm.setEntry he) (delete_shrinks _ _)

lemma step_settled {s s' : State} {a : Act} (hi : Inv s) (h : AddSettled s) (ho : Orderly s a)
    (hs : step s a = some s') : AddSettled s' := by
  cases a with
  | add name uuid msg fail =>
    cases hs
    exact servhashAdd_answered hi h (fun _ hf _ => by simp [hf]) name uuid msg fail
  | remove name uuid msg fail =>
    cases hs
    exact servhashRemove_answered hi h (fun e hl _ _ _ => ho e hl) uuid msg fail
  | disconnect uuid => cases hs; exact h.of_shrinks (servhashDisconnect_shrinks s uuid)
  | destroy => cases hs; exact h.of_shrinks (servhashDestroy_shrinks s)
  | upstream =>
    dsimp only [step] at hs
    split at hs
    · cases hs
      exact fun x hx hr => by rw [waits_fulfil]; exact h x hx hr
    · cases hs
  | cont f => exact cont_settled h hs

lemma fRemove_none {s : State} (h : AddSettled s) {e : Entry} (he : e ∈ s.services)
    (hw : waits s.futures e.fAdd = true) : e.fRemove = none :=
  Option.not_isSome_iff_eq_none.mp fun hr => by simp [h e he hr] at hw

lemma stepDropped_orderly {s s' : State} {a : Act} (h : AddSettled s) (ho : Orderly s a)
    (hs : step s a = some s') : stepDropped s a = 0 := by
  cases a with
  | add _ _ _ _ | upstream => rfl
  | disconnect _ | destroy => exact ho.elim
  | remove name uuid msg fail =>
    simp only [stepDropped, removeDropped]
    cases hl : s.lookup name with
    | none => rfl
    | some e =>
      dsimp only
      split_ifs with hc
      · rfl
      · have hf : e.fRemove = none := Option.not_isSome_iff_eq_none.mp (not_or.mp hc).2
        cases fail <;> simp [owed, hf, ho e hl]
  | cont f =>
    obtain ⟨i, r, e, hfut, ⟨ha, -⟩ | ⟨ha, hrem, -⟩⟩ := cont_cases hs
    · have hfa : e.fAdd = some f := by simpa using List.find?_some ha
      have hf := fRemove_none h (List.mem_of_find?_eq_some ha) (hfa ▸ waits_of_future hfut)
      simp only [stepDropped, contDropped, hfut, ha]
      split_ifs <;> simp [owed, waits_markRan, hfa, hf]
    · have hfr : e.fRemove = some f := by simpa using List.find?_some hrem
      have hfa := h e (List.mem_of_find?_eq_some hrem) (by simp [hfr])
      simp [stepDropped, contDropped, hfut, ha, hrem, owed, waits_markRan, hfa, hfr]

/-- Whether every call of a run is orderly. -/
def orderly (s : State) : List Act → Bool
  | [] => true
  | a :: as => decide (Orderly s a) && (step s a).elim true (orderly · as)

lemma runDropped_orderly : ∀ {as : List Act} {s s' : State}, run s as = some s' →
    orderly s as = true → Owned s → AddSettled s → runDropped s as = 0
  | [], _, _, _, _, _, _ => rfl
  | a :: as, s, _, h, hc, hi, hs => by
    obtain ⟨s₁, h₁, h₂⟩ := Option.bind_eq_some.mp h
    simp only [orderly, Bool.and_eq_true, decide_eq_true_eq, h₁, Option.elim] at hc
    simp only [runDropped, h₁, stepDropped_orderly hs hc.1 h₁, zero_add]
    exact runDropped_orderly h₂ hc.2 (step_owned hi h₁) (step_settled hi.apart.inv hs hc.1 h₁)

/-- Along an orderly run from creation every accepted request is answered or owed. -/
lemma orderly_accepted {others : List String} {as : List Act} {s : State}
    (h : run (init others) as = some s) (ho : orderly (init others) as = true) :
    (s.accepted : Multiset ℕ) = replies s := by
  have hb := run_replies h (init_owned others)
  have hd : runDropped (init others) as = 0 :=
    runDropped_orderly h ho (init_owned others) fun _ he => nomatch he
  rw [hd, replies_init, zero_add, add_zero] at hb
  exact hb.symm.trans (add_zero _)

lemma owedAll_ran {s : State} (hq : ∀ x ∈ s.futures, x.ran = true) : owedAll s.futures s.services = 0 := by
  have hw : ∀ g, waits s.futures g = false := fun g => by
    cases g with
    | none => rfl
    | some g => exact List.any_eq_false.mpr fun x hx => by simp [hq x hx]
  refine List.sum_eq_zero fun m hm => ?_
  obtain ⟨e, -, rfl⟩ := List.mem_map.mp hm
  simp [owed, hw]

/-- **Orderly runs answer each request once.** On every run of the servhash from its
creation that calls neither `servhash_disconnect` nor `servhash_destroy`, and sends no
`service.remove` while the entry's `service.add` waits, once every continuation has run the
requests answered by `respond_cb` are the requests accepted, each once. -/
theorem orderly_answers_once {others : List String} {as : List Act} {s : State}
    (h : run (init others) as = some s) (ho : orderly (init others) as = true)
    (hq : ∀ x ∈ s.futures, x.ran = true) : s.accepted.Perm (s.responded.map Prod.fst) := by
  have hb := orderly_accepted h ho
  rw [replies, owedAll_ran hq, add_zero] at hb
  exact Multiset.coe_eq_coe.mp hb

theorem orderly_answers_once_foo :
    ∃ s, run (init []) [.add "foo" "c1" 1 .none, .upstream, .cont 0, .remove "foo" "c1" 2 .none,
        .upstream, .cont 1] = some s ∧ s.accepted.Perm (s.responded.map Prod.fst) :=
  ⟨_, rfl, @orderly_answers_once [] [.add "foo" "c1" 1 .none, .upstream, .cont 0,
    .remove "foo" "c1" 2 .none, .upstream, .cont 1] _ rfl (by decide) (by decide)⟩

end FluxBroker.ServhashReplies
