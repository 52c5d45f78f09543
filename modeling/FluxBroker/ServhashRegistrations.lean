import FluxBroker.ServhashAnswers

/-!
Which names stay registered upstream on behalf of the servhash.

Upstream processes the requests in the order they were sent, so whether it will end up
holding a name for this servhash is a fold of the queued requests over what it holds now
(`eventually`). Every entry keeps that value as its state says: its name stays registered
while it is live or its `service.add` may still succeed, until a `service.remove` is sent.
Deleting an entry sends an open-loop `service.remove` when `needs_unregister` says so, and
that decision is right in every state but one: the `service.add` has succeeded upstream and
its continuation has not run (`InWindow`). A run that never deletes an entry in that window
leaves no name registered that no entry holds.
-/

namespace FluxBroker.ServhashRegistrations

open FluxBroker.Message FluxBroker.Servhash FluxBroker.ServhashAnswers

/-! ### Upstream, one name at a time -/

/-- Whether upstream holds `n` for this servhash after processing `q`, when it held it
iff `b`: a `service.add` of `n` registers it unless another peer holds it, a
`service.remove` of `n` unregisters it, and a request for another name leaves it. -/
def regAfter (others : List String) (n : String) (b : Bool) (q : Req) : Bool :=
  if q.name = n then (if q.register then b || decide (n ∉ others) else false) else b

/-- Whether upstream holds `n` for this servhash once it has processed every request sent. -/
def eventually (s : State) (n : String) : Bool :=
  s.upstream.foldl (regAfter s.others n) (decide (n ∈ s.mine))

lemma mem_answer {s : State} (hn : s.mine.Nodup) (q : Req) (n : String) :
    decide (n ∈ (answer s q).2) = regAfter s.others n (decide (n ∈ s.mine)) q := by
  unfold answer regAfter
  by_cases hq : q.name = n
  · subst hq
    rw [if_pos rfl]
    cases q.register
    · simp only [Bool.false_eq_true, if_false]
      split_ifs with h
      · simp [hn.mem_erase_iff]
      · simp [h]
    · simp only [if_true]
      split_ifs with h
      · simp [h.2]
      · by_cases hm : q.name ∈ s.mine
        · simp [hm]
        · simp [hm, not_not.mp fun h' => h ⟨hm, h'⟩]
  · split_ifs <;> simp [hq, Ne.symm hq, List.mem_erase_of_ne]

lemma answer_nodup {s : State} (hn : s.mine.Nodup) (q : Req) : (answer s q).2.Nodup := by
  unfold answer
  split_ifs with hr h1 h2
  · exact hn.append (List.nodup_singleton _) (by simpa using h1.1)
  · exact hn
  · exact hn.erase _
  · exact hn

lemma answer_register {s : State} {q : Req} (hr : q.register = true) (hm : q.name ∉ s.mine) :
    (answer s q).1 = 0 ↔ q.name ∉ s.others := by
  unfold answer
  simp only [hr, if_true, hm, not_false_eq_true, true_and]
  split_ifs with h <;> simp [h, EEXIST]

lemma eventually_process {s : State} {q : Req} {rest : List Req} (hn : s.mine.Nodup)
    (hq : s.upstream = q :: rest) (n : String) :
    eventually { s with upstream := rest, mine := (answer s q).2 } n = eventually s n := by
  simp only [eventually, hq, List.foldl_cons, mem_answer hn]

lemma eventually_send (s : State) (r : Bool) (name : String) (keep : Bool) (n : String) :
    eventually (s.send r name keep) n = regAfter s.others n (eventually s n) ⟨s.next, r, name⟩ := by
  simp [eventually, State.send, List.foldl_append]

lemma eventually_congr {s t : State} (hu : t.upstream = s.upstream) (hm : t.mine = s.mine)
    (ho : t.others = s.others) (n : String) : eventually t n = eventually s n := by
  simp only [eventually, hu, hm, ho]

lemma eventually_destroyFuture (s : State) (f : Option ℕ) (n : String) :
    eventually (s.destroyFuture f) n = eventually s n :=
  eventually_congr (by simp) (by simp) (by simp) n

/-! ### The window -/

/-- The entry's `service.add` has succeeded upstream and its continuation has not run: the
name is registered, yet `needs_unregister` is false, since `f_add` is ready and the entry is
not live. -/
def InWindow (s : State) (e : Entry) : Prop :=
  e.live = false ∧ e.fRemove = none ∧ ∃ f ∈ e.fAdd, (s.future f).bind Future.result = some 0

/-! ### The invariant -/

/-- The futures the entries hold. -/
def refs (l : List Entry) : List ℕ := l.flatMap fun e => e.fAdd.toList ++ e.fRemove.toList

/-- Where the `service.add` with future `f` for the name `n` is: queued, with upstream not
holding `n` for this servhash by the time it gets to it, or answered, with success exactly
when no other peer holds `n`. -/
def AddState (s : State) (f : ℕ) (n : String) : Prop :=
  (∃ ran, ⟨f, none, ran⟩ ∈ s.futures ∧ ∃ pre post, s.upstream = pre ++ ⟨f, true, n⟩ :: post ∧
    pre.foldl (regAfter s.others n) (decide (n ∈ s.mine)) = false) ∨
  (∃ r ran, ⟨f, some r, ran⟩ ∈ s.futures ∧ (∀ q ∈ s.upstream, q.fut ≠ f) ∧ (r = 0 ↔ n ∉ s.others))

/-- Futures and requests are numbered apart and below the counter, upstream holds a name at
most once, no name without an entry stays registered, every entry's name stays registered
exactly while it is live or its `service.add` may succeed and no `service.remove` is sent,
and every entry's `service.add` is queued or answered. -/
structure RegInv (s : State) : Prop where
  names : (s.services.map (·.name)).Nodup
  refs_nodup : (refs s.services).Nodup
  refs_lt : ∀ f ∈ refs s.services, f < s.next
  ids : (s.futures.map (·.id)).Nodup
  ids_lt : ∀ x ∈ s.futures, x.id < s.next
  reqs : (s.upstream.map (·.fut)).Nodup
  reqs_lt : ∀ q ∈ s.upstream, q.fut < s.next
  mine : s.mine.Nodup
  clean : ∀ n, (∀ e ∈ s.services, e.name ≠ n) → eventually s n = false
  entry : ∀ e ∈ s.services,
    eventually s e.name = (e.fRemove.isNone && (e.live || decide (e.name ∉ s.others)))
  add : ∀ e ∈ s.services, ∃ f, e.fAdd = some f ∧ AddState s f e.name

lemma find_id {fs : List Future} (hn : (fs.map (·.id)).Nodup) {x : Future} (hx : x ∈ fs) :
    fs.find? (·.id = x.id) = some x := by
  induction fs with
  | nil => cases hx
  | cons y ys ih =>
    rw [List.map_cons, List.nodup_cons] at hn
    rcases List.mem_cons.mp hx with rfl | hx
    · simp
    · have : y.id ≠ x.id := fun h => hn.1 (h ▸ List.mem_map_of_mem _ hx)
      simp [this, ih hn.2 hx]

lemma future_of_mem {s : State} (hn : (s.futures.map (·.id)).Nodup) {x : Future}
    (hx : x ∈ s.futures) : s.future x.id = some x :=
  find_id hn hx

lemma eventually_of_needs {s : State} (hi : RegInv s) {e : Entry} (he : e ∈ s.services)
    (hw : ¬ InWindow s e) (hn : needsUnregister s e = false) : eventually s e.name = false := by
  rw [hi.entry e he]
  obtain ⟨f, hf, ha⟩ := hi.add e he
  cases hl : e.live
  · rcases ha with ⟨ran, hx, -⟩ | ⟨r, ran, hx, -, hr⟩
    · have hfut := future_of_mem hi.ids hx
      simp [needsUnregister, hl, hf, State.isReady, hfut] at hn
    · cases hrm : e.fRemove with
      | some g => rfl
      | none =>
        have hfut := future_of_mem hi.ids hx
        have hr0 : r ≠ 0 := fun h0 => hw ⟨hl, hrm, f, hf, by simp [hfut, h0]⟩
        simpa using hr.not.mp hr0
  · simpa [needsUnregister, hl] using hn

lemma AddState.mono {s t : State} {f : ℕ} {n : String} (ha : AddState s f n)
    (hfut : ∀ r ran, ⟨f, r, ran⟩ ∈ s.futures → ∃ ran', ⟨f, r, ran'⟩ ∈ t.futures)
    (extra : List Req) (hup : t.upstream = s.upstream ++ extra) (hx : ∀ q ∈ extra, q.fut ≠ f)
    (hm : t.mine = s.mine) (ho : t.others = s.others) : AddState t f n := by
  rcases ha with ⟨ran, hf, pre, post, hq, hpre⟩ | ⟨r, ran, hf, hq, hr⟩
  · obtain ⟨ran', hf'⟩ := hfut _ _ hf
    exact .inl ⟨ran', hf', pre, post ++ extra, by simp [hup, hq], by rwa [hm, ho]⟩
  · obtain ⟨ran', hf'⟩ := hfut _ _ hf
    refine .inr ⟨r, ran', hf', fun q hq' => ?_, by rwa [ho]⟩
    rw [hup, List.mem_append] at hq'
    exact hq'.elim (hq q) (hx q)

/-! ### Sending a request -/

section Send

variable {s : State} (hi : RegInv s) (r : Bool) (n : String)
include hi

lemma send_ids : ((s.send r n true).futures.map (·.id)).Nodup := by
  simp only [State.send_futures, if_true, List.map_append, List.map_singleton, List.nodup_append,
    List.nodup_singleton]
  exact ⟨hi.ids, trivial, List.disjoint_singleton.mpr fun h =>
    let ⟨x, hx, he⟩ := List.mem_map.mp h; (hi.ids_lt x hx).ne he⟩

lemma send_ids_lt : ∀ x ∈ (s.send r n true).futures, x.id < (s.send r n true).next := by
  simp only [State.send_futures, if_true, List.mem_append, List.mem_singleton, State.send_next]
  rintro x (hx | rfl)
  exacts [(hi.ids_lt x hx).trans (Nat.lt_succ_self _), Nat.lt_succ_self _]

lemma send_reqs (k : Bool) : ((s.send r n k).upstream.map (·.fut)).Nodup := by
  simp only [State.send_upstream, List.map_append, List.map_singleton, List.nodup_append,
    List.nodup_singleton]
  exact ⟨hi.reqs, trivial, List.disjoint_singleton.mpr fun h =>
    let ⟨q, hq, he⟩ := List.mem_map.mp h; (hi.reqs_lt q hq).ne he⟩

lemma send_reqs_lt (k : Bool) : ∀ q ∈ (s.send r n k).upstream, q.fut < (s.send r n k).next := by
  simp only [State.send_upstream, List.mem_append, List.mem_singleton, State.send_next]
  rintro q (hq | rfl)
  exacts [(hi.reqs_lt q hq).trans (Nat.lt_succ_self _), Nat.lt_succ_self _]

omit hi in
lemma addState_send {f : ℕ} {n' : String} (ha : AddState s f n') (hf : f < s.next) (k : Bool) :
    AddState (s.send r n k) f n' :=
  ha.mono (fun _ ran hx => ⟨ran, by cases k <;> simp [hx]⟩) _ (State.send_upstream ..)
    (by simpa using hf.ne') rfl rfl

end Send

/-! ### Deleting an entry -/

lemma destroyFuture_sublist (t : State) (f : Option ℕ) :
    (t.destroyFuture f).futures.Sublist t.futures := by
  cases f
  exacts [List.Sublist.refl _, List.filter_sublist _]

section EntryDestroy

variable (t : State) (e : Entry)

lemma entryDestroy_upstream : (entryDestroy t e).upstream =
    t.upstream ++ if needsUnregister t e then [⟨t.next, false, e.name⟩] else [] := by
  unfold entryDestroy; split <;> simp [*]

lemma entryDestroy_next :
    (entryDestroy t e).next = t.next + if needsUnregister t e then 1 else 0 := by
  unfold entryDestroy; split <;> simp [*]

lemma entryDestroy_mine : (entryDestroy t e).mine = t.mine := by
  unfold entryDestroy; split <;> simp

lemma entryDestroy_others : (entryDestroy t e).others = t.others := by
  unfold entryDestroy; split <;> simp

lemma entryDestroy_services : (entryDestroy t e).services = t.services := by
  unfold entryDestroy; split <;> simp

lemma mem_entryDestroy_iff {x : Future} : x ∈ (entryDestroy t e).futures ↔
    x ∈ t.futures ∧ (∀ f ∈ e.fAdd, x.id ≠ f) ∧ ∀ f ∈ e.fRemove, x.id ≠ f := by
  unfold entryDestroy
  rw [mem_destroyFuture, mem_destroyFuture, and_assoc]
  split <;> simp

lemma entryDestroy_futures_sublist : (entryDestroy t e).futures.Sublist t.futures := by
  unfold entryDestroy
  refine ((destroyFuture_sublist _ _).trans (destroyFuture_sublist _ _)).trans ?_
  split <;> simp

lemma eventually_entryDestroy (n : String) : eventually (entryDestroy t e) n =
    if needsUnregister t e = true ∧ e.name = n then false else eventually t n := by
  unfold entryDestroy
  split
  · simp only [eventually_destroyFuture, eventually_send, regAfter]
    split_ifs <;> simp_all
  · simp only [eventually_destroyFuture]
    simp_all

end EntryDestroy

lemma refs_append (l l' : List Entry) : refs (l ++ l') = refs l ++ refs l' := List.flatMap_append ..

lemma refs_cons (e : Entry) (l : List Entry) :
    refs (e :: l) = e.fAdd.toList ++ e.fRemove.toList ++ refs l := List.flatMap_cons ..

lemma mem_refs {f : ℕ} {l : List Entry} : f ∈ refs l ↔ ∃ e ∈ l, f ∈ e.fAdd ∨ f ∈ e.fRemove := by
  simp only [refs, List.mem_flatMap, List.mem_append, Option.mem_toList]

lemma refs_sublist {l l' : List Entry} (h : l'.Sublist l) : (refs l').Sublist (refs l) := by
  induction h with
  | slnil => exact .slnil
  | cons e _ ih => rw [refs_cons]; exact ih.trans (List.sublist_append_right _ _)
  | cons₂ e _ ih => rw [refs_cons, refs_cons]; exact ih.append_left _

lemma refs_disjoint {pre post : List Entry} {e : Entry} (hn : (refs (pre ++ e :: post)).Nodup) :
    ∀ f ∈ refs [e], f ∉ refs (pre ++ post) := by
  intro f hf hf'
  rw [refs_append, refs_cons, List.nodup_append] at hn
  have hE : f ∈ e.fAdd.toList ++ e.fRemove.toList := by simpa [refs] using hf
  rw [refs_append] at hf'
  rcases List.mem_append.mp hf' with h | h
  · exact hn.2.2 h (List.mem_append_left _ hE)
  · exact (List.nodup_append.mp hn.2.1).2.2 hE h

lemma refs_apart {pre post : List Entry} {e x : Entry} (hn : (refs (pre ++ e :: post)).Nodup)
    (hx : x ∈ pre ++ post) {f : ℕ} (hf : x.fAdd = some f) :
    (∀ g ∈ e.fAdd, f ≠ g) ∧ ∀ g ∈ e.fRemove, f ≠ g := by
  have hfx : f ∈ refs (pre ++ post) := mem_refs.mpr ⟨x, hx, .inl hf⟩
  constructor <;> rintro g hg rfl <;> exact refs_disjoint hn f (by simp [refs, hg]) hfx

lemma entryDestroy_inv {s t : State} (hi : RegInv s) {e : Entry} {pre post : List Entry}
    (hs : s.services = pre ++ e :: post) (hpre : ∀ x ∈ pre, x.name ≠ e.name)
    (hpost : ∀ x ∈ post, x.name ≠ e.name) (hw : ¬ InWindow s e) (ht : t.services = pre ++ post)
    (hf : t.futures = s.futures) (hu : t.upstream = s.upstream) (hm : t.mine = s.mine)
    (ho : t.others = s.others) (hn : t.next = s.next) : RegInv (entryDestroy t e) := by
  have he : e ∈ s.services := hs ▸ List.mem_append_right pre (List.mem_cons_self e post)
  have hsub : (pre ++ post).Sublist s.services := by
    rw [hs]; exact (List.sublist_cons_self e post).append_left pre
  have hrefs : (refs (pre ++ e :: post)).Nodup := hs ▸ hi.refs_nodup
  have hneeds : needsUnregister t e = needsUnregister s e := by
    unfold needsUnregister State.isReady State.future; rw [hf]
  have hev : ∀ n, eventually (entryDestroy t e) n = if e.name = n then false else eventually s n := by
    intro n
    rw [eventually_entryDestroy, hneeds, eventually_congr hu hm ho]
    by_cases hn : e.name = n
    · subst hn
      cases hneed : needsUnregister s e
      · simpa using eventually_of_needs hi he hw hneed
      · simp
    · simp [hn]
  have hnext : s.next ≤ (entryDestroy t e).next := by
    rw [entryDestroy_next, hn]; exact Nat.le_add_right _ _
  have hup : (entryDestroy t e).upstream =
      s.upstream ++ if needsUnregister s e then [⟨s.next, false, e.name⟩] else [] := by
    rw [entryDestroy_upstream, hu, hn, hneeds]
  have hfut : (entryDestroy t e).futures.Sublist s.futures := hf ▸ entryDestroy_futures_sublist t e
  have hreq : ((entryDestroy t e).upstream.map (·.fut)).Nodup ∧
      ∀ q ∈ (entryDestroy t e).upstream, q.fut < (entryDestroy t e).next := by
    rw [hup, entryDestroy_next, hn, hneeds]
    cases needsUnregister s e
    · simpa using And.intro hi.reqs hi.reqs_lt
    · exact ⟨send_reqs hi false e.name false, send_reqs_lt hi false e.name false⟩
  refine ⟨?_, ?_, ?_, hi.ids.sublist (hfut.map _), fun x hx => (hi.ids_lt x (hfut.subset hx)).trans_le hnext,
    hreq.1, hreq.2, (entryDestroy_mine t e).trans hm ▸ hi.mine, ?_, ?_, ?_⟩
  · rw [entryDestroy_services, ht]; exact hi.names.sublist (hsub.map _)
  · rw [entryDestroy_services, ht]
    exact hrefs.sublist (refs_sublist ((List.sublist_cons_self e post).append_left pre))
  · rw [entryDestroy_services, ht]
    exact fun f hf => (hi.refs_lt f ((refs_sublist hsub).subset hf)).trans_le hnext
  · rw [entryDestroy_services, ht]
    intro n hn
    rw [hev]
    split_ifs with h
    · rfl
    · refine hi.clean n fun x hx => ?_
      rw [hs, List.mem_append, List.mem_cons] at hx
      rcases hx with hx | rfl | hx
      exacts [hn x (List.mem_append_left _ hx), h, hn x (List.mem_append_right _ hx)]
  · rw [entryDestroy_services, entryDestroy_others, ht, ho]
    intro x hx
    have hxe : x.name ≠ e.name := by
      rcases List.mem_append.mp hx with hx | hx
      exacts [hpre x hx, hpost x hx]
    rw [hev, if_neg (Ne.symm hxe)]
    exact hi.entry x (hsub.subset hx)
  · rw [entryDestroy_services, ht]
    intro x hx
    obtain ⟨f, hf', ha⟩ := hi.add x (hsub.subset hx)
    have hlt := hi.refs_lt f (mem_refs.mpr ⟨x, hsub.subset hx, .inl hf'⟩)
    refine ⟨f, hf', ha.mono (fun r ran hx' => ⟨ran, ?_⟩) _ hup ?_
      ((entryDestroy_mine _ _).trans hm) ((entryDestroy_others _ _).trans ho)⟩
    · exact (mem_entryDestroy_iff _ _).mpr
        ⟨hf ▸ hx', (refs_apart hrefs hx hf').1, (refs_apart hrefs hx hf').2⟩
    · split
      · simpa using hlt.ne'
      · simp

lemma delete_inv {s : State} (hi : RegInv s) {e : Entry} (he : e ∈ s.services)
    (hw : ¬ InWindow s e) : RegInv (s.delete e.name) := by
  obtain ⟨pre, post, hs, hpre, hpost⟩ := split_of_mem hi.names he
  rw [delete_split hs hpre hpost]
  exact entryDestroy_inv hi hs hpre hpost hw rfl rfl rfl rfl rfl rfl

/-! ### Steps that keep the registrations -/

lemma init_reg_inv (others : List String) : RegInv (init others) :=
  ⟨List.nodup_nil, List.nodup_nil, List.forall_mem_nil _, List.nodup_nil, List.forall_mem_nil _,
    List.nodup_nil, List.forall_mem_nil _, List.nodup_nil, fun _ _ => rfl, List.forall_mem_nil _,
    List.forall_mem_nil _⟩

lemma RegInv.congr {s t : State} (hi : RegInv s) (h1 : t.services = s.services)
    (h2 : t.futures = s.futures) (h3 : t.upstream = s.upstream) (h4 : t.mine = s.mine)
    (h5 : t.others = s.others) (h6 : t.next = s.next) : RegInv t := by
  have he : ∀ n, eventually t n = eventually s n := eventually_congr h3 h4 h5
  cases hi
  constructor <;> simp only [h1, h2, h3, h4, h5, h6, he, AddState] <;> assumption

lemma RegInv.setEntry {s : State} (hi : RegInv s) {e e' : Entry} (he : e ∈ s.services)
    (hname : e'.name = e.name) (hfa : e'.fAdd = e.fAdd) (hfr : e'.fRemove = e.fRemove)
    (hc : (e'.fRemove.isNone && (e'.live || decide (e'.name ∉ s.others))) =
      (e.fRemove.isNone && (e.live || decide (e.name ∉ s.others)))) : RegInv (s.setEntry e') := by
  obtain ⟨pre, post, hs, hpre, hpost⟩ := split_of_mem hi.names he
  have h1 : (s.setEntry e').services = pre ++ e' :: post := setEntry_split hs hpre hpost hname
  have hr : refs (s.setEntry e').services = refs s.services := by
    simp only [h1, hs, refs_append, refs_cons, hfa, hfr]
  refine ⟨(setEntry_names _ _).symm ▸ hi.names, hr ▸ hi.refs_nodup, hr ▸ hi.refs_lt, hi.ids,
    hi.ids_lt, hi.reqs, hi.reqs_lt, hi.mine, fun n hn => hi.clean n fun x hx h => ?_,
    fun x hx => ?_, fun x hx => ?_⟩
  · rw [hs, List.mem_append, List.mem_cons] at hx
    rcases hx with hx | rfl | hx
    · exact hn x (h1 ▸ List.mem_append_left _ hx) h
    · exact hn e' (h1 ▸ List.mem_append_right _ (List.mem_cons_self _ _)) (hname.trans h)
    · exact hn x (h1 ▸ List.mem_append_right _ (List.mem_cons_of_mem _ hx)) h
  · rcases mem_setEntry hx with rfl | hx
    · show eventually s x.name = (x.fRemove.isNone && (x.live || decide (x.name ∉ s.others)))
      rw [hc, ← hi.entry e he, hname]
    · exact hi.entry x hx
  · rcases mem_setEntry hx with rfl | hx
    · obtain ⟨f, hf, ha⟩ := hi.add e he
      exact ⟨f, hfa.trans hf, hname ▸ ha⟩
    · exact hi.add x hx

lemma ids_map {fs : List Future} {F : Future → Future} (hF : ∀ y, (F y).id = y.id) :
    (fs.map F).map (·.id) = fs.map (·.id) := by
  simp only [List.map_map]
  exact List.map_congr_left fun y _ => hF y

lemma markRan_ids (s : State) (f : ℕ) : (s.markRan f).futures.map (·.id) = s.futures.map (·.id) :=
  ids_map fun y => by split <;> rfl

lemma fulfil_ids (s : State) (f : ℕ) (r : ℤ) :
    (s.fulfil f r).futures.map (·.id) = s.futures.map (·.id) :=
  ids_map fun y => by split <;> rfl

lemma mem_markRan {s : State} {f : ℕ} {x : Future} (hx : x ∈ s.futures) :
    ∃ ran, { x with ran := ran } ∈ (s.markRan f).futures := by
  refine ⟨if x.id = f then true else x.ran, List.mem_map.mpr ⟨x, hx, ?_⟩⟩
  split <;> rfl

lemma RegInv.markRan {s : State} (hi : RegInv s) (f : ℕ) : RegInv (s.markRan f) := by
  refine ⟨hi.names, hi.refs_nodup, hi.refs_lt, (markRan_ids s f).symm ▸ hi.ids,
    id_lt_of_map (fun y => by split <;> rfl) hi.ids_lt, hi.reqs, hi.reqs_lt, hi.mine, hi.clean,
    hi.entry, fun e he => ?_⟩
  obtain ⟨g, hg, ha⟩ := hi.add e he
  exact ⟨g, hg, ha.mono (fun r ran hx => mem_markRan hx) [] (List.append_nil _).symm (List.forall_mem_nil _) rfl rfl⟩

lemma mem_fulfil_of_ne {s : State} {f : ℕ} {r : ℤ} {x : Future} (hx : x ∈ s.futures)
    (hne : x.id ≠ f) : x ∈ (s.fulfil f r).futures :=
  List.mem_map.mpr ⟨x, hx, if_neg hne⟩

lemma mem_fulfil {s : State} {f : ℕ} {r : ℤ} {o : Option ℤ} {ran : Bool}
    (hx : ⟨f, o, ran⟩ ∈ s.futures) : ⟨f, some r, ran⟩ ∈ (s.fulfil f r).futures :=
  List.mem_map.mpr ⟨_, hx, if_pos rfl⟩

lemma upstream_reg_inv {s s' : State} (hi : RegInv s) (h : step s .upstream = some s') :
    RegInv s' := by
  dsimp only [step] at h
  split at h
  · next q rest hq =>
    cases h
    have hev : ∀ n, eventually ({ s with upstream := rest, mine := (answer s q).2 }.fulfil q.fut
        (answer s q).1) n = eventually s n := fun n =>
      (eventually_congr rfl rfl rfl n).trans (eventually_process hi.mine hq n)
    have hreqs : (q.fut :: rest.map (·.fut)).Nodup := by simpa [hq] using hi.reqs
    refine ⟨hi.names, hi.refs_nodup, hi.refs_lt, (fulfil_ids _ _ _).symm ▸ hi.ids,
      id_lt_of_map (fun y => by split <;> rfl) hi.ids_lt, (List.nodup_cons.mp hreqs).2,
      fun q' hq' => hi.reqs_lt q' (hq ▸ List.mem_cons_of_mem _ hq'), answer_nodup hi.mine q,
      fun n hn => (hev n).trans (hi.clean n hn), fun e he => (hev e.name).trans (hi.entry e he),
      fun e he => ?_⟩
    obtain ⟨f, hf, ha⟩ := hi.add e he
    refine ⟨f, hf, ?_⟩
    rcases ha with ⟨ran, hx, pre, post, hup, hpre⟩ | ⟨r, ran, hx, hnq, hr⟩
    · rw [hq] at hup
      cases pre with
      | nil =>
        simp only [List.nil_append, List.cons.injEq] at hup
        obtain ⟨rfl, rfl⟩ := hup
        have hm : e.name ∉ s.mine := by simpa using hpre
        exact .inr ⟨_, ran, mem_fulfil hx, fun q' hq' hfq =>
          (List.nodup_cons.mp hreqs).1 (List.mem_map.mpr ⟨q', hq', hfq⟩), answer_register rfl hm⟩
      | cons q0 pre' =>
        simp only [List.cons_append, List.cons.injEq] at hup
        obtain ⟨rfl, rfl⟩ := hup
        have hne : q.fut ≠ f := fun h => (List.nodup_cons.mp hreqs).1 (by simp [h])
        refine .inl ⟨ran, mem_fulfil_of_ne hx (Ne.symm hne), pre', post, rfl, ?_⟩
        simpa [mem_answer hi.mine] using hpre
    · refine .inr ⟨r, ran, mem_fulfil_of_ne hx fun h => hnq q (hq ▸ List.mem_cons_self _ _) h.symm,
        fun q' hq' => hnq q' (hq ▸ List.mem_cons_of_mem _ hq'), hr⟩
  · cases h

lemma regAfter_ne {others : List String} {n : String} (b : Bool) {q : Req} (h : q.name ≠ n) :
    regAfter others n b q = b :=
  if_neg h

lemma add_none_inv {s : State} (hi : RegInv s) (name uuid : String) (msg : ℕ)
    (hfree : ∀ x ∈ s.services, x.name ≠ name) :
    RegInv { s.send true name true with
      services := s.services ++ [⟨name, uuid, msg, none, some s.next, none, false⟩]
      accepted := s.accepted ++ [msg] } := by
  have hname : eventually s name = false := hi.clean name hfree
  have hev : ∀ n ≠ name, eventually (s.send true name true) n = eventually s n := fun n hn => by
    rw [eventually_send, regAfter_ne _ (Ne.symm hn)]
  refine ⟨?_, ?_, ?_, send_ids hi true name, send_ids_lt hi true name, send_reqs hi true name true,
    send_reqs_lt hi true name true, hi.mine, fun n hn => ?_, fun x hx => ?_, fun x hx => ?_⟩
  · simpa [List.nodup_append] using ⟨hi.names, hfree⟩
  · rw [refs_append, List.nodup_append]
    refine ⟨hi.refs_nodup, by simp [refs], fun f hf hf' => ?_⟩
    simp only [refs, List.flatMap_cons, Option.toList_some, Option.toList_none, List.append_nil,
      List.flatMap_nil, List.mem_singleton] at hf'
    exact (hi.refs_lt f hf).ne hf'
  · simp only [refs_append, List.mem_append, State.send_next]
    rintro f (hf | hf)
    · exact (hi.refs_lt f hf).trans (Nat.lt_succ_self _)
    · simp [refs] at hf; omega
  · have hne : name ≠ n := hn _ (List.mem_append_right _ (List.mem_singleton_self _))
    refine (hev n (Ne.symm hne)).trans (hi.clean n fun x hx => hn x (List.mem_append_left _ hx))
  · rcases List.mem_append.mp hx with hx | hx
    · exact (hev _ (hfree x hx)).trans (hi.entry x hx)
    · simp only [List.mem_singleton] at hx
      subst hx
      show eventually (s.send true name true) name = _
      simp [eventually_send, hname, regAfter]
  · rcases List.mem_append.mp hx with hx | hx
    · obtain ⟨f, hf, ha⟩ := hi.add x hx
      exact ⟨f, hf, addState_send true name ha
        (hi.refs_lt f (mem_refs.mpr ⟨x, hx, .inl hf⟩)) true⟩
    · simp only [List.mem_singleton] at hx
      subst hx
      exact ⟨s.next, rfl, .inl ⟨false, by simp, s.upstream, [], by simp, hname⟩⟩

lemma servhashAdd_reg_inv {s : State} (hi : RegInv s) (name uuid : String) (msg : ℕ)
    (fail : AddFail) : RegInv (servhashAdd s name uuid msg fail).1 := by
  unfold servhashAdd
  split_ifs with hl
  · exact hi
  have hfree : ∀ x ∈ s.services, x.name ≠ name := State.lookup_not_isSome hl
  have hv := add_none_inv hi name uuid msg hfree
  cases fail with
  | create => exact hi
  | register => exact hi
  | then_ =>
    dsimp only
    have hnew : ⟨s.next, none, false⟩ ∈ (s.send true name true).futures := by simp
    refine entryDestroy_inv hv rfl hfree (List.forall_mem_nil _) ?_ (by simp) rfl rfl rfl rfl rfl
    rintro ⟨-, -, f, hf, h⟩
    cases hf
    change ((s.send true name true).future s.next).bind Future.result = some 0 at h
    rw [show (s.send true name true).future s.next = some ⟨s.next, none, false⟩ from
      future_of_mem (send_ids hi true name) hnew] at h
    cases h
  | none => exact hv

lemma remove_send_inv {s : State} (hi : RegInv s) {e e' : Entry} (he : e ∈ s.services)
    (hr : e.fRemove = none) (hname : e'.name = e.name) (hfa : e'.fAdd = e.fAdd)
    (hfr : e'.fRemove = some s.next) : RegInv ((s.setEntry e').send false e.name true) := by
  obtain ⟨pre, post, hs, hpre, hpost⟩ := split_of_mem hi.names he
  have h1 : ((s.setEntry e').send false e.name true).services = pre ++ e' :: post :=
    setEntry_split hs hpre hpost hname
  have hold : ∀ x ∈ pre ++ post, x ∈ s.services ∧ x.name ≠ e.name := by
    intro x hx
    rw [hs]
    rcases List.mem_append.mp hx with hx | hx
    exacts [⟨List.mem_append_left _ hx, hpre x hx⟩,
      ⟨List.mem_append_right _ (List.mem_cons_of_mem _ hx), hpost x hx⟩]
  have hmem : ∀ x ∈ pre ++ e' :: post, x = e' ∨ x ∈ pre ++ post := by
    simp only [List.mem_append, List.mem_cons]
    rintro x (hx | hx | hx) <;> simp [hx]
  have hev : ∀ n ≠ e.name, eventually ((s.setEntry e').send false e.name true) n = eventually s n :=
    fun n hn => by rw [eventually_send, regAfter_ne _ (Ne.symm hn)]; rfl
  have hlt : ∀ f ∈ refs (pre ++ e :: post), f < s.next := hs ▸ hi.refs_lt
  have hn := hi.refs_nodup
  rw [hs] at hn
  simp only [refs_append, refs_cons, hr, Option.toList_none, List.append_nil] at hn hlt
  have hrefs : (refs (pre ++ e' :: post)).Perm (s.next :: (refs pre ++ (e.fAdd.toList ++ refs post))) := by
    simp only [refs_append, refs_cons, hfa, hfr, Option.toList_some, List.append_assoc,
      List.singleton_append]
    rw [← List.append_assoc]
    exact List.perm_middle.trans (by rw [List.append_assoc])
  refine ⟨(setEntry_names s e').symm ▸ hi.names, ?_, ?_, send_ids hi false e.name,
    send_ids_lt hi false e.name, send_reqs hi false e.name true, send_reqs_lt hi false e.name true,
    hi.mine, fun n hn => ?_, fun x hx => ?_, fun x hx => ?_⟩
  · rw [h1, hrefs.nodup_iff, List.nodup_cons]
    exact ⟨fun h => lt_irrefl _ (hlt _ h), hn⟩
  · intro f hf
    rw [h1, hrefs.mem_iff, List.mem_cons] at hf
    rcases hf with rfl | hf
    exacts [Nat.lt_succ_self _, (hlt f hf).trans (Nat.lt_succ_self _)]
  · have hne : e.name ≠ n := hname ▸ hn e' (h1 ▸ List.mem_append_right _ (List.mem_cons_self _ _))
    refine (hev n hne.symm).trans (hi.clean n fun x hx => ?_)
    rw [hs, List.mem_append, List.mem_cons] at hx
    rcases hx with hx | rfl | hx
    exacts [hn x (h1 ▸ List.mem_append_left _ hx), hne,
      hn x (h1 ▸ List.mem_append_right _ (List.mem_cons_of_mem _ hx))]
  · rcases hmem x (h1 ▸ hx) with rfl | hx
    · rw [eventually_send, hfr, hname]
      simp [regAfter]
    · rw [hev _ (hold x hx).2]
      exact hi.entry x (hold x hx).1
  · have hadd : ∀ y ∈ s.services, ∃ f, y.fAdd = some f ∧
        AddState ((s.setEntry e').send false e.name true) f y.name := fun y hy => by
      obtain ⟨f, hf, ha⟩ := hi.add y hy
      exact ⟨f, hf, addState_send false e.name (show AddState (s.setEntry e') f y.name from ha)
        (hi.refs_lt f (mem_refs.mpr ⟨y, hy, .inl hf⟩)) true⟩
    rcases hmem x (h1 ▸ hx) with rfl | hx
    · obtain ⟨f, hf, ha⟩ := hadd e he
      exact ⟨f, hfa.trans hf, hname ▸ ha⟩
    · exact hadd x (hold x hx).1

lemma mem_setEntry_self {s : State} {e e' : Entry} (he : e ∈ s.services) (hname : e.name = e'.name) :
    e' ∈ (s.setEntry e').services :=
  List.mem_map.mpr ⟨e, he, if_pos hname⟩

lemma remove_then_reg_inv {s : State} (hi : RegInv s) {e e' : Entry} (he : e ∈ s.services)
    (hr : e.fRemove = none) (hname : e'.name = e.name) (hfa : e'.fAdd = e.fAdd)
    (hfr : e'.fRemove = some s.next) :
    RegInv (((s.setEntry e').send false e.name true).delete e.name) :=
  hname ▸ delete_inv (remove_send_inv hi he hr hname hfa hfr) (mem_setEntry_self he hname.symm)
    fun h => by simp [InWindow, hfr] at h

lemma servhashRemove_reg_inv {s : State} (hi : RegInv s) (name uuid : String) (msg : ℕ)
    (fail : RemoveFail) : RegInv (servhashRemove s name uuid msg fail).1 := by
  unfold servhashRemove
  split
  · exact hi
  rename_i e hl
  split_ifs with hg
  · exact hi
  have hn : e.name = name := by simpa using List.find?_some hl
  have hr : e.fRemove = none := by simpa using (not_or.mp hg).2
  have he : e ∈ s.services := List.mem_of_find?_eq_some hl
  subst hn
  dsimp only
  cases fail with
  | unregister => exact hi.setEntry he rfl rfl rfl rfl
  | then_ => exact remove_then_reg_inv hi he hr rfl rfl rfl
  | none => refine (remove_send_inv hi he hr ?_ ?_ ?_).congr rfl rfl rfl rfl rfl rfl <;> rfl

/-! ### Continuations -/

lemma RegInv.respond {s : State} (hi : RegInv s) (l : List (ℕ × ℤ)) :
    RegInv { s with responded := l } :=
  hi.congr rfl rfl rfl rfl rfl rfl

lemma markRan_result (s : State) (f g : ℕ) :
    ((s.markRan f).future g).bind Future.result = (s.future g).bind Future.result := by
  have hp : ((fun x : Future => decide (x.id = g)) ∘
      fun x => if x.id = f then { x with ran := true } else x) = fun x => decide (x.id = g) :=
    funext fun x => by by_cases hx : x.id = f <;> simp [hx]
  simp only [State.future, State.markRan, List.find?_map, hp]
  cases s.futures.find? (·.id = g) with
  | none => rfl
  | some x => simp only [Option.map_some', Option.some_bind]; split <;> rfl

lemma RegInv.add_result {s : State} (hi : RegInv s) {e : Entry} (he : e ∈ s.services) {f : ℕ}
    (hf : e.fAdd = some f) {r : ℤ} (hr : (s.future f).bind Future.result = some r) :
    r = 0 ↔ e.name ∉ s.others := by
  obtain ⟨g, hg, ha⟩ := hi.add e he
  cases hf.symm.trans hg
  rcases ha with ⟨ran, hx, -⟩ | ⟨r', ran, hx, -, h⟩
  · rw [show s.future f = _ from future_of_mem hi.ids hx] at hr
    cases hr
  · rw [show s.future f = _ from future_of_mem hi.ids hx] at hr
    cases hr
    exact h

lemma cont_reg_inv {s s' : State} {f : ℕ} (hi : RegInv s) (h : step s (.cont f) = some s') :
    RegInv s' := by
  dsimp only [step] at h
  split at h
  · rename_i r hfut
    have hr : ((s.markRan f).future f).bind Future.result = some r := by
      rw [markRan_result, hfut]; rfl
    have hm := hi.markRan f
    split at h
    · rename_i e ha
      cases h
      have he := List.mem_of_find?_eq_some ha
      have hf : e.fAdd = some f := by simpa using List.find?_some ha
      unfold addContinuation
      dsimp only
      split_ifs with h1 h2
      · refine delete_inv ((hm.setEntry he rfl rfl rfl rfl).respond _)
          (mem_setEntry_self he rfl) fun ⟨_, _, g, hg, h0⟩ => h1 ?_
        cases hf.symm.trans hg
        exact Option.some.inj (hr.symm.trans h0)
      · have hn : e.name ∉ s.others := (hi.add_result he hf (by rw [hfut]; rfl)).mp h2
        refine (hm.setEntry he ?_ ?_ ?_ ?_).respond _ <;> simp [hn]
      · exact absurd (not_not.mp h1) h2
    · rename_i e _ hr'
      cases h
      have he := List.mem_of_find?_eq_some hr'
      have hf : e.fRemove = some f := by simpa using List.find?_some hr'
      unfold removeContinuation
      dsimp only
      split_ifs <;>
      refine delete_inv ((hm.setEntry he ?_ ?_ ?_ ?_).respond _) (mem_setEntry_self he ?_) ?_ <;>
      simp [InWindow, hf]
    · cases h
  · cases h

/-! ### Deleting by client, and destroying -/

instance (s : State) (e : Entry) : Decidable (InWindow s e) :=
  inferInstanceAs (Decidable (_ ∧ _ ∧ _))

lemma InWindow.of_shrinks {s t : State} (hn : (s.futures.map (·.id)).Nodup) (h : Shrinks s t)
    {e : Entry} (hw : InWindow t e) : InWindow s e := by
  obtain ⟨hl, hr, f, hf, h0⟩ := hw
  obtain ⟨x, hx, hres⟩ := Option.bind_eq_some.mp h0
  have hid : x.id = f := by simpa using List.find?_some hx
  refine ⟨hl, hr, f, hf, ?_⟩
  rw [← hid, future_of_mem hn (h.futures x (List.mem_of_find?_eq_some hx))]
  exact hres

lemma delete_spared {s t : State} (hs : RegInv s) (ht : RegInv t) (h : Shrinks s t) (n : String)
    (hsp : ∀ e, t.lookup n = some e → ¬ InWindow s e) : RegInv (t.delete n) := by
  cases hl : t.lookup n with
  | none => simpa only [State.delete, hl] using ht
  | some e =>
    have hn : e.name = n := by simpa using List.find?_some hl
    subst hn
    exact delete_inv ht (List.mem_of_find?_eq_some hl) fun hw => hsp e hl (hw.of_shrinks hs.ids h)

lemma foldl_reg_inv {s : State} {g : State → String → State} (hsh : ∀ t n, Shrinks t (g t n))
    (hg : ∀ t n, Shrinks s t → RegInv t → RegInv (g t n)) :
    ∀ (ns : List String) (t : State), Shrinks s t → RegInv t → RegInv (ns.foldl g t)
  | [], _, _, ht => ht
  | n :: ns, t, h, ht => foldl_reg_inv hsh hg ns _ (h.trans (hsh t n)) (hg t n h ht)

/-- What a call asks of the entries it deletes: `servhash_disconnect` deletes the client's
entries and `servhash_destroy` all of them, and none of those is in its window. -/
def Spares (s : State) : Act → Prop
  | .disconnect uuid => ∀ e ∈ s.services, e.uuid = uuid → ¬ InWindow s e
  | .destroy => ∀ e ∈ s.services, ¬ InWindow s e
  | _ => True

instance (s : State) : (a : Act) → Decidable (Spares s a)
  | .disconnect _ => inferInstanceAs (Decidable (∀ _ ∈ _, _))
  | .destroy => inferInstanceAs (Decidable (∀ _ ∈ _, _))
  | .add .. | .remove .. | .upstream | .cont _ => isTrue trivial

lemma servhashDisconnect_reg_inv {s : State} (hi : RegInv s) {uuid : String}
    (hsp : Spares s (.disconnect uuid)) : RegInv (servhashDisconnect s uuid) := by
  refine foldl_reg_inv (fun t n => by split; exacts [delete_shrinks t n, Shrinks.refl t])
    (fun t n h ht => ?_) _ s (Shrinks.refl s) hi
  split
  · rename_i hu
    refine delete_spared hi ht h n fun e hl => hsp e (h.services.subset (List.mem_of_find?_eq_some hl)) ?_
    simpa [hl] using hu
  · exact ht

lemma servhashDestroy_reg_inv {s : State} (hi : RegInv s) (hsp : Spares s .destroy) :
    RegInv (servhashDestroy s) :=
  foldl_reg_inv delete_shrinks (fun _ n h ht => delete_spared hi ht h n fun e hl =>
    hsp e (h.services.subset (List.mem_of_find?_eq_some hl))) _ s (Shrinks.refl s) hi

/-! ### Runs -/

lemma step_reg_inv {s s' : State} {a : Act} (hi : RegInv s) (hsp : Spares s a)
    (h : step s a = some s') : RegInv s' := by
  cases a with
  | add name uuid msg fail => cases h; exact servhashAdd_reg_inv hi name uuid msg fail
  | remove name uuid msg fail => cases h; exact servhashRemove_reg_inv hi name uuid msg fail
  | disconnect uuid => cases h; exact servhashDisconnect_reg_inv hi hsp
  | destroy => cases h; exact servhashDestroy_reg_inv hi hsp
  | upstream => exact upstream_reg_inv hi h
  | cont f => exact cont_reg_inv hi h

/-- Whether every call of a run spares the window. -/
def careful (s : State) : List Act → Bool
  | [] => true
  | a :: as => decide (Spares s a) && (step s a).elim true (careful · as)

lemma run_reg_inv : ∀ {as : List Act} {s s' : State}, run s as = some s' → careful s as = true →
    RegInv s → RegInv s'
  | [], _, _, h, _, hi => by cases h; exact hi
  | _ :: _, _, _, h, hc, hi => by
    obtain ⟨s₁, h₁, h₂⟩ := Option.bind_eq_some.mp h
    simp only [careful, Bool.and_eq_true, decide_eq_true_eq, h₁, Option.elim] at hc
    exact run_reg_inv h₂ hc.2 (step_reg_inv hi hc.1 h₁)

/-- The run of `disconnect_leaks_registration` deletes an entry in its window. -/
example : careful (init []) [.add "foo" "c1" 1 .none, .upstream, .disconnect "c1"] = false := by
  decide

end FluxBroker.ServhashRegistrations
