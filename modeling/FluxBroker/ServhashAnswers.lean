import FluxBroker.Servhash
import Mathlib.Algebra.Order.BigOperators.Group.List
import Mathlib.Data.Multiset.OrderedMonoid
import Mathlib.Tactic.Abel

/-!
What `respond_cb` is called with, over every run of the servhash: each call answers a request
that `servhash_add` or `servhash_remove` accepted, and none more often than it was accepted.

An entry owes its client the answer to the `service.add` request while the continuation of
`f_add` has not run, and the answer to the `service.remove` request while that of `f_remove`
has not. The invariant bounds the answers given and the answers owed, together, by the
requests accepted: accepting a request adds one owed answer, running a continuation turns one
owed answer into one given, and deleting an entry drops what it owes.
-/

namespace FluxBroker.ServhashAnswers

open FluxBroker.Message FluxBroker.Servhash

/-! ### What an entry owes -/

/-- The future `f` exists and its continuation has not run. -/
def waits (fs : List Future) (f : Option ℕ) : Bool :=
  f.any fun f => fs.any fun x => x.id = f && !x.ran

/-- The client requests the entry `e` has still to answer. -/
def owed (fs : List Future) (e : Entry) : Multiset ℕ :=
  (if waits fs e.fAdd then {e.addRequest} else 0) +
    (if waits fs e.fRemove then (e.removeRequest.toList : Multiset ℕ) else 0)

def owedAll (fs : List Future) (l : List Entry) : Multiset ℕ := (l.map (owed fs)).sum

@[simp] lemma waits_none (fs : List Future) : waits fs none = false := rfl

lemma waits_mono {fs fs' : List Future} (h : ∀ x ∈ fs', x ∈ fs) {f : Option ℕ}
    (hw : waits fs' f = true) : waits fs f = true := by
  cases f with
  | none => exact hw
  | some f =>
    simp only [waits, Option.any_some, List.any_eq_true] at hw ⊢
    obtain ⟨x, hx, hp⟩ := hw
    exact ⟨x, h x hx, hp⟩

lemma ite_le_ite {a b : Bool} (h : a = true → b = true) (m : Multiset ℕ) :
    (if a then m else 0) ≤ if b then m else 0 := by
  cases a <;> cases b <;> simp_all

lemma owed_mono {fs fs' : List Future} (h : ∀ f, waits fs' f = true → waits fs f = true)
    (e : Entry) : owed fs' e ≤ owed fs e :=
  add_le_add (ite_le_ite (h _) _) (ite_le_ite (h _) _)

lemma owedAll_mono {fs fs' : List Future} {l l' : List Entry} (hl : l'.Sublist l)
    (h : ∀ f, waits fs' f = true → waits fs f = true) : owedAll fs' l' ≤ owedAll fs l :=
  calc owedAll fs' l' ≤ owedAll fs' l := (hl.map _).sum_le_sum fun _ _ => zero_le _
    _ ≤ owedAll fs l := List.sum_le_sum fun e _ => owed_mono h e

lemma owedAll_split (fs : List Future) (pre post : List Entry) (e : Entry) :
    owedAll fs (pre ++ e :: post) = owedAll fs pre + owed fs e + owedAll fs post := by
  simp only [owedAll, List.map_append, List.map_cons, List.sum_append, List.sum_cons, add_assoc]

lemma owedAll_congr {fs fs' : List Future} {l : List Entry} (h : ∀ e ∈ l, owed fs' e = owed fs e) :
    owedAll fs' l = owedAll fs l :=
  congrArg List.sum (List.map_congr_left h)

/-! ### The invariant -/

/-- Entry names are distinct, as the keys of a hash are; futures are numbered below the
counter; and the answers given and owed are among the requests accepted. -/
structure Inv (s : State) : Prop where
  names : (s.services.map (·.name)).Nodup
  entry_lt : ∀ e ∈ s.services, (∀ f ∈ e.fAdd, f < s.next) ∧ ∀ f ∈ e.fRemove, f < s.next
  future_lt : ∀ x ∈ s.futures, x.id < s.next
  owed : (s.responded.map Prod.fst : Multiset ℕ) + owedAll s.futures s.services ≤ s.accepted

/-- `s'` is `s` with entries deleted: its entries and futures are among those of `s`, its
counter has only moved on, and nothing was answered or accepted. -/
structure Shrinks (s s' : State) : Prop where
  services : s'.services.Sublist s.services
  futures : ∀ x ∈ s'.futures, x ∈ s.futures
  next : s.next ≤ s'.next
  responded : s'.responded = s.responded
  accepted : s'.accepted = s.accepted

lemma Shrinks.refl (s : State) : Shrinks s s :=
  ⟨List.Sublist.refl _, fun _ hx => hx, le_rfl, rfl, rfl⟩

lemma Shrinks.trans {s₁ s₂ s₃ : State} (h₁ : Shrinks s₁ s₂) (h₂ : Shrinks s₂ s₃) : Shrinks s₁ s₃ :=
  ⟨h₂.services.trans h₁.services, fun x hx => h₁.futures x (h₂.futures x hx),
    h₁.next.trans h₂.next, h₂.responded.trans h₁.responded, h₂.accepted.trans h₁.accepted⟩

lemma Shrinks.inv {s s' : State} (h : Shrinks s s') (hi : Inv s) : Inv s' where
  names := hi.names.sublist (h.services.map _)
  entry_lt e he := by
    obtain ⟨h1, h2⟩ := hi.entry_lt e (h.services.subset he)
    exact ⟨fun f hf => (h1 f hf).trans_le h.next, fun f hf => (h2 f hf).trans_le h.next⟩
  future_lt x hx := (hi.future_lt x (h.futures x hx)).trans_le h.next
  owed := by
    rw [h.responded, h.accepted]
    exact (add_le_add_left (owedAll_mono h.services fun _ => waits_mono h.futures) _).trans hi.owed

/-! ### Deleting entries -/

lemma destroyFuture_shrinks (s : State) (f : Option ℕ) : Shrinks s (s.destroyFuture f) := by
  cases f
  · exact Shrinks.refl s
  · exact ⟨List.Sublist.refl _, fun x hx => (List.mem_filter.mp hx).1, le_rfl, rfl, rfl⟩

lemma entryDestroy_shrinks (s : State) (e : Entry) : Shrinks s (entryDestroy s e) := by
  refine (Shrinks.trans ?_ (destroyFuture_shrinks _ _)).trans (destroyFuture_shrinks _ _)
  split
  · exact ⟨List.Sublist.refl _, fun _ hx => hx, Nat.le_succ _, rfl, rfl⟩
  · exact Shrinks.refl s

lemma delete_shrinks (s : State) (name : String) : Shrinks s (s.delete name) := by
  unfold State.delete
  split
  · refine .trans ?_ (entryDestroy_shrinks _ _)
    exact ⟨List.filter_sublist _, fun _ hx => hx, le_rfl, rfl, rfl⟩
  · exact Shrinks.refl s

lemma foldl_shrinks {g : State → String → State} (hg : ∀ s n, Shrinks s (g s n)) :
    ∀ (ns : List String) (s : State), Shrinks s (ns.foldl g s)
  | [], s => Shrinks.refl s
  | n :: ns, s => (hg s n).trans (foldl_shrinks hg ns _)

lemma servhashDisconnect_shrinks (s : State) (uuid : String) : Shrinks s (servhashDisconnect s uuid) :=
  foldl_shrinks (fun s n => by split; exacts [delete_shrinks s n, Shrinks.refl s]) _ s

lemma servhashDestroy_shrinks (s : State) : Shrinks s (servhashDestroy s) :=
  foldl_shrinks delete_shrinks _ s

/-! ### One entry among the others -/

lemma split_of_mem {l : List Entry} {e : Entry} (hn : (l.map (·.name)).Nodup) (he : e ∈ l) :
    ∃ pre post, l = pre ++ e :: post ∧ (∀ x ∈ pre, x.name ≠ e.name) ∧ ∀ x ∈ post, x.name ≠ e.name := by
  obtain ⟨pre, post, rfl⟩ := List.append_of_mem he
  simp only [List.map_append, List.map_cons, List.nodup_append, List.nodup_cons, List.mem_map,
    List.disjoint_cons_right] at hn
  exact ⟨pre, post, rfl, fun x hx h => hn.2.2.1 ⟨x, hx, h⟩, fun x hx h => hn.2.1.1 ⟨x, hx, h⟩⟩

section Split

variable {s : State} {pre post : List Entry} {e : Entry} (hs : s.services = pre ++ e :: post)
  (hpre : ∀ x ∈ pre, x.name ≠ e.name) (hpost : ∀ x ∈ post, x.name ≠ e.name)
include hs hpre

include hpost in
lemma setEntry_split {e' : Entry} (hname : e'.name = e.name) :
    (s.setEntry e').services = pre ++ e' :: post := by
  have keep : ∀ l : List Entry, (∀ x ∈ l, x.name ≠ e.name) →
      l.map (fun x => if x.name = e'.name then e' else x) = l := fun l hl =>
    (List.map_congr_left fun x hx => if_neg (hname ▸ hl x hx)).trans (List.map_id _)
  simp only [State.setEntry, hs, List.map_append, List.map_cons, keep pre hpre, keep post hpost,
    if_pos hname.symm]

lemma lookup_split : s.lookup e.name = some e := by
  have : pre.find? (·.name = e.name) = none := List.find?_eq_none.mpr fun x hx => by simpa using hpre x hx
  simp [State.lookup, hs, List.find?_append, this]

include hpost in
lemma delete_split : s.delete e.name = entryDestroy { s with services := pre ++ post } e := by
  have keep : ∀ l : List Entry, (∀ x ∈ l, x.name ≠ e.name) → l.filter (·.name ≠ e.name) = l :=
    fun l hl => List.filter_eq_self.mpr fun x hx => by simpa using hl x hx
  have drop : (e :: post).filter (·.name ≠ e.name) = post := by simpa using keep post hpost
  simp only [State.delete, lookup_split hs hpre, hs, List.filter_append, keep pre hpre, drop]

end Split

lemma setEntry_names (s : State) (e' : Entry) :
    (s.setEntry e').services.map (·.name) = s.services.map (·.name) := by
  simp only [State.setEntry, List.map_map]
  exact List.map_congr_left fun x _ => by by_cases h : x.name = e'.name <;> simp [h]

lemma mem_setEntry {s : State} {e' x : Entry} (hx : x ∈ (s.setEntry e').services) :
    x = e' ∨ x ∈ s.services := by
  obtain ⟨y, hy, rfl⟩ := List.mem_map.mp hx
  by_cases h : y.name = e'.name <;> simp [h, hy]

/-! ### The futures -/

lemma waits_append_new (fs : List Future) {n : ℕ} {f : Option ℕ} (hf : ∀ g ∈ f, g < n) :
    waits (fs ++ [⟨n, none, false⟩]) f = waits fs f := by
  cases f with
  | none => rfl
  | some g => simp [waits, (hf g rfl).ne']

lemma waits_new (fs : List Future) (n : ℕ) : waits (fs ++ [⟨n, none, false⟩]) (some n) = true := by
  simp [waits]

lemma waits_markRan (s : State) (f : ℕ) (g : Option ℕ) :
    waits (s.markRan f).futures g = (waits s.futures g && g != some f) := by
  cases g with
  | none => rfl
  | some g =>
    simp only [waits, Option.any_some, State.markRan]
    by_cases h : g = f
    · subst h
      simp only [bne_self_eq_false, Bool.and_false, List.any_eq_false, List.mem_map]
      rintro _ ⟨x, -, rfl⟩
      split_ifs with hx <;> simp [hx]
    · have same : ∀ x : Future, ((if x.id = f then { x with ran := true } else x).id = g &&
          !(if x.id = f then { x with ran := true } else x).ran) = (x.id = g && !x.ran) := by
        intro x; by_cases hx : x.id = f <;> simp [hx, Ne.symm h]
      simp [List.any_map, Function.comp_def, same, h]

lemma waits_fulfil (s : State) (f : ℕ) (r : ℤ) (g : Option ℕ) :
    waits (s.fulfil f r).futures g = waits s.futures g := by
  cases g with
  | none => rfl
  | some g =>
    have same : ∀ x : Future, ((if x.id = f then { x with result := some r } else x).id = g &&
        !(if x.id = f then { x with result := some r } else x).ran) = (x.id = g && !x.ran) := by
      intro x; split <;> rfl
    simp [waits, State.fulfil, List.any_map, Function.comp_def, same]

lemma mem_destroyFuture {s : State} {f : Option ℕ} {x : Future} :
    x ∈ (s.destroyFuture f).futures ↔ x ∈ s.futures ∧ ∀ g ∈ f, x.id ≠ g := by
  cases f <;> simp [State.destroyFuture]

lemma mem_entryDestroy {s : State} {e : Entry} {x : Future} (hx : x ∈ (entryDestroy s e).futures) :
    x ∈ s.futures ∧ (∀ f ∈ e.fAdd, x.id ≠ f) ∧ ∀ f ∈ e.fRemove, x.id ≠ f := by
  unfold entryDestroy at hx
  rw [mem_destroyFuture, mem_destroyFuture] at hx
  refine ⟨?_, hx.1.2, hx.2⟩
  have h := hx.1.1
  split at h <;> exact h

lemma shrinks_send_destroy {s s' : State} {r : Bool} {name : String}
    (h : Shrinks (s.send r name true) s') (hx : ∀ x ∈ s'.futures, x.id ≠ s.next) : Shrinks s s' :=
  ⟨h.services, fun x hx' => by
    rcases List.mem_append.mp (h.futures x hx') with h1 | h1
    · exact h1
    · exact absurd (congrArg Future.id (List.mem_singleton.mp h1)) (hx x hx'),
    (Nat.le_succ _).trans h.next, h.responded, h.accepted⟩

lemma id_lt_of_map {fs : List Future} {F : Future → Future} {n : ℕ} (hF : ∀ y, (F y).id = y.id)
    (h : ∀ y ∈ fs, y.id < n) : ∀ x ∈ fs.map F, x.id < n := by
  rintro _ hx
  obtain ⟨y, hy, rfl⟩ := List.mem_map.mp hx
  exact hF y ▸ h y hy

lemma owed_append_new {s : State} (hi : Inv s) {x : Entry} (hx : x ∈ s.services) :
    owed (s.futures ++ [⟨s.next, none, false⟩]) x = owed s.futures x := by
  simp only [owed, waits_append_new _ (hi.entry_lt x hx).1, waits_append_new _ (hi.entry_lt x hx).2]

lemma entry_lt_succ {s : State} (hi : Inv s) {x : Entry} (hx : x ∈ s.services) :
    (∀ f ∈ x.fAdd, f < s.next + 1) ∧ ∀ f ∈ x.fRemove, f < s.next + 1 :=
  ⟨fun f hf => ((hi.entry_lt x hx).1 f hf).trans (Nat.lt_succ_self _),
    fun f hf => ((hi.entry_lt x hx).2 f hf).trans (Nat.lt_succ_self _)⟩

lemma mem_some_lt_succ (n : ℕ) : ∀ f ∈ some n, f < n + 1 :=
  fun _ h => Option.some.inj h ▸ Nat.lt_succ_self n

lemma future_lt_succ {s : State} (hi : Inv s) :
    ∀ x ∈ s.futures ++ [⟨s.next, none, false⟩], x.id < s.next + 1 := by
  simp only [List.mem_append, List.mem_singleton]
  rintro x (hx | rfl)
  exacts [(hi.future_lt x hx).trans (Nat.lt_succ_self _), Nat.lt_succ_self _]

/-! ### The calls keep the invariant -/

lemma init_inv (others : List String) : Inv (init others) :=
  ⟨List.nodup_nil, List.forall_mem_nil _, List.forall_mem_nil _, le_rfl⟩

lemma servhashAdd_inv {s : State} (hi : Inv s) (name uuid : String) (msg : ℕ) (fail : AddFail) :
    Inv (servhashAdd s name uuid msg fail).1 := by
  unfold servhashAdd
  split_ifs with hl
  · exact hi
  have hfree : ∀ x ∈ s.services, x.name ≠ name := State.lookup_not_isSome hl
  cases fail with
  | create => exact hi
  | register => dsimp only; exact (entryDestroy_shrinks _ _).inv hi
  | then_ =>
    dsimp only
    exact (shrinks_send_destroy (entryDestroy_shrinks _ _) fun x hx => (mem_entryDestroy hx).2.1 _ rfl).inv hi
  | none =>
    dsimp only
    have hold : owedAll (s.futures ++ [⟨s.next, none, false⟩]) s.services = owedAll s.futures s.services :=
      owedAll_congr fun x hx => owed_append_new hi hx
    refine ⟨?_, ?_, future_lt_succ hi, ?_⟩
    · show ((s.services ++ [(_ : Entry)]).map (·.name)).Nodup
      rw [List.map_append, List.map_singleton]
      exact hi.names.append (List.nodup_singleton _) (List.disjoint_singleton.mpr fun h =>
        let ⟨x, hx, hn⟩ := List.mem_map.mp h; hfree x hx hn)
    · simp only [State.send_services, State.send_next, List.mem_append, List.mem_singleton]
      rintro x (hx | rfl)
      exacts [entry_lt_succ hi hx, ⟨mem_some_lt_succ _, nofun⟩]
    · have he : owed (s.futures ++ [⟨s.next, none, false⟩]) ⟨name, uuid, msg, none, some s.next, none, false⟩ =
          {msg} := by
        simp only [owed, waits_new, waits_none, if_true, Bool.false_eq_true, if_false, add_zero]
      simp only [State.send_futures, State.send_responded, if_true, owedAll_split _ s.services [], hold, he]
      rw [show owedAll _ [] = 0 from rfl, add_zero, ← Multiset.coe_add, Multiset.coe_singleton, ← add_assoc]
      exact add_le_add_right hi.owed _

section Remove

/-! `servhash_remove` on the entry `e` of the name, owned by the caller and with no
`service.remove` sent yet; one lemma for each way the call ends. -/

variable {s : State} {e : Entry} {pre post : List Entry} (msg : ℕ) (hi : Inv s)
  (hs : s.services = pre ++ e :: post) (hpre : ∀ x ∈ pre, x.name ≠ e.name)
  (hpost : ∀ x ∈ post, x.name ≠ e.name)
include hi hs hpre hpost

lemma remove_unregister_inv (hr : e.fRemove = none) :
    Inv (s.setEntry { e with removeRequest := some msg }) := by
  have he : e ∈ s.services := hs ▸ List.mem_append_right pre (List.mem_cons_self e post)
  refine ⟨(setEntry_names _ _).symm ▸ hi.names, fun x hx => ?_, hi.future_lt, ?_⟩
  · rcases mem_setEntry hx with rfl | hx
    exacts [hi.entry_lt e he, hi.entry_lt x hx]
  · have ho : owed s.futures { e with removeRequest := some msg } = owed s.futures e := by
      simp [owed, hr]
    have h1 : (s.setEntry { e with removeRequest := some msg }).services =
        pre ++ { e with removeRequest := some msg } :: post := setEntry_split hs hpre hpost rfl
    simp only [State.setEntry_futures, State.setEntry_responded, State.setEntry_accepted]
    rw [h1, owedAll_split, ho, ← owedAll_split, ← hs]
    exact hi.owed

lemma remove_then_inv :
    Inv (((s.setEntry { e with removeRequest := some msg, fRemove := some s.next }).send false e.name
      true).delete e.name) := by
  have h1 : ((s.setEntry { e with removeRequest := some msg, fRemove := some s.next }).send false
      e.name true).services = pre ++ { e with removeRequest := some msg, fRemove := some s.next } :: post :=
    setEntry_split hs hpre hpost rfl
  have h2 := delete_split h1 hpre hpost
  dsimp only at h2
  rw [h2]
  have hd := entryDestroy_shrinks
    { (s.setEntry { e with removeRequest := some msg, fRemove := some s.next }).send false e.name true with
      services := pre ++ post } { e with removeRequest := some msg, fRemove := some s.next }
  have hsub : (pre ++ post).Sublist s.services := by
    rw [hs]; exact (List.sublist_cons_self e post).append_left pre
  refine (show Shrinks s _ from ⟨hd.services.trans hsub, fun x hx => ?_, (Nat.le_succ s.next).trans hd.next,
    hd.responded, hd.accepted⟩).inv hi
  obtain ⟨h3, -, h4⟩ := mem_entryDestroy hx
  simp only [State.send_futures, State.setEntry_futures, if_true, List.mem_append, List.mem_singleton] at h3
  rcases h3 with h3 | rfl
  exacts [h3, absurd rfl (h4 _ rfl)]

lemma remove_none_inv (hr : e.fRemove = none) :
    Inv { (s.setEntry { e with removeRequest := some msg, fRemove := some s.next }).send false e.name true with
      accepted := s.accepted ++ [msg] } := by
  have hlt := hi.entry_lt e (hs ▸ List.mem_append_right pre (List.mem_cons_self e post))
  refine ⟨(setEntry_names _ _).symm ▸ hi.names, fun x hx => ?_, (future_lt_succ hi :), ?_⟩
  · rcases mem_setEntry hx with rfl | hx
    exacts [⟨fun f hf => (hlt.1 f hf).trans (Nat.lt_succ_self _), mem_some_lt_succ _⟩,
      entry_lt_succ hi hx]
  · have ho : owed (s.futures ++ [⟨s.next, none, false⟩])
        { e with removeRequest := some msg, fRemove := some s.next } = owed s.futures e + {msg} := by
      simp only [owed, waits_append_new _ hlt.1, waits_new, hr, waits_none, if_true, if_false,
        Bool.false_eq_true, add_zero, Option.toList_some, Multiset.coe_singleton]
    have hold : ∀ l : List Entry, (∀ x ∈ l, x ∈ s.services) →
        owedAll (s.futures ++ [⟨s.next, none, false⟩]) l = owedAll s.futures l :=
      fun l hl => owedAll_congr fun x hx => owed_append_new hi (hl x hx)
    simp only [State.send_futures, State.send_services, State.send_responded, State.setEntry_futures,
      State.setEntry_responded, State.setEntry_next, if_true]
    have h1 : (s.setEntry { e with removeRequest := some msg, fRemove := some s.next }).services =
        pre ++ { e with removeRequest := some msg, fRemove := some s.next } :: post :=
      setEntry_split hs hpre hpost rfl
    rw [h1, owedAll_split, ho,
      hold pre fun x hx => hs ▸ List.mem_append_left _ hx,
      hold post fun x hx => hs ▸ List.mem_append_right _ (List.mem_cons_of_mem _ hx),
      ← Multiset.coe_add, Multiset.coe_singleton]
    calc _ = (s.responded.map Prod.fst : Multiset ℕ) + owedAll s.futures s.services + {msg} := by
          rw [hs, owedAll_split]; abel
      _ ≤ _ := add_le_add_right hi.owed _

end Remove

lemma servhashRemove_inv {s : State} (hi : Inv s) (name uuid : String) (msg : ℕ) (fail : RemoveFail) :
    Inv (servhashRemove s name uuid msg fail).1 := by
  unfold servhashRemove
  split
  · exact hi
  rename_i e hl
  split_ifs with hg
  · exact hi
  have hn : e.name = name := by simpa using List.find?_some hl
  have hr : e.fRemove = none := by simpa using (not_or.mp hg).2
  obtain ⟨pre, post, hs, hpre, hpost⟩ := split_of_mem hi.names (List.mem_of_find?_eq_some hl)
  subst hn
  dsimp only
  cases fail with
  | unregister => exact remove_unregister_inv msg hi hs hpre hpost hr
  | then_ => exact remove_then_inv msg hi hs hpre hpost
  | none => exact remove_none_inv msg hi hs hpre hpost hr

lemma upstream_inv {s s' : State} (hi : Inv s) (h : step s .upstream = some s') : Inv s' := by
  dsimp only [step] at h
  split at h
  · cases h
    have ho : ∀ (t : State) (f : ℕ) (r : ℤ), owedAll (t.fulfil f r).futures t.services =
        owedAll t.futures t.services := fun t f r => owedAll_congr fun x _ => by simp only [owed, waits_fulfil]
    refine ⟨hi.names, hi.entry_lt, id_lt_of_map (fun y => by split <;> rfl) hi.future_lt, ?_⟩
    simpa only [State.fulfil_services, State.fulfil_responded, State.fulfil_accepted, ho] using hi.owed
  · cases h

lemma inv_answer {s : State} {e : Entry} {f : ℕ} (b : Bool) {m : List (ℕ × ℤ)} (hi : Inv s)
    (he : e ∈ s.services) (hm : owed (s.markRan f).futures e + ↑(m.map Prod.fst) ≤ owed s.futures e) :
    Inv { (s.markRan f).setEntry { e with live := b } with responded := (s.markRan f).responded ++ m } := by
  obtain ⟨pre, post, hs, hpre, hpost⟩ := split_of_mem hi.names he
  have hw : ∀ g, waits (s.markRan f).futures g = true → waits s.futures g = true := fun g h => by
    rw [waits_markRan, Bool.and_eq_true] at h; exact h.1
  have h1 : ((s.markRan f).setEntry { e with live := b }).services = pre ++ { e with live := b } :: post :=
    setEntry_split hs hpre hpost rfl
  refine ⟨(setEntry_names _ _).symm ▸ hi.names, fun x hx => ?_,
    id_lt_of_map (fun y => by split <;> rfl) hi.future_lt, ?_⟩
  · rcases mem_setEntry hx with rfl | hx
    exacts [hi.entry_lt e he, hi.entry_lt x hx]
  · simp only [State.markRan_responded, State.setEntry_futures, State.setEntry_accepted,
      State.markRan_accepted]
    rw [h1, owedAll_split, List.map_append, ← Multiset.coe_add]
    calc _ = (s.responded.map Prod.fst : Multiset ℕ) + (owedAll (s.markRan f).futures pre +
          (owed (s.markRan f).futures e + ↑(m.map Prod.fst)) + owedAll (s.markRan f).futures post) := by
          simp only [owed]; abel
      _ ≤ (s.responded.map Prod.fst : Multiset ℕ) + owedAll s.futures s.services := by
          rw [hs, owedAll_split]
          exact add_le_add_left (add_le_add (add_le_add (owedAll_mono (.refl _) hw) hm)
            (owedAll_mono (.refl _) hw)) _
      _ ≤ _ := hi.owed

lemma owed_markRan_add {s : State} {e : Entry} {f : ℕ} (hf : e.fAdd = some f)
    (hw : waits s.futures (some f) = true) (r : ℤ) :
    owed (s.markRan f).futures e + ↑([(e.addRequest, r)].map Prod.fst) ≤ owed s.futures e := by
  simp only [owed, hf, waits_markRan, hw, bne_self_eq_false, Bool.and_false, Bool.false_eq_true,
    if_false, if_true, zero_add, List.map_cons, List.map_nil, Multiset.coe_singleton]
  rw [add_comm]
  exact add_le_add_left (ite_le_ite (fun h => by rw [Bool.and_eq_true] at h; exact h.1) _) _

lemma owed_markRan_remove {s : State} {e : Entry} {f : ℕ} (hf : e.fRemove = some f) (ha : e.fAdd ≠ some f)
    (hw : waits s.futures (some f) = true) (r : ℤ) :
    owed (s.markRan f).futures e + ↑((e.removeRequest.toList.map (·, r)).map Prod.fst) ≤
      owed s.futures e := by
  have hadd : waits (s.markRan f).futures e.fAdd = waits s.futures e.fAdd := by
    simp [waits_markRan, ha]
  simp only [owed, hf, hadd, waits_markRan, hw, bne_self_eq_false, Bool.and_false, Bool.false_eq_true,
    if_false, if_true, add_zero, List.map_map]
  exact le_of_eq (by simp [Function.comp_def])

lemma cont_inv {s s' : State} {f : ℕ} (hi : Inv s) (h : step s (.cont f) = some s') : Inv s' := by
  dsimp only [step] at h
  split at h
  · rename_i r hfut
    have hw : waits s.futures (some f) = true := by
      simp only [waits, Option.any_some, List.any_eq_true]
      exact ⟨_, List.mem_of_find?_eq_some hfut, by simpa using List.find?_some hfut⟩
    split at h
    · rename_i e ha
      cases h
      have hf : e.fAdd = some f := by simpa using List.find?_some ha
      have hm := owed_markRan_add hf hw r
      unfold addContinuation
      dsimp only
      split_ifs with h1 h2
      · exact (delete_shrinks _ _).inv (inv_answer e.live hi (List.mem_of_find?_eq_some ha) hm)
      · exact inv_answer true hi (List.mem_of_find?_eq_some ha) hm
      · exact absurd (not_not.mp h1) h2
    · rename_i e ha hr
      cases h
      have he := List.mem_of_find?_eq_some hr
      have hf : e.fRemove = some f := by simpa using List.find?_some hr
      have hne : e.fAdd ≠ some f := by simpa using List.find?_eq_none.mp ha e he
      have hm := owed_markRan_remove hf hne hw r
      unfold removeContinuation
      dsimp only
      split_ifs
      · exact (delete_shrinks _ _).inv (inv_answer false hi he hm)
      · exact (delete_shrinks _ _).inv (inv_answer e.live hi he hm)
    · cases h
  · cases h

lemma step_inv {s s' : State} {a : Act} (hi : Inv s) (h : step s a = some s') : Inv s' := by
  cases a with
  | add name uuid msg fail => cases h; exact servhashAdd_inv hi name uuid msg fail
  | remove name uuid msg fail => cases h; exact servhashRemove_inv hi name uuid msg fail
  | disconnect uuid => cases h; exact (servhashDisconnect_shrinks s uuid).inv hi
  | destroy => cases h; exact (servhashDestroy_shrinks s).inv hi
  | upstream => exact upstream_inv hi h
  | cont f => exact cont_inv hi h

lemma run_inv : ∀ {as : List Act} {s s' : State}, run s as = some s' → Inv s → Inv s'
  | [], _, _, h, hi => by cases h; exact hi
  | _ :: _, _, _, h, hi => by
    obtain ⟨s₁, h₁, h₂⟩ := Option.bind_eq_some.mp h
    exact run_inv h₂ (step_inv hi h₁)

/-! ### Every answer was accepted -/

/-- **Every answer was accepted, and none more often than it was.** On every run of the
servhash from its creation, over any interleaving of the client's calls, upstream's answers
and the continuations, each call of `respond_cb` answers a request that `servhash_add` or
`servhash_remove` accepted, and no request is answered more often than it was accepted. -/
theorem responded_subperm_accepted {others : List String} {as : List Act} {s : State}
    (h : run (init others) as = some s) : (s.responded.map Prod.fst).Subperm s.accepted :=
  Multiset.coe_le.mp (le_self_add.trans (run_inv h (init_inv others)).owed)

theorem answered_after_add :
    ∃ s, run (init []) [.add "foo" "c1" 1 .none, .upstream, .cont 0] = some s ∧
      (s.responded.map Prod.fst).Subperm s.accepted :=
  ⟨_, rfl, @responded_subperm_accepted [] [.add "foo" "c1" 1 .none, .upstream, .cont 0] _ rfl⟩

end FluxBroker.ServhashAnswers
