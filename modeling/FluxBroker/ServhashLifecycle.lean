import FluxBroker.ServhashRefs
import FluxBroker.ServhashReplies

/-!
The life of a name's entry, as the clients of the servhash see it.

The abstract table maps each name to the client owning its entry and the phase of the entry:
`adding` until its `service.add` has been answered with success, then `live`, and `removing`
once `servhash_remove` has sent its `service.remove`. `Moves` says what each call may do to a
name: `servhash_add` creates its entry for the calling client, the continuation of the
`service.add` makes it live, `servhash_remove` by the owner starts removing it, and the entry
is destroyed by a failed `flux_future_then` in `servhash_remove`, by `servhash_disconnect` of
its owner, by `servhash_destroy`, or by a continuation, which never destroys a live entry. No
call gives a name another owner or takes an entry back to an earlier phase.

Every step of a reachable servhash moves every name as `Moves` allows: the table of entries
refines the abstract table.
-/

namespace FluxBroker.ServhashLifecycle

open FluxBroker.Message FluxBroker.Servhash FluxBroker.ServhashAnswers
open FluxBroker.ServhashRegistrations FluxBroker.ServhashDisconnect FluxBroker.ServhashFutures
open FluxBroker.ServhashRefs FluxBroker.ServhashReplies

/-- Where an entry is in its life. -/
inductive Phase
  | adding | live | removing
  deriving DecidableEq, Repr

/-- The order of the phases. -/
def Phase.rank : Phase → ℕ
  | .adding => 0
  | .live => 1
  | .removing => 2

/-- The phase of an entry: `f_remove` is set, or the entry is `live`, or its `service.add`
has not yet succeeded. -/
def phase (e : Entry) : Phase :=
  if e.fRemove.isSome then .removing else if e.live then .live else .adding

/-- The abstract table of a list of entries: the owner and phase of the entry of name `n`. -/
def view (l : List Entry) (n : String) : Option (String × Phase) :=
  (l.find? (·.name = n)).map fun e => (e.uuid, phase e)

/-- What a call may do to the entry of the name `n`: leave it as it was; create it for the
calling client (a successful `servhash_add`); make it live (the continuation of its
`service.add`); start removing it (a successful `servhash_remove` by the owner); or destroy
it, by a failed `flux_future_then` in `servhash_remove` of the owner, by
`servhash_disconnect` of the owner, by `servhash_destroy`, or by a continuation while it is
not live (its `service.add` failed, or its `service.remove` is answered). -/
inductive Moves (n : String) : Act → Option (String × Phase) → Option (String × Phase) → Prop
  | stay (a : Act) (x : Option (String × Phase)) : Moves n a x x
  | create (uuid : String) (msg : ℕ) : Moves n (.add n uuid msg .none) none (some (uuid, .adding))
  | added (f : ℕ) (uuid : String) : Moves n (.cont f) (some (uuid, .adding)) (some (uuid, .live))
  | remove (uuid : String) (msg : ℕ) (p : Phase) : p ≠ .removing →
      Moves n (.remove n uuid msg .none) (some (uuid, p)) (some (uuid, .removing))
  | removeFails (uuid : String) (msg : ℕ) (errno : ℤ) (p : Phase) : p ≠ .removing →
      Moves n (.remove n uuid msg (.then_ errno)) (some (uuid, p)) none
  | disconnect (uuid : String) (p : Phase) : Moves n (.disconnect uuid) (some (uuid, p)) none
  | destroy (x : String × Phase) : Moves n .destroy (some x) none
  | contDestroys (f : ℕ) (uuid : String) (p : Phase) : p ≠ .live →
      Moves n (.cont f) (some (uuid, p)) none

/-- No move gives a name another owner or takes its entry back to an earlier phase. -/
lemma Moves.owner_phase {n : String} {a : Act} {u u' : String} {p p' : Phase}
    (h : Moves n a (some (u, p)) (some (u', p'))) : u' = u ∧ p.rank ≤ p'.rank := by
  cases h with
  | stay => exact ⟨rfl, le_rfl⟩
  | added => exact ⟨rfl, by decide⟩
  | remove _ _ p => exact ⟨rfl, by cases p <;> decide⟩

/-! ### The abstract table of a split table -/

lemma view_gone {l : List Entry} {n : String} (h : ∀ y ∈ l, y.name ≠ n) : view l n = none := by
  rw [view, List.find?_eq_none.mpr fun y hy => by simpa using h y hy, Option.map_none']

lemma view_self {pre post : List Entry} {x : Entry} {n : String} (hx : x.name = n)
    (hpre : ∀ y ∈ pre, y.name ≠ n) : view (pre ++ x :: post) n = some (x.uuid, phase x) := by
  rw [view, List.find?_append, List.find?_eq_none.mpr fun y hy => by simpa using hpre y hy]
  simp [hx]

lemma view_skip {pre post : List Entry} {x : Entry} {n : String} (hn : x.name ≠ n) :
    view (pre ++ x :: post) n = view (pre ++ post) n := by
  simp [view, List.find?_append, List.find?_cons, hn]

section Split

variable {pre post : List Entry} {e : Entry} (hpre : ∀ x ∈ pre, x.name ≠ e.name)
  (hpost : ∀ x ∈ post, x.name ≠ e.name)
include hpre

lemma moves_replace {a : Act} {e' : Entry} (hname : e'.name = e.name)
    (hm : Moves e.name a (some (e.uuid, phase e)) (some (e'.uuid, phase e'))) (n : String) :
    Moves n a (view (pre ++ e :: post) n) (view (pre ++ e' :: post) n) := by
  by_cases hn : e.name = n
  · subst hn
    rw [view_self rfl hpre, view_self hname hpre]
    exact hm
  · rw [view_skip hn, view_skip (hname ▸ hn)]
    exact .stay _ _

include hpost in
lemma moves_delete {a : Act} (hm : Moves e.name a (some (e.uuid, phase e)) none) (n : String) :
    Moves n a (view (pre ++ e :: post) n) (view (pre ++ post) n) := by
  by_cases hn : e.name = n
  · subst hn
    rw [view_self rfl hpre, view_gone fun y hy => (List.mem_append.mp hy).elim (hpre y) (hpost y)]
    exact hm
  · rw [view_skip hn]
    exact .stay _ _

end Split

/-! ### The calls -/

lemma add_moves (s : State) (name uuid : String) (msg : ℕ) (fail : AddFail) (n : String) :
    Moves n (.add name uuid msg fail) (view s.services n)
      (view (servhashAdd s name uuid msg fail).1.services n) := by
  unfold servhashAdd
  split_ifs with hl
  · exact .stay _ _
  cases fail with
  | create => exact .stay _ _
  | register => dsimp only; rw [entryDestroy_services]; exact .stay _ _
  | then_ => dsimp only; rw [entryDestroy_services, State.send_services]; exact .stay _ _
  | none =>
    have hgone := State.lookup_not_isSome hl
    show Moves n _ (view s.services n) (view (s.services ++ [_]) n)
    rw [← List.append_nil s.services, List.append_assoc, List.nil_append]
    by_cases hn : name = n
    · subst hn
      rw [view_self rfl hgone, List.append_nil, view_gone hgone]
      exact .create uuid msg
    · rw [view_skip hn, List.append_nil]
      exact .stay _ _

lemma remove_moves {s : State} (hi : Inv s) (name uuid : String) (msg : ℕ) (fail : RemoveFail)
    (n : String) :
    Moves n (.remove name uuid msg fail) (view s.services n)
      (view (servhashRemove s name uuid msg fail).1.services n) := by
  unfold servhashRemove
  cases hl : s.lookup name with
  | none => exact .stay _ _
  | some e =>
    obtain rfl : e.name = name := by simpa using List.find?_some hl
    obtain ⟨pre, post, hs, hpre, hpost⟩ := split_of_mem hi.names (List.mem_of_find?_eq_some hl)
    dsimp only
    split
    · exact .stay _ _
    · rename_i hc
      obtain ⟨rfl, hf⟩ : e.uuid = uuid ∧ e.fRemove = none :=
        ⟨not_not.mp (not_or.mp hc).1, Option.not_isSome_iff_eq_none.mp (not_or.mp hc).2⟩
      have hp : phase e ≠ .removing := by unfold phase; split_ifs <;> simp_all
      rw [hs]
      cases fail <;> dsimp only
      · simp only [State.send_services, setEntry_split hs hpre hpost]
        exact moves_replace hpre (by rfl) (.remove _ msg _ hp) n
      · simp only [setEntry_split hs hpre hpost]
        exact moves_replace hpre (by rfl) (by exact .stay _ _) n
      · simp only [delete_services, State.send_services, setEntry_split hs hpre hpost,
          filter_split hpre hpost]
        exact moves_delete hpre hpost (.removeFails _ msg _ _ hp) n

lemma servhashDisconnect_services {s : State} (hi : Apart s) (uuid : String) :
    (servhashDisconnect s uuid).services = s.services.filter (·.uuid ≠ uuid) := by
  have hw := walk_fold hi uuid s.services [] rfl
  rw [walked_start, ← servhashDisconnect_eq] at hw
  rw [hw, walked, List.append_nil]

lemma disconnect_moves {s : State} (hi : Apart s) (uuid n : String) :
    Moves n (.disconnect uuid) (view s.services n) (view (servhashDisconnect s uuid).services n) := by
  rw [servhashDisconnect_services hi]
  cases hv : s.services.find? (·.name = n) with
  | none =>
    have hgone : ∀ y ∈ s.services, y.name ≠ n := fun y hy h' => by
      simpa [h'] using List.find?_eq_none.mp hv y hy
    rw [view_gone hgone, view_gone fun y hy => hgone y (List.mem_filter.mp hy).1]
    exact .stay _ _
  | some e =>
    obtain rfl : e.name = n := by simpa using List.find?_some hv
    obtain ⟨pre, post, hs, hpre, hpost⟩ := split_of_mem hi.inv.names (List.mem_of_find?_eq_some hv)
    have keep : ∀ l : List Entry, (∀ x ∈ l, x.name ≠ e.name) →
        ∀ x ∈ l.filter (·.uuid ≠ uuid), x.name ≠ e.name := fun l hl x hx => hl x (List.mem_filter.mp hx).1
    rw [hs, view_self rfl hpre, List.filter_append, List.filter_cons]
    split
    · rw [view_self rfl (keep pre hpre)]
      exact .stay _ _
    · rename_i hu
      rw [view_gone fun y hy => (List.mem_append.mp hy).elim (keep pre hpre y) (keep post hpost y)]
      obtain rfl : e.uuid = uuid := by simpa using hu
      exact .disconnect _ _

lemma destroy_moves (s : State) (n : String) :
    Moves n .destroy (view s.services n) (view (servhashDestroy s).services n) := by
  rw [servhashDestroy_services]
  cases view s.services n with
  | none => exact .stay _ _
  | some x => exact .destroy x

lemma live_moves (e : Entry) (f : ℕ) :
    Moves e.name (.cont f) (some (e.uuid, phase e)) (some (e.uuid, phase { e with live := true })) := by
  unfold phase
  dsimp only
  split_ifs <;> first | exact .stay _ _ | exact .added f _ | contradiction

/-- A live entry waits on its `service.add` no more: its continuation has run. -/
abbrev LiveAnswered : State → Prop := AddAnswered fun e => e.live

lemma cont_live {s s' : State} {f : ℕ} (h : LiveAnswered s) (hs : step s (.cont f) = some s') :
    LiveAnswered s' := by
  have hm := h.markRan f
  obtain ⟨-, r, e, -, ⟨ha, rfl⟩ | ⟨-, ha, rfl⟩⟩ := cont_cases hs <;>
    have he := hm e (List.mem_of_find?_eq_some ha)
  · have hfa : e.fAdd = some f := by simpa using List.find?_some ha
    have hran : waits (s.markRan f).futures e.fAdd = false := by simp [waits_markRan, hfa]
    unfold addContinuation
    dsimp only
    split_ifs
    · exact AddAnswered.of_shrinks (by exact hm.setEntry he) (delete_shrinks _ _)
    · exact hm.setEntry fun _ => hran
    · exact hm.setEntry he
  · unfold removeContinuation
    dsimp only
    split_ifs
    · exact AddAnswered.of_shrinks (by exact hm.setEntry fun h' => by cases h') (delete_shrinks _ _)
    · exact AddAnswered.of_shrinks (by exact hm.setEntry he) (delete_shrinks _ _)

lemma step_live {s s' : State} {a : Act} (hi : Inv s) (h : LiveAnswered s) (hs : step s a = some s') :
    LiveAnswered s' := by
  cases a with
  | add name uuid msg fail =>
    cases hs
    exact servhashAdd_answered hi h (fun _ _ hl => hl) name uuid msg fail
  | remove name uuid msg fail =>
    cases hs
    exact servhashRemove_answered hi h (fun e hl _ _ => h e (List.mem_of_find?_eq_some hl)) uuid msg fail
  | disconnect uuid => cases hs; exact h.of_shrinks (servhashDisconnect_shrinks s uuid)
  | destroy => cases hs; exact h.of_shrinks (servhashDestroy_shrinks s)
  | upstream =>
    dsimp only [step] at hs
    split at hs
    · cases hs
      exact fun x hx hr => by rw [waits_fulfil]; exact h x hx hr
    · cases hs
  | cont f => exact cont_live h hs

lemma run_live : ∀ {as : List Act} {s s' : State}, run s as = some s' → Inv s → LiveAnswered s →
    LiveAnswered s'
  | [], _, _, h, _, hl => by cases h; exact hl
  | _ :: _, _, _, h, hi, hl => by
    obtain ⟨s₁, h₁, h₂⟩ := Option.bind_eq_some.mp h
    exact run_live h₂ (step_inv hi h₁) (step_live hi hl h₁)

lemma cont_moves {s s' : State} {f : ℕ} (hi : Inv s) (hl : LiveAnswered s)
    (h : step s (.cont f) = some s') (n : String) :
    Moves n (.cont f) (view s.services n) (view s'.services n) := by
  obtain ⟨i, r, e, hfut, ⟨ha, rfl⟩ | ⟨-, ha, rfl⟩⟩ := cont_cases h <;>
    obtain ⟨pre, post, hs, hpre, hpost⟩ := split_of_mem hi.names (List.mem_of_find?_eq_some ha) <;>
    have hs' : (s.markRan f).services = pre ++ e :: post := hs <;>
    rw [hs]
  · have hfa : e.fAdd = some f := by simpa using List.find?_some ha
    have hlive : e.live = false := Bool.eq_false_iff.mpr fun hl' => by
      simpa [hfa, waits_of_future hfut] using hl e (List.mem_of_find?_eq_some ha) hl'
    unfold addContinuation
    dsimp only
    split_ifs with h0 h1
    · simp only [delete_services, setEntry_split hs' hpre hpost, filter_split hpre hpost]
      exact moves_delete hpre hpost (.contDestroys f _ _ (by unfold phase; split_ifs <;> simp_all)) n
    · simp only [setEntry_split hs' hpre hpost]
      exact moves_replace hpre (by rfl) (live_moves e f) n
    · exact absurd (not_not.mp h0) h1
  · have hfr : e.fRemove = some f := by simpa using List.find?_some ha
    have hp : phase e ≠ .live := by simp [phase, hfr]
    unfold removeContinuation
    dsimp only
    split_ifs <;> simp only [delete_services, setEntry_split hs' hpre hpost, filter_split hpre hpost] <;>
      exact moves_delete hpre hpost (.contDestroys f _ _ hp) n

lemma step_moves {s s' : State} {a : Act} (hi : Apart s) (hl : LiveAnswered s) (h : step s a = some s')
    (n : String) : Moves n a (view s.services n) (view s'.services n) := by
  cases a with
  | add name uuid msg fail => cases h; exact add_moves s name uuid msg fail n
  | remove name uuid msg fail => cases h; exact remove_moves hi.inv name uuid msg fail n
  | disconnect uuid => cases h; exact disconnect_moves hi uuid n
  | destroy => cases h; exact destroy_moves s n
  | upstream =>
    dsimp only [step] at h
    split at h
    · cases h
      exact .stay _ _
    · cases h
  | cont f => exact cont_moves hi.inv hl h n

/-- **The table refines the abstract one.** On every servhash reachable from its creation,
each call of `servhash_add`, `servhash_remove`, `servhash_disconnect` and `servhash_destroy`,
each answer from upstream and each continuation moves the entry of every name as `Moves`
allows: a successful `servhash_add` creates it for its client, only the continuation of its
`service.add` makes it live, only a successful `servhash_remove` by its owner starts removing
it, and it is destroyed only by `servhash_remove` of its owner failing at `flux_future_then`,
`servhash_disconnect` of its owner, `servhash_destroy` or a continuation, and a continuation
never destroys it once live. -/
theorem entries_move {others : List String} {as : List Act} {s s' : State} {a : Act}
    (h : run (init others) as = some s) (hs : step s a = some s') (n : String) :
    Moves n a (view s.services n) (view s'.services n) :=
  step_moves (run_apart h ⟨init_inv others, List.nodup_nil⟩)
    (run_live h (init_inv others) fun _ he => nomatch he) hs n

theorem add_answered_moves :
    ∃ s s', run (init []) [.add "foo" "c1" 1 .none, .upstream] = some s ∧ step s (.cont 0) = some s' ∧
      Moves "foo" (.cont 0) (view s.services "foo") (view s'.services "foo") :=
  ⟨_, _, rfl, rfl, @entries_move [] [.add "foo" "c1" 1 .none, .upstream] _ _ (.cont 0) rfl rfl "foo"⟩

/-! ### Owners along a run -/

/-- The states a run passes through, from its first, up to the first call that cannot be
made. -/
def trace (s : State) : List Act → List State
  | [] => [s]
  | a :: as => s :: match step s a with
    | some s' => trace s' as
    | none => []

lemma mem_trace_self (s : State) (as : List Act) : s ∈ trace s as := by
  cases as <;> simp [trace]

lemma view_along {n : String} : ∀ {bs : List Act} {s s' : State} {u : String} {p : Phase},
    Apart s → LiveAnswered s → run s bs = some s' → view s.services n = some (u, p) →
    (∀ t ∈ trace s bs, (view t.services n).isSome) →
    ∃ p', view s'.services n = some (u, p') ∧ p.rank ≤ p'.rank
  | [], _, _, _, p, _, _, hr, hv, _ => by cases hr; exact ⟨p, hv, le_rfl⟩
  | b :: bs, s, _, _, _, hi, hl, hr, hv, hkeep => by
    obtain ⟨s1, h1, h2⟩ := Option.bind_eq_some.mp hr
    have hk : ∀ t ∈ trace s1 bs, (view t.services n).isSome := fun t ht =>
      hkeep t (List.mem_cons_of_mem _ (by simpa only [h1] using ht))
    obtain ⟨⟨u1, p1⟩, hv1⟩ := Option.isSome_iff_exists.mp (hk s1 (mem_trace_self s1 bs))
    have hm := step_moves hi hl h1 n
    rw [hv, hv1] at hm
    obtain ⟨rfl, hp⟩ := hm.owner_phase
    obtain ⟨p', hv', hle⟩ := view_along (step_apart hi h1) (step_live hi.inv hl h1) h2 hv1 hk
    exact ⟨p', hv', hp.trans hle⟩

/-- **No client's service passes to another.** On every servhash reachable from its
creation, along any further run of calls, upstream answers and continuations during which a
name keeps an entry, the entry keeps its owner and its phase only moves on, from adding to
live to removing: the name stays the service of the client that registered it until its
entry is destroyed. -/
theorem owner_stays {others : List String} {as bs : List Act} {s s' : State} {n u : String}
    {p : Phase} (h : run (init others) as = some s) (hr : run s bs = some s')
    (hv : view s.services n = some (u, p)) (hkeep : ∀ t ∈ trace s bs, (view t.services n).isSome) :
    ∃ p', view s'.services n = some (u, p') ∧ p.rank ≤ p'.rank :=
  view_along (run_apart h ⟨init_inv others, List.nodup_nil⟩)
    (run_live h (init_inv others) fun _ he => nomatch he) hr hv hkeep

theorem remove_keeps_owner :
    ∃ s s', run (init []) [.add "foo" "c1" 1 .none] = some s ∧
      run s [.upstream, .cont 0, .remove "foo" "c1" 2 .none] = some s' ∧
      view s.services "foo" = some ("c1", .adding) ∧
      (∀ t ∈ trace s [.upstream, .cont 0, .remove "foo" "c1" 2 .none], (view t.services "foo").isSome) ∧
      ∃ p', view s'.services "foo" = some ("c1", p') ∧ Phase.adding.rank ≤ p'.rank :=
  ⟨_, _, rfl, rfl, rfl, by decide,
    @owner_stays [] [.add "foo" "c1" 1 .none] [.upstream, .cont 0, .remove "foo" "c1" 2 .none] _ _ _ _ _
      rfl rfl rfl (by decide)⟩

/-- The answer to the `service.add` makes the entry live. -/
example : (run (init []) [.add "foo" "c1" 1 .none, .upstream, .cont 0]).map (view ·.services "foo") =
    some (some ("c1", .live)) := by decide

end FluxBroker.ServhashLifecycle
