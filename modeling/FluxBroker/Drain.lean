import FluxBroker.Handshake
import Mathlib.Algebra.Group.Basic
import Mathlib.Data.Multiset.Basic
import Mathlib.Tactic.Abel

/-!
The drain loop of `module_thread`, and where the requests written to a module end up.

Each request the broker writes to the module is, at every moment, in exactly one place: on
the channel, requeued on the module's handle, received by `mod_main`, or answered by the
drain loop, which logs its serial in `answered` in the iteration that calls
`flux_respond_error (h, msg, ENOSYS, NULL)` and appends the response to what the module has
sent when the send succeeds. Once `module_finalizing` has succeeded the record is muted, so
the broker writes no more requests, and the loop ends after one call of `flux_recv` per
request left and one more.
-/

namespace FluxBroker.Drain

open FluxBroker.Message FluxBroker.Record FluxBroker.Thread FluxBroker.Handshake

/-- Where the serials of the requests written to the module are. -/
def custody (s : Sys) : Multiset ℕ :=
  (reqSerials s.toMod : Multiset ℕ) + reqSerials s.hq + s.got + s.answered

/-- The requests the drain loop still has to answer. -/
def drainLeft (s : Sys) : ℕ := (reqSerials s.toMod).length + (reqSerials s.hq).length

/-- What the channel and the handle hold, by where the module thread is, once
`module_finalizing` has succeeded: no request once the drain loop is over. -/
def Drained (s : Sys) : Prop :=
  match s.pc with
  | .drain _ | .cancelled => True
  | .exiting _ | .closed => reqSerials s.toMod = [] ∧ reqSerials s.hq = []
  | _ => False

/-! ### The module thread moves requests and never loses one -/

lemma custody_drain {s : Sys} {x : ℕ × Msg} {hq ch : List (ℕ × Msg)}
    (hr : recvRequest s.hq s.toMod = (some x, hq, ch)) :
    custody { s with hq := hq, toMod := ch, answered := s.answered ++ [x.1] } = custody s := by
  have key := Multiset.coe_eq_coe.mpr (recvRequest_some hr).2
  simp only [← Multiset.coe_add] at key
  simp only [custody, ← key, ← Multiset.coe_add]
  abel

lemma custody_tstep {s s' : Sys} {a : TAct} (h : tstep s a = some s') : custody s' = custody s := by
  cases tstep_cases h
  case recvQueued x _ hx =>
    obtain ⟨l₁, l₂, -, e₁, e₂⟩ := List.exists_erase_eq hx
    simp only [custody]
    rw [e₂, e₁]
    simp only [reqSerials_append, reqSerials_cons, ← Multiset.coe_add]
    abel
  case recvNext x rest _ hq | defer x rest _ hq | ackOther _ _ x rest _ hq _ =>
    simp only [custody, hq, reqSerials_cons, reqSerials_append, reqSerials_nil, List.append_nil,
      ← Multiset.coe_add]
    abel
  case ack _ _ x rest _ hq hr =>
    have hx : reqSerial x = none := reqSerial_eq_none.mpr (by rw [hr.1]; decide)
    simp [custody, hq, hx]
  case drainQuiet _ _ _ _ _ hr _ | drainReply _ _ _ _ _ _ hr _ | drainReplyFail _ _ _ _ _ _ hr _ =>
    exact custody_drain hr
  case drainEnd _ _ _ _ hr =>
    obtain ⟨h1, rfl, h3, h4⟩ := recvRequest_none hr
    simp [custody, h1, h3, h4]
  all_goals rfl

lemma drained_tstep {s s' : Sys} {a : TAct} (h : tstep s a = some s')
    (hd : s.finalized = true → Drained s) (hf : s'.finalized = true) : Drained s' := by
  cases tstep_cases h
  case drainEnd _ _ _ _ hr =>
    obtain ⟨h1, rfl, -, -⟩ := recvRequest_none hr
    exact ⟨rfl, h1⟩
  case ack | ackFail | cancel => trivial
  all_goals first
    | (simp only [Drained, Sys.emit, ‹s.pc = _›]; done)
    | (have hs := hd hf; simp only [Drained, ‹s.pc = _›] at hs; try exact hs)

lemma tstep_drain {s : Sys} {e : ℤ} (hpc : s.pc = .drain e) (ok : Bool) :
    ∃ s', tstep s (.drain ok) = some s' ∧
      ((drainLeft s = 0 ∧ s'.pc = .exiting e ∧ s'.answered = s.answered ∧ s'.sent = s.sent) ∨
       (drainLeft s' + 1 = drainLeft s ∧ s'.pc = .drain e ∧
         ∃ x, recvRequest s.hq s.toMod = (some x, s'.hq, s'.toMod) ∧ x.2.type = .request ∧
           s'.answered = s.answered ++ [x.1] ∧
           s'.sent = s.sent ++ if ok then (respond x.2 ENOSYS).toList else [])) := by
  unfold tstep
  rw [hpc]
  dsimp only
  rcases hr : recvRequest s.hq s.toMod with ⟨_ | x, hq, ch⟩
  · obtain ⟨h1, rfl, h3, h4⟩ := recvRequest_none hr
    exact ⟨_, rfl, .inl ⟨by simp [drainLeft, h3, h4], rfl, rfl, rfl⟩⟩
  · obtain ⟨hx, hp⟩ := recvRequest_some hr
    have hlen := hp.length_eq
    simp only [List.length_append, List.length_singleton] at hlen
    have hleft : drainLeft { s with hq := hq, toMod := ch } + 1 = drainLeft s := by
      simp only [drainLeft]; omega
    simp only
    split
    next hn => exact ⟨_, rfl, .inr ⟨hleft, rfl, x, rfl, hx, rfl, by simp [hn]⟩⟩
    next r hn =>
      cases ok
      · exact ⟨_, rfl, .inr ⟨hleft, rfl, x, rfl, hx, rfl, by simp⟩⟩
      · exact ⟨_, rfl, .inr ⟨hleft, rfl, x, rfl, hx, rfl, by simp [hn, Sys.emit]⟩⟩

/-- The drain loop, run on its own from inside it, ends after one call of `flux_recv` per
request left and one more: it answers each of those requests with `ENOSYS`, and the module
sends, in order, the responses whose send succeeds. -/
lemma drain_run : ∀ (oks : List Bool) {s : Sys} {e : ℤ}, s.pc = .drain e →
    oks.length = drainLeft s + 1 →
    ∃ s', run s (oks.map fun ok => .thread (.drain ok)) = some s' ∧ s'.pc = .exiting e ∧
      ∃ xs : List (ℕ × Msg), xs.length = drainLeft s ∧ (∀ x ∈ xs, x.2.type = .request) ∧
        s'.answered = s.answered ++ xs.map Prod.fst ∧
        s'.sent = s.sent ++ (xs.zip oks).flatMap fun p =>
          if p.2 then (respond p.1.2 ENOSYS).toList else []
  | [], _, _, _, hl => by simp at hl
  | ok :: oks, s, e, hpc, hl => by
    obtain ⟨s1, h1, ⟨h0, hpc1, ha, hs⟩ | ⟨hleft, hpc1, x, -, hx, ha, hs⟩⟩ := tstep_drain hpc ok
    · have : oks = [] := List.eq_nil_of_length_eq_zero (by simpa [h0] using hl)
      subst this
      exact ⟨s1, by simpa [run, step] using h1, hpc1, [], h0.symm, by simp, by simp [ha],
        by simp [hs]⟩
    · obtain ⟨s2, h2, hpc2, xs, hlen, hreq, ha2, hs2⟩ := drain_run oks hpc1 (by simp at hl; omega)
      refine ⟨s2, by simpa [run, step, h1] using h2, hpc2, x :: xs, by simp; omega,
        List.forall_mem_cons.mpr ⟨hx, hreq⟩, by simp [ha2, ha], by simp [hs2, hs]⟩

/-! ### What the broker writes -/

lemma bstep_reqSerials_muted {s s' : Sys} {a : BAct} (h : bstep s a = some s')
    (hm : s.p.muted = true) : reqSerials s'.toMod = reqSerials s.toMod ∧ s'.reqs = s.reqs := by
  rcases bstep_toMod h with ⟨h1, -, h3⟩ | ⟨m, hd, h1, -, h3⟩
  · exact ⟨by rw [h1], h3⟩
  · have hr : reqSerial (s.serial, m) = none :=
      reqSerial_eq_none.mpr (by simp [(hd.muted (bstep_muted h hm)).1])
    simp [h1, h3, hr]

/-! ### The invariant -/

/-- The serials of the requests written to the module are distinct and below the next one,
each is in exactly one place, and once `module_finalizing` has succeeded the thread is
past `mod_main` and leaves no request behind when it stops draining. -/
structure Custody (s : Sys) : Prop where
  custody_eq : custody s = s.reqs
  reqs_lt : ∀ n ∈ s.reqs, n < s.serial
  reqs_nodup : s.reqs.Nodup
  drained : s.finalized = true → Drained s

lemma custody_tstep_inv {s s' : Sys} {a : TAct} (h : tstep s a = some s') (hc : Custody s) :
    Custody s' := by
  have hb := tstep_brk h
  simp only [Sys.brk, BrokerPart.mk.injEq] at hb
  obtain ⟨-, -, hser, hreqs⟩ := hb
  exact ⟨by rw [custody_tstep h, hreqs, hc.custody_eq], hreqs ▸ hser ▸ hc.reqs_lt,
    hreqs ▸ hc.reqs_nodup, drained_tstep h hc.drained⟩

lemma drained_congr {s s' : Sys} (hpc : s'.pc = s.pc)
    (hm : reqSerials s'.toMod = reqSerials s.toMod) (hq : s'.hq = s.hq) (hd : Drained s) :
    Drained s' := by
  unfold Drained at hd ⊢; rwa [hpc, hm, hq]

lemma custody_bstep_inv {s s' : Sys} {a : BAct} (h : bstep s a = some s') (hi : Inv s)
    (hc : Custody s) : Custody s' := by
  have ht := bstep_thr h
  simp only [Sys.thr, ThreadPart.mk.injEq] at ht
  obtain ⟨hpc, hhq, -, hfin, -, hgot, hans, -⟩ := ht
  have hd : s'.finalized = true → Drained s' := fun hf =>
    have hf : s.finalized = true := hfin ▸ hf
    drained_congr hpc (bstep_reqSerials_muted h (hi.finalized_muted hf)).1 hhq (hc.drained hf)
  rcases bstep_toMod h with ⟨h1, h2, h3⟩ | ⟨m, -, h1, h2, h3⟩
  · refine ⟨?_, h2 ▸ h3 ▸ hc.reqs_lt, h3 ▸ hc.reqs_nodup, hd⟩
    simp only [custody, h1, hhq, hgot, hans, h3]
    exact hc.custody_eq
  · have hnew : ∀ n ∈ (reqSerial (s.serial, m)).toList, n = s.serial := by
      simp [reqSerial]
    refine ⟨?_, fun n hn => ?_, ?_, hd⟩
    · simp only [custody, h1, hhq, hgot, hans, h3, reqSerials_append, reqSerials_cons,
        reqSerials_nil, List.append_nil, ← Multiset.coe_add]
      rw [← hc.custody_eq, custody]
      abel
    · rw [h3, List.mem_append] at hn
      rcases hn with hn | hn
      · exact (hc.reqs_lt n hn).trans (h2 ▸ Nat.lt_succ_self _)
      · rw [h2, hnew n hn]; exact Nat.lt_succ_self _
    · rw [h3]
      refine hc.reqs_nodup.append (by cases reqSerial (s.serial, m) <;> simp) ?_
      intro n hn hn'
      exact absurd (hc.reqs_lt n hn) (by rw [hnew n hn']; exact lt_irrefl _)

lemma reachable_custody {s : Sys} (h : Reachable s) : Custody s := by
  induction h with
  | init p => exact ⟨by simp [custody, init], by simp [init], by simp [init], by simp [init]⟩
  | step a hr hs ih =>
    cases a with
    | thread a => exact custody_tstep_inv hs ih
    | broker a => exact custody_bstep_inv hs (reachable_handshake hr) ih

/-! ### The drain loop -/

lemma answered_of_closed {s : Sys} (hc : Custody s) (hf : s.finalized = true)
    (hpc : s.pc = .closed) :
    s.answered.Nodup ∧ ∀ n, n ∈ s.answered ↔ n ∈ s.reqs ∧ n ∉ s.got := by
  have hd := hc.drained hf
  simp only [Drained, hpc] at hd
  have hp : (s.got ++ s.answered).Perm s.reqs := by
    rw [← Multiset.coe_eq_coe, ← hc.custody_eq]
    simp [custody, hd.1, hd.2]
  obtain ⟨-, hn, hdisj⟩ := List.nodup_append.mp (hp.nodup_iff.mpr hc.reqs_nodup)
  refine ⟨hn, fun n => ?_⟩
  rw [← hp.mem_iff, List.mem_append]
  exact ⟨fun ha => ⟨.inr ha, fun hg => hdisj hg ha⟩, fun ⟨h1, h2⟩ => h1.resolve_left h2⟩

end FluxBroker.Drain
