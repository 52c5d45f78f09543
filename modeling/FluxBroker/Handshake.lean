import FluxBroker.Thread

/-!
The FINALIZING handshake: once `module_finalizing` has its acknowledgement, the broker has
muted the module, and after `flux_close` it writes nothing more to the module's channel.

The broker's status handler mutes the record before it answers the FINALIZING report,
and the report carries a matchtag no other request of the module carries, so the response
`flux_rpc_get` waits for can only be written after the mute. A muted record takes nothing
but responses to status reports, so once no status report awaits an answer the channel to
the module stays as it is.
-/

namespace FluxBroker.Handshake

open FluxBroker.Message FluxBroker.Record FluxBroker.Thread

/-- A request that asks for a response. -/
def Awaiting (m : Msg) : Prop := m.type = .request ∧ m.noresponse = false

/-- The FINALIZING report of `module_finalizing`, or one like it. -/
def IsFinReport (m : Msg) : Prop :=
  m.topic = some moduleStatusTopic ∧ ∃ e, m.payload = .status FLUX_MODSTATE_FINALIZING e

/-! ### What the module thread does to the channel -/

lemma tstep_toMod_sub {s s' : Sys} {a : TAct} (h : tstep s a = some s') :
    ∀ x ∈ s'.toMod, x ∈ s.toMod := by
  cases tstep_cases h
  case recvNext _ _ _ hq | defer _ _ _ hq | ack _ _ _ _ _ hq _ | ackOther _ _ _ _ _ hq _ =>
    exact fun y hy => hq ▸ List.mem_cons_of_mem _ hy
  case drainQuiet _ _ _ _ _ hr _ | drainReply _ _ _ _ _ _ hr _ | drainReplyFail _ _ _ _ _ _ hr _
    | drainEnd _ _ _ _ hr => exact recvRequest_sub hr
  all_goals exact fun _ => id

lemma tstep_toBrk {s s' : Sys} {a : TAct} (h : tstep s a = some s') :
    s.tag ≤ s'.tag ∧ ∃ new, s'.toBrk = s.toBrk ++ new ∧
      ∀ m ∈ new, Awaiting m → s.tag ≤ m.matchtag ∧ m.matchtag < s'.tag := by
  cases tstep_cases h
  case emitRequest m _ _ | ret =>
    exact ⟨Nat.le_succ _, [_], rfl, List.forall_mem_singleton.mpr fun _ => ⟨le_rfl, Nat.lt_succ_self _⟩⟩
  case emit m _ hm => exact ⟨le_rfl, [m], rfl, List.forall_mem_singleton.mpr fun ha => absurd ha hm⟩
  case drainReply _ x _ _ r _ _ hr =>
    exact ⟨le_rfl, [r], rfl, List.forall_mem_singleton.mpr fun ha =>
      by rw [(respond_eq_some.mp hr).2] at ha; exact nomatch ha.1⟩
  case exit => exact ⟨le_rfl, [_], rfl, List.forall_mem_singleton.mpr fun ha => nomatch ha.2⟩
  all_goals exact ⟨le_rfl, [], (List.append_nil _).symm, fun _ h => absurd h (List.not_mem_nil _)⟩

lemma tstep_finalizing {s s' : Sys} {a : TAct} {e : ℤ} {t : ℕ} (h : tstep s a = some s')
    (hpc : s'.pc = .finalizing e t) :
    (s.pc = .finalizing e t ∧ s'.toBrk = s.toBrk ∧ s'.tag = s.tag) ∨
    (t = s.tag ∧ s'.tag = s.tag + 1 ∧
      s'.toBrk = s.toBrk ++ [statusRequest FLUX_MODSTATE_FINALIZING none false s.tag]) := by
  cases tstep_cases h
  case ret => cases hpc; exact .inr ⟨rfl, rfl, rfl⟩
  case ackOther => exact .inl ⟨hpc, rfl, rfl⟩
  case connect ok _ | setup k ok _ => cases ok <;> simp at hpc
  case recvNext _ _ hg _ | recvQueued _ hg _ | defer _ _ hg _ | emitRequest _ hg _ | emit _ hg _
    | drainQuiet _ _ _ _ hg _ _ | drainReply _ _ _ _ _ hg _ _ | drainReplyFail _ _ _ _ _ hg _ _ =>
    exact absurd (hg.symm.trans hpc) nofun
  all_goals cases hpc

lemma tstep_finalized {s s' : Sys} {a : TAct} (h : tstep s a = some s')
    (hf : s'.finalized = true) : s.finalized = true ∨
    ∃ e t x rest, s.pc = .finalizing e t ∧ s.toMod = x :: rest ∧ x.2.type = .response ∧
      x.2.matchtag = t := by
  cases tstep_cases h
  case ack e t x rest hpc hq hr => exact .inr ⟨e, t, x, rest, hpc, hq, hr⟩
  all_goals exact .inl hf

/-! ### What the broker does to the channel -/

lemma statusHandler_some {p q : Module} {r : Msg} {o : Option Msg}
    (h : statusHandler p r = some (q, o)) :
    (p.muted = true → q.muted = true) ∧ (IsFinReport r → q.muted = true) ∧ ∃ e, o = respond r e := by
  unfold statusHandler at h
  split at h
  · rename_i st e hpl
    obtain ⟨⟨q', cb⟩, hs, hq⟩ := Option.map_eq_some'.mp h
    simp only [Prod.mk.injEq] at hq
    obtain ⟨rfl, rfl⟩ := hq
    obtain ⟨rfl, -⟩ := moduleSetStatus_some _ hs
    refine ⟨fun hm => ?_, fun ⟨_, e', he⟩ => ?_, 0, rfl⟩
    · split_ifs <;> simp_all [moduleMute, moduleSetErrnum]
    · rw [hpl] at he; cases he
      simp [moduleMute, moduleSetErrnum, FLUX_MODSTATE_FINALIZING, FLUX_MODSTATE_EXITED]
  · next hpl =>
    cases h
    exact ⟨id, fun ⟨_, e', he⟩ => absurd he (hpl _ _), EPROTO, rfl⟩

lemma bstep_muted {s s' : Sys} {a : BAct} (h : bstep s a = some s') (hm : s.p.muted = true) :
    s'.p.muted = true := by
  cases bstep_cases h
  case serveStatus hq => simpa using (statusHandler_some hq).1 hm
  case subscribe hq => unfold moduleSubscribe at hq; split_ifs at hq; cases hq; exact hm
  case unsubscribe => exact hm
  all_goals simpa using hm

/-- The same message up to its route stack and credential. -/
def SameBody (m m0 : Msg) : Prop := ∃ r c, m = { m0 with route := r, cred := c }

lemma bstep_queues {s s' : Sys} {a : BAct} (h : bstep s a = some s') :
    (∀ m ∈ s'.toBrk ++ s'.pending, ∃ m0 ∈ s.toBrk ++ s.pending, SameBody m m0) ∧
    (∀ m ∈ s'.pending, m ∈ s.pending ∨ m.type = .request) := by
  have refl : ∀ m, SameBody m m := fun m => ⟨m.route, m.cred, rfl⟩
  have sub : (∀ m ∈ s'.toBrk, m ∈ s.toBrk) → (∀ m ∈ s'.pending, m ∈ s.pending) →
      (∀ m ∈ s'.toBrk ++ s'.pending, ∃ m0 ∈ s.toBrk ++ s.pending, SameBody m m0) ∧
      (∀ m ∈ s'.pending, m ∈ s.pending ∨ m.type = .request) := fun hb hp =>
    ⟨fun m hm => ⟨m, by simp only [List.mem_append] at hm ⊢; exact hm.imp (hb m) (hp m), refl m⟩,
     fun m hm => .inl (hp m hm)⟩
  cases bstep_cases h
  case recvRequest m rest m' hb hr ht =>
    refine ⟨fun x hx => ?_, fun x hx => ?_⟩
    · simp only [List.mem_append, List.mem_singleton] at hx
      rcases hx with hx | hx | rfl
      · exact ⟨x, by simp [hb, hx], refl x⟩
      · exact ⟨x, by simp [hx], refl x⟩
      · exact ⟨m, by simp [hb], moduleRecvmsg_ok _ hr⟩
    · simp only [List.mem_append, List.mem_singleton] at hx
      rcases hx with hx | rfl
      exacts [.inl hx, .inr ht]
  case recvOther hb _ _ => exact sub (fun x hx => by simp [hb, hx]) fun _ => id
  case recvFail hb _ => exact sub (fun x hx => by simp [hb, hx]) fun _ => id
  case serveStatus | serveOther =>
    exact sub (by simp) fun m hm => List.mem_of_mem_erase (by simpa using hm)
  all_goals exact sub (by simp) (by simp)

/-- What the broker writes to the module: a response to a request it read, written only
after the mute when that request was a FINALIZING report, or, while the module is not
muted, anything. -/
structure Delivered (s s' : Sys) (m : Msg) : Prop where
  muted : s'.p.muted = true → m.type = .response ∧ m.topic = some moduleStatusTopic
  resp : m.type = .response → ∃ r ∈ s.pending, r.noresponse = false ∧ m.matchtag = r.matchtag ∧
    m.topic = r.topic ∧ (IsFinReport r → s'.p.muted = true)

lemma deliver_cases (s : Sys) (r : Except ℤ (Option Msg)) :
    (s.deliver r).toMod = s.toMod ∧ (s.deliver r).serial = s.serial ∧ (s.deliver r).reqs = s.reqs ∨
    ∃ m, r = .ok (some m) ∧ (s.deliver r).toMod = s.toMod ++ [(s.serial, m)] ∧
      (s.deliver r).serial = s.serial + 1 ∧
      (s.deliver r).reqs = s.reqs ++ (reqSerial (s.serial, m)).toList := by
  unfold Sys.deliver; split
  · exact .inr ⟨_, rfl, rfl, rfl, rfl⟩
  · exact .inl ⟨rfl, rfl, rfl⟩

lemma sendRespond_ok {q : Module} {r m : Msg} {e : ℤ} {io : Io}
    (h : (respond r e).elim (.ok none) (fun m => moduleSendmsg q (some m) io) = .ok (some m)) :
    r.noresponse = false ∧ m.type = .response ∧ m.matchtag = r.matchtag ∧ m.topic = r.topic ∧
      (q.muted = true → r.topic = some moduleStatusTopic) := by
  cases hr : respond r e with
  | none => simp [hr] at h
  | some m0 =>
    rw [hr, Option.elim_some] at h
    obtain ⟨hm, hmu⟩ := moduleSendmsg_ok q h
    obtain ⟨hn, rfl⟩ := respond_eq_some.mp hr
    cases hm
    exact ⟨hn, rfl, rfl, rfl, fun hq => (hmu hq).2⟩

lemma sendOther_ok {q : Module} {m0 m : Msg} {io : Io}
    (h : moduleSendmsg q (some m0) io = .ok (some m)) (ht : m0.type ≠ .response) :
    m.type = m0.type ∧ q.muted = false := by
  obtain ⟨hm, hmu⟩ := moduleSendmsg_ok q h
  cases hm
  exact ⟨rfl, by cases hq : q.muted <;> simp_all⟩

lemma delivered_respond {s s' : Sys} {q : Module} {r m : Msg} {e : ℤ} {io : Io} (hr : r ∈ s.pending)
    (h : (respond r e).elim (.ok none) (fun m => moduleSendmsg q (some m) io) = .ok (some m))
    (hq : s'.p = q) (hfin : IsFinReport r → q.muted = true) : Delivered s s' m :=
  let ⟨hn, hty, htag, htop, hmu⟩ := sendRespond_ok h
  ⟨fun hm => ⟨hty, htop.trans (hmu (hq ▸ hm))⟩, fun _ => ⟨r, hr, hn, htag, htop, hq ▸ hfin⟩⟩

lemma delivered_other {s s' : Sys} {m0 m : Msg} {io : Io}
    (h : moduleSendmsg s.p (some m0) io = .ok (some m)) (ht : m0.type ≠ .response)
    (hp : s'.p = s.p) : Delivered s s' m :=
  let ⟨hty, hmu⟩ := sendOther_ok h ht
  ⟨fun hm => by simp [hp, hmu] at hm, fun hr => absurd (hty ▸ hr) ht⟩

lemma bstep_toMod {s s' : Sys} {a : BAct} (h : bstep s a = some s') :
    s'.toMod = s.toMod ∧ s'.serial = s.serial ∧ s'.reqs = s.reqs ∨
    ∃ m, Delivered s s' m ∧ s'.toMod = s.toMod ++ [(s.serial, m)] ∧ s'.serial = s.serial + 1 ∧
      s'.reqs = s.reqs ++ (reqSerial (s.serial, m)).toList := by
  cases bstep_cases h
  case serveStatus r io q o hr ht hq =>
    obtain ⟨-, hfin, e', rfl⟩ := statusHandler_some hq
    rcases deliver_cases { s with pending := s.pending.erase r, p := q } _ with h1 | ⟨m, hm, h1⟩
    exacts [.inl h1, .inr ⟨m, delivered_respond hr hm (by simp) hfin, h1⟩]
  case serveOther r e io hr ht =>
    rcases deliver_cases { s with pending := s.pending.erase r } _ with h1 | ⟨m, hm, h1⟩
    exacts [.inl h1, .inr ⟨m, delivered_respond hr hm (by simp) fun hf => absurd hf.1 ht, h1⟩]
  case send m io ht =>
    rcases deliver_cases s _ with h1 | ⟨m', hm, h1⟩
    exacts [.inl h1, .inr ⟨m', delivered_other hm ht (by simp), h1⟩]
  case cast m io ht =>
    rcases deliver_cases s _ with h1 | ⟨m', hm, h1⟩
    exacts [.inl h1, .inr ⟨m', delivered_other ((moduleEventCast_ok _ hm).resolve_left (by simp))
      (by simp [ht]) (by simp), h1⟩]
  all_goals exact .inl ⟨rfl, rfl, rfl⟩

/-! ### The invariant -/

/-- Every request that awaits an answer carries a matchtag below the handle's next one, and
so does every response on the channel to the module; while `module_finalizing` waits, only
its own report carries the matchtag it waits for, and a response with that matchtag on the
channel means the record is muted; `module_finalizing` succeeds only on a muted record. -/
structure Inv (s : Sys) : Prop where
  pending_req : ∀ m ∈ s.pending, m.type = .request
  tag_lt : ∀ m ∈ s.toBrk ++ s.pending, Awaiting m → m.matchtag < s.tag
  resp_lt : ∀ x ∈ s.toMod, x.2.type = .response → x.2.matchtag < s.tag
  fin : ∀ e t, s.pc = .finalizing e t → t < s.tag ∧
    (∀ m ∈ s.toBrk ++ s.pending, Awaiting m → m.matchtag = t → IsFinReport m) ∧
    (∀ x ∈ s.toMod, x.2.type = .response → x.2.matchtag = t → s.p.muted = true)
  finalized_muted : s.finalized = true → s.p.muted = true

lemma handshake_tstep {s s' : Sys} {a : TAct} (h : tstep s a = some s') (hi : Inv s) :
    Inv s' := by
  have hb := tstep_brk h
  simp only [Sys.brk, BrokerPart.mk.injEq] at hb
  obtain ⟨hp, hpend, -, -⟩ := hb
  have hsub := tstep_toMod_sub h
  obtain ⟨htag, new, hbrk, hnew⟩ := tstep_toBrk h
  have old : ∀ m ∈ s'.toBrk ++ s'.pending, m ∉ new → m ∈ s.toBrk ++ s.pending := by
    intro m hm hn
    simp only [hbrk, hpend, List.mem_append] at hm ⊢
    tauto
  refine ⟨hpend ▸ hi.pending_req, fun m hm ha => ?_, fun x hx hr => ?_, fun e t hpc => ?_,
    fun hf => ?_⟩
  · by_cases hn : m ∈ new
    · exact (hnew m hn ha).2
    · exact (hi.tag_lt m (old m hm hn) ha).trans_le htag
  · exact (hi.resp_lt x (hsub x hx) hr).trans_le htag
  · rcases tstep_finalizing h hpc with ⟨hpc0, hb0, ht0⟩ | ⟨rfl, ht1, hb1⟩
    · obtain ⟨h1, h2, h3⟩ := hi.fin e t hpc0
      refine ⟨ht0 ▸ h1, fun m hm => h2 m (by rwa [hb0, hpend] at hm), fun x hx => ?_⟩
      rw [hp]; exact h3 x (hsub x hx)
    · refine ⟨by omega, fun m hm ha hmt => ?_, fun x hx hr hmt => ?_⟩
      · rw [hb1, hpend, List.mem_append, List.mem_append, List.mem_singleton] at hm
        rcases hm with (hm | rfl) | hm
        · exact absurd hmt (hi.tag_lt m (by simp [hm]) ha).ne
        · exact ⟨rfl, _, rfl⟩
        · exact absurd hmt (hi.tag_lt m (by simp [hm]) ha).ne
      · exact absurd hmt (hi.resp_lt x (hsub x hx) hr).ne
  · rw [hp]
    rcases tstep_finalized h hf with hf0 | ⟨e, t, x, rest, hpc, hq, hr, hmt⟩
    · exact hi.finalized_muted hf0
    · exact (hi.fin e t hpc).2.2 x (by simp [hq]) hr hmt

lemma handshake_bstep {s s' : Sys} {a : BAct} (h : bstep s a = some s') (hi : Inv s) :
    Inv s' := by
  have ht := bstep_thr h
  simp only [Sys.thr, ThreadPart.mk.injEq] at ht
  obtain ⟨hpc, -, htag, hfin, -⟩ := ht
  obtain ⟨hq1, hq2⟩ := bstep_queues h
  have hmu := bstep_muted h
  have same : ∀ m ∈ s'.toBrk ++ s'.pending, ∃ m0 ∈ s.toBrk ++ s.pending,
      m.type = m0.type ∧ m.noresponse = m0.noresponse ∧ m.matchtag = m0.matchtag ∧
      (IsFinReport m0 → IsFinReport m) := by
    intro m hm
    obtain ⟨m0, hm0, r, c, rfl⟩ := hq1 m hm
    exact ⟨m0, hm0, rfl, rfl, rfl, id⟩
  have newResp : ∀ m, Delivered s s' m → m.type = .response →
      ∃ r ∈ s.pending, Awaiting r ∧ m.matchtag = r.matchtag ∧ (IsFinReport r → s'.p.muted = true) := by
    intro m hd hr
    obtain ⟨r, hr0, hn, hmt, -, hf⟩ := hd.resp hr
    exact ⟨r, hr0, ⟨hi.pending_req r hr0, hn⟩, hmt, hf⟩
  refine ⟨fun m hm => (hq2 m hm).elim (hi.pending_req m) id, fun m hm ha => ?_,
    fun x hx hr => ?_, fun e t hp => ?_, fun hf => hmu (hi.finalized_muted (hfin ▸ hf))⟩
  · obtain ⟨m0, hm0, hty, hn, hmt, -⟩ := same m hm
    rw [hmt, htag]
    exact hi.tag_lt m0 hm0 ⟨hty ▸ ha.1, hn ▸ ha.2⟩
  · rw [htag]
    rcases bstep_toMod h with ⟨h1, -⟩ | ⟨m, hd, h1, -⟩
    · exact hi.resp_lt x (h1 ▸ hx) hr
    · rw [h1, List.mem_append, List.mem_singleton] at hx
      rcases hx with hx | rfl
      · exact hi.resp_lt x hx hr
      · obtain ⟨r, hr0, ha, hmt, -⟩ := newResp m hd hr
        exact hmt ▸ hi.tag_lt r (by simp [hr0]) ha
  · obtain ⟨h1, h2, h3⟩ := hi.fin e t (hpc ▸ hp)
    refine ⟨htag ▸ h1, fun m hm ha hmt => ?_, fun x hx hr hmt => ?_⟩
    · obtain ⟨m0, hm0, hty, hn, hmt0, hf⟩ := same m hm
      exact hf (h2 m0 hm0 ⟨hty ▸ ha.1, hn ▸ ha.2⟩ (hmt0 ▸ hmt))
    · rcases bstep_toMod h with ⟨h4, -⟩ | ⟨m, hd, h4, -⟩
      · exact hmu (h3 x (h4 ▸ hx) hr hmt)
      · rw [h4, List.mem_append, List.mem_singleton] at hx
        rcases hx with hx | rfl
        · exact hmu (h3 x hx hr hmt)
        · obtain ⟨r, hr0, ha, hmt', hf⟩ := newResp m hd hr
          exact hf (h2 r (by simp [hr0]) ha (hmt' ▸ hmt))

lemma reachable_handshake {s : Sys} (h : Reachable s) : Inv s := by
  induction h with
  | init p => exact ⟨by simp [init], by simp [init], by simp [init], by simp [init], by simp [init]⟩
  | step a _ hs ih =>
    cases a with
    | thread a => exact handshake_tstep hs ih
    | broker a => exact handshake_bstep hs ih

/-! ### After `flux_close` -/

/-- No `broker.module-status` request asking for a response is outstanding from the module:
none is on the channel to the broker or pending there. -/
def NoStatusAwaiting (s : Sys) : Prop :=
  ∀ m ∈ s.toBrk ++ s.pending, Awaiting m → m.topic ≠ some moduleStatusTopic

lemma tstep_closed {s : Sys} (a : TAct) (h : s.pc = .closed) : tstep s a = none := by
  cases a <;> (unfold tstep; rw [h])

/-- After `flux_close`, on a muted record with no status report awaiting an answer. -/
structure Quiet (s : Sys) : Prop where
  closed : s.pc = .closed
  muted : s.p.muted = true
  pending_req : ∀ m ∈ s.pending, m.type = .request
  none_awaiting : NoStatusAwaiting s

lemma quiet_step {s s' : Sys} {a : Act} (h : step s a = some s') (hq : Quiet s) :
    Quiet s' ∧ s'.toMod = s.toMod := by
  cases a with
  | thread a => simp [step, tstep_closed a hq.closed] at h
  | broker a =>
    simp only [step] at h
    have ht := bstep_thr h
    simp only [Sys.thr, ThreadPart.mk.injEq] at ht
    obtain ⟨hq1, hq2⟩ := bstep_queues h
    have hmu := bstep_muted h hq.muted
    have hna : NoStatusAwaiting s' := by
      intro m hm ha
      obtain ⟨m0, hm0, r, c, rfl⟩ := hq1 m hm
      exact hq.none_awaiting m0 hm0 ha
    refine ⟨⟨ht.1 ▸ hq.closed, hmu, fun m hm => (hq2 m hm).elim (hq.pending_req m) id, hna⟩, ?_⟩
    rcases bstep_toMod h with ⟨h1, -⟩ | ⟨m, hd, -⟩
    · exact h1
    · obtain ⟨hr, htop⟩ := hd.muted hmu
      obtain ⟨r, hr0, hn, -, htop', -⟩ := hd.resp hr
      exact absurd (htop'.symm.trans htop)
        (hq.none_awaiting r (by simp [hr0]) ⟨hq.pending_req r hr0, hn⟩)

/-- **The broker never sends into a closed module.** Once `module_finalizing` has had its
acknowledgement and the thread has reached `flux_close`, no message is ever written to the
module's channel again, in any interleaving of the broker's sends, event casts and status
handling, provided no `broker.module-status` request of the module still awaits an answer. -/
theorem closed_module_gets_no_message {s s' : Sys} (h : Reachable s) (hc : s.pc = .closed)
    (hf : s.finalized = true) (hn : NoStatusAwaiting s) (hs : Relation.ReflTransGen Step s s') :
    s'.toMod = s.toMod := by
  have hi := reachable_handshake h
  suffices Quiet s' ∧ s'.toMod = s.toMod from this.2
  induction hs with
  | refl => exact ⟨⟨hc, hi.finalized_muted hf, hi.pending_req, hn⟩, rfl⟩
  | tail _ hst ih =>
    obtain ⟨a, ha⟩ := hst
    obtain ⟨hq', he⟩ := quiet_step ha ih.1
    exact ⟨hq', he.trans ih.2⟩

theorem echoEnd_gets_no_message :
    (bstep echoEnd (.send (ping 4) Io.ok)).map Sys.toMod = some echoEnd.toMod := by
  obtain ⟨s', hs⟩ : ∃ s', bstep echoEnd (.send (ping 4) Io.ok) = some s' := ⟨_, rfl⟩
  rw [hs]
  exact congrArg some (closed_module_gets_no_message reachable_echoEnd (by decide) (by decide)
    (by unfold NoStatusAwaiting Awaiting; decide) (.single ⟨.broker (.send (ping 4) Io.ok), hs⟩))

end FluxBroker.Handshake
