import DistributedAi.Sessions

/-! The calls of `anbs_distributed_ai_submit_task`: each polls the row it made until the row
reads `completed` or its 30 checks have passed. -/
namespace DistributedAi

/-! ## What a step does to the calls -/

def Action.isSubmit : Action → Bool
  | .submit _ _ => true
  | _ => false

@[simp] theorem pollCall_returned (s : DistributedAiSystem) (c : ℤ) (r : List UInt8) :
    pollCall s (.returned c r) = .returned c r := rfl

section
variable {p q : Process} {a : Action}

theorem calls_startCall (p : Process) (r : SubmitStart) :
    (p.startCall r).calls = p.calls ++ [r.call] := by
  cases r <;> rfl

theorem length_calls_step (h : p.step a = some q) :
    q.calls.length = p.calls.length + if a.isSubmit then 1 else 0 := by
  rcases step_cases h with ⟨d, rfl, rfl⟩ | ⟨d, msg, rfl, -, rfl⟩ | ⟨rfl, rfl⟩ | ⟨d, u, rfl, rfl⟩ |
    ⟨k, rfl, rfl⟩ | ⟨n, rfl, rfl⟩ <;> simp [Action.isSubmit, calls_startCall]

/-- A step leaves every existing call as it was, except a poll of that call, which reads the
table without changing the system. -/
theorem getElem?_calls_step (h : p.step a = some q) {k : ℕ} (hk : k < p.calls.length) :
    q.calls[k]? = p.calls[k]? ∨
      a = .poll k ∧ q.sys = p.sys ∧ q.calls[k]? = p.calls[k]?.map (pollCall p.sys) := by
  rcases step_cases h with ⟨d, rfl, rfl⟩ | ⟨d, msg, rfl, -, rfl⟩ | ⟨rfl, rfl⟩ | ⟨d, u, rfl, rfl⟩ |
    ⟨k', rfl, rfl⟩ | ⟨n, rfl, rfl⟩
  · exact .inl rfl
  · exact .inl rfl
  · exact .inl rfl
  · exact .inl (by rw [calls_startCall, List.getElem?_append_left hk])
  · by_cases hkk : k' = k
    · subst hkk
      exact .inr ⟨rfl, rfl, by rw [List.getElem?_modify_eq, Option.map_eq_map]⟩
    · exact .inl (List.getElem?_modify_ne _ _ hkk)
  · exact .inl rfl

end

theorem Run.length_calls {p q : Process} {acts : List Action} (h : Run p acts q) :
    q.calls.length = p.calls.length + (acts.filter Action.isSubmit).length := by
  induction h with
  | nil => rfl
  | snoc _ hs ih =>
    rw [length_calls_step hs, ih, List.filter_append, List.length_append]
    split <;> simp_all [Nat.add_assoc]

theorem Run.returned {p q : Process} {acts : List Action} (h : Run p acts q) {k : ℕ} {c : ℤ}
    {r : List UInt8} (hk : p.calls[k]? = some (.returned c r)) : q.calls[k]? = some (.returned c r) := by
  induction h with
  | nil => exact hk
  | snoc _ hs ih =>
    rcases getElem?_calls_step hs (List.getElem?_eq_some_iff.1 ih).1 with h' | ⟨-, -, h'⟩
    · rw [h', ih]
    · rw [h', ih]; rfl

/-! ## Runs with fresh session ids -/

/-- `uuid_generate` gives a submit a session id that no row carries yet. -/
def FreshUuid (p : Process) : Action → Prop
  | .submit _ u => ∀ t ∈ p.sys.activeTasks, t.sessionId ≠ u
  | _ => True

/-- A run in which every submit's session id is fresh. -/
inductive FreshRun : Process → List Action → Process → Prop
  | nil (p : Process) : FreshRun p [] p
  | snoc {p q r : Process} {acts : List Action} {a : Action} :
      FreshRun p acts q → FreshUuid q a → q.step a = some r → FreshRun p (acts ++ [a]) r

theorem FreshRun.run {p q : Process} {acts : List Action} (h : FreshRun p acts q) : Run p acts q := by
  induction h with
  | nil => exact .nil _
  | snoc _ _ hs ih => exact ih.snoc hs

theorem FreshUuid.of_not_submit {p : Process} {a : Action} (h : a.isSubmit = false) : FreshUuid p a := by
  cases a
  case submit => cases h
  all_goals trivial

theorem FreshRun.append {p q r : Process} {acts acts' : List Action} (h : FreshRun p acts q)
    (h' : Run q acts' r) (hns : ∀ a ∈ acts', a.isSubmit = false) : FreshRun p (acts ++ acts') r := by
  induction h' with
  | nil => simpa using h
  | @snoc _ _ acts'' a _ hs ih =>
    rw [← List.append_assoc]
    exact (ih fun b hb => hns b (List.mem_append_left _ hb)).snoc
      (.of_not_submit (hns a (List.mem_append_right _ (List.mem_singleton_self a)))) hs

theorem snoc_eq_append_cons {acts pre post : List Action} {a b : Action}
    (h : acts ++ [b] = pre ++ a :: post) :
    (post = [] ∧ acts = pre ∧ b = a) ∨ ∃ post', post = post' ++ [b] ∧ acts = pre ++ a :: post' := by
  rcases List.eq_nil_or_concat post with rfl | ⟨post', x, rfl⟩
  · obtain ⟨h1, h2⟩ := List.append_inj' h rfl
    exact .inl ⟨rfl, h1, List.singleton_inj.1 h2⟩
  · rw [List.concat_eq_append, ← List.cons_append, ← List.append_assoc] at h
    obtain ⟨h1, h2⟩ := List.append_inj' h rfl
    exact .inr ⟨post', by rw [List.singleton_inj.1 h2, List.concat_eq_append], h1⟩

theorem FreshRun.split {p q : Process} {pre post : List Action} {a : Action}
    (h : FreshRun p (pre ++ a :: post) q) :
    ∃ p0 p1, FreshRun p pre p0 ∧ FreshUuid p0 a ∧ p0.step a = some p1 ∧ Run p1 post q := by
  generalize hacts : pre ++ a :: post = acts at h
  induction h generalizing post with
  | nil => simp at hacts
  | snoc hrun hf hs ih =>
    rcases snoc_eq_append_cons hacts.symm with ⟨rfl, rfl, rfl⟩ | ⟨post', rfl, hpre⟩
    · exact ⟨_, _, hrun, hf, hs, .nil _⟩
    · obtain ⟨p0, p1, h0, hf0, hs0, h1⟩ := ih hpre.symm
      exact ⟨p0, p1, h0, hf0, hs0, h1.snoc hs⟩

theorem exists_kth_submit {acts : List Action} {k : ℕ}
    (hk : k < (acts.filter Action.isSubmit).length) :
    ∃ pre d u post, acts = pre ++ .submit d u :: post ∧ (pre.filter Action.isSubmit).length = k := by
  induction acts generalizing k with
  | nil => simp at hk
  | cons b acts ih =>
    cases b
    case submit d u =>
      cases k with
      | zero => exact ⟨[], d, u, acts, rfl, rfl⟩
      | succ k =>
        obtain ⟨pre, d', u', post, rfl, hpre⟩ := ih (by simpa [Action.isSubmit] using hk)
        exact ⟨.submit d u :: pre, d', u', post, rfl, by simpa [Action.isSubmit] using hpre⟩
    all_goals
      obtain ⟨pre, d', u', post, rfl, hpre⟩ := ih (by simpa [Action.isSubmit] using hk)
      exact ⟨_ :: pre, d', u', post, rfl, by simpa [Action.isSubmit] using hpre⟩

/-! ## A call follows its own row -/

/-- Datagram `d` brings a TaskResponse for session `u` from an agent other than `localId`, and
`res` is the part of its payload a row keeps: the first 2047 bytes. -/
def Responds (localId u : CStr 63) (d res : List UInt8) : Prop :=
  ∃ msg, parseMessage (CStr.prefixOf (d.take (maxMessageSize - 1))) = .ok msg ∧
    msg.senderId ≠ localId ∧ MessageType.ofInt? msg.type = some .taskResponse ∧
    msg.sessionId = u ∧ res = msg.payload.bytes.take 2047

theorem result_resolvedTask (msg : AiMessage) (now : ℤ) (t : TaskSession) :
    (resolvedTask msg now t).result.bytes = msg.payload.bytes.take 2047 := by
  simp [resolvedTask, CStr.prefixOf_of_nul_free msg.payload.nul_free]

/-- A row changes only when a handled TaskResponse resolves it, and then it is the first row with
the response's session id. -/
theorem row_step {p q : Process} {a : Action} (h : p.step a = some q) {r : ℕ} {t : TaskSession}
    (hr : p.sys.activeTasks[r]? = some t) :
    q.sys.activeTasks[r]? = some t ∨
      ∃ d msg, a = .receive d ∧ p.Handles d msg ∧ MessageType.ofInt? msg.type = some .taskResponse ∧
        t.sessionId = msg.sessionId ∧ q.sys.activeTasks[r]? = some (resolvedTask msg p.clock t) := by
  obtain ⟨hlt, ht⟩ := List.getElem?_eq_some_iff.1 hr
  rcases tasks_step h with h' | ⟨_, _, _, -, -, h'⟩ | ⟨_, _, -, -, -, -, h'⟩ | ⟨d, msg, rfl, hm, hty, h'⟩
  · exact .inl (h' ▸ hr)
  · exact .inl (by rw [h', List.getElem?_append_left hlt, hr])
  · exact .inl (by rw [h', List.getElem?_append_left hlt, hr])
  · rw [h', getElem?_updateFirst, hr]
    split
    · rename_i hi
      subst hi
      exact .inr ⟨d, msg, rfl, hm, hty, of_decide_eq_true (ht ▸ List.findIdx_getElem (w := hlt)), rfl⟩
    · exact .inl rfl

/-- What call `k`, which made row `r` for session `u`, has come to after the actions `post`: rows
before `r` carry other ids; row `r` carries `u` and is submitted, or completed with the result of
a response in `post`; and the call polls `r`, has timed out, or returned such a result. -/
structure Tracks (localId : CStr 63) (k r : ℕ) (u : CStr 63) (post : List Action) (q : Process) :
    Prop where
  localId_eq : q.sys.localAgentId = localId
  before : ∀ (j : ℕ) (t : TaskSession), j < r → q.sys.activeTasks[j]? = some t → t.sessionId ≠ u
  row : ∃ t, q.sys.activeTasks[r]? = some t ∧ t.sessionId = u ∧
    (t.status = .submitted ∨
      t.status = .completed ∧ ∃ d, .receive d ∈ post ∧ Responds localId u d t.result.bytes)
  call : (∃ n, q.calls[k]? = some (.polling r n)) ∨ q.calls[k]? = some (.returned (-1) timeoutText) ∨
    ∃ res, q.calls[k]? = some (.returned 0 res) ∧ ∃ d, .receive d ∈ post ∧ Responds localId u d res

section
variable {l u : CStr 63} {k r : ℕ} {post : List Action} {p q : Process} {a : Action}

theorem Tracks.call_lt (ht : Tracks l k r u post p) : k < p.calls.length := by
  rcases ht.call with ⟨n, h⟩ | h | ⟨res, h, -⟩ <;> exact (List.getElem?_eq_some_iff.1 h).1

theorem Tracks.step (ht : Tracks l k r u post p) (h : p.step a = some q) :
    Tracks l k r u (post ++ [a]) q where
  localId_eq := (ids_step h).1.trans ht.localId_eq
  before := by
    intro j t hj hq
    obtain ⟨t0, hr0, -⟩ := ht.row
    have hjp : j < p.sys.activeTasks.length := lt_trans hj (List.getElem?_eq_some_iff.1 hr0).1
    obtain ⟨t', ht', hid, -⟩ := rowsAdvance_step h j _ (List.getElem?_eq_getElem hjp)
    rw [hq, Option.some.injEq] at ht'
    subst ht'
    rw [hid]
    exact ht.before j _ hj (List.getElem?_eq_getElem hjp)
  row := by
    obtain ⟨t, hr, hid, hst⟩ := ht.row
    rcases row_step h hr with hq | ⟨d, msg, rfl, hm, hty, hsid, hq⟩
    · refine ⟨t, hq, hid, hst.imp_right fun ⟨hc, d, hd, hresp⟩ => ⟨hc, d, ?_, hresp⟩⟩
      exact List.mem_append_left _ hd
    · refine ⟨_, hq, hid, .inr ⟨rfl, d, by simp, msg, hm.1, ht.localId_eq ▸ hm.2, hty,
        hsid.symm.trans hid, result_resolvedTask _ _ _⟩⟩
  call := by
    rcases getElem?_calls_step h ht.call_lt with hq | ⟨rfl, -, hq⟩
    · rw [hq]
      exact ht.call.imp id (Or.imp id fun ⟨res, h1, d, hd, h2⟩ => ⟨res, h1, d, List.mem_append_left _ hd, h2⟩)
    · rw [hq]
      rcases ht.call with ⟨n, hn⟩ | hto | ⟨res, hres, d, hd, hresp⟩
      · obtain ⟨t, hr, -, hst⟩ := ht.row
        rw [hn, Option.map_some']
        cases n with
        | zero => exact .inr (.inl rfl)
        | succ n =>
          simp only [pollCall, hr]
          split
          · rename_i hc
            obtain ⟨d, hd, hresp⟩ := (hst.resolve_left (by rw [hc]; decide)).2
            exact .inr (.inr ⟨_, rfl, d, List.mem_append_left _ hd, hresp⟩)
          · exact .inl ⟨_, rfl⟩
      · rw [hto]; exact .inr (.inl rfl)
      · rw [hres]; exact .inr (.inr ⟨res, rfl, d, List.mem_append_left _ hd, hresp⟩)

theorem Tracks.run {acts : List Action} (ht : Tracks l k r u post p) (h : Run p acts q) :
    Tracks l k r u (post ++ acts) q := by
  induction h with
  | nil => simpa using ht
  | snoc _ hs ih => simpa [List.append_assoc] using ih.step hs

end

/-- A submit whose session id is fresh either fails at once, or makes a row, at index
`task_count`, that its call then tracks. -/
theorem tracks_submit {p0 p1 : Process} {d : List UInt8} {u : CStr 63}
    (hf : FreshUuid p0 (.submit d u)) (hs : p0.step (.submit d u) = some p1) :
    (∃ res, p1.calls[p0.calls.length]? = some (.returned (-1) res)) ∨
      Tracks p0.sys.localAgentId p0.calls.length p0.sys.activeTasks.length u [] p1 := by
  cases hs
  cases hr : submitTask d u p0.clock p0.sys with
  | failed res => exact .inl ⟨res, by simp [Process.startCall, hr]⟩
  | started row s sent =>
    obtain ⟨i, best, -, -, rfl, -, htasks, hloc⟩ := submitTask_started hr
    refine .inr ⟨by simp [Process.startCall, hr, hloc], fun j t hj hq => ?_, ?_, ?_⟩
    · simp only [Process.startCall, hr, htasks, List.getElem?_append_left hj] at hq
      exact hf t (List.getElem?_mem hq)
    · exact ⟨submittedTask d u best p0.clock, by simp [Process.startCall, hr, htasks], rfl, .inl rfl⟩
    · exact .inl ⟨30, by simp [Process.startCall, hr]⟩

/-- Every call of a fresh run from a fresh process either failed at once, or tracks the row made by
the submit it belongs to, the `k`-th. -/
theorem call_cases {l : CStr 63} {c : ℤ} {acts : List Action} {q : Process}
    (hrun : FreshRun (Process.init l c) acts q) {k : ℕ} (hk : k < q.calls.length) :
    (∃ res, q.calls[k]? = some (.returned (-1) res)) ∨
      ∃ pre d u post r, acts = pre ++ .submit d u :: post ∧ (pre.filter Action.isSubmit).length = k ∧
        Tracks l k r u post q := by
  rw [hrun.run.length_calls] at hk
  obtain ⟨pre, d, u, post, rfl, hpre⟩ := exists_kth_submit (by simpa [Process.init] using hk)
  obtain ⟨p0, p1, h0, hf, hs, h1⟩ := hrun.split
  have hlen : p0.calls.length = k := by simpa [h0.run.length_calls, Process.init] using hpre
  have hloc : p0.sys.localAgentId = l := h0.run.localAgentId
  rcases tracks_submit hf hs with ⟨res, hres⟩ | ht
  · exact .inl ⟨res, hlen ▸ h1.returned hres⟩
  · exact .inr ⟨pre, d, u, post, _, rfl, hpre, by simpa [hlen, hloc] using ht.run h1⟩

/-- With fresh session ids, a submit call that returns `0` returns the first 2047 bytes of the
payload of a TaskResponse for its own session, handled after the call made its row. -/
theorem submit_returns_own_response {l : CStr 63} {c : ℤ} {acts : List Action} {q : Process}
    (hrun : FreshRun (Process.init l c) acts q) {k : ℕ} {res : List UInt8}
    (hk : q.calls[k]? = some (.returned 0 res)) :
    ∃ pre d u post, acts = pre ++ .submit d u :: post ∧ (pre.filter Action.isSubmit).length = k ∧
      ∃ dg, .receive dg ∈ post ∧ Responds l u dg res := by
  rcases call_cases hrun (List.getElem?_eq_some_iff.1 hk).1 with ⟨res', h'⟩ |
    ⟨pre, d, u, post, r, hacts, hpre, ht⟩
  · rw [hk] at h'; cases h'
  · refine ⟨pre, d, u, post, hacts, hpre, ?_⟩
    rcases ht.call with ⟨n, h'⟩ | h' | ⟨res', h', hresp⟩ <;> rw [hk] at h' <;> cases h'
    exact hresp

theorem Tracks.findIdx {l u : CStr 63} {k r : ℕ} {post : List Action} {q : Process}
    (ht : Tracks l k r u post q) :
    q.sys.activeTasks.findIdx (·.sessionId = u) = r := by
  obtain ⟨t, hrow, hid, -⟩ := ht.row
  obtain ⟨hlt, he⟩ := List.getElem?_eq_some_iff.1 hrow
  rw [List.findIdx_eq hlt]
  exact ⟨by simp [he, hid], fun j hj => by simpa using ht.before j _ hj (List.getElem?_eq_getElem _)⟩

/-- Only the loop's exit, with no check left, returns the timeout text. -/
theorem eq_zero_of_pollCall_timeout {s : DistributedAiSystem} {r n : ℕ}
    (h : pollCall s (.polling r n) = .returned (-1) timeoutText) : n = 0 := by
  cases n with
  | zero => rfl
  | succ n =>
    simp only [pollCall] at h
    split at h
    · split at h <;> simp at h
    · simp at h

/-- With fresh session ids, a call returns the timeout text only from the loop's exit, after its
last check, and the exit changes no state. The row of its submit is then `submitted`, or
`completed` by a TaskResponse for its session handled after the submit (during the last
`sleep(1)`); a TaskResponse for that session handled at any later point resolves the row again. -/
theorem timeout_leaves_row_open {l : CStr 63} {c : ℤ} {acts : List Action} {p q : Process}
    (hrun : FreshRun (Process.init l c) acts p) {k r n : ℕ} (hk : p.calls[k]? = some (.polling r n))
    (hstep : p.step (.poll k) = some q) (hto : q.calls[k]? = some (.returned (-1) timeoutText)) :
    n = 0 ∧ q.sys = p.sys ∧ ∃ pre d u post t, acts = pre ++ .submit d u :: post ∧
      (pre.filter Action.isSubmit).length = k ∧ q.sys.activeTasks[r]? = some t ∧ t.sessionId = u ∧
      (t.status = .submitted ∨
        t.status = .completed ∧ ∃ dg, .receive dg ∈ post ∧ Responds l u dg t.result.bytes) ∧
      ∀ acts' q', Run q acts' q' → ∀ msg now, msg.sessionId = u →
        ∃ t', q'.sys.activeTasks[r]? = some t' ∧
          (handleTaskResponse msg now q'.sys).activeTasks[r]? = some (resolvedTask msg now t') := by
  rcases call_cases hrun (List.getElem?_eq_some_iff.1 hk).1 with ⟨res, h'⟩ |
    ⟨pre, d, u, post, r', hacts, hpre, ht⟩
  · rw [hk] at h'; cases h'
  have hr : r' = r := by
    rcases ht.call with ⟨n', h'⟩ | h' | ⟨_, h', -⟩ <;> rw [hk] at h' <;> cases h'
    rfl
  subst hr
  rcases getElem?_calls_step hstep ht.call_lt with hq | ⟨-, hsys, hq⟩
  · rw [hq, hk] at hto; cases hto
  rw [hq, hk, Option.map_some', Option.some_inj] at hto
  obtain ⟨t, hrow, hid, hst⟩ := ht.row
  refine ⟨eq_zero_of_pollCall_timeout hto, hsys, pre, d, u, post, t, hacts, hpre, hsys ▸ hrow, hid, hst,
    fun acts' q' hrun' msg now hmsg => ?_⟩
  have ht' := (ht.step hstep).run hrun'
  obtain ⟨t', hrow', -⟩ := ht'.row
  refine ⟨t', hrow', ?_⟩
  rw [getElem?_handleTaskResponse, hrow', Option.map_some', hmsg, ht'.findIdx, if_pos rfl]

/-! ## Runs on fixed inputs -/

theorem pollCall_pending {s : DistributedAiSystem} {r : ℕ}
    (hrow : ∀ t, s.activeTasks[r]? = some t → t.status ≠ .completed) (n : ℕ) :
    pollCall s (.polling r (n + 1)) = .polling r n := by
  cases h : s.activeTasks[r]? with
  | none => simp [pollCall, h]
  | some t => simp [pollCall, h, hrow t h]

theorem run_polls {p : Process} {k r : ℕ}
    (hrow : ∀ t, p.sys.activeTasks[r]? = some t → t.status ≠ .completed) (m : ℕ) {n : ℕ}
    (hk : p.calls[k]? = some (.polling r (m + n))) :
    ∃ q, Run p (List.replicate m (.poll k)) q ∧ q.sys = p.sys ∧ q.calls[k]? = some (.polling r n) := by
  induction m generalizing n with
  | zero => exact ⟨p, .nil p, rfl, by simpa using hk⟩
  | succ m ih =>
    obtain ⟨q, hrun, hsys, hq⟩ := ih (n := n + 1) (by rw [hk]; congr 2; omega)
    refine ⟨{ q with calls := q.calls.modify (pollCall q.sys) k }, ?_, hsys, ?_⟩
    · rw [List.replicate_succ']
      exact hrun.snoc rfl
    · show (q.calls.modify (pollCall q.sys) k)[k]? = _
      rw [List.getElem?_modify_eq, hq, Option.map_eq_map, Option.map_some',
        pollCall_pending (hsys ▸ hrow) n]

/-- `handshakenB` after a submit of `ls` for `session-1`: row 0, and call 0 polling it. -/
def submittedB : Process := handshakenB.startCall (submitTask (ascii "ls") session1 0 handshakenB.sys)

def answeredB : Process :=
  { submittedB with sys := handleMessage (fromB .taskResponse session1 (ascii "done")) 0 submittedB.sys }

def toSubmittedB : List Action :=
  [.receive (encodeMessage (fromB .discovery CStr.empty [])),
    .receive (encodeMessage (fromB .handshake CStr.empty [])), .submit (ascii "ls") session1]

theorem freshRun_submittedB : FreshRun (Process.init idA 0) toSubmittedB submittedB := by
  have s1 : (Process.init idA 0).step (.receive (encodeMessage (fromB .discovery CStr.empty []))) =
      some discoveredB := step_receive_fromB rfl _ _ (Nat.zero_le _)
  have s2 : discoveredB.step (.receive (encodeMessage (fromB .handshake CStr.empty []))) =
      some handshakenB := step_receive_fromB rfl _ _ (Nat.zero_le _)
  have s3 : handshakenB.step (.submit (ascii "ls") session1) = some submittedB := rfl
  have h0 : handshakenB.sys.activeTasks = [] := rfl
  simpa [toSubmittedB] using (((FreshRun.nil _).snoc (by trivial) s1).snoc (by trivial) s2).snoc
    (by simp [FreshUuid, h0]) s3

def polledB : Process := { answeredB with calls := answeredB.calls.modify (pollCall answeredB.sys) 0 }

theorem submit_returns_own_response_polledB :
    ∃ pre d u post, toSubmittedB ++ [.receive (encodeMessage (fromB .taskResponse session1 (ascii "done"))),
        .poll 0] = pre ++ .submit d u :: post ∧ (pre.filter Action.isSubmit).length = 0 ∧
      ∃ dg, .receive dg ∈ post ∧ Responds idA u dg (ascii "done") := by
  have s4 : submittedB.step (.receive (encodeMessage (fromB .taskResponse session1 (ascii "done")))) =
      some answeredB := step_receive_fromB rfl _ _ (by decide)
  have s5 : answeredB.step (.poll 0) = some polledB := rfl
  exact submit_returns_own_response (freshRun_submittedB.append (((Run.nil _).snoc s4).snoc s5)
    (by simp [Action.isSubmit])) (k := 0) (by decide)

theorem polled30 : ∃ p, FreshRun (Process.init idA 0) (toSubmittedB ++ List.replicate 30 (.poll 0)) p ∧
    p.sys = submittedB.sys ∧ p.calls[0]? = some (.polling 0 0) := by
  have hrow : ∀ t, submittedB.sys.activeTasks[0]? = some t → t.status ≠ .completed := by
    rintro t ⟨⟩; decide
  obtain ⟨p, hrun, hsys, hp⟩ := run_polls hrow 30 (k := 0) (n := 0) rfl
  exact ⟨p, freshRun_submittedB.append hrun (by simp [Action.isSubmit]), hsys, hp⟩

theorem timeout_leaves_row_open_submittedB :
    ∃ p q, FreshRun (Process.init idA 0) (toSubmittedB ++ List.replicate 30 (.poll 0)) p ∧
      p.calls[0]? = some (.polling 0 0) ∧ p.step (.poll 0) = some q ∧
      q.calls[0]? = some (.returned (-1) timeoutText) ∧
      (0 = 0 ∧ q.sys = p.sys ∧ ∃ pre d u post t, toSubmittedB ++ List.replicate 30 (.poll 0) =
          pre ++ .submit d u :: post ∧ (pre.filter Action.isSubmit).length = 0 ∧
        q.sys.activeTasks[0]? = some t ∧ t.sessionId = u ∧
        (t.status = .submitted ∨
          t.status = .completed ∧ ∃ dg, .receive dg ∈ post ∧ Responds idA u dg t.result.bytes) ∧
        ∀ acts' q', Run q acts' q' → ∀ msg now, msg.sessionId = u →
          ∃ t', q'.sys.activeTasks[0]? = some t' ∧
            (handleTaskResponse msg now q'.sys).activeTasks[0]? = some (resolvedTask msg now t')) := by
  obtain ⟨p, hrun, -, hp⟩ := polled30
  have hto : (p.calls.modify (pollCall p.sys) 0)[0]? = some (.returned (-1) timeoutText) := by
    rw [List.getElem?_modify_eq, hp]; rfl
  exact ⟨p, _, hrun, hp, rfl, hto, timeout_leaves_row_open hrun hp rfl hto⟩

/-- A TaskResponse handled during the call's last sleep completes its row, the call still returns
the timeout text, and a later TaskResponse for the session replaces the row's result. -/
theorem late_response_after_timeout :
    ∃ p q, FreshRun (Process.init idA 0) (toSubmittedB ++ List.replicate 30 (.poll 0) ++
        [.receive (encodeMessage (fromB .taskResponse session1 (ascii "done"))), .poll 0]) p ∧
      p.calls[0]? = some (.returned (-1) timeoutText) ∧
      (∃ t, p.sys.activeTasks[0]? = some t ∧ t.sessionId = session1 ∧ t.status = .completed ∧
        t.result.bytes = ascii "done") ∧
      p.step (.receive (encodeMessage (fromB .taskResponse session1 (ascii "late")))) = some q ∧
      ∃ t, q.sys.activeTasks[0]? = some t ∧ t.status = .completed ∧ t.result.bytes = ascii "late" := by
  obtain ⟨p, hrun, hsys, hp⟩ := polled30
  have hloc : p.sys.localAgentId = idA := by rw [hsys]; rfl
  have s1 := @step_receive_fromB p hloc .taskResponse session1 (ascii "done") (by decide)
  set p1 := { p with sys := handleMessage (fromB .taskResponse session1 (ascii "done")) p.clock p.sys }
  have s2 : p1.step (.poll 0) = some { p1 with calls := p1.calls.modify (pollCall p1.sys) 0 } := rfl
  have hstep := @step_receive_fromB { p1 with calls := p1.calls.modify (pollCall p1.sys) 0 } hloc
    .taskResponse session1 (ascii "late") (by decide)
  refine ⟨_, _, (hrun.append ((Run.nil _).snoc s1 |>.snoc s2) (by simp [Action.isSubmit])), ?_, ?_,
    hstep, ?_⟩
  · show (p.calls.modify (pollCall p1.sys) 0)[0]? = _
    rw [List.getElem?_modify_eq, hp]; rfl
  · exact ⟨_, by simp only [p1, hsys]; rfl, rfl, rfl, rfl⟩
  · exact ⟨_, by simp only [p1, hsys]; rfl, rfl, rfl⟩

end DistributedAi
