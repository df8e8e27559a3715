import DistributedAi.Registry

/-! The locked section of `anbs_distributed_ai_submit_task` against its reference: the
selection loop picks the first of the least loaded eligible rows, the two error exits change
nothing, and otherwise exactly one row is appended and exactly one queue grows. -/
namespace DistributedAi

/-- A row the selection loop may take: Online with fewer than five queued tasks. -/
def AiAgent.Eligible (a : AiAgent) : Prop := a.status = .online ∧ a.taskQueueSize < 5

instance : DecidablePred AiAgent.Eligible := fun a =>
  inferInstanceAs (Decidable (a.status = .online ∧ a.taskQueueSize < 5))

/-- The spec's choice of agent, in its own words: row `i` holds `a`, which is eligible, no
eligible row has a shorter queue, and every eligible row before it has a longer one. -/
structure LeastLoaded (agents : List AiAgent) (i : ℕ) (a : AiAgent) : Prop where
  row : agents[i]? = some a
  eligible : a.Eligible
  minimal : ∀ (j : ℕ) (b : AiAgent), agents[j]? = some b → b.Eligible →
    a.taskQueueSize ≤ b.taskQueueSize
  first : ∀ (j : ℕ) (b : AiAgent), j < i → agents[j]? = some b → b.Eligible →
    a.taskQueueSize < b.taskQueueSize

/-- What the selection loop should hold after scanning `l`: nothing when no row of `l` is
eligible, otherwise the spec's choice among the rows of `l`. -/
def Found (l : List AiAgent) : Option (ℕ × AiAgent) → Prop
  | none => ∀ a ∈ l, ¬ a.Eligible
  | some (i, a) => LeastLoaded l i a

theorem getElem?_snoc_eq_some {α : Type} {l : List α} {a b : α} {j : ℕ} :
    (l ++ [a])[j]? = some b ↔ l[j]? = some b ∨ (j = l.length ∧ b = a) := by
  rcases Nat.lt_trichotomy j l.length with h | rfl | h
  · rw [List.getElem?_append_left h]
    exact ⟨.inl, fun h' => h'.elim id fun h'' => absurd h''.1 h.ne⟩
  · rw [List.getElem?_concat_length, List.getElem?_eq_none le_rfl]
    simp [eq_comm]
  · rw [List.getElem?_eq_none (by simp; omega), List.getElem?_eq_none h.le]
    simp only [reduceCtorEq, false_or, false_iff, not_and]
    omega

section
variable {l : List AiAgent} {a : AiAgent}

theorem LeastLoaded.snoc {i : ℕ} {b : AiAgent} (h : LeastLoaded l i b)
    (ha : a.Eligible → b.taskQueueSize ≤ a.taskQueueSize) : LeastLoaded (l ++ [a]) i b where
  row := List.getElem?_append_left (List.getElem?_eq_some_iff.1 h.row).1 ▸ h.row
  eligible := h.eligible
  minimal j c hc hce := by
    rcases getElem?_snoc_eq_some.1 hc with hc | ⟨-, rfl⟩
    · exact h.minimal j c hc hce
    · exact ha hce
  first j c hj hc hce := by
    rcases getElem?_snoc_eq_some.1 hc with hc | ⟨rfl, -⟩
    · exact h.first j c hj hc hce
    · exact absurd (lt_trans hj (List.getElem?_eq_some_iff.1 h.row).1) (lt_irrefl _)

theorem LeastLoaded.last (ha : a.Eligible)
    (below : ∀ c ∈ l, c.Eligible → a.taskQueueSize < c.taskQueueSize) :
    LeastLoaded (l ++ [a]) l.length a where
  row := List.getElem?_concat_length l a
  eligible := ha
  minimal j c hc hce := by
    rcases getElem?_snoc_eq_some.1 hc with hc | ⟨-, rfl⟩
    · exact (below c (List.getElem?_mem hc) hce).le
    · exact le_rfl
  first j c hj hc hce := by
    rcases getElem?_snoc_eq_some.1 hc with hc | ⟨rfl, -⟩
    · exact below c (List.getElem?_mem hc) hce
    · exact absurd hj (lt_irrefl _)

end

/-- The selection loop from row `pre.length` on finds the spec's choice among all rows. -/
theorem found_bestAgentFrom (pre as : List AiAgent) (best : Option (ℕ × AiAgent))
    (h : Found pre best) : Found (pre ++ as) (bestAgentFrom pre.length best as) := by
  induction as generalizing pre best with
  | nil => simpa using h
  | cons a as ih =>
    have hlen : pre.length + 1 = (pre ++ [a]).length := by simp
    rw [show pre ++ a :: as = pre ++ [a] ++ as by simp]
    rcases best with _ | ⟨j, b⟩
    · rw [bestAgentFrom, hlen]
      apply ih
      split
      · exact LeastLoaded.last ‹_› fun c hc hce => absurd hce (h c hc)
      · intro c hc
        rcases List.mem_append.1 hc with hc | hc
        · exact h c hc
        · exact List.mem_singleton.1 hc ▸ ‹¬ _›
    · have h : LeastLoaded pre j b := h
      rw [bestAgentFrom, hlen]
      apply ih
      split
      · split
        · exact LeastLoaded.last ‹_› fun c hc hce => by
            obtain ⟨k, hk⟩ := List.mem_iff_getElem?.1 hc
            exact lt_of_lt_of_le ‹_› (h.minimal k c hk hce)
        · exact h.snoc fun _ => by omega
      · exact h.snoc fun ha => absurd ha ‹_›

theorem found_bestAgent (agents : List AiAgent) : Found agents (bestAgent agents) :=
  found_bestAgentFrom [] agents none (fun _ h => absurd h (List.not_mem_nil _))

theorem LeastLoaded.unique {agents : List AiAgent} {i i' : ℕ} {a a' : AiAgent}
    (h : LeastLoaded agents i a) (h' : LeastLoaded agents i' a') : i = i' ∧ a = a' := by
  have hle := h.minimal i' a' h'.row h'.eligible
  have hle' := h'.minimal i a h.row h.eligible
  rcases Nat.lt_trichotomy i i' with hlt | rfl | hlt
  · exact absurd (h'.first i a hlt h.row h.eligible) (not_lt.2 hle)
  · exact ⟨rfl, Option.some.inj (h.row.symm.trans h'.row)⟩
  · exact absurd (h.first i' a' hlt h'.row h'.eligible) (not_lt.2 hle')

/-- The selection loop computes the spec's choice. -/
theorem bestAgent_eq_some_iff {agents : List AiAgent} {i : ℕ} {a : AiAgent} :
    bestAgent agents = some (i, a) ↔ LeastLoaded agents i a := by
  have hf := found_bestAgent agents
  refine ⟨fun hb => by rw [hb] at hf; exact hf, fun h => ?_⟩
  match hb : bestAgent agents, hf with
  | none, hf => exact absurd h.eligible (hf a (List.getElem?_mem h.row))
  | some (i', a'), hf => obtain ⟨rfl, rfl⟩ := LeastLoaded.unique hf h; rfl

/-- The selection loop finds nothing exactly when no row is eligible. -/
theorem bestAgent_eq_none_iff {agents : List AiAgent} :
    bestAgent agents = none ↔ ∀ a ∈ agents, ¬ a.Eligible := by
  have hf := found_bestAgent agents
  refine ⟨fun hb => by rw [hb] at hf; exact hf, fun h => ?_⟩
  match hb : bestAgent agents, hf with
  | none, _ => rfl
  | some (_, a), hf => exact absurd (LeastLoaded.eligible hf) (h a (List.getElem?_mem hf.row))

/-! ## The locked section against its reference -/

section
variable {d : List UInt8} {u : CStr 63} {now : ℤ} {s : DistributedAiSystem}

theorem submitTask_of_none (h : ∀ a ∈ s.agents, ¬ a.Eligible) :
    submitTask d u now s = .failed noAgentsText := by
  simp only [submitTask, bestAgent_eq_none_iff.2 h]

theorem submitTask_of_full {i : ℕ} {a : AiAgent} (hb : bestAgent s.agents = some (i, a))
    (hfull : maxTasks ≤ s.activeTasks.length) : submitTask d u now s = .failed queueFullText := by
  simp only [submitTask, hb, dif_neg (not_lt.2 hfull)]

theorem bestAgent_of_eligible {a : AiAgent} (ha : a ∈ s.agents) (hae : a.Eligible) :
    ∃ i b, bestAgent s.agents = some (i, b) := by
  match hb : bestAgent s.agents with
  | none => exact absurd hae (bestAgent_eq_none_iff.1 hb a ha)
  | some (i, b) => exact ⟨i, b, rfl⟩

end

/-- `anbs_distributed_ai_submit_task` up to its wait loop, against its reference: with no
eligible row, and with a full table, it returns -1 and changes neither table; otherwise it
takes the first of the least loaded eligible rows, appends one `submitted` row assigned to
that agent with the first 511 bytes of the description and the session id `uuid_generate`
gave, adds one to that row's queue, and changes nothing else. -/
theorem submit_matches_reference (p : Process) (d : List UInt8) (u : CStr 63) :
    ((∀ a ∈ p.sys.agents, ¬ a.Eligible) →
      p.step (.submit d u) = some { p with calls := p.calls ++ [.returned (-1) noAgentsText] }) ∧
    ((∃ a ∈ p.sys.agents, a.Eligible) → maxTasks ≤ p.sys.activeTasks.length →
      p.step (.submit d u) = some { p with calls := p.calls ++ [.returned (-1) queueFullText] }) ∧
    ((∃ a ∈ p.sys.agents, a.Eligible) → p.sys.activeTasks.length < maxTasks →
      ∃ i a q, LeastLoaded p.sys.agents i a ∧ p.step (.submit d u) = some q ∧
        q.sys.agents.length = p.sys.agents.length ∧
        q.sys.agents[i]? = some { a with taskQueueSize := a.taskQueueSize + 1 } ∧
        (∀ j, j ≠ i → q.sys.agents[j]? = p.sys.agents[j]?) ∧
        (∃ t, q.sys.activeTasks = p.sys.activeTasks ++ [t] ∧ t.status = .submitted ∧
          t.assignedAgent = a.agentId ∧ t.taskDescription.bytes = (CStr.prefixOf d).take 511 ∧
          t.sessionId = u) ∧
        q.sys.localAgentId = p.sys.localAgentId ∧ q.clock = p.clock ∧
        q.calls = p.calls ++ [.polling p.sys.activeTasks.length 30]) := by
  refine ⟨fun h => ?_, fun ⟨a, ha, hae⟩ hfull => ?_, fun ⟨a, ha, hae⟩ hroom => ?_⟩
  · show some (p.startCall _) = _
    rw [submitTask_of_none h]; rfl
  · obtain ⟨i, b, hb⟩ := bestAgent_of_eligible ha hae
    show some (p.startCall _) = _
    rw [submitTask_of_full hb hfull]; rfl
  · cases hst : submitTask d u p.clock p.sys with
    | failed r =>
      obtain ⟨i, b, hb⟩ := bestAgent_of_eligible ha hae
      simp only [submitTask, hb, dif_pos hroom, reduceCtorEq] at hst
    | started row s' sent =>
      obtain ⟨i, b, hb, -, rfl, hag, htasks, hloc⟩ := submitTask_started hst
      have hl := bestAgent_eq_some_iff.1 hb
      refine ⟨i, b, p.startCall (.started _ s' sent), hl, by rw [← hst]; rfl, ?_, ?_, ?_,
        ⟨_, htasks, rfl, ofBytes_bytes_self _, rfl, rfl⟩, hloc, rfl, rfl⟩
      · simp only [Process.startCall, hag, List.length_modify]
      · simp only [Process.startCall, hag, List.getElem?_modify_eq, hl.row]; rfl
      · intro j hj
        simp only [Process.startCall, hag, List.getElem?_modify_ne _ _ (Ne.symm hj)]

theorem submit_matches_reference_handshakenB :
    (∃ a ∈ handshakenB.sys.agents, a.Eligible) ∧ handshakenB.sys.activeTasks.length < maxTasks ∧
      ∃ i a q, LeastLoaded handshakenB.sys.agents i a ∧
        handshakenB.step (.submit (ascii "ls") session1) = some q ∧
        q.sys.agents[i]? = some { a with taskQueueSize := a.taskQueueSize + 1 } := by
  have he : ∃ a ∈ handshakenB.sys.agents, a.Eligible := by decide
  have hr : handshakenB.sys.activeTasks.length < maxTasks := by decide
  obtain ⟨i, a, q, hl, hs, -, hi, -⟩ :=
    (submit_matches_reference handshakenB (ascii "ls") session1).2.2 he hr
  exact ⟨he, hr, i, a, q, hl, hs, hi⟩

end DistributedAi
