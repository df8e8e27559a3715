import DistributedAi.Sessions
import Mathlib.Algebra.BigOperators.Group.List
import Mathlib.Algebra.Order.Ring.Nat

/-! `anbs_distributed_ai_get_status`: the report it prints into `char report[4096]` through
`snprintf(report + offset, sizeof(report) - offset, ...)`. -/
namespace DistributedAi

open JsonObject

def reportSize : ℕ := 4096

/-- The `status_str` the `switch` picks for a row. -/
def AgentStatus.text : AgentStatus → List UInt8
  | .offline => ascii "OFFLINE"
  | .discovering => ascii "DISCOVERING"
  | .connecting => ascii "CONNECTING"
  | .online => ascii "ONLINE"
  | .busy => ascii "BUSY"
  | .error => ascii "ERROR"

def TaskStatus.text : TaskStatus → List UInt8
  | .submitted => ascii "submitted"
  | .processing => ascii "processing"
  | .completed => ascii "completed"

/-- `"Agent: %s\n  Status: %s\n  Last Seen: %ld seconds ago\n  Load: %.1f%%\n\n"` for a row at
`time(NULL) = now`; `cpu_load` is written nowhere and prints as `0.0`. -/
def agentLine (now : ℤ) (a : AiAgent) : List UInt8 :=
  ascii "Agent: " ++ a.agentId.bytes ++ ascii "\n  Status: " ++ a.status.text ++
    ascii "\n  Last Seen: " ++ intDecimal (now - a.lastSeen) ++ ascii " seconds ago\n  Load: 0.0%\n\n"

/-- `"  Task %d: %s (%s)\n"` for the row at index `i`. -/
def taskLine (i : ℕ) (t : TaskSession) : List UInt8 :=
  ascii "  Task " ++ intDecimal (i + 1) ++ ascii ": " ++ t.taskDescription.bytes ++ ascii " (" ++
    t.status.text ++ ascii ")\n"

/-- The task loop from row `i` on: `for (i = 0; i < task_count && i < 10; i++)`. -/
def taskLines : ℕ → List TaskSession → List (List UInt8)
  | _, [] => []
  | i, t :: ts => if i < 10 then taskLine i t :: taskLines (i + 1) ts else []

/-- The texts of the calls before the task loop: the three headers, one per agent row, and the
task count. -/
def statusHeader (now : ℤ) (s : DistributedAiSystem) : List (List UInt8) :=
  [ascii "Distributed AI Network Status\n", ascii "Local Agent ID: " ++ s.localAgentId.bytes ++ ascii "\n",
    ascii "Connected Agents: " ++ intDecimal s.agents.length ++ ascii "\n\n"] ++
  s.agents.map (agentLine now) ++ [ascii "Active Tasks: " ++ intDecimal s.activeTasks.length ++ ascii "\n"]

/-- The text of every `snprintf` call of `get_status`, in order, with `time(NULL) = now`. -/
def statusTexts (now : ℤ) (s : DistributedAiSystem) : List (List UInt8) :=
  statusHeader now s ++ taskLines 0 s.activeTasks

/-- The value of `offset` at each call: it starts at `0` and each call adds the length of its
whole text, which `snprintf` returns whether the text fit or not. -/
def callOffsets : ℕ → List (List UInt8) → List ℕ
  | _, [] => []
  | offset, t :: ts => offset :: callOffsets (offset + t.length) ts

/-- `sizeof(report) - offset`, computed in `size_t`. -/
def sizeArg (offset : ℕ) : ℕ := (reportSize + 2 ^ 64 - offset) % 2 ^ 64

/-- `anbs_distributed_ai_get_status(&status_report)`: `none` when a call is made at an offset
past the end of `report`, where its size argument has wrapped and it writes outside the buffer;
otherwise the report `strdup` copies, the texts cut to `sizeof(report) - 1` bytes. -/
def getStatus (now : ℤ) (s : DistributedAiSystem) : Option (List UInt8) :=
  if ∀ o ∈ callOffsets 0 (statusTexts now s), o ≤ reportSize then
    some ((statusTexts now s).flatten.take (reportSize - 1))
  else none

/-! ## Offsets -/

theorem reportSize_lt_sizeArg {offset : ℕ} (h : reportSize < offset) (h' : offset < 2 ^ 64) :
    reportSize < sizeArg offset := by
  have h64 : (2 : ℕ) ^ 64 = 18446744073709551616 := rfl
  simp only [sizeArg, reportSize, h64] at *
  rw [Nat.mod_eq_of_lt (by omega)]
  omega

theorem mem_callOffsets_append (offset : ℕ) (pre : List (List UInt8)) (t : List UInt8)
    (post : List (List UInt8)) : offset + (pre.map List.length).sum ∈ callOffsets offset (pre ++ t :: post) := by
  induction pre generalizing offset with
  | nil => exact List.mem_cons_self _ _
  | cons u pre ih =>
    simp only [List.cons_append, callOffsets, List.map_cons, List.sum_cons, ← Nat.add_assoc]
    exact List.mem_cons_of_mem _ (ih _)

theorem taskLines_append (i : ℕ) (xs ys : List TaskSession) (h : i + xs.length ≤ 10) :
    taskLines i (xs ++ ys) = taskLines i xs ++ taskLines (i + xs.length) ys := by
  induction xs generalizing i with
  | nil => rfl
  | cons t xs ih =>
    simp only [List.length_cons] at h
    have hi : i < 10 := by omega
    rw [List.cons_append, taskLines, taskLines, if_pos hi, if_pos hi, ih (i + 1) (by omega),
      List.cons_append, List.length_cons, show i + 1 + xs.length = i + (xs.length + 1) by omega]

theorem length_taskLine_ge (i : ℕ) (t : TaskSession) :
    t.taskDescription.bytes.length + 23 ≤ (taskLine i t).length := by
  obtain ⟨b, r, hbr, -⟩ := intDecimal_head (i + 1)
  have hs : 9 ≤ t.status.text.length := by cases t.status <;> decide
  simp only [taskLine, hbr, List.length_append, List.length_cons]
  have : (ascii "  Task ").length = 7 ∧ (ascii ": ").length = 2 ∧ (ascii " (").length = 2 ∧
      (ascii ")\n").length = 2 := ⟨rfl, rfl, rfl, rfl⟩
  omega

/-- Task lines whose descriptions have at least `D` bytes add at least `D + 23` bytes each. -/
theorem length_taskLines_ge {D : ℕ} (i : ℕ) (ts : List TaskSession) (h : i + ts.length ≤ 10)
    (hD : ∀ t ∈ ts, D ≤ t.taskDescription.bytes.length) :
    ts.length * (D + 23) ≤ ((taskLines i ts).map List.length).sum := by
  induction ts generalizing i with
  | nil => simp
  | cons t ts ih =>
    simp only [List.length_cons] at h
    have h1 := length_taskLine_ge i t
    have h2 := ih (i + 1) (by omega) fun t' ht' => hD t' (List.mem_cons_of_mem _ ht')
    have h3 := hD t (List.mem_cons_self _ _)
    simp only [taskLines, if_pos (show i < 10 by omega), List.map_cons, List.sum_cons,
      List.length_cons, Nat.succ_mul]
    omega

/-- The call that prints row `k` of the table, `k < 10`, is made at an offset of at least
`k * (D + 23)` when the rows before it hold descriptions of at least `D` bytes. -/
theorem callOffset_taskLine_ge (now : ℤ) (s : DistributedAiSystem) {k : ℕ} (hk : k < 10)
    (hlen : k < s.activeTasks.length) {D : ℕ}
    (hD : ∀ t ∈ s.activeTasks.take k, D ≤ t.taskDescription.bytes.length) :
    ∃ o ∈ callOffsets 0 (statusTexts now s), k * (D + 23) ≤ o := by
  obtain ⟨t, rest, hrest⟩ : ∃ t rest, s.activeTasks.drop k = t :: rest :=
    List.exists_cons_of_ne_nil (by simpa using hlen)
  have htake : (s.activeTasks.take k).length = k := List.length_take_of_le hlen.le
  have hs : s.activeTasks = s.activeTasks.take k ++ t :: rest := by
    rw [← hrest, List.take_append_drop]
  have hsplit : statusTexts now s = (statusHeader now s ++ taskLines 0 (s.activeTasks.take k)) ++
      taskLine k t :: taskLines (k + 1) rest := by
    rw [statusTexts, List.append_assoc]
    congr 1
    conv_lhs => rw [hs]
    rw [taskLines_append 0 _ _ (by omega), htake, Nat.zero_add, taskLines, if_pos hk]
  refine ⟨_, hsplit ▸ mem_callOffsets_append 0 _ _ _, ?_⟩
  have := length_taskLines_ge 0 _ (by omega) hD
  simp only [List.map_append, List.sum_append, htake] at this ⊢
  omega

/-! ## Upper bounds -/

theorem le_of_mem_callOffsets {offset o : ℕ} {texts : List (List UInt8)}
    (h : o ∈ callOffsets offset texts) : o ≤ offset + (texts.map List.length).sum := by
  induction texts generalizing offset with
  | nil => exact absurd h (List.not_mem_nil _)
  | cons t ts ih =>
    rcases List.mem_cons.1 h with rfl | h
    · exact Nat.le_add_right _ _
    · have := ih h
      simp only [List.map_cons, List.sum_cons]
      omega

theorem length_intDecimal_natCast_le {n k : ℕ} (h : n < 10 ^ (k + 1)) :
    (intDecimal (n : ℤ)).length ≤ k + 1 := by
  rw [intDecimal, if_neg (by omega), Int.toNat_ofNat]
  exact length_decimalAux_le _ _ k h

/-- A task line has at most 536 bytes: a row number of at most two digits, a description of at
most 511 bytes and a status of at most 10. -/
theorem length_taskLine_le {i : ℕ} (hi : i < 10) (t : TaskSession) : (taskLine i t).length ≤ 536 := by
  have hd : (intDecimal ((i : ℤ) + 1)).length ≤ 1 + 1 := by
    exact_mod_cast @length_intDecimal_natCast_le (i + 1) 1 (by show i + 1 < 100; omega)
  have hs : t.status.text.length ≤ 10 := by cases t.status <;> decide
  have := t.taskDescription.fits
  simp only [taskLine, List.length_append]
  have : (ascii "  Task ").length = 7 ∧ (ascii ": ").length = 2 ∧ (ascii " (").length = 2 ∧
      (ascii ")\n").length = 2 := ⟨rfl, rfl, rfl, rfl⟩
  omega

theorem sum_length_taskLines_le (i : ℕ) (ts : List TaskSession) :
    ((taskLines i ts).map List.length).sum ≤ (10 - i) * 536 := by
  induction ts generalizing i with
  | nil => exact Nat.zero_le _
  | cons t ts ih =>
    simp only [taskLines]
    split
    · have := length_taskLine_le ‹_› t
      have := ih (i + 1)
      simp only [List.map_cons, List.sum_cons]
      omega
    · exact Nat.zero_le _

/-- With no agent rows the calls before the task loop print at most 150 bytes. -/
theorem sum_length_statusHeader_le (now : ℤ) {s : DistributedAiSystem} (h : s.agents = []) :
    ((statusHeader now s).map List.length).sum ≤ 150 := by
  have h1 := s.localAgentId.fits
  have h2 := @length_intDecimal_natCast_le s.activeTasks.length 2
    (by have := s.tasks_le; show _ < 1000; simp only [maxTasks] at this; omega)
  simp only [statusHeader, h, List.map_nil, List.length_nil, List.append_nil, List.map_cons,
    List.map_append, List.sum_cons, List.sum_nil, List.length_append, List.sum_append]
  have : (ascii "Distributed AI Network Status\n").length = 30 ∧ (ascii "Local Agent ID: ").length = 16 ∧
      (ascii "\n").length = 1 ∧ (ascii "Connected Agents: ").length = 18 ∧
      (intDecimal ((0 : ℕ) : ℤ)).length = 1 ∧ (ascii "\n\n").length = 2 ∧
      (ascii "Active Tasks: ").length = 14 := ⟨rfl, rfl, rfl, rfl, rfl, rfl, rfl⟩
  omega

/-! ## Ten long sessions -/

def longDescription : List UInt8 := List.replicate 511 0x61

theorem taskDescription_longDescription :
    (requestedTask (fromB .taskRequest session1 longDescription) idA 0).taskDescription.bytes.length = 511 := by
  have hnul : (0 : UInt8) ∉ longDescription := fun h => absurd (List.eq_of_mem_replicate h) (by decide)
  have hlen : longDescription.length = 511 := List.length_replicate _ _
  have hpay : (fromB .taskRequest session1 longDescription).payload.bytes = longDescription :=
    CStr.ofBytes_of_fits hnul (by rw [hlen]; decide)
  show (CStr.ofBytes 511 (fromB .taskRequest session1 longDescription).payload.bytes).bytes.length = 511
  rw [hpay, CStr.ofBytes_of_fits hnul hlen.le, hlen]

/-- Ten TaskRequests with 511-byte descriptions, from a fresh start, put the ninth task line of
the report at an offset past the end of `report`, where `sizeof(report) - offset` has wrapped:
`get_status` writes outside its buffer. -/
theorem status_report_overflows :
    ∃ p, Reachable p ∧ p.sys.agents = [] ∧ p.sys.activeTasks.length = 10 ∧
      (∀ t ∈ p.sys.activeTasks, t.taskDescription.bytes.length = 511) ∧
      (∃ o ∈ callOffsets 0 (statusTexts p.clock p.sys), reportSize < o ∧ reportSize < sizeArg o) ∧
      getStatus p.clock p.sys = none := by
  obtain ⟨q, hrun, hag, -, -, ht⟩ := run_taskRequests (p := Process.init idA 0) rfl
    (show longDescription.length ≤ 1154 by rw [longDescription, List.length_replicate]; decide) 10
    (by decide)
  have h0 : (Process.init idA 0).sys.activeTasks = [] := rfl
  rw [h0, List.nil_append] at ht
  have hlen : q.sys.activeTasks.length = 10 := by rw [ht, List.length_replicate]
  have hdesc : ∀ t ∈ q.sys.activeTasks, t.taskDescription.bytes.length = 511 := by
    intro t htm
    rw [ht] at htm
    rw [List.eq_of_mem_replicate htm]
    exact taskDescription_longDescription
  obtain ⟨o, ho, hlo⟩ := callOffset_taskLine_ge q.clock q.sys (k := 8) (by decide) (by omega)
    (D := 511) fun t htm => (hdesc t (List.mem_of_mem_take htm)).ge
  have hup : o ≤ 150 + 10 * 536 := by
    have := le_of_mem_callOffsets ho
    have := sum_length_statusHeader_le q.clock hag
    have := sum_length_taskLines_le 0 q.sys.activeTasks
    simp only [statusTexts, List.map_append, List.sum_append] at *
    omega
  have hbig : reportSize < o := by show 4096 < o; omega
  refine ⟨q, hrun.reachable (.init _ _), hag, hlen, hdesc,
    ⟨o, ho, hbig, reportSize_lt_sizeArg hbig (lt_of_le_of_lt hup (by decide))⟩, ?_⟩
  rw [getStatus, if_neg]
  exact fun hall => absurd (hall o ho) (not_le.2 hbig)

end DistributedAi
