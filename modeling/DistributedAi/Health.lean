import DistributedAi.Accounting
import Mathlib.Data.List.Perm.Subperm

/-! The health panel of the display (health_monitor.c) and the display loop of
`coordination_thread`, whose passes interleave with the other threads. Every slot with an id
lies below `health_agent_count` and holds a registry id, none in two slots. -/
namespace DistributedAi

/-- `health_data_t`, without its `float` fields `cpu_load`, `memory_usage` and `success_rate`,
which the functions modelled here copy and never compare. -/
structure HealthData where
  agentId : CStr 63
  online : Bool
  latencyMs : ℤ
  commandsProcessed : ℤ
  lastUpdate : ℤ
  deriving DecidableEq

def HealthData.zero : HealthData := ⟨CStr.empty, false, 0, 0, 0⟩

/-- The health fields of `anbs_display_t`: `health_data[10]`, and `health_agent_count`, an `int`
that no call makes negative. -/
structure HealthTable where
  healthData : List HealthData
  length_healthData : healthData.length = 10
  healthAgentCount : ℕ

/-- What `anbs_display_init` leaves: `calloc`, then each slot's id `""` and `online` false. -/
def HealthTable.init : HealthTable := ⟨List.replicate 10 .zero, rfl, 0⟩

/-! ## The calls -/

/-- The loop of `anbs_health_update` from slot `i`, with the empty slot found so far (`slot ==
-1` is `none`): a slot holding `id` ends the scan, else the first empty slot is kept. -/
def findSlotFrom (id : CStr 63) : ℕ → Option ℕ → List HealthData → Option ℕ
  | _, slot, [] => slot
  | i, slot, h :: hs =>
    if h.agentId = id then some i
    else if h.agentId.bytes = [] ∧ slot = none then findSlotFrom id (i + 1) (some i) hs
    else findSlotFrom id (i + 1) slot hs

/-- `anbs_health_update(display, data)` at time `now`; `none` is its `return -1` when no slot is
found, the table unchanged. The refresh it ends with writes no field of the table. -/
def healthUpdate (now : ℤ) (data : HealthData) (t : HealthTable) : Option HealthTable :=
  (findSlotFrom data.agentId 0 none t.healthData).map fun slot =>
    ⟨t.healthData.set slot { data with lastUpdate := now }, by simp [t.length_healthData],
      if slot ≥ t.healthAgentCount then slot + 1 else t.healthAgentCount⟩

/-- `anbs_health_remove_agent(display, agent_id)`: the first slot below `health_agent_count`
holding `id` is zeroed, and the count drops by one when it was the last counted slot; `none` is
the `return -1` of an id not found. -/
def healthRemoveAgent (id : CStr 63) (t : HealthTable) : Option HealthTable :=
  ((t.healthData.take t.healthAgentCount).findIdx? (·.agentId = id)).map fun i =>
    ⟨t.healthData.set i .zero, by simp [t.length_healthData],
      if i = t.healthAgentCount - 1 then t.healthAgentCount - 1 else t.healthAgentCount⟩

def healthClearAll (_ : HealthTable) : HealthTable := ⟨List.replicate 10 .zero, rfl, 0⟩

/-- The counts `anbs_health_get_summary` returns at time `now`: `online_count`, the slots with
an id below `health_agent_count` that are online and were updated at most 30 seconds ago, and
`total_count`, all slots with an id below it. -/
def healthSummary (now : ℤ) (t : HealthTable) : ℕ × ℕ :=
  let counted := (t.healthData.take t.healthAgentCount).filter (·.agentId.bytes ≠ [])
  ((counted.filter fun h => h.online ∧ now - h.lastUpdate ≤ 30).length, counted.length)

inductive HealthCall
  | update (now : ℤ) (data : HealthData)
  | removeAgent (id : CStr 63)
  | clearAll

def HealthTable.apply (t : HealthTable) : HealthCall → HealthTable
  | .update now data => (healthUpdate now data t).getD t
  | .removeAgent id => (healthRemoveAgent id t).getD t
  | .clearAll => healthClearAll t

/-- The table after the calls `calls`, from the one `anbs_display_init` leaves. -/
def HealthTable.afterCalls (calls : List HealthCall) : HealthTable :=
  calls.foldl HealthTable.apply .init

/-! ## The slot search -/

/-- The scan takes the first slot holding the id, else the first empty slot. -/
theorem findSlotFrom_eq (id : CStr 63) (i : ℕ) (slot : Option ℕ) (l : List HealthData) :
    findSlotFrom id i slot l =
      (l.findIdx? (·.agentId = id) i).or (slot.or (l.findIdx? (·.agentId.bytes = []) i)) := by
  induction l generalizing i slot with
  | nil => cases slot <;> rfl
  | cons h hs ih =>
    simp only [findSlotFrom, List.findIdx?_cons, ih]
    by_cases hm : h.agentId = id
    · simp [hm]
    · by_cases he : h.agentId.bytes = [] <;> cases slot <;> simp [hm, he]

/-- The slot `anbs_health_update` writes holds the id already, or is empty and no slot holds
the id. -/
theorem findSlot_some {id : CStr 63} {l : List HealthData} {s : ℕ}
    (h : findSlotFrom id 0 none l = some s) :
    ∃ x, l[s]? = some x ∧ (x.agentId = id ∨ x.agentId.bytes = [] ∧ ∀ y ∈ l, y.agentId ≠ id) := by
  rw [findSlotFrom_eq, Option.none_or] at h
  cases hm : l.findIdx? (·.agentId = id) with
  | some k =>
    rw [hm, Option.or_some, Option.some.injEq] at h
    subst h
    obtain ⟨hk, hp, -⟩ := List.findIdx?_eq_some_iff_getElem.1 hm
    exact ⟨_, List.getElem?_eq_getElem hk, .inl (of_decide_eq_true hp)⟩
  | none =>
    rw [hm, Option.none_or] at h
    obtain ⟨hk, hp, -⟩ := List.findIdx?_eq_some_iff_getElem.1 h
    exact ⟨_, List.getElem?_eq_getElem hk, .inr ⟨of_decide_eq_true hp,
      fun y hy => of_decide_eq_false (List.findIdx?_eq_none_iff.1 hm y hy)⟩⟩

theorem findSlot_isSome {id : CStr 63} {l : List HealthData}
    (h : ∃ y ∈ l, y.agentId = id ∨ y.agentId.bytes = []) : (findSlotFrom id 0 none l).isSome := by
  obtain ⟨y, hy, h⟩ := h
  simp only [findSlotFrom_eq, Option.none_or, Option.isSome_or, List.findIdx?_isSome,
    Bool.or_eq_true, List.any_eq_true, decide_eq_true_eq]
  exact h.imp (⟨y, hy, ·⟩) (⟨y, hy, ·⟩)

theorem getElem?_set_eq_some {α : Type} {l : List α} {s i : ℕ} {v y : α}
    (h : (l.set s v)[i]? = some y) : (i = s ∧ y = v) ∨ (i ≠ s ∧ l[i]? = some y) := by
  rw [List.getElem?_set] at h
  split_ifs at h with h₁
  · exact .inl ⟨h₁.symm, (Option.some.inj h).symm⟩
  · exact .inr ⟨Ne.symm h₁, h⟩

/-! ## The table invariant -/

/-- Every slot with an id lies below `health_agent_count`, which is at most ten, and no id is in
two slots. -/
structure HealthInv (t : HealthTable) : Prop where
  count_le : t.healthAgentCount ≤ 10
  empty_above : ∀ (i : ℕ) (h : HealthData), t.healthData[i]? = some h → t.healthAgentCount ≤ i →
    h.agentId.bytes = []
  unique : ∀ (i j : ℕ) (h h' : HealthData), t.healthData[i]? = some h → t.healthData[j]? = some h' →
    h.agentId = h'.agentId → h.agentId.bytes ≠ [] → i = j

section
variable {t t' : HealthTable}

theorem HealthInv.zeros : HealthInv ⟨List.replicate 10 .zero, rfl, 0⟩ := by
  have hz : ∀ (i : ℕ) (h : HealthData), (List.replicate 10 HealthData.zero)[i]? = some h →
      h.agentId.bytes = [] :=
    fun _ _ hi => by rw [List.eq_of_mem_replicate (List.getElem?_mem hi)]; rfl
  exact ⟨by decide, fun i h hi _ => hz i h hi, fun i _ h _ hi _ _ hne => absurd (hz i h hi) hne⟩

theorem HealthInv.lt_count (hi : HealthInv t) {i : ℕ} {y : HealthData}
    (hy : t.healthData[i]? = some y) (hne : y.agentId.bytes ≠ []) : i < t.healthAgentCount :=
  Nat.lt_of_not_le fun hle => hne (hi.empty_above i y hy hle)

theorem HealthInv.update (hi : HealthInv t) {now : ℤ} {data : HealthData}
    (h : healthUpdate now data t = some t') : HealthInv t' := by
  obtain ⟨s, hs, rfl⟩ := Option.map_eq_some'.1 h
  obtain ⟨x, hx, hxs⟩ := findSlot_some hs
  have hslt : s < 10 := t.length_healthData ▸ (List.getElem?_eq_some_iff.1 hx).1
  have hc := hi.count_le
  have hother : ∀ j y, j ≠ s → t.healthData[j]? = some y → y.agentId = data.agentId →
      y.agentId.bytes = [] := by
    intro j y hj hy hid
    by_contra hne
    rcases hxs with hxid | ⟨-, hnone⟩
    · exact hj (hi.unique j s y x hy hx (hid.trans hxid.symm) hne)
    · exact hnone y (List.getElem?_mem hy) hid
  refine ⟨?_, fun i y hy hle => ?_, fun i j y y' hy hy' hid hne => ?_⟩
  · dsimp only; split <;> omega
  · have hle' : t.healthAgentCount ≤ i ∧ s < i := by dsimp only at hle; split at hle <;> omega
    rw [List.getElem?_set_ne (by omega)] at hy
    exact hi.empty_above i y hy hle'.1
  · rcases getElem?_set_eq_some hy with ⟨rfl, rfl⟩ | ⟨his, hy₀⟩ <;>
      rcases getElem?_set_eq_some hy' with ⟨rfl, rfl⟩ | ⟨hjs, hy₀'⟩
    · rfl
    · exact absurd (hid ▸ hother j y' hjs hy₀' hid.symm) hne
    · exact absurd (hother i y his hy₀ hid) hne
    · exact hi.unique i j y y' hy₀ hy₀' hid hne

theorem HealthInv.removeAgent (hi : HealthInv t) {id : CStr 63}
    (h : healthRemoveAgent id t = some t') : HealthInv t' := by
  obtain ⟨k, hk, rfl⟩ := Option.map_eq_some'.1 h
  have hkc : k < t.healthAgentCount :=
    lt_of_lt_of_le (List.findIdx?_eq_some_iff_getElem.1 hk).1 (List.length_take_le _ _)
  have hc := hi.count_le
  refine ⟨?_, fun i y hy hle => ?_, fun i j y y' hy hy' hid hne => ?_⟩
  · dsimp only; split <;> omega
  · rcases getElem?_set_eq_some hy with ⟨-, rfl⟩ | ⟨hik, hy₀⟩
    · rfl
    · exact hi.empty_above i y hy₀ (by dsimp only at hle; split at hle <;> omega)
  · rcases getElem?_set_eq_some hy with ⟨-, rfl⟩ | ⟨-, hy₀⟩
    · exact absurd rfl hne
    · rcases getElem?_set_eq_some hy' with ⟨-, rfl⟩ | ⟨-, hy₀'⟩
      · exact absurd (by rw [hid]; rfl) hne
      · exact hi.unique i j y y' hy₀ hy₀' hid hne

theorem HealthInv.apply (hi : HealthInv t) : ∀ c : HealthCall, HealthInv (t.apply c)
  | .update now data => by
    cases h : healthUpdate now data t
    · simpa [HealthTable.apply, h] using hi
    · simpa [HealthTable.apply, h] using hi.update h
  | .removeAgent id => by
    cases h : healthRemoveAgent id t
    · simpa [HealthTable.apply, h] using hi
    · simpa [HealthTable.apply, h] using hi.removeAgent h
  | .clearAll => HealthInv.zeros

theorem healthInv_foldl (calls : List HealthCall) :
    ∀ {t : HealthTable}, HealthInv t → HealthInv (calls.foldl HealthTable.apply t) := by
  induction calls with
  | nil => exact id
  | cons c _ ih => exact fun hi => ih (hi.apply c)

theorem healthInv_afterCalls (calls : List HealthCall) : HealthInv (HealthTable.afterCalls calls) :=
  healthInv_foldl calls HealthInv.zeros

/-- With the invariant, `anbs_health_remove_agent` finds an id exactly when a slot holds it. -/
theorem HealthInv.removeAgent_isSome (hi : HealthInv t) {id : CStr 63} (hid : id.bytes ≠ []) :
    (healthRemoveAgent id t).isSome ↔ ∃ y ∈ t.healthData, y.agentId = id := by
  simp only [healthRemoveAgent, Option.isSome_map', List.findIdx?_isSome, List.any_eq_true,
    decide_eq_true_eq]
  refine ⟨fun ⟨y, hy, h⟩ => ⟨y, List.mem_of_mem_take hy, h⟩, fun ⟨y, hy, h⟩ => ?_⟩
  obtain ⟨i, hyi⟩ := List.getElem?_of_mem hy
  have hlt := hi.lt_count hyi (h ▸ hid)
  exact ⟨y, List.getElem?_mem (by rw [List.getElem?_take_of_lt hlt]; exact hyi), h⟩

/-- With the invariant, no slot holds the id `anbs_health_remove_agent` removed. -/
theorem HealthInv.not_mem_removeAgent (hi : HealthInv t) {id : CStr 63} (hid : id.bytes ≠ [])
    (h : healthRemoveAgent id t = some t') : ∀ y ∈ t'.healthData, y.agentId ≠ id := by
  obtain ⟨k, hk, rfl⟩ := Option.map_eq_some'.1 h
  obtain ⟨hkl, hp, -⟩ := List.findIdx?_eq_some_iff_getElem.1 hk
  have hxk : t.healthData[k]? = some (t.healthData.take t.healthAgentCount)[k] := by
    rw [← List.getElem?_take_of_lt (lt_of_lt_of_le hkl (List.length_take_le _ _)),
      List.getElem?_eq_getElem hkl]
  intro y hy hyid
  obtain ⟨i, hyi⟩ := List.getElem?_of_mem hy
  rcases getElem?_set_eq_some hyi with ⟨-, rfl⟩ | ⟨hik, hyi⟩
  · exact hid (hyid ▸ rfl)
  · exact hik (hi.unique i k y _ hyi hxk (hyid.trans (of_decide_eq_true hp).symm) (hyid ▸ hid))

theorem HealthInv.counted_eq (hi : HealthInv t) :
    (t.healthData.take t.healthAgentCount).filter (·.agentId.bytes ≠ []) =
      t.healthData.filter (·.agentId.bytes ≠ []) := by
  conv_rhs => rw [← List.take_append_drop t.healthAgentCount t.healthData]
  have hdrop : (t.healthData.drop t.healthAgentCount).filter (·.agentId.bytes ≠ []) = [] := by
    refine List.filter_eq_nil_iff.2 fun y hy => ?_
    obtain ⟨i, hyi⟩ := List.getElem?_of_mem hy
    rw [List.getElem?_drop] at hyi
    simpa using hi.empty_above _ y hyi (Nat.le_add_right _ _)
  rw [List.filter_append, hdrop, List.append_nil]

/-- With the invariant, `total_count` of `anbs_health_get_summary` counts every slot with an
id. -/
theorem HealthInv.summary_total (hi : HealthInv t) (now : ℤ) :
    (healthSummary now t).2 = (t.healthData.filter (·.agentId.bytes ≠ [])).length :=
  congrArg List.length hi.counted_eq

end

/-- From the table `anbs_display_init` leaves, after any calls: at most ten slots are counted,
no id is in two slots, `anbs_health_remove_agent` finds every id a slot holds and leaves no slot
holding it, and `total_count` counts every slot with an id. -/
theorem health_table_sound (calls : List HealthCall) :
    (HealthTable.afterCalls calls).healthAgentCount ≤ 10 ∧
    (∀ (i j : ℕ) (h h' : HealthData), (HealthTable.afterCalls calls).healthData[i]? = some h →
      (HealthTable.afterCalls calls).healthData[j]? = some h' → h.agentId = h'.agentId →
      h.agentId.bytes ≠ [] → i = j) ∧
    (∀ id : CStr 63, id.bytes ≠ [] →
      ((healthRemoveAgent id (HealthTable.afterCalls calls)).isSome ↔
        ∃ y ∈ (HealthTable.afterCalls calls).healthData, y.agentId = id) ∧
      ∀ t', healthRemoveAgent id (HealthTable.afterCalls calls) = some t' →
        ∀ y ∈ t'.healthData, y.agentId ≠ id) ∧
    ∀ now, (healthSummary now (HealthTable.afterCalls calls)).2 =
      ((HealthTable.afterCalls calls).healthData.filter (·.agentId.bytes ≠ [])).length :=
  have hi := healthInv_afterCalls calls
  ⟨hi.count_le, hi.unique, fun _ hid => ⟨hi.removeAgent_isSome hid,
    fun _ h => hi.not_mem_removeAgent hid h⟩, hi.summary_total⟩

/-! ## The display loop of `coordination_thread` -/

/-- The `health_data_t` the display loop builds for a row; `anbs_health_update` then stamps
it with the time. -/
def rowHealth (a : AiAgent) : HealthData :=
  { agentId := CStr.ofBytes 63 a.agentId.bytes
    online := decide (a.status = .online)
    latencyMs := 50
    commandsProcessed := 0
    lastUpdate := a.lastSeen }

@[simp] theorem agentId_rowHealth (a : AiAgent) : (rowHealth a).agentId = a.agentId :=
  ofBytes_bytes_self a.agentId

/-- Every slot with an id holds an id of `S`. -/
def Known (S : List (CStr 63)) (t : HealthTable) : Prop :=
  ∀ y ∈ t.healthData, y.agentId.bytes ≠ [] → y.agentId ∈ S

def Slotted (t : HealthTable) (id : CStr 63) : Prop := ∃ y ∈ t.healthData, y.agentId = id

section
variable {now : ℤ} {data : HealthData} {S : List (CStr 63)} {t t' : HealthTable}

/-- When at most ten ids can be in the table, one of them not yet in it finds an empty slot. -/
theorem exists_free_slot (hi : HealthInv t) (hk : Known S t) (hlen : S.length ≤ 10)
    {id : CStr 63} (hid : id ∈ S) : ∃ y ∈ t.healthData, y.agentId = id ∨ y.agentId.bytes = [] := by
  by_contra hc
  push_neg at hc
  have hnd : (t.healthData.map (·.agentId)).Nodup := by
    rw [List.nodup_iff_getElem?_ne_getElem?]
    intro i j hij hj heq
    rw [List.length_map] at hj
    rw [List.getElem?_map, List.getElem?_map, List.getElem?_eq_getElem (hij.trans hj),
      List.getElem?_eq_getElem hj] at heq
    exact hij.ne (hi.unique i j _ _ (List.getElem?_eq_getElem _) (List.getElem?_eq_getElem hj)
      (Option.some.inj heq) (hc _ (List.getElem_mem _)).2)
  have hsub : t.healthData.map (·.agentId) ⊆ S.erase id := by
    intro z hz
    obtain ⟨y, hy, rfl⟩ := List.mem_map.1 hz
    exact (List.mem_erase_of_ne (hc y hy).1).2 (hk y hy (hc y hy).2)
  have := (hnd.subperm hsub).length_le
  rw [List.length_map, t.length_healthData, List.length_erase_of_mem hid] at this
  omega

theorem healthUpdate_isSome (hi : HealthInv t) (hk : Known S t) (hlen : S.length ≤ 10)
    (hid : data.agentId ∈ S) : (healthUpdate now data t).isSome := by
  rw [healthUpdate, Option.isSome_map']
  exact findSlot_isSome (exists_free_slot hi hk hlen hid)

theorem Known.update (hk : Known S t) (hid : data.agentId ∈ S)
    (h : healthUpdate now data t = some t') : Known S t' := by
  obtain ⟨s, -, rfl⟩ := Option.map_eq_some'.1 h
  intro y hy hne
  obtain ⟨i, hyi⟩ := List.getElem?_of_mem hy
  rcases getElem?_set_eq_some hyi with ⟨-, rfl⟩ | ⟨-, hyi⟩
  · exact hid
  · exact hk y (List.getElem?_mem hyi) hne

theorem Known.mono (hk : Known S t) {S' : List (CStr 63)} (h : S ⊆ S') : Known S' t :=
  fun y hy hne => h (hk y hy hne)

theorem slotted_update (h : healthUpdate now data t = some t') : Slotted t' data.agentId := by
  obtain ⟨s, hs, rfl⟩ := Option.map_eq_some'.1 h
  obtain ⟨x, hx, -⟩ := findSlot_some hs
  exact ⟨_, List.getElem?_mem (List.getElem?_set_self (List.getElem?_eq_some_iff.1 hx).1), rfl⟩

theorem healthUpdate_keeps (h : healthUpdate now data t = some t') {k : ℕ} {y : HealthData}
    (hy : t.healthData[k]? = some y) (hne : y.agentId.bytes ≠ []) (hid : y.agentId ≠ data.agentId) :
    t'.healthData[k]? = some y := by
  obtain ⟨s, hs, rfl⟩ := Option.map_eq_some'.1 h
  obtain ⟨x, hx, hxs⟩ := findSlot_some hs
  have hks : s ≠ k := by
    rintro rfl
    obtain rfl : x = y := Option.some.inj (hx.symm.trans hy)
    exact hxs.elim hid fun h' => hne h'.1
  exact (List.getElem?_set_ne hks).trans hy

theorem Slotted.update (h : healthUpdate now data t = some t') {id : CStr 63} (hs : Slotted t id)
    (hne : id.bytes ≠ []) : Slotted t' id := by
  by_cases hid : id = data.agentId
  · exact hid ▸ slotted_update h
  · obtain ⟨y, hy, rfl⟩ := hs
    obtain ⟨k, hk⟩ := List.getElem?_of_mem hy
    exact ⟨y, List.getElem?_mem (healthUpdate_keeps h hk hne hid), rfl⟩

end

/-! ## A process with a display -/

/-- A process started with a display: the process, the display's health panel, and where
`coordination_thread` is in its display loop, which runs after `agents_mutex` is released:
`some i` at the test `i < agent_count` of pass `i`, `none` outside the loop. -/
structure Displayed where
  proc : Process
  health : HealthTable
  loop : Option ℕ

inductive DisplayAction
  | proc (a : Action)
  | display

/-- One step; `none` when the step cannot be taken in that state or runs into undefined
behaviour. A coordination round starts only outside the display loop and enters it. A pass reads
row `i` as the registry holds it then and calls `anbs_health_update` for it, its result ignored;
with no row `i` the loop ends. -/
def Displayed.step (x : Displayed) : DisplayAction → Option Displayed
  | .proc .coordinate =>
    match x.loop with
    | none => (x.proc.step .coordinate).map fun q => ⟨q, x.health, some 0⟩
    | some _ => none
  | .proc a => (x.proc.step a).map fun q => ⟨q, x.health, x.loop⟩
  | .display =>
    match x.loop with
    | none => none
    | some i =>
      match x.proc.sys.agents[i]? with
      | some r => some ⟨x.proc, x.health.apply (.update x.proc.clock (rowHealth r)), some (i + 1)⟩
      | none => some ⟨x.proc, x.health, none⟩

inductive Displayed.Reachable : Displayed → Prop
  | init (localAgentId : CStr 63) (clock : ℤ) :
      Reachable ⟨Process.init localAgentId clock, .init, none⟩
  | step {x y : Displayed} {a : DisplayAction} : Reachable x → x.step a = some y → Reachable y

section
variable {x y : Displayed} {da : DisplayAction}

/-- Every step: one of the process, which leaves the panel and enters the display loop or keeps
its position; a pass over a row; or the end of the loop. -/
theorem Displayed.step_cases (h : x.step da = some y) :
    (∃ a, da = .proc a ∧ x.proc.step a = some y.proc ∧ y.health = x.health ∧
      (y.loop = x.loop ∨ y.loop = some 0)) ∨
    (∃ i r, da = .display ∧ x.loop = some i ∧ x.proc.sys.agents[i]? = some r ∧ y.proc = x.proc ∧
      y.health = x.health.apply (.update x.proc.clock (rowHealth r)) ∧ y.loop = some (i + 1)) ∨
    (∃ i, da = .display ∧ x.loop = some i ∧ x.proc.sys.agents[i]? = none ∧ y.proc = x.proc ∧
      y.health = x.health ∧ y.loop = none) := by
  rcases da with a | _
  · refine .inl ⟨a, rfl, ?_⟩
    cases a
    case coordinate =>
      simp only [Displayed.step] at h
      split at h
      · obtain ⟨q, hq, rfl⟩ := Option.map_eq_some'.1 h
        exact ⟨hq, rfl, .inr rfl⟩
      · cases h
    all_goals
      simp only [Displayed.step] at h
      obtain ⟨q, hq, rfl⟩ := Option.map_eq_some'.1 h
      exact ⟨hq, rfl, .inl rfl⟩
  · simp only [Displayed.step] at h
    split at h
    · cases h
    · split at h <;> cases h
      · exact .inr (.inl ⟨_, _, rfl, ‹_›, ‹_›, rfl, rfl, rfl⟩)
      · exact .inr (.inr ⟨_, rfl, ‹_›, ‹_›, rfl, rfl, rfl⟩)

theorem Displayed.Reachable.proc (hx : x.Reachable) : DistributedAi.Reachable x.proc := by
  induction hx with
  | init l c => exact .init l c
  | step _ h ih =>
    rcases Displayed.step_cases h with ⟨_, -, hq, -⟩ | ⟨_, _, -, -, -, hp, -⟩ | ⟨_, -, -, -, hp, -⟩
    · exact .step ih hq
    · exact hp ▸ ih
    · exact hp ▸ ih

/-- The panel's invariant in a running process: the table invariant, every slot with an id holds
a registry id, and within the display loop every row it has passed has a slot with its id. -/
structure PanelInv (x : Displayed) : Prop where
  table : HealthInv x.health
  known : Known x.proc.sys.ids x.health
  loop_le : ∀ i, x.loop = some i → i ≤ x.proc.sys.ids.length
  shown : ∀ i, x.loop = some i → ∀ id ∈ x.proc.sys.ids.take i, id.bytes ≠ [] → Slotted x.health id

theorem PanelInv.init (l : CStr 63) (c : ℤ) : PanelInv ⟨Process.init l c, .init, none⟩ :=
  ⟨HealthInv.zeros, fun y hy hne => absurd (by rw [List.eq_of_mem_replicate hy]; rfl) hne, nofun, nofun⟩

theorem PanelInv.proc (hi : PanelInv x) {a : Action} (hq : x.proc.step a = some y.proc)
    (hh : y.health = x.health) (hl : y.loop = x.loop ∨ y.loop = some 0) : PanelInv y := by
  obtain ⟨tl, htl⟩ := ids_prefix_step hq
  have hlen : x.proc.sys.ids.length ≤ y.proc.sys.ids.length := by simp [← htl]
  refine ⟨hh ▸ hi.table, hh ▸ hi.known.mono (ids_prefix_step hq).subset, fun i hyi => ?_,
    fun i hyi id hid hne => ?_⟩
  · rcases hl with hl | hl
    · exact (hi.loop_le i (hl ▸ hyi)).trans hlen
    · rw [hl, Option.some.injEq] at hyi; omega
  · rcases hl with hl | hl
    · rw [← htl, List.take_append_of_le_length (hi.loop_le i (hl ▸ hyi))] at hid
      exact hh ▸ hi.shown i (hl ▸ hyi) id hid hne
    · rw [hl, Option.some.injEq] at hyi
      subst hyi
      simp at hid

/-- A pass of the display loop keeps the panel's invariant: its update is never refused. -/
theorem PanelInv.pass (hi : PanelInv x) {i : ℕ} {r : AiAgent}
    (hxi : x.loop = some i) (hri : x.proc.sys.agents[i]? = some r) :
    ∃ t₁, healthUpdate x.proc.clock (rowHealth r) x.health = some t₁ ∧
      PanelInv ⟨x.proc, t₁, some (i + 1)⟩ := by
  have hid : (rowHealth r).agentId ∈ x.proc.sys.ids := by
    rw [agentId_rowHealth]; exact List.mem_map_of_mem _ (List.getElem?_mem hri)
  have hlen : x.proc.sys.ids.length ≤ 10 := by
    simpa [DistributedAiSystem.ids] using x.proc.sys.agents_le
  obtain ⟨t₁, h₁⟩ := Option.isSome_iff_exists.1 (healthUpdate_isSome hi.table hi.known hlen hid)
  have hlt : i < x.proc.sys.ids.length := by
    simpa [DistributedAiSystem.ids] using (List.getElem?_eq_some_iff.1 hri).1
  refine ⟨t₁, h₁, hi.table.update h₁, hi.known.update hid h₁, fun j hj => ?_, fun j hj id hmem hne => ?_⟩
  · cases hj; exact hlt
  · cases hj
    rw [List.take_succ, List.mem_append] at hmem
    rcases hmem with hmem | hmem
    · exact (hi.shown i hxi id hmem hne).update h₁ hne
    · have hi' : x.proc.sys.ids[i]? = some r.agentId := by simp [DistributedAiSystem.ids, hri]
      rw [hi', Option.mem_toList, Option.mem_def, Option.some.injEq] at hmem
      exact hmem ▸ by simpa using slotted_update h₁

theorem PanelInv.step (hi : PanelInv x) (hr : RegistryInv x.proc.sys) (h : x.step da = some y) :
    PanelInv y := by
  obtain ⟨px, hx, lx⟩ := x
  obtain ⟨py, hy, ly⟩ := y
  rcases Displayed.step_cases h with ⟨a, -, hq, hh, hl⟩ | ⟨i, r, -, hxi, hri, hp, hh, hl⟩ |
    ⟨i, -, -, -, hp, hh, hl⟩
  · exact hi.proc hq hh hl
  · obtain ⟨t₁, h₁, hi'⟩ := hi.pass hxi hri
    dsimp only at hp hh hl
    subst hp hl
    rw [hh, HealthTable.apply, h₁, Option.getD_some]
    exact hi'
  · dsimp only at hp hh hl
    subst hp hh hl
    exact ⟨hi.table, hi.known, nofun, nofun⟩

end

end DistributedAi
