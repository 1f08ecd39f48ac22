import Mathlib.Data.List.Dedup
import ExtManager.Experiment.Batch

namespace Harness

open Fallible

section Checks

variable {α : Type} {p : Prop} [Decidable p] {message : String} {k : Unit → Except Failure α} {a : α}

theorem refuse_ok : refuse p message = .ok () ↔ ¬p := by
  unfold refuse
  split
  case isTrue h  => exact ⟨nofun, fun hp => absurd h hp⟩
  case isFalse h => exact ⟨fun _ => h, fun _ => rfl⟩

theorem refuse_seq : (refuse p message >>= k) = .ok a ↔ ¬p ∧ k () = .ok a := by
  rw [bind_ok]
  exact ⟨fun ⟨_, h, hk⟩ => ⟨refuse_ok.mp h, hk⟩, fun ⟨h, hk⟩ => ⟨(), refuse_ok.mpr h, hk⟩⟩

theorem seq_ok {x : Except Failure Unit} : (x >>= k) = .ok a ↔ x = .ok () ∧ k () = .ok a := by
  rw [bind_ok]
  exact ⟨fun ⟨_, h, hk⟩ => ⟨h, hk⟩, fun ⟨h, hk⟩ => ⟨(), h, hk⟩⟩

end Checks

variable {records rows : List Record} {cell scenario : String} {r : Record}

-- What the checks of a cell say about its schedule.
structure Squared (rows : List Record) : Prop where
  orders : (rows.map (·.position)).dedup.length = 9
  square : ¬Differ (actual rows) expected

theorem squared_of_validateCell [PythonJson] (h : validateCell cell rows = .ok ()) :
    Squared rows := by
  have ⟨_, h⟩ := refuse_seq.mp h
  have ⟨_, h⟩ := refuse_seq.mp h
  have ⟨_, h⟩ := seq_ok.mp h
  have ⟨_, h⟩ := seq_ok.mp h
  have ⟨_, h⟩ := refuse_seq.mp h
  have ⟨ho, h⟩ := refuse_seq.mp h
  exact ⟨not_not.mp ho, refuse_ok.mp h⟩

-- The complete records of a cell.
def cellRows (records : List Record) (cell : String) : List Record :=
  (complete records).filter (·.cellId = cell)

theorem get?_groups_foldl {d : Dict String (List Record)} : (rows.foldl (fun d r =>
      d.set r.cellId ((d.get? r.cellId).getD [] ++ [r])) d).get? cell =
    if rows.filter (·.cellId = cell) = [] then d.get? cell
    else some ((d.get? cell).getD [] ++ rows.filter (·.cellId = cell)) := by
  induction rows generalizing d
  case nil            => rfl
  case cons r rows ih =>
    rw [List.foldl_cons, ih, Dict.get?_set]
    by_cases h : r.cellId = cell
    · have hcons := List.filter_cons_of_pos (p := fun r : Record => r.cellId = cell)
        (l := rows) (decide_eq_true h)
      rw [hcons, if_neg (List.cons_ne_nil _ _), if_pos h.symm, h]
      split
      case isTrue hnil => rw [hnil]
      case isFalse     => simp
    · rw [List.filter_cons_of_neg (by simpa using h), if_neg (Ne.symm h)]

theorem get?_groups (h : rows.filter (·.cellId = cell) ≠ []) :
    (groups rows).get? cell = some (rows.filter (·.cellId = cell)) := by
  rw [groups, get?_groups_foldl, if_neg h]
  rfl

section Accepted

variable [PythonJson] {validateRecord : Record → Except Failure Unit}

theorem squared_of_validateBatch (h : validateBatch validateRecord records true = .ok ())
    (hc : cellRows records cell ≠ []) : Squared (cellRows records cell) := by
  have hne : complete records ≠ [] := fun hnil => hc (by rw [cellRows, hnil]; rfl)
  have ⟨_, h⟩ := refuse_seq.mp h
  have ⟨_, h⟩ := seq_ok.mp h
  rw [if_pos ⟨rfl, hne⟩] at h
  have ⟨_, h⟩ := refuse_seq.mp h
  have hitem := Dict.mem_items_iff.mpr (get?_groups hc)
  exact squared_of_validateCell (forM_ok.mp h _ hitem)

end Accepted

theorem expected_items : expected.items = [
    ((1, 1), .vanillaVllmEntryPoints), ((1, 2), .manualIntegration), ((1, 3), .ecpa),
    ((2, 1), .manualIntegration), ((2, 2), .ecpa), ((2, 3), .vanillaVllmEntryPoints),
    ((3, 1), .ecpa), ((3, 2), .vanillaVllmEntryPoints), ((3, 3), .manualIntegration)] := by
  rfl

namespace Squared

-- Every position of the square has a record with its arm.
theorem exists_at (h : Squared rows) {x : (Int × Int) × Arm} (hx : x ∈ expected.items) :
    ∃ r ∈ rows, r.position = x.1 ∧ r.arm = x.2 := by
  have hget : (actual rows).get? x.1 = some x.2 := by
    by_contra hne
    exact h.square (.inr ⟨x, hx, hne⟩)
  obtain ⟨r, hr, he⟩ := List.mem_map.mp (Dict.mem_of_get?_ofList hget)
  exact ⟨r, hr, congrArg (·.1) he, congrArg (·.2) he⟩

-- Every record stands at a position of the square.
theorem position_mem (h : Squared rows) (hr : r ∈ rows) : r.position ∈ expected.keys := by
  have hne : (actual rows).get? r.position ≠ none := by
    rw [actual, ne_eq, Dict.get?_ofList_eq_none, List.map_map, not_not]
    exact List.mem_map_of_mem hr
  obtain ⟨arm, ha⟩ := Option.ne_none_iff_exists'.mp hne
  refine Dict.mem_keys_iff.mpr ⟨arm, ?_⟩
  by_contra hex
  exact h.square (.inl ⟨_, Dict.mem_items_iff.mpr ha, hex⟩)

theorem nodup (h : Squared rows) (hlen : rows.length = 9) : (rows.map (·.position)).Nodup := by
  refine List.dedup_eq_self.mp ((List.dedup_sublist _).eq_of_length ?_)
  rw [h.orders, List.length_map, hlen]

end Squared

theorem filter_key_eq {α β : Type} [DecidableEq β] {f : α → β} {l : List α} {a : α}
    (h : (l.map f).Nodup) (ha : a ∈ l) : l.filter (f · = f a) = [a] := by
  induction l
  case nil         => contradiction
  case cons b l ih =>
    have ⟨hb, h⟩ := List.nodup_cons.mp h
    rcases List.mem_cons.mp ha with rfl | ha
    · have hnil : l.filter (f · = f a) = [] := List.filter_eq_nil_iff.mpr fun c hc he =>
        hb (List.mem_map.mpr ⟨c, hc, of_decide_eq_true he⟩)
      rw [List.filter_cons_of_pos (by simp), hnil]
    · have hne : f b ≠ f a := fun he => hb (he ▸ List.mem_map_of_mem ha)
      rw [List.filter_cons_of_neg (by simpa using hne), ih h ha]

-- One record at each position, and none elsewhere.
structure Scheduled (rows : List Record) : Prop where
  position : ∀ x ∈ expected.items, ∃ r, rows.filter (·.position = x.1) = [r] ∧ r.arm = x.2
  further  : ∀ r ∈ rows, r.position ∈ expected.keys

theorem Scheduled.perm (h : Scheduled rows) : (rows.map (·.position)).Perm expected.keys := by
  rw [List.perm_iff_count]
  intro p
  by_cases hp : p ∈ expected.keys
  · obtain ⟨x, hx, rfl⟩ := List.mem_map.mp hp
    have ⟨r, hr, _⟩ := h.position x hx
    have hcount : rows.countP (·.position = x.1) = 1 := by
      rw [List.countP_eq_length_filter, hr]
      rfl
    rw [List.count_eq_one_of_mem (a := x.1) (l := expected.keys) expected.nodup hp, List.count,
      List.countP_map, ← hcount]
    exact List.countP_congr fun r _ => by simp
  · rw [List.count_eq_zero_of_not_mem hp, List.count_eq_zero_of_not_mem]
    intro hm
    obtain ⟨r, hr, rfl⟩ := List.mem_map.mp hm
    exact hp (h.further r hr)

theorem Scheduled.length_eq (h : Scheduled rows) : rows.length = 9 := by
  rw [← List.length_map (·.position), h.perm.length_eq, Dict.keys, expected_items]
  rfl

theorem Scheduled.length_repetition (h : Scheduled rows) {repetition : Int}
    (hr : repetition ∈ [1, 2, 3]) : (rows.filter (·.repetition = repetition)).length = 3 := by
  have hkeys : (expected.keys.filter (·.1 = repetition)).length = 3 := by
    rw [Dict.keys, expected_items]
    revert repetition
    decide
  rw [← hkeys, ← (h.perm.filter _).length_eq, List.filter_map, List.length_map]
  rfl

theorem Squared.scheduled_iff (h : Squared rows) : Scheduled rows ↔ rows.length = 9 := by
  refine ⟨Scheduled.length_eq, fun hlen => ⟨fun x hx => ?_, fun r hr => h.position_mem hr⟩⟩
  obtain ⟨r, hr, hp, ha⟩ := h.exists_at hx
  exact ⟨r, hp ▸ filter_key_eq (h.nodup hlen) hr, ha⟩

section Contrasts

variable {complete : List Record} {repetition : Int} {found : List Contrast}

-- Every arm has run in the repetition.
def Arms (complete : List Record) (scenario : String) (repetition : Int) : Prop :=
  ∀ arm, ∃ r ∈ complete, r.scenario = scenario ∧ r.repetition = repetition ∧ r.arm = arm

theorem getItem_total {values : Dict Arm Int} {arm : Arm} (h : values.get? arm ≠ none) :
    ∃ value, getItem values arm = .ok value := by
  obtain ⟨value, hv⟩ := Option.ne_none_iff_exists'.mp h
  exact ⟨value, by rw [getItem, hv]⟩

-- With every arm, no key is missing.
theorem contrast_total (h : Arms complete scenario repetition) :
    ∃ c?, contrast complete scenario repetition = .ok c? ∧
      (c?.isSome ↔ (matched complete scenario repetition).length = 3) := by
  have hitem (arm : Arm) : ∃ value,
      getItem (falseEffective (matched complete scenario repetition)) arm = .ok value := by
    refine getItem_total ?_
    rw [falseEffective, ne_eq, Dict.get?_ofList_eq_none, List.map_map, not_not]
    obtain ⟨r, hr, hs, hrep, rfl⟩ := h arm
    exact List.mem_map.mpr ⟨r, List.mem_filter.mpr ⟨hr, by simp [hs, hrep]⟩, rfl⟩
  unfold contrast
  split
  case isTrue hlen  =>
    have ⟨ecpa, he⟩ := hitem .ecpa
    have ⟨vanilla, hv⟩ := hitem .vanillaVllmEntryPoints
    have ⟨manual, hm⟩ := hitem .manualIntegration
    refine ⟨some ⟨scenario, repetition, ecpa - vanilla, ecpa - manual⟩, ?_, by simp [hlen]⟩
    simp only [he, hv, hm]
    rfl
  case isFalse hlen => exact ⟨none, rfl, by simp [hlen]⟩

theorem contrast_eq {c : Contrast} (h : contrast complete scenario repetition = .ok (some c)) :
    c.scenario = scenario ∧ c.repetition = repetition := by
  unfold contrast at h
  split at h
  case isTrue  =>
    obtain ⟨_, _, h⟩ := bind_ok.mp h
    obtain ⟨_, _, h⟩ := bind_ok.mp h
    obtain ⟨_, _, h⟩ := bind_ok.mp h
    cases h
    exact ⟨rfl, rfl⟩
  case isFalse => cases h

theorem contrasts_total (h : ∀ repetition ∈ [1, 2, 3], Arms complete scenario repetition) :
    ∃ found, contrasts complete scenario = .ok found := by
  obtain ⟨cs, hcs⟩ := mapM_total fun repetition hr =>
    (contrast_total (h repetition hr)).imp fun _ hc => hc.1
  exact ⟨cs.reduceOption, bind_ok.mpr ⟨cs, hcs, rfl⟩⟩

theorem scenario_of_contrasts (h : contrasts complete scenario = .ok found) :
    ∀ c ∈ found, c.scenario = scenario := by
  obtain ⟨cs, hcs, h⟩ := bind_ok.mp h
  cases h
  intro c hc
  have ⟨repetition, _, hr⟩ := source_of_mapM hcs _ (List.reduceOption_mem_iff.mp hc)
  exact (contrast_eq hr).1

-- With three records in each repetition, there is a contrast for each.
theorem contrasts_three (h : ∀ repetition ∈ [1, 2, 3], Arms complete scenario repetition ∧
      (matched complete scenario repetition).length = 3) :
    ∃ found, contrasts complete scenario = .ok found ∧ found.map (·.repetition) = [1, 2, 3] := by
  have hsome (repetition : Int) (hr : repetition ∈ [1, 2, 3]) : ∃ c,
      contrast complete scenario repetition = .ok (some c) ∧ c.repetition = repetition := by
    have ⟨c?, hc, hiff⟩ := contrast_total (h repetition hr).1
    obtain ⟨c, rfl⟩ := Option.isSome_iff_exists.mp (hiff.mpr (h repetition hr).2)
    exact ⟨c, hc, (contrast_eq hc).2⟩
  have ⟨c₁, h₁, hr₁⟩ := hsome 1 (by simp)
  have ⟨c₂, h₂, hr₂⟩ := hsome 2 (by simp)
  have ⟨c₃, h₃, hr₃⟩ := hsome 3 (by simp)
  have hmap := mapM_ok.mpr (.cons h₁ (.cons h₂ (.cons h₃ .nil)))
  exact ⟨[c₁, c₂, c₃], bind_ok.mpr ⟨_, hmap, rfl⟩, by simp [hr₁, hr₂, hr₃]⟩

theorem filter_flatten_nil {names : List String} {parts : List (List Contrast)}
    (h : List.Forall₂ (fun name part => contrasts complete name = .ok part) names parts)
    (hm : scenario ∉ names) : parts.flatten.filter (·.scenario = scenario) = [] := by
  refine List.filter_eq_nil_iff.mpr fun c hc he => ?_
  obtain ⟨part, hpart, hc⟩ := List.mem_flatten.mp hc
  have ⟨name, hname, hp⟩ := source_of_mapM (mapM_ok.mpr h) part hpart
  exact hm (of_decide_eq_true he ▸ scenario_of_contrasts hp c hc ▸ hname)

-- What is found for a scenario stands in the report as it is.
theorem filter_flatten {names : List String} {parts : List (List Contrast)}
    (h : List.Forall₂ (fun name part => contrasts complete name = .ok part) names parts)
    (hn : names.Nodup) (hm : scenario ∈ names) (hc : contrasts complete scenario = .ok found) :
    parts.flatten.filter (·.scenario = scenario) = found := by
  induction h
  case nil                          => contradiction
  case cons name part _ _ hp h ih =>
    have ⟨hname, hn⟩ := List.nodup_cons.mp hn
    rw [List.flatten_cons, List.filter_append]
    rcases List.mem_cons.mp hm with rfl | hm
    · cases hc.symm.trans hp
      rw [filter_flatten_nil h hname, List.append_nil, List.filter_eq_self.mpr]
      exact fun c hmem => decide_eq_true (scenario_of_contrasts hp c hmem)
    · have hnil : part.filter (·.scenario = scenario) = [] :=
        List.filter_eq_nil_iff.mpr fun c hmem he =>
          hname (scenario_of_contrasts hp c hmem ▸ of_decide_eq_true he ▸ hm)
      rw [hnil, List.nil_append, ih hn hm]

end Contrasts

section Claim

variable [PythonJson] (validateRecord : Record → Except Failure Unit)

-- The records of a cell are of one scenario.
def OneScenario (records : List Record) : Prop :=
  ∀ r ∈ complete records, ∀ r' ∈ complete records, r.cellId = r'.cellId → r.scenario = r'.scenario

structure Balanced (records : List Record) (cell : String) : Prop
    extends Scheduled (cellRows records cell) where
  contrasts : OneScenario records → ∀ scenario,
    (∀ r ∈ complete records, r.scenario = scenario ↔ r.cellId = cell) →
      ∃ found, aggregate validateRecord records true = .ok (some found) ∧
        (found.filter (·.scenario = scenario)).map (·.repetition) = [1, 2, 3]

variable {validateRecord}

omit [PythonJson] in
theorem arms_of_squared (h : Squared rows) (hrows : ∀ r ∈ rows, r ∈ complete records ∧
      r.scenario = scenario) {repetition : Int} (hr : repetition ∈ [1, 2, 3]) :
    Arms (complete records) scenario repetition := by
  intro arm
  have hitem : ∃ x ∈ expected.items, x.1.1 = repetition ∧ x.2 = arm := by
    rw [expected_items]
    revert repetition
    cases arm
    all_goals decide
  obtain ⟨x, hx, rfl, rfl⟩ := hitem
  have ⟨r, hmem, hp, ha⟩ := h.exists_at hx
  have ⟨hc, hs⟩ := hrows r hmem
  exact ⟨r, hc, hs, congrArg (·.1) hp, ha⟩

theorem contrasts_of_scenarios (h : validateBatch validateRecord records true = .ok ())
    (hone : OneScenario records) (hs : scenario ∈ scenarios (complete records)) :
    ∀ repetition ∈ [1, 2, 3], Arms (complete records) scenario repetition := by
  rw [scenarios, List.mem_insertionSort, List.mem_dedup] at hs
  obtain ⟨r, hr, rfl⟩ := List.mem_map.mp hs
  have hmem {r' : Record} : r' ∈ cellRows records r.cellId ↔
      r' ∈ complete records ∧ r'.cellId = r.cellId := by
    rw [cellRows, List.mem_filter, decide_eq_true_iff]
  have hsq := squared_of_validateBatch h (List.ne_nil_of_mem (hmem.mpr ⟨hr, rfl⟩))
  intro repetition hrep
  refine arms_of_squared hsq (fun r' hr' => ?_) hrep
  have ⟨hr', hcell⟩ := hmem.mp hr'
  exact ⟨hr', hone r' hr' r hr hcell⟩

-- What is accepted of a cell is balanced if and only if it has no more than nine records.
theorem balanced_iff (h : validateBatch validateRecord records true = .ok ())
    (hc : ∃ r ∈ complete records, r.cellId = cell) :
    Balanced validateRecord records cell ↔ (cellRows records cell).length = 9 := by
  obtain ⟨r, hr, rfl⟩ := hc
  have hmem : r ∈ cellRows records r.cellId := List.mem_filter.mpr ⟨hr, decide_eq_true rfl⟩
  have hsq := squared_of_validateBatch h (List.ne_nil_of_mem hmem)
  refine ⟨fun hb => hb.toScheduled.length_eq, fun hlen => ?_⟩
  have hsch := hsq.scheduled_iff.mpr hlen
  refine ⟨hsch, fun hone scenario hs => ?_⟩
  have hm : scenario ∈ scenarios (complete records) := by
    rw [scenarios, List.mem_insertionSort, List.mem_dedup]
    exact List.mem_map.mpr ⟨r, hr, (hs r hr).mpr rfl⟩
  have harms := contrasts_of_scenarios h hone hm
  have hmatched {repetition : Int} : matched (complete records) scenario repetition =
      (cellRows records r.cellId).filter (·.repetition = repetition) := by
    rw [matched, cellRows, List.filter_filter]
    refine List.filter_congr fun r' hr' => ?_
    rw [← Bool.decide_and, decide_eq_decide, hs r' hr', and_comm]
  obtain ⟨found, hfound, hreps⟩ := contrasts_three fun repetition hrep =>
    ⟨harms repetition hrep, hmatched ▸ hsch.length_repetition hrep⟩
  obtain ⟨parts, hparts⟩ := mapM_total fun name hname =>
    contrasts_total (contrasts_of_scenarios h hone hname)
  have hnodup : (scenarios (complete records)).Nodup :=
    (List.perm_insertionSort ..).nodup_iff.mpr (List.nodup_dedup _)
  refine ⟨parts.flatten, ?_, ?_⟩
  · rw [aggregate, seq_ok]
    refine ⟨h, ?_⟩
    rw [if_neg (List.ne_nil_of_mem hr), hparts]
    rfl
  · rw [filter_flatten (mapM_ok.mp hparts) hnodup hm hfound, hreps]

end Claim

end Harness
