import HysteriaCore.Conditions.ConditionMgr

/-!
# The recursion through the references

Rows of one template keep the order of the table, so the order decides whether a reference is reached before
its group has failed. Without circles nothing depends on it.
-/

namespace HysteriaCore.Conditions
open Lib Lib.Alternatives Relation

variable {data : Data} {rows rows' : List ConditionRow} {row : ConditionRow} {cond : Condition}
  {id : ℕ}

/-! ### The loader -/

theorem load_eq_some (h : row.load data = some cond) : cond = row.condition ∧ Valid data cond := by
  unfold ConditionRow.load at h
  split at h
  · rename_i hneg
    split at h
    · cases h
    · obtain rfl := Option.some.inj h
      refine ⟨rfl, .inl ?_⟩
      rw [ConditionRow.condition]
      dsimp only
      rw [if_pos hneg]
      omega
  · split at h
    · rename_i hvalid
      obtain rfl := Option.some.inj h
      exact ⟨rfl, .inr hvalid⟩
    · cases h

theorem template_eq_some (h : row.template data id = some cond) :
    row.SourceTypeOrReferenceId.toInt < 0 ∧ row.SourceTypeOrReferenceId.toInt.natAbs = id ∧ row.load data = some cond := by
  unfold ConditionRow.template at h
  split at h
  · rename_i hrow
    exact ⟨hrow.1, hrow.2, h⟩
  · cases h

theorem id_le (h : row.template data id = some cond) : id ≤ 2 ^ 31 := by
  obtain ⟨hneg, rfl, _⟩ := template_eq_some h
  have hlow := row.SourceTypeOrReferenceId.le_toInt
  omega

theorem loadRow_eq (store : ConditionReferenceContainer) (row : ConditionRow) (id : ℕ) :
    loadRow data store row id = store id ++ (row.template data id).toList := by
  unfold loadRow ConditionRow.template
  cases hload : row.load data with
  | none => rw [ite_self, Option.toList_none, List.append_nil]
  | some cond =>
    dsimp only
    by_cases hneg : row.SourceTypeOrReferenceId.toInt < 0
    · rw [if_pos hneg]
      by_cases hid : row.SourceTypeOrReferenceId.toInt.natAbs = id
      · subst hid
        rw [Function.update_self, if_pos ⟨hneg, rfl⟩, Option.toList_some]
      · rw [Function.update_of_ne (Ne.symm hid), if_neg fun hrow => hid hrow.2, Option.toList_none, List.append_nil]
    · rw [if_neg hneg, if_neg fun hrow => hneg hrow.1, Option.toList_none, List.append_nil]

/-- A template holds what the loader takes of its rows, in their order. -/
theorem LoadConditions_eq (data : Data) (rows : List ConditionRow) (id : ℕ) :
    LoadConditions data rows id = rows.filterMap fun row => row.template data id := by
  have hrest : ∀ store : ConditionReferenceContainer,
      rows.foldl (loadRow data) store id = store id ++ rows.filterMap fun row => row.template data id := by
    induction rows with
    | nil => exact fun store => (List.append_nil _).symm
    | cons row rows ih =>
      intro store
      rw [List.foldl_cons, ih, loadRow_eq, List.append_assoc]
      cases hrow : row.template data id with
      | none => simp only [List.filterMap_cons, hrow, Option.toList_none, List.nil_append]
      | some cond => simp only [List.filterMap_cons, hrow, Option.toList_some, List.singleton_append]
  exact hrest fun _ => []

theorem mem_LoadConditions : cond ∈ LoadConditions data rows id ↔ ∃ row ∈ rows, row.template data id = some cond := by
  rw [LoadConditions_eq, List.mem_filterMap]

theorem LoadConditions_valid (id : ℕ) : ∀ cond ∈ LoadConditions data rows id, Valid data cond := by
  intro cond hmem
  obtain ⟨row, _, hrow⟩ := mem_LoadConditions.mp hmem
  exact (load_eq_some (template_eq_some hrow).2.2).2

theorem LoadConditions_le (id : ℕ) (h : (rowsOf (LoadConditions data rows id)).Nonempty) : id ≤ 2 ^ 31 := by
  obtain ⟨cond, hmem⟩ := h
  obtain ⟨row, _, hrow⟩ := mem_LoadConditions.mp hmem
  exact id_le hrow

theorem rowsOf_perm {α : Type} {as bs : List α} (h : as.Perm bs) : rowsOf as = rowsOf bs :=
  Set.ext fun _ => h.mem_iff

theorem rowsOf_LoadConditions (data : Data) (h : rows'.Perm rows) :
    (fun id => rowsOf (LoadConditions data rows' id)) = fun id => rowsOf (LoadConditions data rows id) := by
  funext id
  rw [LoadConditions_eq, LoadConditions_eq]
  exact rowsOf_perm (h.filterMap _)

/-! ### Circles -/

theorem reference_isLoaded {id : ℕ} (h : cond.reference = some id) : cond.isLoaded = true := by
  unfold Condition.reference at h
  split at h
  · cases h
  · rename_i hne
    unfold Condition.isLoaded
    rw [decide_eq_true hne, Bool.or_true]

def Refers (data : Data) (rows : List ConditionRow) : ℕ → ℕ → Prop :=
  Enters Condition.reference fun id => rowsOf (LoadConditions data rows id)

/-- The row refers to another template on a circle with its own. -/
def Closes (data : Data) (rows : List ConditionRow) (row : ConditionRow) : Prop :=
  ∃ id cond id', row.template data id = some cond ∧ cond.reference = some id' ∧ TransGen (Refers data rows) id' id'

open Classical in
/-- The table with the rows that close circles in front. -/
noncomputable def circlesFirst (data : Data) (rows : List ConditionRow) : List ConditionRow :=
  rows.filter (fun row => decide (Closes data rows row)) ++ rows.filter fun row => !decide (Closes data rows row)

theorem circlesFirst_perm (data : Data) (rows : List ConditionRow) : (circlesFirst data rows).Perm rows := by
  classical
  exact List.filter_append_perm _ rows

theorem circlesFirst_leads (hcircle : TransGen (Refers data rows) id id) :
    ∃ cond rest id', LoadConditions data (circlesFirst data rows) id = cond :: rest ∧
      cond.reference = some id' ∧ TransGen (Refers data rows) id' id' := by
  classical
  obtain ⟨id₁, hlead, hrefers⟩ := TransGen.tail'_iff.mp hcircle
  have hnext := TransGen.head' hrefers hlead
  obtain ⟨-, cond₁, hmem, href⟩ := hrefers
  obtain ⟨row₁, hrow₁, htemplate⟩ := mem_LoadConditions.mp hmem
  have hcloses : Closes data rows row₁ := ⟨id, cond₁, id₁, htemplate, href, hnext⟩
  rw [LoadConditions_eq, circlesFirst, List.filterMap_append]
  cases hfront : (rows.filter fun row => decide (Closes data rows row)).filterMap fun row => row.template data id with
  | nil =>
    have hin : cond₁ ∈ (rows.filter fun row => decide (Closes data rows row)).filterMap fun row => row.template data id :=
      List.mem_filterMap.mpr ⟨row₁, List.mem_filter.mpr ⟨hrow₁, decide_eq_true hcloses⟩, htemplate⟩
    rw [hfront] at hin
    exact absurd hin List.not_mem_nil
  | cons cond rest =>
    have hin : cond ∈ cond :: rest := List.mem_cons_self
    rw [← hfront] at hin
    obtain ⟨row, hrow, hcond⟩ := List.mem_filterMap.mp hin
    obtain ⟨id₂, cond₂, id', hcond₂, href', hnext⟩ := of_decide_eq_true (List.mem_filter.mp hrow).2
    obtain ⟨-, hid, hload⟩ := template_eq_some hcond
    obtain ⟨-, hid₂, hload₂⟩ := template_eq_some hcond₂
    obtain rfl := Option.some.inj (hload.symm.trans hload₂)
    exact ⟨cond, _, id', List.cons_append, href', hnext⟩

/-! ### Evaluation -/

section Evaluation
variable {w : World} {targets : Targets} {object : Object}

theorem CompareValues_ok {α : Type} [LT α] [DecidableEq α] [DecidableLT α] {type : UInt32} (h : type < 5) (a b : α) :
    ∃ c, CompareValues type a b = .ok c := by
  have hlt : type.toNat < 5 := h
  unfold CompareValues
  generalize type.toNat = n at hlt
  match n, hlt with
  | 0, _ | 1, _ | 2, _ | 3, _ | 4, _ => exact ⟨_, rfl⟩

theorem target_ok {i : ℕ} (h : i < 3) (targets : Targets) : ∃ o, target targets i = .ok o := ⟨_, dif_pos h⟩

theorem GetMaxAvailableConditionTargets_le (cond : Condition) : cond.GetMaxAvailableConditionTargets ≤ 3 := by
  unfold Condition.GetMaxAvailableConditionTargets
  split <;> omega

theorem validTarget_lt (h : cond.validTarget = true) : cond.ConditionValue1.toNat < 3 := by
  unfold Condition.validTarget at h
  rw [Bool.and_eq_true, decide_eq_true_iff] at h
  exact lt_of_lt_of_le h.1 (GetMaxAvailableConditionTargets_le cond)

theorem map_ok {α β : Type} {x : Except Stop α} (f : α → β) (h : ∃ a, x = .ok a) : ∃ b, x.map f = .ok b := by
  obtain ⟨a, rfl⟩ := h
  exact ⟨f a, rfl⟩

/-- What the loader checks keeps `Meets` from its assertions and from reading what is not there. -/
theorem test_ok (h : cond.isConditionTypeValid data = true) (w : World) (targets : Targets) (object : Object) :
    ∃ b, cond.test data w targets object = .ok b := by
  unfold Condition.isConditionTypeValid at h
  unfold Condition.test
  cases htype : cond.ConditionType with
  | relationTo | reactionTo =>
    simp only [htype, Bool.and_eq_true] at h
    exact map_ok _ (target_ok (validTarget_lt h.2.1) targets)
  | distanceTo =>
    simp only [htype, Bool.and_eq_true, decide_eq_true_iff] at h
    obtain ⟨o, ho⟩ := target_ok (validTarget_lt h.2.1) targets
    dsimp only
    rw [ho]
    cases o with
    | none => exact ⟨false, rfl⟩
    | some o => exact CompareValues_ok h.2.2 _ _
  | level | hpVal =>
    simp only [htype, Bool.and_eq_true, decide_eq_true_iff] at h
    dsimp only
    split
    · exact CompareValues_ok h.2 _ _
    · exact ⟨false, rfl⟩
  | hpPct =>
    simp only [htype, Bool.and_eq_true, decide_eq_true_iff] at h
    dsimp only
    split
    · exact CompareValues_ok h.2.2 _ _
    · exact ⟨false, rfl⟩
  | item =>
    simp only [htype, Bool.and_eq_true, decide_eq_true_iff] at h
    dsimp only
    split
    · exact ⟨_, if_neg h.2.2⟩
    · exact ⟨false, rfl⟩
  | questSatisfyExclusive =>
    simp only [htype, Bool.and_eq_true, decide_eq_true_iff] at h
    dsimp only
    split
    · split
      · exact ⟨false, rfl⟩
      · exact ⟨_, if_pos h.2⟩
    · exact ⟨false, rfl⟩
  | _ => exact ⟨_, rfl⟩

theorem conditionTarget_lt (h : cond.isConditionTypeValid data = true) : cond.ConditionTarget.toNat < 3 := by
  unfold Condition.isConditionTypeValid at h
  dsimp only at h
  have hlt := (Bool.and_eq_true_iff.mp h).1
  rw [decide_eq_true_iff] at hlt
  exact lt_of_lt_of_le hlt (GetMaxAvailableConditionTargets_le cond)

theorem meets_ok (h : cond.isConditionTypeValid data = true) (w : World) (targets : Targets) :
    ∃ b, cond.Meets data w targets = .ok b := by
  unfold Condition.Meets
  rw [dif_pos (conditionTarget_lt h)]
  split
  · exact ⟨false, rfl⟩
  · exact map_ok _ (test_ok h w targets _)

theorem reference_eq_none : cond.reference = none ↔ cond.ReferenceId = 0 := by
  unfold Condition.reference
  split
  · rename_i hzero
    exact ⟨fun _ => hzero, fun _ => rfl⟩
  · rename_i hne
    exact ⟨fun h => Option.noConfusion rfl (heq_of_eq h), fun h => absurd h hne⟩

/-- The evaluation of valid conditions stops for the lack of fuel only. -/
theorem evaluation_ok {conditions : List Condition} {fuel : ℕ} (hvalid : ∀ cond ∈ conditions, Valid data cond)
    (h : IsObjectMeetToConditionList (LoadConditions data rows) data w targets fuel conditions ≠ .error none) :
    ∃ b, IsObjectMeetToConditionList (LoadConditions data rows) data w targets fuel conditions = .ok b := by
  cases hrun : IsObjectMeetToConditionList (LoadConditions data rows) data w targets fuel conditions with
  | ok b => exact ⟨b, rfl⟩
  | error e =>
    cases e with
    | none => exact absurd hrun h
    | some e =>
      obtain ⟨cond, hknown, hcheck | ⟨href, hplain⟩ | ⟨_, _, _, hmissing⟩⟩ :=
        Language.run_error (L := meeting data w targets) hrun LoadConditions_valid hvalid
      · cases hcheck
      · obtain ⟨b, hb⟩ := meets_ok (hknown.resolve_left (not_not.mpr (reference_eq_none.mp href))) w targets
        cases hb.symm.trans hplain
      · cases hmissing

end Evaluation

/-- Whatever order the rows of the table and of a list have, the list has one truth value, and its mask holds
the same types unless an assertion stops the walk. -/
structure Settled (data : Data) (rows : List ConditionRow) : Prop where
  meets : ∀ rows', rows'.Perm rows → ∀ conditions conditions', conditions'.Perm conditions →
    (∀ cond ∈ conditions, Valid data cond) → ∀ w targets, ∃ n, ∀ fuel ≥ n, ∃ b,
      IsObjectMeetToConditionList (LoadConditions data rows') data w targets fuel conditions' = .ok b ∧
        (b = true ↔ Met (LoadConditions data rows) data w targets conditions)
  searches : ∀ rows', rows'.Perm rows → ∀ conditions conditions', conditions'.Perm conditions → ∃ n, ∀ fuel ≥ n,
    GetSearcherTypeMaskForConditionList (LoadConditions data rows') fuel conditions' ≠ .error none ∧
      ∀ m, GetSearcherTypeMaskForConditionList (LoadConditions data rows') fuel conditions' = .ok m →
        ∀ k : Kind, m.testBit k.gridBit = true ↔ Searched (LoadConditions data rows) k conditions

theorem circular_never_ends (hcircular : CircularReferences (LoadConditions data rows)) :
    ∃ list, (∀ cond ∈ list, Valid data cond) ∧ ∀ w targets fuel,
      IsObjectMeetToConditionList (LoadConditions data (circlesFirst data rows)) data w targets fuel list = .error none := by
  obtain ⟨id, hcircle⟩ := hcircular
  refine ⟨LoadConditions data (circlesFirst data rows) id, LoadConditions_valid id, fun w targets fuel => ?_⟩
  have hmem : id ∈ {id | TransGen (Refers data rows) id id} := hcircle
  refine Language.run_circle (fun id hcircle => ?_) hmem fuel
  obtain ⟨cond, rest, id', hlist, href, hnext⟩ := circlesFirst_leads hcircle
  exact ⟨cond, rest, id', hlist, reference_isLoaded href, rfl, href, hnext⟩

/-- The recursions end for every list of loaded conditions and in every order of the rows, with the value that
the groups and references have by themselves, exactly when no references lead from a template back to it. -/
theorem conditions_settled_iff (data : Data) (rows : List ConditionRow) :
    Settled data rows ↔ ¬CircularReferences (LoadConditions data rows) := by
  constructor
  · intro hsettled hcircular
    obtain ⟨list, hvalid, hnever⟩ := circular_never_ends hcircular
    obtain ⟨n, hn⟩ := hsettled.meets _ (circlesFirst_perm data rows) list list (List.Perm.refl list) hvalid default
      fun _ => none
    obtain ⟨b, hb, -⟩ := hn n (le_refl n)
    cases hb.symm.trans (hnever _ _ n)
  · intro hacyclic
    have hwf : ∀ rows', rows'.Perm rows → WellFounded (Refers data rows') := by
      intro rows' hperm
      apply wellFounded_enters LoadConditions_le
      rw [rowsOf_LoadConditions data hperm]
      exact hacyclic
    constructor
    · intro rows' hperm conditions conditions' hconditions hvalid w targets
      obtain ⟨n, hn⟩ := Language.run_ends (L := meeting data w targets) (hwf rows' hperm) conditions'
      refine ⟨n, fun fuel hfuel => ?_⟩
      obtain ⟨b, hb⟩ := evaluation_ok (fun cond hmem => hvalid cond (hconditions.mem_iff.mp hmem)) (hn fuel hfuel)
      refine ⟨b, hb, ?_⟩
      unfold Met
      rw [← rowsOf_LoadConditions data hperm, ← rowsOf_perm hconditions]
      exact Language.holds_run (p := ()) hb
    · intro rows' hperm conditions conditions' hconditions
      obtain ⟨n, hn⟩ := Language.run_ends (L := searching) (hwf rows' hperm) conditions'
      refine ⟨n, fun fuel hfuel => ⟨hn fuel hfuel, fun m hm k => ?_⟩⟩
      unfold Searched
      rw [← rowsOf_LoadConditions data hperm, ← rowsOf_perm hconditions]
      exact Language.holds_run (L := searching) hm

end HysteriaCore.Conditions
