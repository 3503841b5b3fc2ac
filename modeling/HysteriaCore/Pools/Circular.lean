import HysteriaCore.Lib.Circles
import HysteriaCore.Pools.PoolMgr

/-!
# Circular pools (PoolMgr::LoadFromDB)

Rows of `pool_pool` fill the groups of the mother pools and a search map that keeps the first
mother of a child. The circles of the search map are broken; the groups keep every other row.
-/

namespace HysteriaCore.Pools.Circular
open Lib.Circles Relation

structure Row where
  child : ℕ
  mother : ℕ
  chance : ℚ

def Row.accepted (maxPoolId : ℕ) (row : Row) : Bool :=
  row.mother ≤ maxPoolId ∧ row.child ≤ maxPoolId ∧ row.mother ≠ row.child ∧ 0 ≤ row.chance ∧
    row.chance ≤ 100

def Row.explicitly (maxLimit : ℕ → ℕ) (row : Row) : Bool :=
  row.chance ≠ 0 ∧ maxLimit row.mother = 1

structure Groups where
  explicitlyChanced : ℕ → List ℕ
  equalChanced : ℕ → List ℕ
  poolSearchMap : ℕ → Option ℕ

namespace Groups

def empty : Groups := ⟨fun _ => [], fun _ => [], fun _ => none⟩

def addEntry (maxLimit : ℕ → ℕ) (s : Groups) (row : Row) : Groups :=
  if row.explicitly maxLimit then
    { s with
      explicitlyChanced := Function.update s.explicitlyChanced row.mother
        (s.explicitlyChanced row.mother ++ [row.child]) }
  else
    { s with
      equalChanced := Function.update s.equalChanced row.mother
        (s.equalChanced row.mother ++ [row.child]) }

/-- `mPoolSearchMap.insert`, which keeps an entry that is there. -/
def insert (s : Groups) (row : Row) : Groups :=
  if (s.poolSearchMap row.child).isSome then s
  else { s with poolSearchMap := Function.update s.poolSearchMap row.child (some row.mother) }

def loadRow (maxPoolId : ℕ) (maxLimit : ℕ → ℕ) (s : Groups) (row : Row) : Groups :=
  if row.accepted maxPoolId then (s.addEntry maxLimit row).insert row else s

/-- `mPoolPoolGroups[mother].RemoveOneRelation(child)`: one entry of either list. -/
def removeOneRelation (s : Groups) (mother child : ℕ) : Groups :=
  { s with
    explicitlyChanced := Function.update s.explicitlyChanced mother
      ((s.explicitlyChanced mother).erase child)
    equalChanced := Function.update s.equalChanced mother ((s.equalChanced mother).erase child) }

/-- The walk from pool `i` with `checkedPools`; `none` would be a walk that does not end. -/
def checkCircular (maxPoolId : ℕ) (s : Groups) (i : ℕ) : Option Groups :=
  match search s.poolSearchMap (maxPoolId + 2) [] i with
  | none => none
  | some none => some s
  | some (some (child, mother)) =>
    let s := s.removeOneRelation mother child
    some { s with poolSearchMap := Function.update s.poolSearchMap child none }

def loadPools (maxPoolId : ℕ) (maxLimit : ℕ → ℕ) (rows : List Row) : Option Groups :=
  (List.range maxPoolId).foldlM (checkCircular maxPoolId)
    (rows.foldl (loadRow maxPoolId maxLimit) empty)

/-- Pool `c` is an entry of `mPoolPoolGroups[m]`: `SpawnPool(m)` and `DespawnPool(m)` may call
themselves for `c`. -/
def IsEntry (s : Groups) (c m : ℕ) : Prop := c ∈ s.explicitlyChanced m ∨ c ∈ s.equalChanced m

end Groups

/-! ### The rows -/

section Rows

variable (maxPoolId : ℕ) (maxLimit : ℕ → ℕ) (rows : List Row)

def firstMother (c : ℕ) : Option ℕ :=
  (rows.find? fun row => row.accepted maxPoolId && row.child == c).map Row.mother

def rowCount (explicitly : Bool) (c m : ℕ) : ℕ :=
  rows.countP fun row => row.accepted maxPoolId && (row.explicitly maxLimit == explicitly) &&
    (row.child == c) && (row.mother == m)

end Rows

variable {maxPoolId : ℕ} {maxLimit : ℕ → ℕ} {rows : List Row}

structure HoldsRows (maxPoolId : ℕ) (maxLimit : ℕ → ℕ) (rows : List Row) (s : Groups) : Prop where
  explicitly : ∀ c m, (s.explicitlyChanced m).count c = rowCount maxPoolId maxLimit rows true c m
  equal : ∀ c m, (s.equalChanced m).count c = rowCount maxPoolId maxLimit rows false c m
  first : ∀ c, s.poolSearchMap c = firstMother maxPoolId rows c

theorem rowCount_snoc (explicitly : Bool) (row : Row) (c m : ℕ) :
    rowCount maxPoolId maxLimit (rows ++ [row]) explicitly c m =
      rowCount maxPoolId maxLimit rows explicitly c m +
        if row.accepted maxPoolId && (row.explicitly maxLimit == explicitly) && (row.child == c) &&
          (row.mother == m) then 1 else 0 := by
  rw [rowCount, List.countP_append, List.countP_singleton]
  rfl

theorem firstMother_snoc (row : Row) (c : ℕ) :
    firstMother maxPoolId (rows ++ [row]) c =
      (firstMother maxPoolId rows c).or
        (if row.accepted maxPoolId && row.child == c then some row.mother else none) := by
  rw [firstMother, List.find?_append, Option.map_or, firstMother]
  congr 1
  rw [List.find?_singleton]
  split <;> simp_all

theorem count_append_update (table : ℕ → List ℕ) (m m' c c' : ℕ) :
    (Function.update table m (table m ++ [c]) m').count c' =
      (table m').count c' + if (c == c') && (m == m') then 1 else 0 := by
  by_cases hm : m' = m
  · subst hm
    rw [Function.update_self, List.count_append, List.count_singleton]
    simp
  · rw [Function.update_of_ne hm]
    simp [Ne.symm hm]

variable {s : Groups}

theorem HoldsRows.snoc (h : HoldsRows maxPoolId maxLimit rows s) (row : Row) :
    HoldsRows maxPoolId maxLimit (rows ++ [row]) (s.loadRow maxPoolId maxLimit row) := by
  rw [Groups.loadRow]
  by_cases hrow : row.accepted maxPoolId = true
  case neg =>
    rw [if_neg hrow]
    refine ⟨fun c m => ?_, fun c m => ?_, fun c => ?_⟩
    · rw [rowCount_snoc, h.explicitly]
      simp [hrow]
    · rw [rowCount_snoc, h.equal]
      simp [hrow]
    · rw [firstMother_snoc, h.first]
      simp [hrow]
  rw [if_pos hrow]
  have hmap (s : Groups) : (s.insert row).explicitlyChanced = s.explicitlyChanced ∧
      (s.insert row).equalChanced = s.equalChanced := by
    rw [Groups.insert]
    split <;> exact ⟨rfl, rfl⟩
  refine ⟨fun c m => ?_, fun c m => ?_, fun c => ?_⟩
  · rw [(hmap _).1, rowCount_snoc, ← h.explicitly, Groups.addEntry]
    by_cases hkind : row.explicitly maxLimit = true
    · rw [if_pos hkind]
      simp only [count_append_update, hrow, hkind, Bool.true_and, beq_self_eq_true]
    · rw [if_neg hkind]
      simp [hkind]
  · rw [(hmap _).2, rowCount_snoc, ← h.equal, Groups.addEntry]
    by_cases hkind : row.explicitly maxLimit = true
    · rw [if_pos hkind]
      simp [hkind]
    · rw [if_neg hkind]
      rw [Bool.not_eq_true] at hkind
      simp only [count_append_update, hrow, hkind, Bool.true_and, beq_self_eq_true]
  · have hsame : (s.addEntry maxLimit row).poolSearchMap = s.poolSearchMap := by
      rw [Groups.addEntry]
      split <;> rfl
    rw [firstMother_snoc, ← h.first, hrow, Bool.true_and, Groups.insert, hsame]
    by_cases hc : c = row.child
    · subst hc
      cases hfound : s.poolSearchMap row.child with
      | none => simp
      | some m => simp [hsame, hfound]
    · have hbeq : (row.child == c) = false := beq_false_of_ne (Ne.symm hc)
      simp only [hbeq, Bool.false_eq_true, if_false, Option.or_none]
      split
      · rw [hsame]
      · exact Function.update_of_ne hc ..

theorem holdsRows_load (rows : List Row) :
    HoldsRows maxPoolId maxLimit rows (rows.foldl (Groups.loadRow maxPoolId maxLimit) .empty) := by
  induction rows using List.reverseRecOn with
  | nil => exact ⟨fun _ _ => rfl, fun _ _ => rfl, fun _ => rfl⟩
  | append_singleton rows row ih =>
    rw [List.foldl_append]
    exact ih.snoc row

variable {c m : ℕ}

theorem firstMother_row (maxLimit : ℕ → ℕ) (h : firstMother maxPoolId rows c = some m) :
    c ≤ maxPoolId ∧ m ≤ maxPoolId ∧ m ≠ c ∧
      ∃ explicitly, 0 < rowCount maxPoolId maxLimit rows explicitly c m := by
  obtain ⟨row, hfind, rfl⟩ := Option.map_eq_some_iff.mp h
  have hmem := List.mem_of_find?_eq_some hfind
  have hsome := List.find?_some hfind
  simp only [Bool.and_eq_true, beq_iff_eq] at hsome
  obtain ⟨hacc, rfl⟩ := hsome
  have hchecks := hacc
  simp only [Row.accepted, decide_eq_true_eq] at hchecks
  refine ⟨hchecks.2.1, hchecks.1, hchecks.2.2.1, row.explicitly maxLimit, ?_⟩
  exact List.countP_pos_iff.mpr ⟨row, hmem, by simp [hacc]⟩

/-! ### The pass -/

/-- A start of the pass: the search map is broken below `i`, and each list has lost one entry of
every closing link. -/
structure Passed (maxPoolId : ℕ) (maxLimit : ℕ → ℕ) (rows : List Row) (i : ℕ) (s : Groups) : Prop where
  broken : Broken (firstMother maxPoolId rows) i s.poolSearchMap
  closed : ∀ c m, Closed (firstMother maxPoolId rows) i c m →
    (s.explicitlyChanced m).count c = rowCount maxPoolId maxLimit rows true c m - 1 ∧
      (s.equalChanced m).count c = rowCount maxPoolId maxLimit rows false c m - 1
  kept : ∀ c m, ¬Closed (firstMother maxPoolId rows) i c m →
    (s.explicitlyChanced m).count c = rowCount maxPoolId maxLimit rows true c m ∧
      (s.equalChanced m).count c = rowCount maxPoolId maxLimit rows false c m

theorem HoldsRows.passed (h : HoldsRows maxPoolId maxLimit rows s) :
    Passed maxPoolId maxLimit rows 0 s where
  broken := by
    rw [funext h.first]
    exact .zero
  closed := by
    rintro c m ⟨j, hj, _⟩
    exact absurd hj (Nat.not_lt_zero j)
  kept := fun c m _ => ⟨h.explicitly c m, h.equal c m⟩

theorem count_erase_update (table : ℕ → List ℕ) (m m' c c' : ℕ) :
    (Function.update table m ((table m).erase c) m').count c' =
      (table m').count c' - if c' = c ∧ m' = m then 1 else 0 := by
  by_cases hm : m' = m
  · subst hm
    rw [Function.update_self, List.count_erase]
    by_cases hc : c' = c
    · simp [hc]
    · simp [hc, Ne.symm hc]
  · rw [Function.update_of_ne hm]
    simp [hm]

theorem Passed.next {i : ℕ} (h : Passed maxPoolId maxLimit rows i s) :
    ∃ s', s.checkCircular maxPoolId i = some s' ∧ Passed maxPoolId maxLimit rows (i + 1) s' := by
  have hpoints : ∀ x y, s.poolSearchMap x = some y → x ∈ Finset.range (maxPoolId + 1) := by
    intro x y hxy
    have hle := (firstMother_row maxLimit (h.broken.sub x y hxy)).1
    exact Finset.mem_range.mpr (by omega)
  have hfuel : (Finset.range (maxPoolId + 1)).card < maxPoolId + 2 + ([] : List ℕ).length := by
    rw [Finset.card_range]
    simp
  obtain ⟨result, hresult⟩ :=
    Option.isSome_iff_exists.mp (search_isSome hpoints (.start (i := i)) (by simp) hfuel)
  rw [Groups.checkCircular, hresult]
  cases result with
  | none =>
    obtain ⟨last, hlead, hlast⟩ := search_ended .start hresult
    have hsame := h.broken.ended hlead hlast
    refine ⟨s, rfl, h.broken.next_of_ended hlead hlast, fun c m hc => ?_, fun c m hc => ?_⟩
    · exact h.closed c m ((hsame c m).mp hc)
    · exact h.kept c m fun hc' => hc ((hsame c m).mpr hc')
  | some link =>
    obtain ⟨c, m⟩ := link
    have hcloses := search_found .start hresult
    have hnew := h.broken.found hcloses
    have hopen : ¬Closed (firstMother maxPoolId rows) i c m := by
      intro hclosed
      have hgone := (h.broken.gone c m (h.broken.sub c m hcloses.next)).mpr hclosed
      rw [hcloses.next] at hgone
      cases hgone
    refine ⟨_, rfl, h.broken.next_of_found hcloses, fun c' m' hc => ?_, fun c' m' hc => ?_⟩
    · simp only [Groups.removeOneRelation, count_erase_update]
      rcases (hnew c' m').mp hc with hold | ⟨rfl, rfl⟩
      · have hne : ¬(c' = c ∧ m' = m) := by
          rintro ⟨rfl, rfl⟩
          exact hopen hold
        rw [if_neg hne]
        exact h.closed c' m' hold
      · rw [if_pos ⟨rfl, rfl⟩, (h.kept c' m' hopen).1, (h.kept c' m' hopen).2]
        exact ⟨rfl, rfl⟩
    · simp only [Groups.removeOneRelation, count_erase_update]
      have hne : ¬(c' = c ∧ m' = m) := fun heq => hc ((hnew c' m').mpr (.inr heq))
      rw [if_neg hne]
      exact h.kept c' m' fun hold => hc ((hnew c' m').mpr (.inl hold))

theorem loadPools_passed (maxPoolId : ℕ) (maxLimit : ℕ → ℕ) (rows : List Row) :
    ∃ s, Groups.loadPools maxPoolId maxLimit rows = some s ∧
      Passed maxPoolId maxLimit rows maxPoolId s := by
  have hpass : ∀ n, ∃ s, (List.range n).foldlM (Groups.checkCircular maxPoolId)
      (rows.foldl (Groups.loadRow maxPoolId maxLimit) .empty) = some s ∧
        Passed maxPoolId maxLimit rows n s := by
    intro n
    induction n with
    | zero => exact ⟨_, rfl, (holdsRows_load rows).passed⟩
    | succ n ih =>
      obtain ⟨s, hs, hpassed⟩ := ih
      obtain ⟨s', hs', hnext⟩ := hpassed.next
      refine ⟨s', ?_, hnext⟩
      rw [List.range_succ, List.foldlM_append, hs]
      simp [hs']
  exact hpass maxPoolId

/-! ### The groups after the pass -/

/-- The link closes a circle of first mothers for the lowest pool that leads to the circle. -/
def Closing (maxPoolId : ℕ) (rows : List Row) (c m : ℕ) : Prop :=
  ∃ j, (∀ l < j, ¬Leads (firstMother maxPoolId rows) l c) ∧ Closes (firstMother maxPoolId rows) j c m

def Repeated (maxPoolId : ℕ) (maxLimit : ℕ → ℕ) (rows : List Row) (c m : ℕ) : Prop :=
  ∃ explicitly, 2 ≤ rowCount maxPoolId maxLimit rows explicitly c m

def Kept (maxPoolId : ℕ) (maxLimit : ℕ → ℕ) (rows : List Row) (c m : ℕ) : Prop :=
  (∃ row ∈ rows, row.accepted maxPoolId = true ∧ row.child = c ∧ row.mother = m) ∧
    (Closing maxPoolId rows c m → Repeated maxPoolId maxLimit rows c m)

theorem closed_iff_closing : Closed (firstMother maxPoolId rows) maxPoolId c m ↔ Closing maxPoolId rows c m := by
  constructor
  · rintro ⟨j, _, hfirst, hcloses⟩
    exact ⟨j, hfirst, hcloses⟩
  · rintro ⟨j, hfirst, hcloses⟩
    obtain ⟨hc, hm, hne, _⟩ := firstMother_row (fun _ => 0) hcloses.next
    have hcj : j ≤ c := by
      by_contra hlt
      exact hfirst c (by omega) .refl
    have hmj : j ≤ m := by
      by_contra hlt
      exact hfirst m (by omega) (hcloses.circle.next_leads hcloses.next)
    exact ⟨j, by omega, hfirst, hcloses⟩

theorem exists_row_iff (maxLimit : ℕ → ℕ) :
    (∃ row ∈ rows, row.accepted maxPoolId = true ∧ row.child = c ∧ row.mother = m) ↔
      0 < rowCount maxPoolId maxLimit rows true c m ∨
        0 < rowCount maxPoolId maxLimit rows false c m := by
  simp only [rowCount, List.countP_pos_iff, Bool.and_eq_true, beq_iff_eq]
  constructor
  · rintro ⟨row, hrow, hacc, hc, hm⟩
    cases hkind : row.explicitly maxLimit with
    | true => exact .inl ⟨row, hrow, ⟨⟨hacc, hkind⟩, hc⟩, hm⟩
    | false => exact .inr ⟨row, hrow, ⟨⟨hacc, hkind⟩, hc⟩, hm⟩
  · rintro (⟨row, hrow, ⟨⟨hacc, _⟩, hc⟩, hm⟩ | ⟨row, hrow, ⟨⟨hacc, _⟩, hc⟩, hm⟩) <;>
      exact ⟨row, hrow, hacc, hc, hm⟩

theorem Passed.isEntry_iff (h : Passed maxPoolId maxLimit rows maxPoolId s) (c m : ℕ) :
    s.IsEntry c m ↔ Kept maxPoolId maxLimit rows c m := by
  rw [Groups.IsEntry, ← List.count_pos_iff, ← List.count_pos_iff, Kept,
    exists_row_iff maxLimit, ← closed_iff_closing, Repeated, Bool.exists_bool]
  by_cases hc : Closed (firstMother maxPoolId rows) maxPoolId c m
  · rw [(h.closed c m hc).1, (h.closed c m hc).2]
    simp only [hc, true_imp_iff]
    omega
  · rw [(h.kept c m hc).1, (h.kept c m hc).2]
    simp only [hc, false_imp_iff, and_true]

theorem Passed.entry_le (h : Passed maxPoolId maxLimit rows maxPoolId s)
    (hentry : s.IsEntry c m) : c ≤ maxPoolId := by
  obtain ⟨⟨row, _, hacc, rfl, _⟩, _⟩ := (h.isEntry_iff c m).mp hentry
  simp only [Row.accepted, decide_eq_true_eq] at hacc
  exact hacc.2.1

/-- After the pass no circle is left, and the nested calls from every pool end, exactly when
every circle of rows has a link that closes a circle of first mothers and is not repeated. -/
theorem circular_pools_broken (maxPoolId : ℕ) (maxLimit : ℕ → ℕ) (rows : List Row) :
    ∃ s, Groups.loadPools maxPoolId maxLimit rows = some s ∧
      (((∀ p, ¬TransGen s.IsEntry p p) ∧ ∀ p, Acc s.IsEntry p) ↔
        ∀ p, ¬TransGen (Kept maxPoolId maxLimit rows) p p) := by
  obtain ⟨s, hs, hpassed⟩ := loadPools_passed maxPoolId maxLimit rows
  refine ⟨s, hs, ?_⟩
  have hsame : s.IsEntry = Kept maxPoolId maxLimit rows := by
    funext c m
    exact propext (hpassed.isEntry_iff c m)
  rw [← hsame]
  constructor
  · exact fun h => h.1
  · intro h
    exact ⟨h, (wellFounded_of_acyclic (fun c m => hpassed.entry_le) h).apply⟩

/-- Child 1 has two mothers: the search map keeps 2, and the circle goes through 3. -/
theorem second_mother_circle :
    ¬∀ (maxPoolId : ℕ) (maxLimit : ℕ → ℕ) (rows : List Row), ∃ s,
      Groups.loadPools maxPoolId maxLimit rows = some s ∧ ∀ p, ¬TransGen s.IsEntry p p := by
  intro h
  obtain ⟨s, hs, hacyclic⟩ := h 3 (fun _ => 1) [⟨1, 2, 0⟩, ⟨1, 3, 0⟩, ⟨3, 1, 0⟩]
  have hlists : (Groups.loadPools 3 (fun _ => 1) [⟨1, 2, 0⟩, ⟨1, 3, 0⟩, ⟨3, 1, 0⟩]).map
      (fun s => (s.equalChanced 3, s.equalChanced 1)) = some ([1], [3]) := by
    decide +kernel
  rw [hs] at hlists
  obtain ⟨hthree, hone⟩ := Prod.mk.inj (Option.some.inj hlists)
  have h13 : s.IsEntry 1 3 := .inr (by rw [hthree]; exact List.mem_singleton_self 1)
  have h31 : s.IsEntry 3 1 := .inr (by rw [hone]; exact List.mem_singleton_self 3)
  exact hacyclic 1 (.tail (.single h13) h31)

/-- The tables that `SpawnPool` and `DespawnPool` recurse over can be formed from the groups, with a rank for
each pool, exactly when the entries end. -/
theorem exists_tables_iff (hs : Groups.loadPools maxPoolId maxLimit rows = some s)
    {members : List Pools.Row} (questTemplate : ℕ → Option QuestTemplate)
    (hentries : ∀ c m, s.IsEntry c m ↔ ∃ r ∈ members, r.kind = .pool ∧ r.guid = c ∧ r.pool = m)
    (hlimit : ∀ p, maxLimit p < 2 ^ 32) (hdistinct : (members.map fun r => (r.kind, r.guid)).Nodup)
    (hkind : ∀ r ∈ members, ∀ r' ∈ members, r.pool = r'.pool → r.kind = r'.kind)
    (hquest : ∀ r ∈ members, r.kind = .quest → r.chance = 0) :
    (∃ T : Tables, T.maxPoolId = maxPoolId ∧ T.maxLimit = maxLimit ∧ T.rows = members) ↔ ∀ p, Acc s.IsEntry p := by
  constructor
  · rintro ⟨T, -, -, rfl⟩ p
    refine Subrelation.accessible (fun {c m} hentry => ?_) ((measure T.rank).wf.apply p)
    obtain ⟨r, hr, hpool, rfl, rfl⟩ := (hentries c m).mp hentry
    exact T.ranked r hr hpool
  · intro hacc
    obtain ⟨s', hs', hpassed⟩ := loadPools_passed maxPoolId maxLimit rows
    obtain rfl := Option.some.inj (hs.symm.trans hs')
    have hacyclic : ∀ p, ¬TransGen s.IsEntry p p := (WellFounded.intro hacc).transGen.irrefl.irrefl
    obtain ⟨rank, hrank⟩ := exists_rank_of_acyclic (fun c m => hpassed.entry_le) hacyclic
    have hranked : ∀ r ∈ members, r.kind = .pool → rank r.guid < rank r.pool := fun r hr hpool =>
      hrank r.guid r.pool ((hentries r.guid r.pool).mpr ⟨r, hr, hpool, rfl, rfl⟩)
    exact ⟨⟨maxPoolId, maxLimit, members, questTemplate, rank, hlimit, hdistinct, hkind, hranked, hquest⟩, rfl, rfl, rfl⟩

/-! ### Children with one mother -/

theorem Passed.search_acyclic (h : Passed maxPoolId maxLimit rows maxPoolId s) (p : ℕ) :
    ¬OnCircle s.poolSearchMap p := by
  intro hp
  obtain ⟨m, hm⟩ := hp.exists_next
  obtain ⟨hple, hmle, hne, _⟩ := firstMother_row maxLimit (h.broken.sub p m hm)
  rcases Nat.lt_or_ge p maxPoolId with hlt | hge
  · exact h.broken.unreached hp hlt .refl
  · exact h.broken.unreached (hp.of_next hm) (by omega) .refl

def childRows (maxPoolId : ℕ) (rows : List Row) (c : ℕ) : List Row :=
  rows.filter fun row => row.accepted maxPoolId && row.child == c

theorem firstMother_of_single {row : Row} (hrow : row ∈ rows) (hacc : row.accepted maxPoolId = true)
    (hone : (childRows maxPoolId rows row.child).length ≤ 1) :
    firstMother maxPoolId rows row.child = some row.mother := by
  have hmem : row ∈ childRows maxPoolId rows row.child :=
    List.mem_filter.mpr ⟨hrow, by simp [hacc]⟩
  have hhead : (childRows maxPoolId rows row.child).head? = some row := by
    cases hlist : childRows maxPoolId rows row.child with
    | nil =>
      rw [hlist] at hmem
      cases hmem
    | cons first rest =>
      rw [hlist] at hmem hone
      obtain rfl : rest = [] := List.eq_nil_of_length_eq_zero (by rw [List.length_cons] at hone; omega)
      rw [List.mem_singleton.mp hmem]
      rfl
  rw [firstMother, ← List.head?_filter]
  exact congrArg (Option.map Row.mother) hhead

theorem not_repeated_of_single (hone : (childRows maxPoolId rows c).length ≤ 1) :
    ¬Repeated maxPoolId maxLimit rows c m := by
  rintro ⟨explicitly, htwo⟩
  have hle : rowCount maxPoolId maxLimit rows explicitly c m ≤
      rows.countP fun row => row.accepted maxPoolId && row.child == c := by
    refine List.countP_mono_left fun row _ hrow => ?_
    simp only [Bool.and_eq_true] at hrow ⊢
    exact ⟨hrow.1.1.1, hrow.1.2⟩
  rw [List.countP_eq_length_filter] at hle
  unfold childRows at hone
  omega

theorem one_mother_broken (hone : ∀ c, (childRows maxPoolId rows c).length ≤ 1) :
    ∃ s, Groups.loadPools maxPoolId maxLimit rows = some s ∧ (∀ p, ¬TransGen s.IsEntry p p) ∧ ∀ p, Acc s.IsEntry p := by
  obtain ⟨s, hs, hpassed⟩ := loadPools_passed maxPoolId maxLimit rows
  have hacyclic : ∀ p, ¬TransGen s.IsEntry p p := by
    intro p hp
    refine hpassed.search_acyclic p (TransGen.mono (fun c m hentry => ?_) p p hp)
    obtain ⟨⟨row, hrow, hacc, rfl, rfl⟩, hclosing⟩ := (hpassed.isEntry_iff c m).mp hentry
    have hfirst := firstMother_of_single hrow hacc (hone row.child)
    have hopen : ¬Closed (firstMother maxPoolId rows) maxPoolId row.child row.mother := fun hclosed =>
      not_repeated_of_single (hone row.child) (hclosing (closed_iff_closing.mp hclosed))
    cases hnext : s.poolSearchMap row.child with
    | none => exact absurd ((hpassed.broken.gone _ _ hfirst).mp hnext) hopen
    | some m => exact hnext.trans ((hpassed.broken.sub _ _ hnext).symm.trans hfirst)
  exact ⟨s, hs, hacyclic, (wellFounded_of_acyclic (fun c m => hpassed.entry_le) hacyclic).apply⟩

theorem one_mother_broken_two :
    ∃ s, Groups.loadPools 2 (fun _ => 1) [⟨1, 2, 0⟩, ⟨2, 1, 0⟩] = some s ∧ (∀ p, ¬TransGen s.IsEntry p p) ∧
      ∀ p, Acc s.IsEntry p := by
  apply one_mother_broken
  intro c
  match c with
  | 1 | 2 => decide
  | 0 | c + 3 => exact Nat.zero_le 1

end HysteriaCore.Pools.Circular
