import HysteriaCore.Rebase.Passes
import Mathlib.Data.List.GetD
import Mathlib.Data.Set.Function
import Mathlib.Order.Interval.Set.Defs

/-!
# The rebase as a renaming of the item guids

The tables come back with their item guids renamed by one bijection exactly where every
statement is sent as a whole and nothing in it is changed on the way.
-/

namespace HysteriaCore.Rebase
open Lib Sql

/-! ### Renaming -/

def guids (db : Database) : List ℕ :=
  (db.rows .itemInstance).map fun row => getUInt32 (field row 0)

def position (db : Database) (g : ℕ) : ℕ := (guids db).idxOf g + 1

def renameCell (f : ℕ → ℕ) (t : Table) (i : ℕ) (c : Cell) : Cell :=
  match t.column i with
  | .item => some (decimal (f (getUInt32 c)))
  | .bag => if getUInt32 c = 0 then c else some (decimal (f (getUInt32 c)))
  | .other => c

def renameRow (f : ℕ → ℕ) (t : Table) (row : Row) : Row := row.mapIdx (renameCell f t)

/-- A row of a table that the rebase does not know, with item guids in the columns `cols`. -/
def renameOther (f : ℕ → ℕ) (items cols : List ℕ) (row : Row) : Row :=
  row.mapIdx fun i c =>
    if i ∈ cols ∧ c.isSome = true ∧ getUInt32 c ∈ items then some (decimal (f (getUInt32 c)))
    else c

def Renamed (old new : Database) : Prop :=
  ∃ f : ℕ → ℕ, Set.BijOn f {g | g ∈ guids old} (Set.Icc 1 (guids old).length) ∧
    (∀ t, new.rows t = (old.rows t).map (renameRow f t)) ∧
    new.others = old.others.map fun p => (p.1, p.2.map (renameOther f (guids old) p.1))

structure Consistent (S : Schema) (db : Database) : Prop where
  distinct : (guids db).Nodup
  item : ∀ t, ∀ row ∈ db.rows t, ∃ g ∈ guids db, field row t.offset = some (decimal g)
  bag : ∀ row ∈ db.rows .characterInventory,
    ∃ g, (g = 0 ∨ g ∈ guids db) ∧ field row 1 = some (decimal g)
  numeric : ∀ t, ∀ row ∈ db.rows t, ∀ i, S.numeric t i = true → field row i ≠ some []
  keys : ∀ t, (db.rows t).Pairwise fun r q => conflict (S.keys t) r q = false
  others : ∀ p ∈ db.others, ∀ row ∈ p.2, ∀ i ∈ p.1,
    field row i = none ∨ ∃ g < 2 ^ 32, field row i = some (decimal g)

def Database.holding (db : Database) (rows : Table → List Row) : Database :=
  { db with rows := rows }

/-- What `Begin` works from: the copies that an earlier run has left over, and the tables. -/
def Database.source (db : Database) : Database :=
  db.holding fun t => (db.temp t).getD (db.rows t)

def Faithful (S : Schema) (m : ItemMap) (db : Database) (old : Table → List Row) : Prop :=
  ∃ new, begin S m db = some new ∧ Renamed (db.holding old) new

/-! ### Where it is one -/

def KeepsCell (numeric printf : Bool) : Cell → Prop
  | none => numeric = true
  | some s => 0 ∉ s ∧ (printf = true → 37 ∉ s)

structure Arrives (S : Schema) (db : Database) : Prop where
  cells : ∀ t, ∀ row ∈ db.rows t, ∀ i < row.length, t.column i = .other →
    KeepsCell (S.numeric t i) t.printf (field row i)
  sendable : ∀ t, Sendable t ((db.rows t).map (renameRow (position db) t))

def SameNumbered (a b : Database) : Prop :=
  ∀ t, (a.rows t).map (renameRow (position a) t) = (b.rows t).map (renameRow (position b) t)

def KeepsOthers (db : Database) : Prop :=
  ∀ p ∈ db.others, ∀ row ∈ p.2, ∀ i ∈ p.1, ∀ g ∈ guids db,
    field row i = some (decimal g) → position db g = g

/-! ### Cells -/

variable {g : ℕ}

theorem getUInt32_decimal (hg : g < 2 ^ 32) : getUInt32 (some (decimal g)) = g := by
  simp only [getUInt32, Option.getD_some, digits_decimal]
  exact u32_of_lt hg

theorem lt_of_mem_guids {db : Database} (h : g ∈ guids db) : g < 2 ^ 32 := by
  obtain ⟨row, -, rfl⟩ := List.mem_map.mp h
  exact u32_lt _

theorem decimal_no_percent (n : ℕ) : 37 ∉ decimal n := by
  intro h
  have hlow : 48 ≤ (37 : UInt8).toNat := (mem_decimal h).1
  exact absurd hlow (by decide)

theorem decimal_no_nul (n : ℕ) : 0 ∉ decimal n := by
  intro h
  have hlow : 48 ≤ (0 : UInt8).toNat := (mem_decimal h).1
  exact absurd hlow (by decide)

variable {c : Cell}

theorem copied_eq_self {numeric printf : Bool} (h : KeepsCell numeric printf c)
    (hnum : numeric = true → c ≠ some []) : copied numeric c = c := by
  cases c with
  | none =>
    have hnum : numeric = true := h
    simp [copied, getString, cstr, hnum]
  | some s =>
    have hs : getString (some s) = s := cstr_eq_self.mpr h.1
    rw [copied, hs]
    split_ifs with hnil hn
    · subst hnil
      exact absurd rfl (hnum hn)
    · rw [hnil]
    · rfl

def Table.arrives (t : Table) (c : Cell) : Option Cell := if t.printf then formatCell c else some c

variable {t : Table}

theorem arrives_of_keepsCell {numeric : Bool} (h : KeepsCell numeric t.printf c) : t.arrives c = some c := by
  unfold Table.arrives
  split_ifs with ht
  · cases c with
    | none => rfl
    | some s =>
      rw [formatCell, format_eq_self (h.2 ht)]
      rfl
  · rfl

theorem keepsCell_of_arrives {numeric : Bool}
    (h : t.arrives (copied numeric c) = some c) : KeepsCell numeric t.printf c := by
  cases c with
  | none =>
    have hnil : getString none = [] := rfl
    cases numeric with
    | true => rfl
    | false =>
      rw [copied, hnil, Table.arrives] at h
      cases hp : t.printf <;> simp [hp, formatCell, format] at h
  | some s =>
    have hlen : (getString (some s)).length ≤ s.length := (List.takeWhile_sublist _).length_le
    have hkeep : ∀ u, t.arrives (some u) = some (some s) → u.length ≤ s.length →
        (u.length = s.length → u = s) → u = s ∧ (t.printf = true → 37 ∉ s) := by
      intro u hu hle heq
      unfold Table.arrives at hu
      split_ifs at hu with hp
      · obtain ⟨w, hw, hws⟩ := Option.map_eq_some_iff.mp hu
        obtain rfl : w = s := Option.some.inj hws
        obtain ⟨hshort, -⟩ := format_length hw
        obtain rfl := heq (by omega)
        exact ⟨rfl, fun _ => format_eq_some_self.mp hw⟩
      · obtain rfl : u = s := Option.some.inj (Option.some.inj hu)
        exact ⟨rfl, fun hp' => absurd hp' hp⟩
    have hself : getString (some s) = s ∧ (t.printf = true → 37 ∉ s) := by
      apply hkeep
      · rw [copied] at h
        split_ifs at h with hnil hn
        · exfalso
          cases hp : t.printf <;> simp [Table.arrives, hp, formatCell] at h
        · rw [hnil]
          exact h
        · exact h
      · exact hlen
      · intro heq
        exact (List.takeWhile_prefix _).eq_of_length heq
    exact ⟨cstr_eq_self.mp hself.1, hself.2⟩

/-! ### Rows -/

variable {i : ℕ}

theorem column_item : t.column i = .item ↔ i = t.offset := by
  unfold Table.column
  split_ifs with hi hb <;> simp [hi]

theorem column_bag (h : t.column i = .bag) : t = .characterInventory ∧ i = 1 := by
  unfold Table.column at h
  split_ifs at h with hi hb
  exact hb

variable {m : ItemMap}

section Rows
variable {S : Schema} {db : Database} {f v : ℕ → ℕ} {t : Table} {row : Row} {i : ℕ}

theorem Consistent.item_field (hc : Consistent S db) (hrow : row ∈ db.rows t)
    (hcol : t.column i = .item) : ∃ g ∈ guids db, field row i = some (decimal g) := by
  rw [column_item.mp hcol]
  exact hc.item t row hrow

theorem Consistent.bag_field (hc : Consistent S db) (hrow : row ∈ db.rows t)
    (hcol : t.column i = .bag) : field row i = some (decimal 0) ∨
      ∃ g ∈ guids db, g ≠ 0 ∧ field row i = some (decimal g) := by
  obtain ⟨rfl, rfl⟩ := column_bag hcol
  obtain ⟨g, hg, hfield⟩ := hc.bag row hrow
  by_cases hzero : g = 0
  · rw [hzero] at hfield
    exact .inl hfield
  · exact .inr ⟨g, hg.resolve_left hzero, hzero, hfield⟩

theorem Consistent.row_ne_nil (hc : Consistent S db) (hrow : row ∈ db.rows t) : row ≠ [] := by
  rintro rfl
  obtain ⟨g, -, hfield⟩ := hc.item t [] hrow
  cases hfield

theorem renameCell_item (hcol : t.column i = .item) (hg : g < 2 ^ 32) :
    renameCell f t i (some (decimal g)) = some (decimal (f g)) := by
  simp only [renameCell, hcol, getUInt32_decimal hg]

theorem renameCell_bag (hcol : t.column i = .bag) (hg : g < 2 ^ 32) (hne : g ≠ 0) :
    renameCell f t i (some (decimal g)) = some (decimal (f g)) := by
  simp only [renameCell, hcol, getUInt32_decimal hg, hne, if_false]

theorem renameCell_noBag (hcol : t.column i = .bag) :
    renameCell f t i (some (decimal 0)) = some (decimal 0) := by
  have hzero : getUInt32 (some (decimal 0)) = 0 := getUInt32_decimal (by decide)
  simp only [renameCell, hcol, hzero, if_true]

theorem renameCell_other (hcol : t.column i = .other) : renameCell f t i c = c := by
  simp only [renameCell, hcol]

theorem field_renameRow (hi : i < row.length) :
    field (renameRow f t row) i = renameCell f t i (field row i) := by
  simp [field, renameRow, hi]

theorem length_of_renamed (h : (field (renameRow f t row) i).isSome = true) : i < row.length := by
  have hlen := length_of_field h
  rwa [renameRow, List.length_mapIdx] at hlen

theorem keepsCell_decimal (numeric printf : Bool) (n : ℕ) :
    KeepsCell numeric printf (some (decimal n)) :=
  ⟨decimal_no_nul n, fun _ => decimal_no_percent n⟩

theorem Consistent.written_eq (hc : Consistent S db) (hrow : row ∈ db.rows t)
    (hv : ∀ g ∈ guids db, v g = f g)
    (hcells : ∀ i < row.length, t.column i = .other →
      KeepsCell (S.numeric t i) t.printf (field row i)) :
    written S v t row = renameRow f t row := by
  apply mapIdx_congr_field
  intro i hi
  cases hcol : t.column i with
  | item =>
    obtain ⟨g, hg, hfield⟩ := hc.item_field hrow hcol
    have hlt := lt_of_mem_guids hg
    rw [hfield, renameCell_item hcol hlt]
    simp only [writtenCell, hcol, getUInt32_decimal hlt, hv g hg]
  | bag =>
    rcases hc.bag_field hrow hcol with hfield | ⟨g, hg, hne, hfield⟩
    · have hzero : getUInt32 (some (decimal 0)) = 0 := getUInt32_decimal (by decide)
      have hcopy : copied (S.numeric t i) (some (decimal 0)) = some (decimal 0) :=
        copied_eq_self (keepsCell_decimal _ true 0) fun _ h => decimal_ne_nil 0 (Option.some.inj h)
      rw [hfield, renameCell_noBag hcol]
      simp only [writtenCell, hcol, hzero, if_true, hcopy]
    · have hlt := lt_of_mem_guids hg
      rw [hfield, renameCell_bag hcol hlt hne]
      simp only [writtenCell, hcol, getUInt32_decimal hlt, hne, if_false, hv g hg]
  | other =>
    rw [renameCell_other hcol]
    simp only [writtenCell, hcol]
    exact copied_eq_self (hcells i hi hcol) (hc.numeric t row hrow i)

theorem Consistent.renameRow_congr (hc : Consistent S db) (hrow : row ∈ db.rows t) {f' : ℕ → ℕ}
    (h : ∀ g ∈ guids db, f g = f' g) : renameRow f t row = renameRow f' t row := by
  apply mapIdx_congr_field
  intro i _
  cases hcol : t.column i with
  | item =>
    obtain ⟨g, hg, hfield⟩ := hc.item_field hrow hcol
    have hlt := lt_of_mem_guids hg
    rw [hfield, renameCell_item hcol hlt, renameCell_item hcol hlt, h g hg]
  | bag =>
    rcases hc.bag_field hrow hcol with hfield | ⟨g, hg, hne, hfield⟩
    · rw [hfield, renameCell_noBag hcol, renameCell_noBag hcol]
    · have hlt := lt_of_mem_guids hg
      rw [hfield, renameCell_bag hcol hlt hne, renameCell_bag hcol hlt hne, h g hg]
  | other =>
    rw [renameCell_other hcol, renameCell_other hcol]

theorem Consistent.numbers (hc : Consistent S db) (hrow : row ∈ db.rows t)
    (hm : ∀ g ∈ guids db, m g = some (v g)) : Numbers m v t row := by
  constructor
  · obtain ⟨g, hg, hfield⟩ := hc.item t row hrow
    rw [hfield, getUInt32_decimal (lt_of_mem_guids hg)]
    exact hm g hg
  · rintro rfl hbag
    obtain ⟨g, hg, hfield⟩ := hc.bag row hrow
    rcases hg with rfl | hg
    · rw [hfield, getUInt32_decimal (by decide)] at hbag
      exact absurd rfl hbag
    · rw [hfield, getUInt32_decimal (lt_of_mem_guids hg)]
      exact hm g hg

theorem Consistent.formatRow_renameRow (hc : Consistent S db) (hrow : row ∈ db.rows t)
    (ht : t.printf = true)
    (hcells : ∀ i < row.length, t.column i = .other →
      KeepsCell (S.numeric t i) t.printf (field row i)) :
    formatRow (renameRow f t row) = some (renameRow f t row) := by
  have hcell : ∀ {numeric : Bool} {c : Cell}, KeepsCell numeric t.printf c →
      formatCell c = some c := by
    intro numeric c hkeep
    have harrives := arrives_of_keepsCell hkeep
    rwa [Table.arrives, if_pos ht] at harrives
  rw [formatRow, mapM_eq_some_iff, List.forall₂_same]
  intro c hmem
  obtain ⟨i, hi, rfl⟩ := List.mem_mapIdx.mp hmem
  rw [← field_eq_getElem hi]
  cases hcol : t.column i with
  | item =>
    obtain ⟨g, hg, hfield⟩ := hc.item_field hrow hcol
    rw [hfield, renameCell_item hcol (lt_of_mem_guids hg)]
    exact hcell (keepsCell_decimal false _ _)
  | bag =>
    obtain ⟨rfl, -⟩ := column_bag hcol
    cases ht
  | other =>
    rw [renameCell_other hcol]
    exact hcell (hcells i hi hcol)

theorem formatted_field {src : List Row}
    (h : t.formatted (src.map (written S v t)) = some (src.map (renameRow f t)))
    (hrow : row ∈ src) (hi : i < row.length) :
    t.arrives (writtenCell S v t i (field row i)) = some (renameCell f t i (field row i)) := by
  have hget := field_eq_getElem hi
  unfold Table.formatted at h
  unfold Table.arrives
  split_ifs at h ⊢ with ht
  · rw [formatRows, mapM_eq_some_iff, List.forall₂_map_left_iff, List.forall₂_map_right_iff,
      List.forall₂_same] at h
    have hfmt := mapM_eq_some_iff.mp (h row hrow)
    have hcell := hfmt.get (i := i) (by simpa [written] using hi) (by simpa [renameRow] using hi)
    rw [hget]
    simpa [written, renameRow] using hcell
  · have heq := List.map_inj_left.mp (Option.some.inj h) row hrow
    rw [written, renameRow, List.mapIdx_eq_mapIdx_iff] at heq
    rw [hget, heq i hi]

end Rows

/-! ### Keys -/

section Keys
variable {S : Schema} {db : Database} {f : ℕ → ℕ} {t : Table} {r q : Row}

theorem Consistent.field_eq_of_renamed (hc : Consistent S db) (hr : r ∈ db.rows t)
    (hq : q ∈ db.rows t) (hinj : Set.InjOn f {g | g ∈ guids db}) (hpos : ∀ g ∈ guids db, f g ≠ 0)
    (hsome : (field (renameRow f t r) i).isSome = true)
    (heq : field (renameRow f t r) i = field (renameRow f t q) i) :
    (field r i).isSome = true ∧ field r i = field q i := by
  have hri : i < r.length := length_of_renamed hsome
  have hqi : i < q.length := by
    rw [heq] at hsome
    exact length_of_renamed hsome
  rw [field_renameRow hri] at hsome heq
  rw [field_renameRow hqi] at heq
  cases hcol : t.column i with
  | item =>
    obtain ⟨g, hg, hfield⟩ := hc.item_field hr hcol
    obtain ⟨k, hk, hfield'⟩ := hc.item_field hq hcol
    rw [hfield, hfield', renameCell_item hcol (lt_of_mem_guids hg),
      renameCell_item hcol (lt_of_mem_guids hk)] at heq
    have hgk : g = k := hinj hg hk (decimal_injective (Option.some.inj heq))
    rw [hfield, hfield', hgk]
    exact ⟨rfl, rfl⟩
  | bag =>
    rcases hc.bag_field hr hcol with hfield | ⟨g, hg, hne, hfield⟩
    · rcases hc.bag_field hq hcol with hfield' | ⟨k, hk, hne', hfield'⟩
      · rw [hfield, hfield']
        exact ⟨rfl, rfl⟩
      · rw [hfield, hfield', renameCell_noBag hcol,
          renameCell_bag hcol (lt_of_mem_guids hk) hne'] at heq
        exact absurd (decimal_injective (Option.some.inj heq)).symm (hpos k hk)
    · rcases hc.bag_field hq hcol with hfield' | ⟨k, hk, hne', hfield'⟩
      · rw [hfield, hfield', renameCell_noBag hcol,
          renameCell_bag hcol (lt_of_mem_guids hg) hne] at heq
        exact absurd (decimal_injective (Option.some.inj heq)) (hpos g hg)
      · rw [hfield, hfield', renameCell_bag hcol (lt_of_mem_guids hg) hne,
          renameCell_bag hcol (lt_of_mem_guids hk) hne'] at heq
        have hgk : g = k := hinj hg hk (decimal_injective (Option.some.inj heq))
        rw [hfield, hfield', hgk]
        exact ⟨rfl, rfl⟩
  | other =>
    rw [renameCell_other hcol] at hsome heq
    rw [renameCell_other hcol] at heq
    exact ⟨hsome, heq⟩

theorem Consistent.renamed_keys (hc : Consistent S db) (t : Table)
    (hinj : Set.InjOn f {g | g ∈ guids db}) (hpos : ∀ g ∈ guids db, f g ≠ 0) :
    ((db.rows t).map (renameRow f t)).Pairwise fun r q => conflict (S.keys t) r q = false := by
  rw [List.pairwise_map]
  refine (hc.keys t).imp_of_mem ?_
  intro r q hr hq hfree
  refine conflict_eq_false ?_ hfree
  intro i hsome heq
  exact hc.field_eq_of_renamed hr hq hinj hpos hsome heq

end Keys

/-! ### Numbers -/

variable {row : Row}

section Numbers
variable {S : Schema} {db : Database} {g : ℕ}

theorem position_pos (db : Database) (g : ℕ) : 1 ≤ position db g := Nat.succ_le_succ (Nat.zero_le _)

theorem position_le (hg : g ∈ guids db) : position db g ≤ (guids db).length :=
  List.idxOf_lt_length_of_mem hg

theorem position_injOn (db : Database) : Set.InjOn (position db) {g | g ∈ guids db} := by
  intro g hg k _ h
  exact (List.idxOf_inj hg).mp (Nat.succ.inj h)

theorem position_bijOn (hnodup : (guids db).Nodup) :
    Set.BijOn (position db) {g | g ∈ guids db} (Set.Icc 1 (guids db).length) := by
  refine ⟨fun g hg => ⟨position_pos db g, position_le hg⟩, position_injOn db, ?_⟩
  rintro k ⟨hlow, hhigh⟩
  have hk : k - 1 < (guids db).length := by omega
  refine ⟨(guids db)[k - 1], List.getElem_mem hk, ?_⟩
  rw [position, hnodup.idxOf_getElem]
  omega

theorem collectGUIDs_of_not_mem {count : ℕ} {rows : List Row}
    (h : g ∉ rows.map fun row => getUInt32 (field row 0)) : collectGUIDs m count rows g = m g := by
  induction rows generalizing m count with
  | nil => rfl
  | cons row rows ih =>
    rw [List.map_cons, List.mem_cons, not_or] at h
    rw [collectGUIDs, ih h.2, Function.update_of_ne h.1]

theorem collectGUIDs_of_mem {count : ℕ} {rows : List Row}
    (hnodup : (rows.map fun row => getUInt32 (field row 0)).Nodup)
    (hg : g ∈ rows.map fun row => getUInt32 (field row 0)) :
    collectGUIDs m count rows g =
      some (u32 (count + (rows.map fun row => getUInt32 (field row 0)).idxOf g + 1)) := by
  induction rows generalizing m count with
  | nil => cases hg
  | cons row rows ih =>
    rw [List.map_cons, List.nodup_cons] at hnodup
    rw [List.map_cons] at hg ⊢
    rw [collectGUIDs]
    by_cases hhead : g = getUInt32 (field row 0)
    · subst hhead
      rw [collectGUIDs_of_not_mem hnodup.1, Function.update_self, List.idxOf_cons_self]
    · have htail := (List.mem_cons.mp hg).resolve_left hhead
      rw [ih hnodup.2 htail, List.idxOf_cons_ne _ (Ne.symm hhead)]
      congr 1
      simp only [u32]
      omega

theorem guids_length_le {w : Row → Row}
    (h : Sendable .itemInstance ((db.rows .itemInstance).map w)) :
    (guids db).length ≤ maxRows := by
  have hlen : ((db.rows .itemInstance).map w).length ≤ maxRows := h
  rw [List.length_map] at hlen
  rw [guids, List.length_map]
  exact hlen

theorem u32_position (hmany : (guids db).length ≤ maxRows) (hg : g ∈ guids db) :
    u32 (position db g) = position db g := by
  have hle := position_le hg
  apply u32_of_lt
  simp only [maxRows] at hmany
  omega

theorem Consistent.renamed_guid (hc : Consistent S db) (hmany : (guids db).length ≤ maxRows)
    (hrow : row ∈ db.rows t) :
    getUInt32 (field row t.offset) ∈ guids db ∧
      getUInt32 (field (renameRow (position db) t row) t.offset) =
        position db (getUInt32 (field row t.offset)) := by
  have hsmall : maxRows < 2 ^ 32 := by decide
  obtain ⟨g, hg, hfield⟩ := hc.item t row hrow
  have hlt := lt_of_mem_guids hg
  have hle := position_le hg
  have hlen : t.offset < row.length := length_of_field (by rw [hfield]; rfl)
  rw [field_renameRow hlen, hfield, renameCell_item (column_item.mpr rfl) hlt,
    getUInt32_decimal hlt, getUInt32_decimal (by omega)]
  exact ⟨hg, rfl⟩

theorem cleanupColumn_eq (h : t.cleanupColumn = some i) : i = t.offset := by
  cases t <;> simp only [Table.cleanupColumn, reduceCtorEq, Option.some.injEq] at h <;>
    exact h.symm

theorem Consistent.deleteFrom_renamed (hc : Consistent S db)
    (hmany : (guids db).length ≤ maxRows) (t : Table) :
    deleteFrom (hiItemGuid ((db.rows .itemInstance).map (renameRow (position db) .itemInstance))) t
        ((db.rows t).map (renameRow (position db) t)) =
      (db.rows t).map (renameRow (position db) t) := by
  have hsmall : maxRows + 1 < 2 ^ 32 := by decide
  have hnumbers : ((db.rows .itemInstance).map (renameRow (position db) .itemInstance)).map
      (fun row => getUInt32 (field row 0)) = (guids db).map (position db) := by
    rw [guids, List.map_map, List.map_map]
    exact List.map_congr_left fun row hrow => (hc.renamed_guid hmany hrow).2
  have hmax : ((guids db).map (position db)).foldl max 0 ≤ (guids db).length := by
    apply foldl_max_le (Nat.zero_le _)
    intro k hk
    obtain ⟨g, hg, rfl⟩ := List.mem_map.mp hk
    exact position_le hg
  have hhi : hiItemGuid ((db.rows .itemInstance).map (renameRow (position db) .itemInstance)) =
      ((guids db).map (position db)).foldl max 0 + 1 := by
    have hfold : ∀ rows : List Row, rows.foldl (fun hi row => max hi (getUInt32 (field row 0))) 0 =
        (rows.map fun row => getUInt32 (field row 0)).foldl max 0 := by
      intro rows
      rw [List.foldl_map]
    rw [hiItemGuid, hfold, hnumbers]
    exact u32_of_lt (by omega)
  rw [hhi]
  cases hcol : t.cleanupColumn with
  | none => simp only [deleteFrom, hcol]
  | some i =>
    obtain rfl := cleanupColumn_eq hcol
    simp only [deleteFrom, hcol]
    rw [List.filter_eq_self]
    intro row hrow
    obtain ⟨r, hr, rfl⟩ := List.mem_map.mp hrow
    obtain ⟨hg, hnew⟩ := hc.renamed_guid hmany hr
    have hle := (le_foldl_max ((guids db).map (position db)) 0).2 _ (List.mem_map_of_mem hg)
    rw [decide_eq_true_eq, hnew]
    right
    omega

end Numbers

/-! ### Begin -/

section Begin
variable {S : Schema} {m : ItemMap} {db new : Database}

theorem init_temp (db : Database) (t : Table) : (init db).temp t = some (db.source.rows t) := rfl

theorem begin_of_empty (h : (init db).temp .itemInstance = some []) :
    begin S m db = some (init db) := by
  simp only [begin, h]
  rfl

theorem begin_eq_some {items : List Row} (h : (init db).temp .itemInstance = some items)
    (hitems : items ≠ []) :
    begin S m db = some new ↔ ∃ out : Table → List Row,
      (∀ t, rebaseTable S (collectGUIDs m 0 items) (init db) t = some (out t)) ∧
        { init db with
          rows := fun t => deleteFrom (hiItemGuid (out .itemInstance)) t (out t)
          temp := fun _ => none } = new := by
  have hall : ∀ t, t ∈ Table.all := by
    intro t
    cases t <;> decide
  simp only [begin, h, Option.getD_some]
  rw [if_neg hitems]
  constructor
  · intro hbegin
    split_ifs at hbegin with hsome
    rw [List.all_eq_true] at hsome
    refine ⟨fun t => (rebaseTable S (collectGUIDs m 0 items) (init db) t).getD [], ?_,
      Option.some.inj hbegin⟩
    intro t
    obtain ⟨rows, hrows⟩ := Option.isSome_iff_exists.mp (hsome t (hall t))
    simp only [hrows, Option.getD_some]
  · rintro ⟨out, hout, rfl⟩
    have hsome : (Table.all.all fun t =>
        (rebaseTable S (collectGUIDs m 0 items) (init db) t).isSome) = true := by
      rw [List.all_eq_true]
      intro t _
      rw [hout]
      rfl
    rw [if_pos hsome]
    simp only [hout, Option.getD_some]

theorem begin_others (h : begin S m db = some new) : new.others = db.others := by
  by_cases hitems : db.source.rows .itemInstance = []
  · rw [begin_of_empty (by rw [init_temp, hitems])] at h
    rw [← Option.some.inj h]
    rfl
  · obtain ⟨out, -, rfl⟩ := (begin_eq_some (init_temp db .itemInstance) hitems).mp h
    rfl

end Begin

/-! ### The rebase -/

section Rebase
variable {S : Schema} {m : ItemMap} {db new : Database} {f : ℕ → ℕ}

theorem mapIdx_self (row : Row) : row.mapIdx (fun _ c => c) = row := by
  apply List.ext_getElem
  · simp
  · intro i _ _
    simp

theorem renameOther_eq_self {items cols : List ℕ}
    (h : ∀ i ∈ cols, field row i = none ∨
      ∃ g < 2 ^ 32, field row i = some (decimal g) ∧ (g ∈ items → f g = g)) :
    renameOther f items cols row = row := by
  refine (mapIdx_congr_field fun i _ => ?_).trans (mapIdx_self row)
  by_cases hi : i ∈ cols
  · rcases h i hi with hnone | ⟨g, hlt, hfield, hkeep⟩
    · simp [hnone]
    · rw [hfield, getUInt32_decimal hlt]
      split_ifs with hin
      · rw [hkeep hin.2.2]
      · rfl
  · simp [hi]

theorem deleteFrom_sublist (hi : ℕ) (t : Table) (rows : List Row) :
    (deleteFrom hi t rows).Sublist rows := by
  unfold deleteFrom
  split
  · exact List.Sublist.refl rows
  · exact List.filter_sublist

theorem Consistent.eq_nil (hc : Consistent S db) (hitems : db.rows .itemInstance = []) (t : Table) :
    db.rows t = [] := by
  rw [List.eq_nil_iff_forall_not_mem]
  intro row hrow
  obtain ⟨g, hg, -⟩ := hc.item t row hrow
  rw [guids, hitems] at hg
  cases hg

theorem Consistent.numbered (hc : Consistent S db) (hg : g ∈ guids db) :
    collectGUIDs m 0 (db.rows .itemInstance) g = some (u32 (position db g)) := by
  rw [collectGUIDs_of_mem hc.distinct hg, Nat.zero_add]
  rfl

theorem Consistent.arrives_of_empty (hc : Consistent S db) (hitems : db.rows .itemInstance = []) :
    Arrives S db := by
  have hnil := hc.eq_nil hitems
  constructor
  · intro t row hrow
    rw [hnil t] at hrow
    cases hrow
  · intro t
    rw [hnil t, List.map_nil]
    exact sendable_nil t

theorem begin_of_arrives (hc : Consistent S db.source) (harr : Arrives S db.source) :
    ∃ new, begin S m db = some new ∧
      ∀ t, new.rows t = (db.source.rows t).map (renameRow (position db.source) t) := by
  by_cases hitems : db.source.rows .itemInstance = []
  · refine ⟨init db, begin_of_empty (by rw [init_temp, hitems]), fun t => ?_⟩
    rw [hc.eq_nil hitems t]
    rfl
  have hmany := guids_length_le (harr.sendable .itemInstance)
  have hwritten : ∀ t, (db.source.rows t).map
      (written S (fun g => u32 (position db.source g)) t) =
        (db.source.rows t).map (renameRow (position db.source) t) := by
    intro t
    exact List.map_congr_left fun row hrow =>
      hc.written_eq hrow (fun g hg => u32_position hmany hg) (harr.cells t row hrow)
  have hpass : ∀ t, rebaseTable S (collectGUIDs m 0 (db.source.rows .itemInstance)) (init db) t =
      some ((db.source.rows t).map (renameRow (position db.source) t)) := by
    intro t
    rw [← hwritten t]
    apply rebaseTable_of_sendable rfl (init_temp db t)
      (fun row hrow => hc.numbers hrow fun g hg => hc.numbered hg)
      (fun row hrow => hc.row_ne_nil hrow)
    · rw [hwritten t, Table.formatted]
      split_ifs with ht
      · rw [formatRows_eq_self]
        intro row hrow
        obtain ⟨r, hr, rfl⟩ := List.mem_map.mp hrow
        exact hc.formatRow_renameRow hr ht (harr.cells t r hr)
      · rfl
    · rw [hwritten t]
      exact harr.sendable t
    · rw [hwritten t]
      exact hc.renamed_keys t (position_injOn _) fun g _ =>
        Nat.one_le_iff_ne_zero.mp (position_pos _ g)
  refine ⟨_, (begin_eq_some (init_temp db .itemInstance) hitems).mpr ⟨_, hpass, rfl⟩, fun t => ?_⟩
  exact hc.deleteFrom_renamed hmany t

theorem passes_of_renamed (hc : Consistent S db.source)
    (hitems : db.source.rows .itemInstance ≠ []) (hbegin : begin S m db = some new)
    (hrows : ∀ t, new.rows t = (db.source.rows t).map (renameRow f t)) (t : Table) :
    t.formatted ((db.source.rows t).map (written S (fun g => u32 (position db.source g)) t)) =
        some ((db.source.rows t).map (renameRow f t)) ∧
      ((db.source.rows t).map (renameRow f t) =
        (db.source.rows t).map (written S (fun g => u32 (position db.source g)) t) →
          Sendable t ((db.source.rows t).map (renameRow f t))) := by
  obtain ⟨out, hout, rfl⟩ := (begin_eq_some (init_temp db .itemInstance) hitems).mp hbegin
  obtain ⟨hle, hall⟩ := rebaseTable_le rfl (init_temp db t)
    (fun row hrow => hc.numbers hrow fun g hg => hc.numbered hg)
    (fun row hrow => hc.row_ne_nil hrow) (hout t)
  have hdelete := deleteFrom_sublist (hiItemGuid (out .itemInstance)) t (out t)
  have hnew : deleteFrom (hiItemGuid (out .itemInstance)) t (out t) =
      (db.source.rows t).map (renameRow f t) := hrows t
  have hshort := hdelete.length_le
  rw [hnew, List.length_map] at hshort
  have hlen : (out t).length = (db.source.rows t).length := Nat.le_antisymm hle hshort
  have hsame : out t = (db.source.rows t).map (renameRow f t) := by
    rw [← hnew]
    exact (hdelete.eq_of_length (by rw [hnew, List.length_map, hlen])).symm
  rw [← hsame]
  exact hall hlen

theorem arrives_of_renamed (hc : Consistent S db.source) (hbegin : begin S m db = some new)
    (hrows : ∀ t, new.rows t = (db.source.rows t).map (renameRow f t)) : Arrives S db.source := by
  by_cases hitems : db.source.rows .itemInstance = []
  · exact hc.arrives_of_empty hitems
  have hpass := passes_of_renamed hc hitems hbegin hrows
  -- the guid column of item_instance shows that the map is the numbering
  have hnumber : ∀ g ∈ guids db.source, u32 (position db.source g) = f g := by
    intro g hg
    obtain ⟨row, hrow, rfl⟩ := List.mem_map.mp hg
    have hlen : 0 < row.length := List.length_pos_of_ne_nil (hc.row_ne_nil hrow)
    have hcell := formatted_field (hpass .itemInstance).1 hrow hlen
    exact decimal_injective (Option.some.inj (Option.some.inj hcell))
  have hcells : ∀ t, ∀ row ∈ db.source.rows t, ∀ i < row.length, t.column i = .other →
      KeepsCell (S.numeric t i) t.printf (field row i) := by
    intro t row hrow i hi hcol
    have hcell := formatted_field (hpass t).1 hrow hi
    rw [renameCell_other hcol] at hcell
    simp only [writtenCell, hcol] at hcell
    exact keepsCell_of_arrives hcell
  have hsend : ∀ t, Sendable t ((db.source.rows t).map (renameRow f t)) := by
    intro t
    apply (hpass t).2
    refine List.map_congr_left fun row hrow => ?_
    exact (hc.written_eq hrow hnumber (hcells t row hrow)).symm
  have hmany := guids_length_le (hsend .itemInstance)
  have hposition : ∀ g ∈ guids db.source, position db.source g = f g := by
    intro g hg
    rw [← hnumber g hg, u32_position hmany hg]
  refine ⟨hcells, fun t => ?_⟩
  have hsame : (db.source.rows t).map (renameRow (position db.source) t) =
      (db.source.rows t).map (renameRow f t) :=
    List.map_congr_left fun row hrow => hc.renameRow_congr hrow hposition
  rw [hsame]
  exact hsend t

/-! ### Copies that differ in the guids -/

theorem Consistent.many_of_begin (hc : Consistent S db.source) (hbegin : begin S m db = some new) :
    (guids db.source).length ≤ maxRows := by
  by_cases hitems : db.source.rows .itemInstance = []
  · rw [guids, hitems]
    exact Nat.zero_le _
  obtain ⟨out, hout, -⟩ := (begin_eq_some (init_temp db .itemInstance) hitems).mp hbegin
  have hitem := hout .itemInstance
  rw [rebaseTable_chunk rfl (init_temp db .itemInstance)
    (fun row hrow => hc.numbers hrow fun g hg => hc.numbered hg)
    (fun row hrow => hc.row_ne_nil hrow)] at hitem
  split_ifs at hitem with hmany
  rw [guids, List.length_map]
  exact hmany

theorem map_position (hnodup : (guids db).Nodup) :
    (guids db).map (position db) = List.range' 1 (guids db).length := by
  apply List.ext_getElem
  · rw [List.length_map, List.length_range']
  · intro i hi _
    rw [List.length_map] at hi
    rw [List.getElem_map, List.getElem_range', position, hnodup.idxOf_getElem]
    omega

theorem map_renamed_guid (f : ℕ → ℕ) (hc : Consistent S db) :
    ((db.rows .itemInstance).map (renameRow f .itemInstance)).map (fun row => field row 0) =
      (guids db).map fun g => some (decimal (f g)) := by
  rw [guids, List.map_map, List.map_map]
  refine List.map_congr_left fun row hrow => ?_
  have hlen : 0 < row.length := List.length_pos_of_ne_nil (hc.row_ne_nil hrow)
  exact field_renameRow hlen

theorem position_of_renamed {a b : Database} (ha : Consistent S a) (hb : Consistent S b)
    (h : (a.rows .itemInstance).map (renameRow (position a) .itemInstance) =
      (b.rows .itemInstance).map (renameRow f .itemInstance)) :
    ∀ g ∈ guids b, f g = position b g := by
  have hcol := congrArg (List.map fun row => field row 0) h
  rw [map_renamed_guid _ ha, map_renamed_guid _ hb] at hcol
  have hinj : Function.Injective fun n => some (decimal n) :=
    fun m n h => decimal_injective (Option.some.inj h)
  have hnumbers : (guids a).map (position a) = (guids b).map f := by
    apply List.map_injective_iff.mpr hinj
    rw [List.map_map, List.map_map]
    exact hcol
  have hlen := congrArg List.length hnumbers
  rw [List.length_map, List.length_map] at hlen
  rw [map_position ha.distinct, hlen, ← map_position hb.distinct] at hnumbers
  intro g hg
  exact (List.map_inj_left.mp hnumbers g hg).symm

theorem Consistent.renameRow_renameRow (hc : Consistent S db)
    (hrow : row ∈ db.rows t) {p h : ℕ → ℕ} (hp : ∀ g ∈ guids db, p g ≠ 0 ∧ p g < 2 ^ 32) :
    renameRow h t (renameRow p t row) = renameRow (h ∘ p) t row := by
  rw [renameRow, renameRow, List.mapIdx_mapIdx]
  apply mapIdx_congr_field
  intro i _
  simp only [Function.comp_apply]
  cases hcol : t.column i with
  | item =>
    obtain ⟨g, hg, hfield⟩ := hc.item_field hrow hcol
    have hlt := lt_of_mem_guids hg
    rw [hfield, renameCell_item hcol hlt, renameCell_item hcol hlt,
      renameCell_item hcol (hp g hg).2]
    rfl
  | bag =>
    rcases hc.bag_field hrow hcol with hfield | ⟨g, hg, hne, hfield⟩
    · rw [hfield, renameCell_noBag hcol, renameCell_noBag hcol, renameCell_noBag hcol]
    · have hlt := lt_of_mem_guids hg
      rw [hfield, renameCell_bag hcol hlt hne, renameCell_bag hcol hlt hne,
        renameCell_bag hcol (hp g hg).2 (hp g hg).1]
      rfl
  | other =>
    rw [renameCell_other hcol, renameCell_other hcol, renameCell_other hcol]

theorem SameNumbered.renamed {a b : Database} (hsame : SameNumbered a b) (ha : Consistent S a)
    (hb : Consistent S b) (hmany : (guids a).length ≤ maxRows) (f : ℕ → ℕ) :
    ∃ f', ∀ t, (b.rows t).map (renameRow f t) = (a.rows t).map (renameRow f' t) := by
  have hsmall : maxRows < 2 ^ 32 := by decide
  have hlen : (guids a).length = (guids b).length := by
    have hrows := congrArg List.length (hsame .itemInstance)
    rw [List.length_map, List.length_map] at hrows
    rw [guids, guids, List.length_map, List.length_map, hrows]
  have hpos : ∀ {db : Database}, (guids db).length ≤ maxRows → ∀ g ∈ guids db,
      position db g ≠ 0 ∧ position db g < 2 ^ 32 := by
    intro db hmany g hg
    have hlow := position_pos db g
    have hhigh := position_le hg
    omega
  let h : ℕ → ℕ := fun k => f ((guids b).getD (k - 1) 0)
  have hback : ∀ g ∈ guids b, f g = (h ∘ position b) g := by
    intro g hg
    have hidx : (guids b).idxOf g < (guids b).length := List.idxOf_lt_length_of_mem hg
    simp only [h, Function.comp_apply, position, Nat.add_sub_cancel]
    rw [List.getD_eq_getElem _ _ hidx, List.getElem_idxOf]
  refine ⟨h ∘ position a, fun t => ?_⟩
  have hbt : (b.rows t).map (renameRow f t) =
      ((b.rows t).map (renameRow (position b) t)).map (renameRow h t) := by
    rw [List.map_map]
    refine List.map_congr_left fun row hrow => ?_
    rw [Function.comp_apply, hb.renameRow_renameRow hrow (hpos (by omega))]
    exact hb.renameRow_congr hrow hback
  rw [hbt, ← hsame t, List.map_map]
  refine List.map_congr_left fun row hrow => ?_
  rw [Function.comp_apply, ha.renameRow_renameRow hrow (hpos hmany)]

/-! ### The other tables -/

theorem renamed_others_iff {old : Database} (hc : Consistent S old)
    (hf : ∀ g ∈ guids old, f g = position old g) :
    (old.others = old.others.map fun p => (p.1, p.2.map (renameOther f (guids old) p.1))) ↔
      KeepsOthers old := by
  constructor
  · intro hothers p hp row hrow i hi g hg hfield
    have hall : old.others.map (fun p => (p.1, p.2.map (renameOther f (guids old) p.1))) =
        old.others.map id := by
      rw [List.map_id]
      exact hothers.symm
    have hp' := congrArg Prod.snd (List.map_inj_left.mp hall p hp)
    have hrows : p.2.map (renameOther f (guids old) p.1) = p.2.map id := by
      rw [List.map_id]
      exact hp'
    have hself : renameOther f (guids old) p.1 row = row := List.map_inj_left.mp hrows row hrow
    have hlen : i < row.length := length_of_field (by rw [hfield]; rfl)
    have hget : row[i] = some (decimal g) := (field_eq_getElem hlen).symm.trans hfield
    have hcell : field (renameOther f (guids old) p.1 row) i = some (decimal (f g)) := by
      simp [field, renameOther, hlen, hget, hi, getUInt32_decimal (lt_of_mem_guids hg), hg]
    rw [hself, hfield] at hcell
    rw [← hf g hg]
    exact (decimal_injective (Option.some.inj hcell)).symm
  · intro hkeep
    have hrows : ∀ p ∈ old.others, p.2.map (renameOther f (guids old) p.1) = p.2 := by
      intro p hp
      have hself : ∀ row ∈ p.2, renameOther f (guids old) p.1 row = row := by
        intro row hrow
        apply renameOther_eq_self
        intro i hi
        rcases hc.others p hp row hrow i hi with hnone | ⟨g, hlt, hfield⟩
        · exact .inl hnone
        · refine .inr ⟨g, hlt, hfield, fun hg => ?_⟩
          rw [hf g hg]
          exact hkeep p hp row hrow i hi g hg hfield
      rw [List.map_congr_left hself, List.map_id']
    rw [List.map_congr_left fun p hp => by rw [hrows p hp], List.map_id']

/-- The rebase renames the item guids and does nothing else exactly when everything that is
written arrives as it was, the copies are those of the tables, and the tables that it does
not know need no renaming. (A copy that is out of date and changed on the way may become the
renamed table by chance.) -/
theorem rebase_renames_items {old : Table → List Row} (hold : Consistent S (db.holding old))
    (hc : Consistent S db.source)
    (hone : Arrives S db.source ∨ SameNumbered db.source (db.holding old)) :
    Faithful S m db old ↔ Arrives S db.source ∧ SameNumbered db.source (db.holding old) ∧
      KeepsOthers (db.holding old) := by
  constructor
  · rintro ⟨new, hbegin, f, -, hrows, hothers⟩
    have harr : Arrives S db.source := by
      rcases hone with harr | hsame
      · exact harr
      · obtain ⟨f', hf'⟩ := hsame.renamed hc hold (hc.many_of_begin hbegin) f
        exact arrives_of_renamed hc hbegin fun t => (hrows t).trans (hf' t)
    obtain ⟨new', hbegin', hrows'⟩ := begin_of_arrives (m := m) hc harr
    rw [hbegin] at hbegin'
    obtain rfl : new = new' := Option.some.inj hbegin'
    have hf := position_of_renamed hc hold ((hrows' .itemInstance).symm.trans (hrows .itemInstance))
    refine ⟨harr, fun t => ?_, ?_⟩
    · rw [← hrows' t, hrows t]
      exact List.map_congr_left fun row hrow => hold.renameRow_congr hrow hf
    · rw [begin_others hbegin] at hothers
      exact (renamed_others_iff hold hf).mp hothers
  · rintro ⟨harr, hsame, hkeep⟩
    obtain ⟨new, hbegin, hrows⟩ := begin_of_arrives (m := m) hc harr
    refine ⟨new, hbegin, position (db.holding old), position_bijOn hold.distinct, fun t => ?_, ?_⟩
    · rw [hrows t]
      exact hsame t
    · rw [begin_others hbegin]
      exact (renamed_others_iff hold fun _ _ => rfl).mpr hkeep

end Rebase

/-! ### A letter with one item -/

def letterTables : Table → List Row
  | .itemInstance => [[some (decimal 7), some (ascii "it's")]]
  | .mailItems => [[some (ascii "3"), some (decimal 7)]]
  | _ => []

def letterSchema : Schema := ⟨fun _ _ => false, fun _ => [[0]]⟩

def brokenOff : Database := ⟨fun _ => [], fun t => some (letterTables t), []⟩

def withLoot : Database := ⟨letterTables, fun _ => none, [([0], [[some (decimal 7)]])]⟩

def withOldCopies : Database := ⟨letterTables, fun _ => some [], []⟩

theorem letter_row (hrow : row ∈ letterTables t) :
    (t = .itemInstance ∧ row = [some (decimal 7), some (ascii "it's")]) ∨
      (t = .mailItems ∧ row = [some (ascii "3"), some (decimal 7)]) := by
  cases t <;> simp only [letterTables, List.mem_singleton, List.not_mem_nil] at hrow
  · exact .inl ⟨rfl, hrow⟩
  · exact .inr ⟨rfl, hrow⟩

section Letter
variable (temp : Table → Option (List Row)) (others : List (List ℕ × List Row))

theorem letter_guids : guids ⟨letterTables, temp, others⟩ = [7] := by
  have hread : getUInt32 (some (decimal 7)) = 7 := getUInt32_decimal (by decide)
  rw [← hread]
  rfl

theorem letter_consistent
    (h : ∀ p ∈ others, ∀ row ∈ p.2, ∀ i ∈ p.1,
      field row i = none ∨ ∃ g < 2 ^ 32, field row i = some (decimal g)) :
    Consistent letterSchema ⟨letterTables, temp, others⟩ := by
  refine ⟨?_, ?_, ?_, ?_, ?_, h⟩
  · rw [letter_guids]
    decide
  · intro t row hrow
    refine ⟨7, by simp [letter_guids], ?_⟩
    rcases letter_row hrow with ⟨rfl, rfl⟩ | ⟨rfl, rfl⟩ <;> rfl
  · intro row hrow
    cases hrow
  · intro t row _ i hnum
    cases hnum
  · intro t
    cases t <;> simp [letterTables]

theorem letter_arrives : Arrives letterSchema ⟨letterTables, temp, others⟩ := by
  constructor
  · intro t row hrow i hi hcol
    rcases letter_row hrow with ⟨rfl, rfl⟩ | ⟨rfl, rfl⟩
    · obtain rfl | rfl : i = 0 ∨ i = 1 := by
        simp only [List.length_cons, List.length_nil] at hi
        omega
      · cases hcol
      · exact ⟨by decide, fun h => nomatch h⟩
    · obtain rfl | rfl : i = 0 ∨ i = 1 := by
        simp only [List.length_cons, List.length_nil] at hi
        omega
      · exact ⟨by decide, fun _ => by decide⟩
      · cases hcol
  · intro t
    cases t
    case mailItems =>
      have hpos : position ⟨letterTables, temp, others⟩ (getUInt32 (some (decimal 7))) = 1 := by
        rw [getUInt32_decimal (by decide)]
        simp [position, letter_guids]
      have hrows : (letterTables .mailItems).map
          (renameRow (position ⟨letterTables, temp, others⟩) .mailItems) =
            [[some (ascii "3"), some (decimal 1)]] := by
        rw [← hpos]
        rfl
      have hfits : (intro .mailItems).length + needed .mailItems
          [[some (ascii "3"), some (decimal 1)]] ≤ MAX_QUERY_LEN - 1 := by decide
      show Sendable .mailItems ((letterTables .mailItems).map
        (renameRow (position ⟨letterTables, temp, others⟩) .mailItems))
      rw [hrows]
      intro b hb
      obtain rfl := List.mem_singleton.mp hb
      exact hfits
    case itemInstance =>
      have hle : 1 ≤ maxRows := by decide
      exact hle
    all_goals exact sendable_nil _

end Letter

theorem rebase_renames_items_brokenOff :
    Faithful letterSchema (fun _ => none) brokenOff letterTables := by
  have hold : Consistent letterSchema (brokenOff.holding letterTables) :=
    letter_consistent brokenOff.temp [] fun _ hp => nomatch hp
  have hsource : Consistent letterSchema brokenOff.source := hold
  have harr : Arrives letterSchema brokenOff.source := letter_arrives brokenOff.temp []
  exact (rebase_renames_items hold hsource (.inl harr)).mpr
    ⟨harr, fun _ => rfl, fun _ hp => nomatch hp⟩

/-- The rebase forgets the stored loot of a container, and loses all items when the copies of
a run without items are left over. -/
theorem rebase_forgets_loot_and_items :
    (Consistent letterSchema (withLoot.holding withLoot.rows) ∧
      ¬ Faithful letterSchema (fun _ => none) withLoot withLoot.rows) ∧
    (Consistent letterSchema (withOldCopies.holding withOldCopies.rows) ∧
      ¬ Faithful letterSchema (fun _ => none) withOldCopies withOldCopies.rows) := by
  refine ⟨⟨letter_consistent withLoot.temp withLoot.others ?_, ?_⟩,
    ⟨letter_consistent withOldCopies.temp [] (fun _ hp => nomatch hp), ?_⟩⟩
  · intro p hp row hrow i hi
    obtain rfl := List.mem_singleton.mp hp
    obtain rfl := List.mem_singleton.mp hrow
    obtain rfl := List.mem_singleton.mp hi
    exact .inr ⟨7, by decide, rfl⟩
  · rintro ⟨new, hbegin, f, hbij, -, hothers⟩
    have hguids : guids (withLoot.holding withLoot.rows) = [7] := letter_guids _ _
    have hseven : f 7 = 1 := by
      have hmem := hbij.mapsTo (show 7 ∈ {g | g ∈ guids (withLoot.holding withLoot.rows)} by
        simp [hguids])
      rw [hguids] at hmem
      exact Nat.le_antisymm hmem.2 hmem.1
    rw [begin_others hbegin, hguids] at hothers
    have hread : getUInt32 (some (decimal 7)) = 7 := getUInt32_decimal (by decide)
    have hcell : some (decimal 7) = some (decimal (f 7)) := by
      simpa [withLoot, Database.holding, renameOther, hread] using hothers
    rw [hseven] at hcell
    have hnumber : 7 = 1 := decimal_injective (Option.some.inj hcell)
    cases hnumber
  · rintro ⟨new, hbegin, f, -, hrows, -⟩
    rw [begin_of_empty rfl] at hbegin
    obtain rfl : init withOldCopies = new := Option.some.inj hbegin
    have hitem := hrows .itemInstance
    cases hitem

end HysteriaCore.Rebase
