import HysteriaCore.Lib.Circles
import HysteriaCore.Lib.KeyedList

/-!
# Rows in groups, of which one has to hold

A list of rows stands for the disjunction over its groups of the conjunction inside a group. It is read
once from the front, with one value for each group so far; rows of a group whose value is dead are passed
over. A row may also stand for a whole list that is stored under a number.
-/

namespace HysteriaCore.Lib.Alternatives
open Relation

variable {ρ β π ε : Type*}

/-- Values that are met inside a group and joined between groups; `holds` is what a value says of a point. -/
structure Reading (β π : Type*) where
  top : β
  bot : β
  meet : β → β → β
  join : β → β → β
  dead : β → Bool
  holds : β → π → Prop
  holds_top : ∀ p, holds top p
  not_holds_bot : ∀ p, ¬holds bot p
  holds_meet : ∀ a b p, holds (meet a b) p ↔ holds a p ∧ holds b p
  holds_join : ∀ a b p, holds (join a b) p ↔ holds a p ∨ holds b p
  not_holds_dead : ∀ a p, dead a = true → ¬holds a p

abbrev Groups (β : Type*) := KeyedList (Prod.fst : ℕ × β → ℕ)

/-! ### One list -/

section Scan
variable (R : Reading β π) (group : ρ → ℕ) (check : ρ → Except ε Unit) (value : ρ → Except ε β)

def Reading.scan : Groups β → List ρ → Except ε (Groups β)
  | groups, [] => .ok groups
  | groups, row :: rows =>
    match check row with
    | .error e => .error e
    | .ok _ =>
      if (groups.find? (group row)).any fun g => R.dead g.2 then scan groups rows
      else
        match value row with
        | .error e => .error e
        | .ok v => scan (groups.put (group row, R.meet ((groups.find? (group row)).elim R.top Prod.snd) v)) rows

def Reading.total (groups : Groups β) : β := groups.rows.foldl (fun b g => R.join b g.2) R.bot

def Reading.eval (rows : List ρ) : Except ε β := (R.scan group check value .empty rows).map R.total

end Scan

section Spec
variable {R : Reading β π} {group : ρ → ℕ} {check : ρ → Except ε Unit} {value : ρ → Except ε β} {P : ρ → Prop}
  {rows done : List ρ} {row : ρ} {groups groups' : Groups β} {b v : β} {e : ε} {p : π}

theorem Reading.holds_foldl (gs : List (ℕ × β)) (b : β) :
    R.holds (gs.foldl (fun b g => R.join b g.2) b) p ↔ R.holds b p ∨ ∃ g ∈ gs, R.holds g.2 p := by
  induction gs generalizing b with
  | nil => simp
  | cons g gs ih =>
    rw [List.foldl_cons, ih, R.holds_join, or_assoc]
    simp only [List.mem_cons, exists_eq_or_imp]

/-- What the groups say of `p` after the rows `done`, each of which says `P`. A group that is dead says nothing
about the rows of it that were passed over, which may have no value. -/
structure Reading.Summary (R : Reading β π) (group : ρ → ℕ) (P : ρ → Prop) (p : π) (done : List ρ)
    (groups : Groups β) : Prop where
  seen : ∀ row ∈ done, ∃ g ∈ groups, g.1 = group row
  from_row : ∀ g ∈ groups, ∃ row ∈ done, group row = g.1
  holds : ∀ g ∈ groups, (R.holds g.2 p ↔ ∀ row ∈ done, group row = g.1 → P row)

theorem Reading.Summary.empty : R.Summary group P p [] .empty where
  seen _ hrow := absurd hrow List.not_mem_nil
  from_row _ hg := absurd hg List.not_mem_nil
  holds _ hg := absurd hg List.not_mem_nil

theorem Reading.Summary.passed (h : R.Summary group P p done groups)
    (hdead : (groups.find? (group row)).any (fun g => R.dead g.2) = true) :
    R.Summary group P p (done ++ [row]) groups := by
  obtain ⟨old, hold, hdead⟩ := (Option.any_eq_true _ _).mp hdead
  obtain ⟨hmem, hkey⟩ := (groups.find?_eq_some_iff _ old).mp hold
  constructor
  · rw [List.forall_mem_append, List.forall_mem_singleton]
    exact ⟨h.seen, old, hmem, hkey⟩
  · intro g hg
    obtain ⟨r, hr, hgroup⟩ := h.from_row g hg
    exact ⟨r, List.mem_append_left _ hr, hgroup⟩
  · intro g hg
    rw [List.forall_mem_append, List.forall_mem_singleton, ← h.holds g hg]
    refine (and_iff_left_of_imp fun hholds hgroup => ?_).symm
    obtain rfl := groups.eq_of_key_eq hg hmem (hgroup.symm.trans hkey.symm)
    exact absurd hholds (R.not_holds_dead _ p hdead)

theorem Reading.Summary.read (h : R.Summary group P p done groups) (hv : R.holds v p ↔ P row) :
    R.Summary group P p (done ++ [row])
      (groups.put (group row, R.meet ((groups.find? (group row)).elim R.top Prod.snd) v)) := by
  have hlast : row ∈ done ++ [row] := List.mem_append_right _ (List.mem_singleton_self row)
  constructor
  · intro r hr
    by_cases hgroup : group r = group row
    · exact ⟨_, (groups.mem_put _ _).mpr (.inl rfl), hgroup.symm⟩
    · have hdone : r ∈ done := (List.mem_append.mp hr).resolve_right fun hr =>
        hgroup (congrArg group (List.mem_singleton.mp hr))
      obtain ⟨g, hg, hkey⟩ := h.seen r hdone
      exact ⟨g, (groups.mem_put _ _).mpr (.inr ⟨hg, fun heq => hgroup (hkey.symm.trans heq)⟩), hkey⟩
  · intro g hg
    obtain rfl | hg := (groups.mem_put _ _).mp hg
    · exact ⟨row, hlast, rfl⟩
    · obtain ⟨r, hr, hgroup⟩ := h.from_row g hg.1
      exact ⟨r, List.mem_append_left _ hr, hgroup⟩
  · intro g hg
    rw [List.forall_mem_append, List.forall_mem_singleton]
    obtain rfl | hg := (groups.mem_put _ _).mp hg
    · rw [R.holds_meet, hv, forall_prop_of_true rfl]
      apply and_congr_left'
      cases hold : groups.find? (group row) with
      | none =>
        refine iff_of_true (R.holds_top p) fun r hr hgroup => ?_
        obtain ⟨g, hg, hkey⟩ := h.seen r hr
        exact absurd (hkey.trans hgroup) ((groups.find?_eq_none_iff _).mp hold g hg)
      | some old =>
        obtain ⟨hmem, hkey⟩ := (groups.find?_eq_some_iff _ old).mp hold
        exact hkey ▸ h.holds old hmem
    · rw [h.holds g hg.1]
      exact (and_iff_left fun hgroup => absurd hgroup.symm hg.2).symm

theorem Reading.Summary.scan (h : R.Summary group P p done groups)
    (hP : ∀ row ∈ rows, ∀ v, value row = .ok v → (R.holds v p ↔ P row))
    (hscan : R.scan group check value groups rows = .ok groups') : R.Summary group P p (done ++ rows) groups' := by
  induction rows generalizing done groups with
  | nil =>
    obtain rfl := Except.ok.inj hscan
    rwa [List.append_nil]
  | cons row rows ih =>
    have ih {done : List ρ} {groups : Groups β} (h : R.Summary group P p done groups) :=
      ih h fun r hr => hP r (List.mem_cons_of_mem row hr)
    rw [List.append_cons]
    unfold Reading.scan at hscan
    split at hscan
    · cases hscan
    · split at hscan
      · rename_i hdead
        exact ih (h.passed hdead) hscan
      · split at hscan
        · cases hscan
        · rename_i v hv
          exact ih (h.read (hP row List.mem_cons_self v hv)) hscan

/-- The value of a list holds if all rows of one of its groups do. -/
theorem Reading.holds_eval (hP : ∀ row ∈ rows, ∀ v, value row = .ok v → (R.holds v p ↔ P row))
    (h : R.eval group check value rows = .ok b) :
    R.holds b p ↔ ∃ row ∈ rows, ∀ r ∈ rows, group r = group row → P r := by
  unfold Reading.eval at h
  cases hscan : R.scan group check value .empty rows with
  | error e =>
    rw [hscan] at h
    cases h
  | ok groups =>
    rw [hscan] at h
    obtain rfl := Except.ok.inj h
    have hsummary : R.Summary group P p rows groups := Reading.Summary.empty.scan hP hscan
    rw [Reading.total, R.holds_foldl, or_iff_right (R.not_holds_bot p)]
    constructor
    · intro h
      obtain ⟨g, hg, hholds⟩ := h
      obtain ⟨row, hrow, hgroup⟩ := hsummary.from_row g hg
      exact ⟨row, hrow, fun r hr hr' => (hsummary.holds g hg).mp hholds r hr (hr'.trans hgroup)⟩
    · intro h
      obtain ⟨row, hrow, hall⟩ := h
      obtain ⟨g, hg, hkey⟩ := hsummary.seen row hrow
      exact ⟨g, hg, (hsummary.holds g hg).mpr fun r hr hr' => hall r hr (hr'.trans hkey)⟩

theorem Reading.scan_error (h : R.scan group check value groups rows = .error e) :
    ∃ row ∈ rows, check row = .error e ∨ value row = .error e := by
  induction rows generalizing groups with
  | nil => cases h
  | cons row rows ih =>
    have hlater {groups : Groups β} (h : R.scan group check value groups rows = .error e) :
        ∃ r ∈ row :: rows, check r = .error e ∨ value r = .error e := by
      obtain ⟨r, hr, herror⟩ := ih h
      exact ⟨r, List.mem_cons_of_mem row hr, herror⟩
    unfold Reading.scan at h
    split at h
    · rename_i hcheck
      cases h
      exact ⟨row, List.mem_cons_self, .inl hcheck⟩
    · split at h
      · exact hlater h
      · split at h
        · rename_i hvalue
          cases h
          exact ⟨row, List.mem_cons_self, .inr hvalue⟩
        · exact hlater h

theorem Reading.eval_error (h : R.eval group check value rows = .error e) :
    ∃ row ∈ rows, check row = .error e ∨ value row = .error e := by
  unfold Reading.eval at h
  cases hscan : R.scan group check value .empty rows with
  | error e' =>
    rw [hscan] at h
    cases h
    exact R.scan_error hscan
  | ok groups =>
    rw [hscan] at h
    cases h

/-- The first row of a list is never passed over. -/
theorem Reading.eval_head (hcheck : check row = .ok ()) (hvalue : value row = .error e) :
    R.eval group check value (row :: rows) = .error e := by
  have hfresh : (.empty : Groups β).find? (group row) = none := rfl
  rw [Reading.eval, Reading.scan, hcheck, hfresh, hvalue]
  rfl

end Spec

/-! ### Rows that stand for stored lists -/

/-- How lists of rows are read when a row may refer to a stored list. Rows that do not count are left out. -/
structure Language (ρ β π ε : Type*) extends Reading β π where
  group : ρ → ℕ
  counted : ρ → Bool
  check : ρ → Except ε Unit
  plain : ρ → Except ε β
  reference : ρ → Option ℕ
  missing : Except ε β
  blank : β

/-- An outcome, or the error `none` of a walk that was stopped. -/
abbrev Walk (ε α : Type*) := Except (Option ε) α

def ended {α : Type*} : Except ε α → Walk ε α
  | .ok a => .ok a
  | .error e => .error (some e)

theorem ended_ne_stopped {α : Type*} (x : Except ε α) : ended x ≠ .error none := by
  cases x with
  | ok a => exact fun h => Except.noConfusion rfl rfl (heq_of_eq h)
  | error e => exact fun h => Option.noConfusion rfl (heq_of_eq (Except.error.inj h))

theorem ended_eq_ok {α : Type*} {x : Except ε α} {a : α} : ended x = .ok a ↔ x = .ok a := by
  cases x <;> simp [ended]

theorem ended_eq_error {α : Type*} {x : Except ε α} {e : ε} : ended x = .error (some e) ↔ x = .error e := by
  cases x <;> simp [ended]

/-- The list `id` has a row that refers to the list `id'`, which is there. -/
def Enters (reference : ρ → Option ℕ) (stored : ℕ → Set ρ) (id' id : ℕ) : Prop :=
  (stored id').Nonempty ∧ ∃ row ∈ stored id, reference row = some id'

def Circular (reference : ρ → Option ℕ) (stored : ℕ → Set ρ) : Prop :=
  ∃ id, TransGen (Enters reference stored) id id

def rowsOf (rows : List ρ) : Set ρ := {row | row ∈ rows}

namespace Language
variable (L : Language ρ β π ε) (store : ℕ → List ρ) (stored : ℕ → Set ρ)

def value (list : List ρ → Walk ε β) (row : ρ) : Walk ε β :=
  match L.reference row with
  | none => ended (L.plain row)
  | some id => if (store id).isEmpty then ended L.missing else list (store id)

/-- A list that is not there is empty. -/
def run : ℕ → List ρ → Walk ε β
  | 0, _ => .error none
  | fuel + 1, rows =>
    if rows.isEmpty then .ok L.blank
    else L.eval L.group (fun row => ended (L.check row)) (L.value store (run fuel)) (rows.filter L.counted)

mutual

/-- What the rows of a list say of `p`, the references expanded. -/
inductive Holds (p : π) : Set ρ → Prop where
  | blank {rows : Set ρ} (hrows : rows = ∅) (h : L.holds L.blank p) : Holds p rows
  | group {rows : Set ρ} {row : ρ} (hrow : row ∈ rows) (hcounted : L.counted row = true)
      (hall : ∀ r ∈ rows, L.counted r = true → L.group r = L.group row → RowHolds p r) : Holds p rows

inductive RowHolds (p : π) : ρ → Prop where
  | plain {row : ρ} {v : β} (href : L.reference row = none) (hv : L.plain row = .ok v) (h : L.holds v p) : RowHolds p row
  | missing {row : ρ} {id : ℕ} {v : β} (href : L.reference row = some id) (hid : stored id = ∅) (hv : L.missing = .ok v)
      (h : L.holds v p) : RowHolds p row
  | stored {row : ρ} {id : ℕ} (href : L.reference row = some id) (hid : (stored id).Nonempty) (h : Holds p (stored id)) :
      RowHolds p row

end

section
variable {L : Language ρ β π ε} {store : ℕ → List ρ} {stored : ℕ → Set ρ} {list : List ρ → Walk ε β} {rows : List ρ}
  {row : ρ} {b v : β} {e : ε} {p : π} {fuel id : ℕ}

theorem value_plain (h : L.reference row = none) : L.value store list row = ended (L.plain row) := by
  rw [value, h]

theorem value_missing (h : L.reference row = some id) (hid : store id = []) :
    L.value store list row = ended L.missing := by
  rw [value, h]
  dsimp only
  rw [hid]
  rfl

theorem value_stored (h : L.reference row = some id) (hid : store id ≠ []) :
    L.value store list row = list (store id) := by
  rw [value, h]
  exact if_neg fun hempty => hid (List.isEmpty_iff.mp hempty)

theorem run_rows (h : rows ≠ []) :
    L.run store (fuel + 1) rows =
      L.eval L.group (fun row => ended (L.check row)) (L.value store (L.run store fuel)) (rows.filter L.counted) :=
  if_neg fun hempty => h (List.isEmpty_iff.mp hempty)

theorem rowsOf_eq_empty : rowsOf rows = ∅ ↔ rows = [] := by
  rw [List.eq_nil_iff_forall_not_mem, Set.eq_empty_iff_forall_notMem]
  rfl

theorem rowsOf_nonempty : (rowsOf rows).Nonempty ↔ rows ≠ [] := by
  rw [Set.nonempty_iff_ne_empty, ne_eq, rowsOf_eq_empty]

theorem holds_value (ih : ∀ {rows b}, list rows = .ok b → (L.holds b p ↔ L.Holds (fun id => rowsOf (store id)) p (rowsOf rows)))
    (h : L.value store list row = .ok v) : L.holds v p ↔ L.RowHolds (fun id => rowsOf (store id)) p row := by
  cases href : L.reference row with
  | none =>
    rw [value_plain href, ended_eq_ok] at h
    constructor
    · exact .plain href h
    · intro hrow
      cases hrow with
      | plain _ hv hholds => exact Except.ok.inj (h.symm.trans hv) ▸ hholds
      | missing href' | stored href' => cases href.symm.trans href'
  | some id =>
    by_cases hid : store id = []
    · rw [value_missing href hid, ended_eq_ok] at h
      constructor
      · exact .missing href (rowsOf_eq_empty.mpr hid) h
      · intro hrow
        cases hrow with
        | plain href' => cases href.symm.trans href'
        | missing _ _ hv hholds => exact Except.ok.inj (h.symm.trans hv) ▸ hholds
        | stored href' hid' =>
          obtain rfl := Option.some.inj (href.symm.trans href')
          exact absurd hid (rowsOf_nonempty.mp hid')
    · rw [value_stored href hid] at h
      rw [ih h]
      constructor
      · exact .stored href (rowsOf_nonempty.mpr hid)
      · intro hrow
        cases hrow with
        | plain href' => cases href.symm.trans href'
        | missing href' hid' =>
          obtain rfl := Option.some.inj (href.symm.trans href')
          exact absurd (rowsOf_eq_empty.mp hid') hid
        | stored href' _ hholds =>
          obtain rfl := Option.some.inj (href.symm.trans href')
          exact hholds

/-- A walk that is not stopped gives what the rows mean, in whatever order they stand. -/
theorem holds_run (h : L.run store fuel rows = .ok b) :
    L.holds b p ↔ L.Holds (fun id => rowsOf (store id)) p (rowsOf rows) := by
  induction fuel generalizing rows b with
  | zero => cases h
  | succ fuel ih =>
    by_cases hnil : rows = []
    · subst hnil
      obtain rfl := Except.ok.inj h
      constructor
      · exact .blank (rowsOf_eq_empty.mpr rfl)
      · intro hholds
        cases hholds with
        | blank _ hblank => exact hblank
        | group hrow => exact absurd hrow List.not_mem_nil
    · rw [run_rows hnil] at h
      rw [L.holds_eval (fun row _ v hv => holds_value ih hv) h]
      simp only [List.mem_filter]
      constructor
      · intro hgroup
        obtain ⟨row, hrow, hall⟩ := hgroup
        exact .group hrow.1 hrow.2 fun r hr hcounted => hall r ⟨hr, hcounted⟩
      · intro hholds
        cases hholds with
        | blank hempty => exact absurd (rowsOf_eq_empty.mp hempty) hnil
        | @group _ row hrow hcounted hall => exact ⟨row, ⟨hrow, hcounted⟩, fun r hr => hall r hr.1 hr.2⟩

/-! ### Ends and errors -/

theorem run_error (h : L.run store fuel rows = .error (some e)) {known : ρ → Prop}
    (hstore : ∀ id, ∀ row ∈ store id, known row) (hrows : ∀ row ∈ rows, known row) :
    ∃ row, known row ∧ (L.check row = .error e ∨ (L.reference row = none ∧ L.plain row = .error e) ∨
      ∃ id, L.reference row = some id ∧ store id = [] ∧ L.missing = .error e) := by
  induction fuel generalizing rows with
  | zero => cases h
  | succ fuel ih =>
    by_cases hnil : rows = []
    · subst hnil
      cases h
    · rw [run_rows hnil] at h
      obtain ⟨row, hrow, herror⟩ := L.eval_error h
      have hknown := hrows row (List.mem_filter.mp hrow).1
      obtain hcheck | hvalue := herror
      · exact ⟨row, hknown, .inl (ended_eq_error.mp hcheck)⟩
      · cases href : L.reference row with
        | none =>
          rw [value_plain href] at hvalue
          exact ⟨row, hknown, .inr (.inl ⟨href, ended_eq_error.mp hvalue⟩)⟩
        | some id =>
          by_cases hid : store id = []
          · rw [value_missing href hid] at hvalue
            exact ⟨row, hknown, .inr (.inr ⟨id, href, hid, ended_eq_error.mp hvalue⟩)⟩
          · rw [value_stored href hid] at hvalue
            exact ih hvalue (hstore id)

/-- From some fuel on a list is read to its end if the lists are that its rows refer to. -/
theorem run_ends_of_rows
    (h : ∀ row ∈ rows, ∀ id, L.reference row = some id → store id ≠ [] →
      ∃ n, ∀ fuel ≥ n, L.run store fuel (store id) ≠ .error none) :
    ∃ n, ∀ fuel ≥ n, L.run store fuel rows ≠ .error none := by
  have hvalues : ∀ row ∈ rows, ∃ n, ∀ fuel ≥ n, L.value store (L.run store fuel) row ≠ .error none := by
    intro row hrow
    cases href : L.reference row with
    | none => exact ⟨0, fun fuel _ => by rw [value_plain href]; exact ended_ne_stopped _⟩
    | some id =>
      by_cases hid : store id = []
      · exact ⟨0, fun fuel _ => by rw [value_missing href hid]; exact ended_ne_stopped _⟩
      · obtain ⟨n, hn⟩ := h row hrow id href hid
        exact ⟨n, fun fuel hfuel => by rw [value_stored href hid]; exact hn fuel hfuel⟩
  obtain ⟨n, hn⟩ := Circles.exists_forall_ge hvalues
  refine ⟨n + 1, fun fuel hfuel herror => ?_⟩
  obtain ⟨fuel, rfl⟩ := Nat.exists_eq_add_of_le' (le_trans (Nat.le_add_left 1 n) hfuel)
  by_cases hnil : rows = []
  · subst hnil
    cases herror
  · rw [run_rows hnil] at herror
    obtain ⟨row, hrow, hcheck | hvalue⟩ := L.eval_error herror
    · exact ended_ne_stopped _ hcheck
    · exact hn fuel (by omega) row (List.mem_filter.mp hrow).1 hvalue

theorem run_ends (hwf : WellFounded (Enters L.reference fun id => rowsOf (store id))) (rows : List ρ) :
    ∃ n, ∀ fuel ≥ n, L.run store fuel rows ≠ .error none := by
  have hstored : ∀ id, ∃ n, ∀ fuel ≥ n, L.run store fuel (store id) ≠ .error none := by
    intro id
    induction id using hwf.induction with
    | _ id ih => exact run_ends_of_rows fun row hrow id' href hid => ih id' ⟨rowsOf_nonempty.mpr hid, row, hrow, href⟩
  exact run_ends_of_rows fun _ _ id _ _ => hstored id

/-- Lists whose first rows lead from one to the other are never read to their end. -/
theorem run_circle {circle : Set ℕ}
    (hlead : ∀ id ∈ circle, ∃ row rest id', store id = row :: rest ∧ L.counted row = true ∧
      L.check row = .ok () ∧ L.reference row = some id' ∧ id' ∈ circle) (hid : id ∈ circle) (fuel : ℕ) :
    L.run store fuel (store id) = .error none := by
  induction fuel generalizing id with
  | zero => rfl
  | succ fuel ih =>
    obtain ⟨row, rest, id', hstore, hcounted, hcheck, href, hid'⟩ := hlead id hid
    obtain ⟨row', rest', _, hstore', -⟩ := hlead id' hid'
    have hne : store id' ≠ [] := by
      rw [hstore']
      exact List.cons_ne_nil row' rest'
    rw [hstore, run_rows (List.cons_ne_nil row rest), List.filter_cons_of_pos hcounted]
    refine L.eval_head (by rw [hcheck]; rfl) ?_
    rw [value_stored href hne]
    exact ih hid'

end

end Language

theorem wellFounded_enters {reference : ρ → Option ℕ} {stored : ℕ → Set ρ} {bound : ℕ}
    (hbound : ∀ id, (stored id).Nonempty → id ≤ bound) (h : ¬Circular reference stored) :
    WellFounded (Enters reference stored) :=
  Circles.wellFounded_of_acyclic (fun id' _ henters => hbound id' henters.1) fun id hcircle => h ⟨id, hcircle⟩

end HysteriaCore.Lib.Alternatives
