import HysteriaCore.Dungeon.Roles
import Mathlib.Data.List.Sort

/-!
# Five guids

`Lfg5Guids` is an array of five guids, filled from the left and padded with
zeros. Its operations are written out without loops; on a packed array they are
the operations of a list.
-/

namespace HysteriaCore.Dungeon

structure Lfg5Guids where
  guid0 : ℕ
  guid1 : ℕ
  guid2 : ℕ
  guid3 : ℕ
  guid4 : ℕ
  roles : Option RoleRows
  deriving DecidableEq, Repr

namespace Lfg5Guids

def none5 : Lfg5Guids := ⟨0, 0, 0, 0, 0, none⟩

def raw (e : Lfg5Guids) : List ℕ := [e.guid0, e.guid1, e.guid2, e.guid3, e.guid4]

def guids (e : Lfg5Guids) : List ℕ := e.raw.takeWhile (· ≠ 0)

def noRoles (e : Lfg5Guids) : Lfg5Guids := { e with roles := none }

def addRoles (e : Lfg5Guids) (r : RoleRows) : Lfg5Guids := { e with roles := some r }

def clear (e : Lfg5Guids) : Lfg5Guids := ⟨0, 0, 0, 0, 0, e.roles⟩

def empty (e : Lfg5Guids) : Bool := e.guid0 = 0

def front (e : Lfg5Guids) : ℕ := e.guid0

def size (e : Lfg5Guids) : ℕ :=
  if e.guid2 ≠ 0 then
    if e.guid4 ≠ 0 then 5 else if e.guid3 ≠ 0 then 4 else 3
  else if e.guid1 ≠ 0 then 2
  else if e.guid0 ≠ 0 then 1
  else 0

def hasGuid (e : Lfg5Guids) (g : ℕ) : Bool :=
  g ≠ 0 ∧ (e.guid0 = g ∨ e.guid1 = g ∨ e.guid2 = g ∨ e.guid3 = g ∨ e.guid4 = g)

def shift3 (e : Lfg5Guids) : Lfg5Guids := if e.guid3 ≠ 0 then { e with guid4 := e.guid3 } else e

def shift2 (e : Lfg5Guids) : Lfg5Guids := if e.guid2 ≠ 0 then { e with guid3 := e.guid2 } else e

def shift1 (e : Lfg5Guids) : Lfg5Guids := if e.guid1 ≠ 0 then { e with guid2 := e.guid1 } else e

def forceInsertFront (e : Lfg5Guids) (g : ℕ) : Lfg5Guids :=
  let e := e.shift3.shift2.shift1
  { e with guid1 := e.guid0, guid0 := g }

def insert (e : Lfg5Guids) (g : ℕ) : Lfg5Guids :=
  if e.guid0 = 0 then { e with guid0 := g }
  else if g ≤ e.guid0 then
    let e := e.shift3.shift2.shift1
    { e with guid1 := e.guid0, guid0 := g }
  else if e.guid1 = 0 then { e with guid1 := g }
  else if g ≤ e.guid1 then
    let e := e.shift3.shift2
    { e with guid2 := e.guid1, guid1 := g }
  else if e.guid2 = 0 then { e with guid2 := g }
  else if g ≤ e.guid2 then
    let e := e.shift3
    { e with guid3 := e.guid2, guid2 := g }
  else if e.guid3 = 0 then { e with guid3 := g }
  else if g ≤ e.guid3 then { e with guid4 := e.guid3, guid3 := g }
  else { e with guid4 := g }

/-- `if (guid[4]) guid[3] = guid[4]; else { guid[3] = 0; return; } guid[4] = 0;`. -/
def close3 (e : Lfg5Guids) : Lfg5Guids :=
  if e.guid4 ≠ 0 then { e with guid3 := e.guid4, guid4 := 0 } else { e with guid3 := 0 }

def close2 (e : Lfg5Guids) : Lfg5Guids :=
  if e.guid3 ≠ 0 then close3 { e with guid2 := e.guid3 } else { e with guid2 := 0 }

def close1 (e : Lfg5Guids) : Lfg5Guids :=
  if e.guid2 ≠ 0 then close2 { e with guid1 := e.guid2 } else { e with guid1 := 0 }

def close0 (e : Lfg5Guids) : Lfg5Guids :=
  if e.guid1 ≠ 0 then close1 { e with guid0 := e.guid1 } else { e with guid0 := 0 }

def remove (e : Lfg5Guids) (g : ℕ) : Lfg5Guids :=
  if e.guid0 = g then e.close0
  else if e.guid1 = g then e.close1
  else if e.guid2 = g then e.close2
  else if e.guid3 = g then e.close3
  else if e.guid4 = g then { e with guid4 := 0 }
  else e

structure Holds (e : Lfg5Guids) (l : List ℕ) : Prop where
  length : l.length ≤ 5
  nonzero : 0 ∉ l
  raw_eq : e.raw = l ++ List.replicate (5 - l.length) 0

theorem holds_none5 : none5.Holds [] := ⟨by simp, by simp, rfl⟩

theorem holds_clear (e : Lfg5Guids) : e.clear.Holds [] := ⟨by simp, by simp, rfl⟩

variable {e : Lfg5Guids} {l : List ℕ}

theorem Holds.noRoles (h : e.Holds l) : e.noRoles.Holds l :=
  ⟨h.length, h.nonzero, h.raw_eq⟩

theorem Holds.addRoles (h : e.Holds l) (r : RoleRows) : (e.addRoles r).Holds l :=
  ⟨h.length, h.nonzero, h.raw_eq⟩

theorem Holds.guids_eq (h : e.Holds l) : e.guids = l := by
  rw [guids, h.raw_eq, List.takeWhile_append_of_pos, List.takeWhile_replicate_eq_filter]
  · simp
  · intro g hg
    have hne : g ≠ 0 := fun h0 => h.nonzero (h0 ▸ hg)
    simpa using hne

theorem Holds.raw_inj {e e' : Lfg5Guids} {l l' : List ℕ} (h : e.Holds l) (h' : e'.Holds l') :
    e.raw = e'.raw ↔ l = l' := by
  constructor
  · intro hraw
    rw [← h.guids_eq, ← h'.guids_eq, guids, guids, hraw]
  · rintro rfl
    rw [h.raw_eq, h'.raw_eq]

variable {g : ℕ}

theorem Holds.hasGuid_iff (h : e.Holds l) (hg : g ≠ 0) : e.hasGuid g = true ↔ g ∈ l := by
  have hmem : g ∈ e.raw ↔ g ∈ l := by
    rw [h.raw_eq, List.mem_append, List.mem_replicate]
    exact or_iff_left fun hz => hg hz.2
  rw [← hmem, hasGuid, decide_eq_true_eq]
  simp [raw, hg, eq_comm]

theorem Holds.empty_iff (h : e.Holds l) : e.empty = true ↔ l = [] := by
  have hraw := h.raw_eq
  cases l with
  | nil =>
    simp only [raw, List.nil_append, List.length_nil, List.replicate] at hraw
    simpa [empty] using (List.cons.inj hraw).1
  | cons a l =>
    have hne : a ≠ 0 := fun h0 => h.nonzero (h0 ▸ List.mem_cons_self)
    rw [raw, List.cons_append] at hraw
    simp [empty, (List.cons.inj hraw).1, hne]

theorem Holds.front_eq (h : e.Holds (g :: l)) : e.front = g :=
  (List.cons.inj h.raw_eq).1

theorem Holds.cases (h : e.Holds l) (hl : l.length ≤ 4) :
    (l = [] ∧ e.guid0 = 0 ∧ e.guid1 = 0 ∧ e.guid2 = 0 ∧ e.guid3 = 0 ∧ e.guid4 = 0) ∨
    (l = [e.guid0] ∧ e.guid0 ≠ 0 ∧ e.guid1 = 0 ∧ e.guid2 = 0 ∧ e.guid3 = 0 ∧ e.guid4 = 0) ∨
    (l = [e.guid0, e.guid1] ∧ e.guid0 ≠ 0 ∧ e.guid1 ≠ 0 ∧ e.guid2 = 0 ∧ e.guid3 = 0 ∧
      e.guid4 = 0) ∨
    (l = [e.guid0, e.guid1, e.guid2] ∧ e.guid0 ≠ 0 ∧ e.guid1 ≠ 0 ∧ e.guid2 ≠ 0 ∧ e.guid3 = 0 ∧
      e.guid4 = 0) ∨
    (l = [e.guid0, e.guid1, e.guid2, e.guid3] ∧ e.guid0 ≠ 0 ∧ e.guid1 ≠ 0 ∧ e.guid2 ≠ 0 ∧
      e.guid3 ≠ 0 ∧ e.guid4 = 0) := by
  obtain ⟨-, hzero, hraw⟩ := h
  match l, hl with
  | [], _ => simpa [raw, List.replicate] using hraw
  | [a], _ =>
    simp only [raw, List.length_singleton, List.replicate, List.cons_append, List.nil_append,
      List.cons.injEq, List.mem_singleton] at hraw hzero
    obtain ⟨rfl, h1, h2, h3, h4, -⟩ := hraw
    exact .inr (.inl ⟨rfl, Ne.symm hzero, h1, h2, h3, h4⟩)
  | [a, b], _ =>
    simp only [raw, List.length_cons, List.length_nil, List.replicate, List.cons_append,
      List.nil_append, List.cons.injEq, List.mem_cons, List.not_mem_nil, or_false, not_or] at hraw hzero
    obtain ⟨rfl, rfl, h2, h3, h4, -⟩ := hraw
    exact .inr (.inr (.inl ⟨rfl, Ne.symm hzero.1, Ne.symm hzero.2, h2, h3, h4⟩))
  | [a, b, c], _ =>
    simp only [raw, List.length_cons, List.length_nil, List.replicate, List.cons_append,
      List.nil_append, List.cons.injEq, List.mem_cons, List.not_mem_nil, or_false, not_or] at hraw hzero
    obtain ⟨rfl, rfl, rfl, h3, h4, -⟩ := hraw
    exact .inr (.inr (.inr (.inl
      ⟨rfl, Ne.symm hzero.1, Ne.symm hzero.2.1, Ne.symm hzero.2.2, h3, h4⟩)))
  | [a, b, c, d], _ =>
    simp only [raw, List.length_cons, List.length_nil, List.replicate, List.cons_append,
      List.nil_append, List.cons.injEq, List.mem_cons, List.not_mem_nil, or_false, not_or] at hraw hzero
    obtain ⟨rfl, rfl, rfl, rfl, h4, -⟩ := hraw
    exact .inr (.inr (.inr (.inr
      ⟨rfl, Ne.symm hzero.1, Ne.symm hzero.2.1, Ne.symm hzero.2.2.1, Ne.symm hzero.2.2.2, h4⟩)))

theorem Holds.forceInsertFront (h : e.Holds l) (hl : l.length ≤ 4)
    (hg : g ≠ 0) : (e.forceInsertFront g).Holds (g :: l) := by
  refine ⟨by simp only [List.length_cons]; omega, fun hm => ?_, ?_⟩
  · rcases List.mem_cons.mp hm with h0 | h0
    · exact hg h0.symm
    · exact h.nonzero h0
  · rcases h.cases hl with h | h | h | h | h <;>
      simp [raw, Lfg5Guids.forceInsertFront, shift1, shift2, shift3, h, List.replicate]

theorem Holds.insert (h : e.Holds l) (hl : l.length ≤ 4)
    (hg : g ≠ 0) : (e.insert g).Holds (l.orderedInsert (· ≤ ·) g) := by
  refine ⟨by rw [List.orderedInsert_length]; omega, fun hm => ?_, ?_⟩
  · rcases (List.mem_orderedInsert _).mp hm with h0 | h0
    · exact hg h0.symm
    · exact h.nonzero h0
  · rw [List.orderedInsert_length]
    rcases h.cases hl with h | h | h | h | h
    · simp [raw, Lfg5Guids.insert, h, List.replicate]
    · simp only [Lfg5Guids.insert, h, List.orderedInsert]
      split_ifs <;> simp_all [raw, shift1, shift2, shift3, List.replicate]
    · simp only [Lfg5Guids.insert, h, List.orderedInsert]
      split_ifs <;> simp_all [raw, shift1, shift2, shift3, List.replicate]
    · simp only [Lfg5Guids.insert, h, List.orderedInsert]
      split_ifs <;> simp_all [raw, shift1, shift2, shift3]
    · simp only [Lfg5Guids.insert, h, List.orderedInsert]
      split_ifs <;> simp_all [raw, shift1, shift2, shift3]

theorem Holds.full (h : e.Holds l) (hl : ¬l.length ≤ 4) :
    l = [e.guid0, e.guid1, e.guid2, e.guid3, e.guid4] ∧ e.guid0 ≠ 0 ∧ e.guid1 ≠ 0 ∧ e.guid2 ≠ 0 ∧
      e.guid3 ≠ 0 ∧ e.guid4 ≠ 0 := by
  have h5 : l.length = 5 := by
    have hle := h.length
    omega
  have hraw : l = e.raw := by
    rw [h.raw_eq, h5]
    simp
  have hzero := h.nonzero
  simp only [hraw, raw, List.mem_cons, List.not_mem_nil, or_false, not_or] at hzero
  exact ⟨hraw, Ne.symm hzero.1, Ne.symm hzero.2.1, Ne.symm hzero.2.2.1, Ne.symm hzero.2.2.2.1,
    Ne.symm hzero.2.2.2.2⟩

theorem Holds.remove (h : e.Holds l) (hg : g ≠ 0) : (e.remove g).Holds (l.erase g) := by
  refine ⟨(List.length_erase_le).trans h.length, fun hm => h.nonzero (List.mem_of_mem_erase hm), ?_⟩
  have hg' := Ne.symm hg
  by_cases hl : l.length ≤ 4
  · rcases h.cases hl with h | h | h | h | h
    · simp [Lfg5Guids.remove, raw, h, hg', List.replicate]
    all_goals
      simp only [Lfg5Guids.remove, close0, close1, close2, close3, h, List.erase_cons, beq_iff_eq]
      split_ifs <;> simp_all [raw, List.replicate]
  · have h := h.full hl
    simp only [Lfg5Guids.remove, close0, close1, close2, close3, h, List.erase_cons, beq_iff_eq]
    split_ifs <;> simp_all [raw]

theorem Holds.size_eq (h : e.Holds l) : e.size = l.length := by
  by_cases hl : l.length ≤ 4
  · rcases h.cases hl with h | h | h | h | h <;> simp [size, h]
  · obtain ⟨hfull, -, -, h2, -, h4⟩ := h.full hl
    rw [congrArg List.length hfull]
    simp [size, h2, h4]

end Lfg5Guids

end HysteriaCore.Dungeon
