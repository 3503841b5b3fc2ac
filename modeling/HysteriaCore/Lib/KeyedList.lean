import Mathlib.Algebra.Ring.Int.Defs
import Mathlib.Algebra.Ring.Nat
import Mathlib.Data.Fintype.Card

/-!
# Records kept under a key of their own

A hash map whose entries know their key (a session its account, a node its id)
is a list of records no two of which have the same key. The order of the list
stands for the iteration order of the map.
-/

namespace HysteriaCore.Lib

variable {α κ : Type*}

structure KeyedList (key : α → κ) where
  rows : List α
  distinct : (rows.map key).Nodup

namespace KeyedList

variable {key : α → κ}

instance : Membership α (KeyedList key) := ⟨fun t a => a ∈ t.rows⟩

theorem mem_rows (t : KeyedList key) (a : α) : a ∈ t ↔ a ∈ t.rows := Iff.rfl

theorem nodup (t : KeyedList key) : t.rows.Nodup := t.distinct.of_map key

theorem eq_of_key_eq (t : KeyedList key) {a b : α} (ha : a ∈ t) (hb : b ∈ t)
    (h : key a = key b) : a = b :=
  List.inj_on_of_nodup_map t.distinct ha hb h

def empty : KeyedList key := ⟨[], List.nodup_nil⟩

def size (t : KeyedList key) : ℕ := t.rows.length

theorem size_le_card [Fintype κ] (t : KeyedList key) : t.size ≤ Fintype.card κ := by
  have h := t.distinct.length_le_card
  rwa [List.length_map] at h

def filter (t : KeyedList key) (p : α → Bool) : KeyedList key :=
  ⟨t.rows.filter p, t.distinct.sublist (List.filter_sublist.map key)⟩

theorem mem_filter (t : KeyedList key) (p : α → Bool) (a : α) :
    a ∈ t.filter p ↔ a ∈ t ∧ p a = true := List.mem_filter

section Keys
variable [DecidableEq κ]

def find? (t : KeyedList key) (k : κ) : Option α := t.rows.find? fun a => decide (key a = k)

theorem find?_eq_some_iff (t : KeyedList key) (k : κ) (a : α) :
    t.find? k = some a ↔ a ∈ t ∧ key a = k := by
  constructor
  · intro h
    exact ⟨List.mem_of_find?_eq_some h, by simpa using List.find?_some h⟩
  · rintro ⟨ha, rfl⟩
    cases hf : t.find? (key a) with
    | none =>
      have hn := List.find?_eq_none.mp hf a ha
      simp at hn
    | some b =>
      have hb : b ∈ t := List.mem_of_find?_eq_some hf
      have hk : key b = key a := by simpa using List.find?_some hf
      rw [t.eq_of_key_eq hb ha hk]

theorem find?_eq_none_iff (t : KeyedList key) (k : κ) :
    t.find? k = none ↔ ∀ a ∈ t, key a ≠ k := by
  simp [find?, mem_rows]

theorem find?_filter (t : KeyedList key) (p : α → Bool) (k : κ) : (t.filter p).find? k = (t.find? k).filter p := by
  ext a
  show (t.filter p).find? k = some a ↔ (t.find? k).filter p = some a
  rw [Option.filter_eq_some_iff, find?_eq_some_iff, find?_eq_some_iff, mem_filter]
  exact and_right_comm

def erase (t : KeyedList key) (k : κ) : KeyedList key := t.filter fun a => decide (key a ≠ k)

theorem mem_erase (t : KeyedList key) (k : κ) (a : α) : a ∈ t.erase k ↔ a ∈ t ∧ key a ≠ k := by
  simp [erase, mem_filter]

def put (t : KeyedList key) (a : α) : KeyedList key :=
  ⟨(t.erase (key a)).rows ++ [a], by
    rw [List.map_append, List.nodup_append]
    refine ⟨(t.erase (key a)).distinct, by simp, ?_⟩
    intro k hk k' hk'
    obtain ⟨b, hb, rfl⟩ := List.mem_map.mp hk
    have hne := ((t.mem_erase (key a) b).mp hb).2
    simp only [List.map_cons, List.map_nil, List.mem_singleton] at hk'
    rw [hk']
    exact hne⟩

theorem mem_put (t : KeyedList key) (a b : α) :
    b ∈ t.put a ↔ b = a ∨ (b ∈ t ∧ key b ≠ key a) := by
  have h : b ∈ t.put a ↔ b ∈ (t.erase (key a)).rows ++ [a] := Iff.rfl
  rw [h, List.mem_append, List.mem_singleton, ← mem_rows, mem_erase]
  exact Or.comm

theorem find?_erase (t : KeyedList key) (k k' : κ) :
    (t.erase k).find? k' = if k' = k then none else t.find? k' := by
  by_cases h : k' = k
  · rw [if_pos h, find?_eq_none_iff, h]
    exact fun a ha => ((t.mem_erase k a).mp ha).2
  · rw [if_neg h]
    ext a
    show _ = some a ↔ _ = some a
    rw [find?_eq_some_iff, find?_eq_some_iff, mem_erase]
    constructor
    · rintro ⟨⟨ha, -⟩, hk⟩
      exact ⟨ha, hk⟩
    · rintro ⟨ha, hk⟩
      exact ⟨⟨ha, hk ▸ h⟩, hk⟩

theorem find?_put (t : KeyedList key) (a : α) (k : κ) :
    (t.put a).find? k = if key a = k then some a else t.find? k := by
  by_cases h : key a = k
  · rw [if_pos h, find?_eq_some_iff, mem_put]
    exact ⟨.inl rfl, h⟩
  · rw [if_neg h]
    ext b
    show _ = some b ↔ _ = some b
    rw [find?_eq_some_iff, find?_eq_some_iff, mem_put]
    constructor
    · rintro ⟨rfl | ⟨hb, -⟩, hk⟩
      · exact absurd hk h
      · exact ⟨hb, hk⟩
    · rintro ⟨hb, hk⟩
      exact ⟨.inr ⟨hb, fun hab => h (hab.symm.trans hk)⟩, hk⟩

variable {a : α}

theorem size_erase_of_mem (t : KeyedList key) (ha : a ∈ t) : (t.erase (key a)).size + 1 = t.size := by
  have hcount : t.rows.countP (fun b => decide (key b = key a)) = 1 := by
    have h1 := List.count_eq_one_of_mem t.distinct (List.mem_map_of_mem (f := key) ha)
    rw [List.count_eq_countP, List.countP_map] at h1
    rw [← h1]
    exact List.countP_congr fun b _ => by simp
  have hlen := List.length_eq_countP_add_countP (fun b => decide (key b = key a)) (l := t.rows)
  have hfil : (t.erase (key a)).size = t.rows.countP (fun b => decide (¬ key b = key a)) := by
    simp [erase, filter, size, List.countP_eq_length_filter]
  rw [hcount] at hlen
  simp only [decide_eq_true_eq] at hlen
  simp only [size] at *
  omega

theorem erase_of_not_mem (t : KeyedList key) {k : κ} (h : ∀ a ∈ t, key a ≠ k) :
    (t.erase k).rows = t.rows :=
  List.filter_eq_self.mpr fun a ha => by simpa using h a ha

theorem size_put_of_mem (t : KeyedList key) {a b : α} (hb : b ∈ t) (hk : key b = key a) :
    (t.put a).size = t.size := by
  have h := t.size_erase_of_mem hb
  rw [hk] at h
  simp only [put, size, List.length_append, List.length_singleton] at *
  omega

theorem size_put_of_new (t : KeyedList key) (h : ∀ b ∈ t, key b ≠ key a) : (t.put a).size = t.size + 1 := by
  simp [put, size, t.erase_of_not_mem h]

def adjust (t : KeyedList key) (k : κ) (f : α → α) (hf : ∀ a, key (f a) = key a) : KeyedList key :=
  ⟨t.rows.map fun a => if key a = k then f a else a, by
    have h : (t.rows.map fun a => if key a = k then f a else a).map key = t.rows.map key := by
      rw [List.map_map]
      refine List.map_congr_left fun a _ => ?_
      by_cases hk : key a = k <;> simp [hk, hf]
    rw [h]
    exact t.distinct⟩

theorem mem_adjust (t : KeyedList key) (k : κ) (f : α → α) (hf : ∀ a, key (f a) = key a) (b : α) :
    b ∈ t.adjust k f hf ↔ ∃ a ∈ t, (if key a = k then f a else a) = b := List.mem_map

theorem mem_adjust_of_mem (t : KeyedList key) (ha : a ∈ t) (f : α → α)
    (hf : ∀ a, key (f a) = key a) {b : α} (hb : b ∈ t.adjust (key a) f hf) :
    (key b ≠ key a ∧ b ∈ t) ∨ b = f a := by
  obtain ⟨x, hx, rfl⟩ := (t.mem_adjust _ f hf b).mp hb
  by_cases hkey : key x = key a
  · rw [if_pos hkey, t.eq_of_key_eq hx ha hkey]
    exact .inr rfl
  · rw [if_neg hkey]
    exact .inl ⟨hkey, hx⟩

theorem adjust_mem (t : KeyedList key) (ha : a ∈ t) (f : α → α)
    (hf : ∀ a, key (f a) = key a) : f a ∈ t.adjust (key a) f hf :=
  (t.mem_adjust _ f hf _).mpr ⟨a, ha, if_pos rfl⟩

theorem find?_adjust (t : KeyedList key) (k k' : κ) (f : α → α) (hf : ∀ a, key (f a) = key a) :
    (t.adjust k f hf).find? k' = (t.find? k').map fun a => if k' = k then f a else a := by
  cases hfind : t.find? k' with
  | none =>
    rw [Option.map_none, find?_eq_none_iff]
    intro b hb
    obtain ⟨a, ha, rfl⟩ := (mem_adjust ..).mp hb
    have hne := (t.find?_eq_none_iff k').mp hfind a ha
    by_cases hk : key a = k <;> simp only [hk, ite_true, ite_false, hf] <;> simpa [hk] using hne
  | some a =>
    obtain ⟨ha, hka⟩ := (t.find?_eq_some_iff k' a).mp hfind
    rw [Option.map_some, find?_eq_some_iff]
    refine ⟨(mem_adjust ..).mpr ⟨a, ha, by rw [hka]⟩, ?_⟩
    by_cases hk : k' = k <;> simp [hk, hf, hka]

theorem sum_adjust (t : KeyedList key) (w : α → ℕ) (ha : a ∈ t) (f : α → α)
    (hf : ∀ a, key (f a) = key a) :
    ((t.adjust (key a) f hf).rows.map w).sum + w a = (t.rows.map w).sum + w (f a) := by
  obtain ⟨rows, hdistinct⟩ := t
  replace ha : a ∈ rows := ha
  show ((rows.map fun b => if key b = key a then f b else b).map w).sum + w a =
    (rows.map w).sum + w (f a)
  induction rows with
  | nil => exact absurd ha (by simp)
  | cons b rows ih =>
    rw [List.map_cons, List.nodup_cons] at hdistinct
    rcases List.mem_cons.mp ha with rfl | ha
    · have hrest : (rows.map fun b => if key b = key a then f b else b) = rows := by
        have hsame : ∀ b ∈ rows, (if key b = key a then f b else b) = b := by
          intro b hb
          have hne : key b ≠ key a := fun h => hdistinct.1 (h ▸ List.mem_map_of_mem hb)
          rw [if_neg hne]
        rw [List.map_congr_left hsame, List.map_id']
      simp only [List.map_cons, hrest, if_true, List.sum_cons]
      omega
    · have hne : key b ≠ key a := fun h => hdistinct.1 (h ▸ List.mem_map_of_mem ha)
      have hrec : ((rows.map fun b => if key b = key a then f b else b).map w).sum + w a =
          (rows.map w).sum + w (f a) := ih hdistinct.2 ha
      simp only [List.map_cons, hne, if_false, List.sum_cons]
      omega

theorem sum_put_of_new (t : KeyedList key) (w : α → ℕ) (h : ∀ b ∈ t, key b ≠ key a) :
    ((t.put a).rows.map w).sum = (t.rows.map w).sum + w a := by
  simp [put, t.erase_of_not_mem h]

theorem perm_erase (t : KeyedList key) (ha : a ∈ t) : t.rows.Perm (a :: (t.erase (key a)).rows) := by
  obtain ⟨rows, hdistinct⟩ := t
  replace ha : a ∈ rows := ha
  show rows.Perm (a :: rows.filter fun b => decide (key b ≠ key a))
  induction rows with
  | nil => exact absurd ha (by simp)
  | cons b rows ih =>
    rw [List.map_cons, List.nodup_cons] at hdistinct
    rcases List.mem_cons.mp ha with rfl | ha
    · have hrest : (rows.filter fun b => decide (key b ≠ key a)) = rows :=
        List.filter_eq_self.mpr fun b hb => by
          have hne : key b ≠ key a := fun h => hdistinct.1 (h ▸ List.mem_map_of_mem hb)
          simpa using hne
      rw [List.filter_cons_of_neg (by simp), hrest]
    · have hne : key b ≠ key a := fun h => hdistinct.1 (h ▸ List.mem_map_of_mem ha)
      rw [List.filter_cons_of_pos (by simpa using hne)]
      exact ((ih hdistinct.2 ha).cons b).trans (List.Perm.swap a b _)

theorem sum_erase (t : KeyedList key) (w : α → ℕ) (ha : a ∈ t) :
    ((t.erase (key a)).rows.map w).sum + w a = (t.rows.map w).sum := by
  have hsum := ((t.perm_erase ha).map w).sum_nat
  rw [List.map_cons, List.sum_cons] at hsum
  omega

theorem rows_put_of_new (t : KeyedList key) (h : ∀ b ∈ t, key b ≠ key a) :
    (t.put a).rows = t.rows ++ [a] := congrArg (· ++ [a]) (t.erase_of_not_mem h)

theorem erase_adjust (t : KeyedList key) (k : κ) (f : α → α) (hf : ∀ a, key (f a) = key a) :
    ((t.adjust k f hf).erase k).rows = (t.erase k).rows := by
  show (t.rows.map fun a => if key a = k then f a else a).filter (fun a => decide (key a ≠ k)) =
    t.rows.filter fun a => decide (key a ≠ k)
  induction t.rows with
  | nil => rfl
  | cons b rows ih =>
    rw [List.map_cons]
    by_cases hk : key b = k
    · rw [if_pos hk, List.filter_cons_of_neg (by simp [hf, hk]), List.filter_cons_of_neg (by simp [hk]), ih]
    · rw [if_neg hk, List.filter_cons_of_pos (by simp [hk]), List.filter_cons_of_pos (by simp [hk]), ih]

theorem perm_adjust (t : KeyedList key) (ha : a ∈ t) (f : α → α) (hf : ∀ a, key (f a) = key a) :
    (t.adjust (key a) f hf).rows.Perm (f a :: (t.erase (key a)).rows) := by
  have hperm := (t.adjust (key a) f hf).perm_erase (t.adjust_mem ha f hf)
  rwa [hf, erase_adjust] at hperm

theorem countP_adjust (t : KeyedList key) (p : α → Bool) (ha : a ∈ t) (f : α → α)
    (hf : ∀ a, key (f a) = key a) :
    (t.adjust (key a) f hf).rows.countP p + (if p a then 1 else 0) =
      t.rows.countP p + if p (f a) then 1 else 0 := by
  rw [(t.perm_adjust ha f hf).countP_eq, (t.perm_erase ha).countP_eq, List.countP_cons, List.countP_cons]
  omega

theorem countP_adjust_same (t : KeyedList key) (p : α → Bool) (k : κ) (f : α → α)
    (hf : ∀ a, key (f a) = key a) (hp : ∀ a, p (f a) = p a) :
    (t.adjust k f hf).rows.countP p = t.rows.countP p := by
  rw [adjust, List.countP_map]
  refine List.countP_congr fun a _ => ?_
  by_cases hk : key a = k <;> simp [hk, hp]

theorem countP_put_of_mem (t : KeyedList key) (p : α → Bool) {a b : α} (hb : b ∈ t) (hk : key b = key a) :
    (t.put a).rows.countP p + (if p b then 1 else 0) = t.rows.countP p + if p a then 1 else 0 := by
  have hperm := t.perm_erase hb
  rw [hk] at hperm
  have hrows : (t.put a).rows = (t.erase (key a)).rows ++ [a] := rfl
  simp only [hperm.countP_eq, hrows, List.countP_append, List.countP_cons, List.countP_nil]
  omega

theorem countP_put_of_new (t : KeyedList key) (p : α → Bool) (h : ∀ b ∈ t, key b ≠ key a) :
    (t.put a).rows.countP p = t.rows.countP p + if p a then 1 else 0 := by
  rw [t.rows_put_of_new h, List.countP_append, List.countP_singleton]

theorem countP_erase (t : KeyedList key) (p : α → Bool) (ha : a ∈ t) :
    (t.erase (key a)).rows.countP p + (if p a then 1 else 0) = t.rows.countP p := by
  rw [(t.perm_erase ha).countP_eq, List.countP_cons]

theorem countP_eq_card (t : KeyedList key) (p : α → Bool) {ks : Finset κ}
    (h : ∀ k, k ∈ ks ↔ ∃ a ∈ t, key a = k ∧ p a = true) : t.rows.countP p = ks.card := by
  have hnodup : ((t.rows.filter p).map key).Nodup :=
    t.distinct.sublist ((List.filter_sublist).map key)
  have hkeys : ((t.rows.filter p).map key).toFinset = ks := by
    ext k
    rw [h, List.mem_toFinset, List.mem_map]
    constructor
    · rintro ⟨a, ha, rfl⟩
      obtain ⟨hrow, hp⟩ := List.mem_filter.mp ha
      exact ⟨a, hrow, rfl, hp⟩
    · rintro ⟨a, ha, hk, hp⟩
      exact ⟨a, List.mem_filter.mpr ⟨ha, hp⟩, hk⟩
  rw [← hkeys, List.toFinset_card_of_nodup hnodup, List.length_map, List.countP_eq_length_filter]

def mapRows (t : KeyedList key) (f : α → α) (hf : ∀ a, key (f a) = key a) : KeyedList key :=
  ⟨t.rows.map f, by
    have h : (t.rows.map f).map key = t.rows.map key := by
      rw [List.map_map]
      exact List.map_congr_left fun a _ => hf a
    rw [h]
    exact t.distinct⟩

theorem find?_mapRows (t : KeyedList key) (k : κ) (f : α → α) (hf : ∀ a, key (f a) = key a) :
    (t.mapRows f hf).find? k = (t.find? k).map f := by
  have hkey : (fun a => decide (key a = k)) ∘ f = fun a => decide (key a = k) :=
    funext fun a => by simp [hf]
  rw [find?, mapRows, List.find?_map, hkey]
  rfl

end Keys

end KeyedList

end HysteriaCore.Lib
