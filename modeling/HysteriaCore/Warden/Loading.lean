import HysteriaCore.Warden.Tables

/-!
# Which warden tables are safe to run

`Complete` is a condition on the rows of the two tables. The loaders and every
session after them use only entries that exist, and leave the temporary buffer
nowhere, exactly where it holds.
-/

namespace HysteriaCore.Warden
open Lib Net

variable {hex2bn : Bytes → ℕ}

/-! ### Uses -/

theorem within_deref {α : Type} {pointer : Option α} :
    (deref pointer).Within Use.Safe ↔ pointer.isSome := by
  simp [deref, Traced.Within, Use.Safe]

theorem within_deref_bind {α β : Type} {pointer : Option α} {f : α → Traced Use β} :
    ((deref pointer).bind f).Within Use.Safe ↔
      ∃ a, pointer = some a ∧ (f a).Within Use.Safe := by
  rw [Traced.within_bind, within_deref]
  cases pointer <;> simp [deref]

theorem within_fetch_bind {α β : Type} {value : Option α} {f : α → Traced Use β} :
    ((fetch value).bind f).Within Use.Safe ↔ ∀ a, value = some a → (f a).Within Use.Safe := by
  rw [Traced.within_bind]
  simp [fetch, Traced.Within]

/-! ### The loaded store -/

variable {rows : List CheckRow} {row : CheckRow} {id : CheckId} {n : ℕ}

namespace CheckTables

def Has (t : CheckTables) (id : CheckId) : Prop := (t.slot id).isSome

def Resolves (t : CheckTables) (id : CheckId) : Prop :=
  ∃ check, t.getWardenDataById id = some check ∧
    (check.kind ∈ [.mpqCheck, WardenCheckType.memCheck] → (t.getWardenResultById id).isSome)

/-- What the loaders keep: the pools hold checks that exist, and the results are there. -/
structure Sound (t : CheckTables) : Prop where
  result : ∀ id check, t.slot id = some check →
    check.kind ∈ [.mpqCheck, WardenCheckType.memCheck] → (t.checkResultStore id).isSome
  mem : ∀ id ∈ t.memChecksIdPool, t.Has id
  other : ∀ id ∈ t.otherChecksIdPool, t.Has id

variable {t : CheckTables}

theorem slot_blank (n : ℕ) (id : CheckId) : (blank n).slot id = none := by
  unfold slot blank
  by_cases h : id.toNat < n + 1 <;> simp [h]

theorem lt_of_has (h : t.Has id) : id.toNat < t.checkStore.length := by
  by_contra hge
  simp [Has, slot, List.getElem?_eq_none (Nat.le_of_not_lt hge)] at h

theorem getWardenDataById_eq (id : CheckId) : t.getWardenDataById id = t.slot id := by
  unfold getWardenDataById
  split
  · rfl
  · rename_i hge
    simp [slot, List.getElem?_eq_none (Nat.le_of_not_lt hge)]

theorem slot_set {store : List (Option StoredCheck)} (check : StoredCheck)
    (hlt : id.toNat < store.length) (id' : CheckId) :
    (store.set id.toNat (some check))[id'.toNat]?.join =
      if id' = id then some check else store[id'.toNat]?.join := by
  rw [List.getElem?_set]
  by_cases h : id' = id
  · simp [h, hlt]
  · have hne : id.toNat ≠ id'.toNat := fun heq => h (UInt16.toNat_inj.mp heq).symm
    simp [h, hne]

theorem slot_insert (hlt : row.id.toNat < t.checkStore.length) (id : CheckId) :
    (t.insert hex2bn row).slot id = if id = row.id then some (row.check hex2bn) else t.slot id :=
  slot_set _ hlt id

theorem has_insert (hlt : row.id.toNat < t.checkStore.length) (id : CheckId) :
    (t.insert hex2bn row).Has id ↔ id = row.id ∨ t.Has id := by
  unfold Has
  rw [slot_insert hlt]
  split <;> simp_all

theorem Sound.blank (n : ℕ) : (blank n).Sound where
  result := fun id check h => by simp [slot_blank] at h
  mem := by simp [CheckTables.blank]
  other := by simp [CheckTables.blank]

theorem Sound.insert (h : t.Sound) (hlt : row.id.toNat < t.checkStore.length) :
    (t.insert hex2bn row).Sound where
  result := by
    intro id check hslot hkind
    rw [slot_insert hlt] at hslot
    simp only [CheckTables.insert]
    by_cases hid : id = row.id
    · subst hid
      rw [if_pos rfl] at hslot
      obtain rfl := Option.some.inj hslot
      have hkind : WardenCheckType.ofUInt8 row.type ∈ [.mpqCheck, WardenCheckType.memCheck] := hkind
      rw [if_pos hkind]
      simp
    · rw [if_neg hid] at hslot
      split
      · rw [Function.update_of_ne hid]
        exact h.result id check hslot hkind
      · exact h.result id check hslot hkind
  mem := by
    intro id hid
    rw [has_insert hlt]
    simp only [CheckTables.insert] at hid
    split at hid
    · rcases List.mem_append.mp hid with hold | hnew
      · exact .inr (h.mem id hold)
      · exact .inl (List.mem_singleton.mp hnew)
    · exact .inr (h.mem id hid)
  other := by
    intro id hid
    rw [has_insert hlt]
    simp only [CheckTables.insert] at hid
    split at hid
    · exact .inr (h.other id hid)
    · rcases List.mem_append.mp hid with hold | hnew
      · exact .inr (h.other id hold)
      · exact .inl (List.mem_singleton.mp hnew)

/-- What loading the rows of `warden_checks` leaves: the store is as long as the greatest id asks,
and has a check for every id of a row. -/
structure Loaded (rows : List CheckRow) (n : ℕ) (t : CheckTables) : Prop extends t.Sound where
  length : t.checkStore.length = n + 1
  has : ∀ id, t.Has id ↔ id ∈ rows.map CheckRow.id

theorem Loaded.insert (h : t.Loaded rows n)
    (hle : row.id.toNat ≤ n) : (t.insert hex2bn row).Loaded (row :: rows) n := by
  have hlt : row.id.toNat < t.checkStore.length := by
    rw [h.length]
    omega
  refine ⟨h.toSound.insert hlt, ?_, fun id => ?_⟩
  · rw [← h.length]
    exact List.length_set
  · rw [has_insert hlt, h.has, List.map_cons, List.mem_cons]

theorem Loaded.foldl (hex2bn : Bytes → ℕ) {seen : List CheckRow} (rows : List CheckRow)
    (h : t.Loaded seen n) (hle : ∀ row ∈ rows, row.id.toNat ≤ n) :
    (rows.foldl (CheckTables.insert hex2bn) t).Loaded (rows.reverse ++ seen) n := by
  induction rows generalizing t seen with
  | nil => exact h
  | cons row rows ih =>
    rw [List.reverse_cons, List.append_assoc]
    exact ih (h.insert (hle row List.mem_cons_self)) fun r hr => hle r (List.mem_cons_of_mem row hr)

end CheckTables

theorem le_maxCheckId (h : row ∈ rows) : row.id.toNat ≤ maxCheckId rows := by
  unfold maxCheckId
  induction rows with
  | nil => simp at h
  | cons first rows ih =>
    simp only [List.map_cons, List.foldr_cons]
    rcases List.mem_cons.mp h with rfl | hmem
    · omega
    · have := ih hmem
      omega

theorem loaded_foldl (hex2bn : Bytes → ℕ) (rows : List CheckRow) :
    (rows.foldl (CheckTables.insert hex2bn) (.blank (maxCheckId rows))).Loaded rows
      (maxCheckId rows) := by
  have hblank : (CheckTables.blank (maxCheckId rows)).Loaded [] (maxCheckId rows) :=
    ⟨.blank _, by simp [CheckTables.blank], by simp [CheckTables.Has, CheckTables.slot_blank]⟩
  have h := hblank.foldl hex2bn rows fun row => le_maxCheckId
  exact ⟨h.toSound, h.length, fun id => by rw [h.has]; simp⟩

theorem result_loadRows (rows : List CheckRow) (t : CheckTables) :
    (loadRows hex2bn rows t).result = some (rows.foldl (CheckTables.insert hex2bn) t) := by
  induction rows generalizing t with
  | nil => rfl
  | cons row rows ih => simp [loadRows, ih]

/-- The text of a row that goes through the temporary buffer fits there, or needs no padding. -/
def CheckRow.TempFits (hex2bn : Bytes → ℕ) (row : CheckRow) : Prop :=
  .ofUInt8 row.type ∈ hashedTypes → 24 < row.data.length / 2 →
    row.data.length / 2 ≤ Auth.numBytes (hex2bn row.data)

theorem safe_tempWrites (row : CheckRow) :
    (∀ use ∈ tempWrites hex2bn row, use.Safe) ↔ row.TempFits hex2bn := by
  unfold tempWrites CheckRow.TempFits
  split
  · rename_i h
    simp only [List.mem_singleton, forall_eq, Use.Safe]
    constructor
    · intro hle _ hlt
      omega
    · intro hfits
      by_contra hlt
      have := hfits h.1 (by omega)
      omega
  · rename_i h
    simp only [List.not_mem_nil, false_implies, implies_true, true_iff]
    intro hkind _
    by_contra hlt
    exact h ⟨hkind, by omega⟩

theorem within_loadRows (rows : List CheckRow) (t : CheckTables) :
    (loadRows hex2bn rows t).Within Use.Safe ↔ ∀ row ∈ rows, row.TempFits hex2bn := by
  induction rows generalizing t with
  | nil => simp [loadRows]
  | cons row rows ih => simp [loadRows, ih, safe_tempWrites]

/-! ### Overrides -/

namespace CheckTables

def Overridable (t : CheckTables) (row : ActionRow) : Prop :=
  row.action ≤ 2 → row.wardenId.toNat ≤ t.checkStore.length → t.Has row.wardenId

variable {t t' : CheckTables}

theorem within_override (row : ActionRow) :
    (t.override row).Within Use.Safe ↔ t.Overridable row := by
  unfold override Overridable
  split
  · rename_i h
    simp [UInt8.not_le.mpr h]
  · rename_i h
    split
    · rename_i hlt
      simp [Nat.not_le.mpr hlt]
    · rename_i hle
      rw [Traced.within_map, within_deref]
      simp [UInt8.not_lt.mp h, Nat.not_lt.mp hle, Has]

variable {row : ActionRow}

theorem result_override (h : t.Overridable row) : (t.override row).result ≠ none := by
  unfold override
  unfold Overridable at h
  split
  · simp
  · rename_i haction
    split
    · simp
    · rename_i hlt
      have hhas := h (UInt8.not_lt.mp haction) (Nat.not_lt.mp hlt)
      obtain ⟨check, hcheck⟩ := Option.isSome_iff_exists.mp hhas
      simp [deref, hcheck]

theorem override_result (h : (t.override row).result = some t') (id : CheckId) :
    (t'.slot id).map StoredCheck.kind = (t.slot id).map StoredCheck.kind ∧
      t'.checkStore.length = t.checkStore.length ∧
      t'.checkResultStore = t.checkResultStore ∧ t'.memChecksIdPool = t.memChecksIdPool ∧
      t'.otherChecksIdPool = t.otherChecksIdPool := by
  unfold override at h
  split at h
  · obtain rfl := Option.some.inj h
    exact ⟨rfl, rfl, rfl, rfl, rfl⟩
  · split at h
    · obtain rfl := Option.some.inj h
      exact ⟨rfl, rfl, rfl, rfl, rfl⟩
    · obtain ⟨check, hcheck, rfl⟩ := Option.map_eq_some_iff.mp h
      have hslot : t.slot row.wardenId = some check := hcheck
      have hlt := lt_of_has (show t.Has row.wardenId by simp [Has, hslot])
      refine ⟨?_, List.length_set, rfl, rfl, rfl⟩
      have hset := slot_set { check with action := .ofUInt8 row.action } hlt id
      unfold slot at hset ⊢
      rw [hset]
      by_cases hid : id = row.wardenId
      · subst hid
        unfold slot at hslot
        rw [if_pos rfl, hslot]
        rfl
      · rw [if_neg hid]

theorem Loaded.override (h : t.Loaded rows n) (hres : (t.override row).result = some t') : t'.Loaded rows n := by
  have heq := override_result hres
  have hhas : ∀ id, t'.Has id ↔ t.Has id := by
    intro id
    have hkind := congrArg Option.isSome (heq id).1
    simpa [Has] using hkind
  obtain ⟨_, hlength, hresults, hmem, hother⟩ := heq 0
  refine ⟨⟨fun id check hslot hkind => ?_, fun id hid => ?_, fun id hid => ?_⟩, ?_, fun id => ?_⟩
  · have hk := (heq id).1
    rw [hslot] at hk
    obtain ⟨check', hslot', hkind'⟩ := Option.map_eq_some_iff.mp hk.symm
    rw [hresults]
    exact h.result id check' hslot' (hkind' ▸ hkind)
  · exact (hhas id).mpr (h.mem id (hmem ▸ hid))
  · exact (hhas id).mpr (h.other id (hother ▸ hid))
  · rw [hlength, h.length]
  · rw [hhas, h.has]

theorem Loaded.within_overrides (h : t.Loaded rows n)
    (overrides : List ActionRow) :
    (loadWardenOverrides overrides t).Within Use.Safe ↔
      ∀ row ∈ overrides, row.action ≤ 2 → row.wardenId.toNat ≤ n + 1 →
        row.wardenId ∈ rows.map CheckRow.id := by
  induction overrides generalizing t with
  | nil => simp [loadWardenOverrides]
  | cons row overrides ih =>
    rw [loadWardenOverrides, Traced.within_bind, within_override, List.forall_mem_cons]
    unfold Overridable
    rw [h.length, h.has]
    apply and_congr_right
    intro hrow
    constructor
    · intro hrest
      have hover : t.Overridable row := by
        unfold Overridable
        rwa [h.length, h.has]
      cases hres : (t.override row).result with
      | some t' => exact (ih (h.override hres)).mp (hrest t' hres)
      | none => exact absurd hres (result_override hover)
    · intro hrest t' hres
      exact (ih (h.override hres)).mpr hrest

theorem exists_overrides {overrides : List ActionRow}
    (h : (loadWardenOverrides overrides t).Within Use.Safe) :
    ∃ t', (loadWardenOverrides overrides t).result = some t' := by
  induction overrides generalizing t with
  | nil => exact ⟨t, rfl⟩
  | cons row overrides ih =>
    obtain ⟨hrow, hrest⟩ := (Traced.within_bind _ _).mp h
    obtain ⟨next, hnext⟩ :=
      Option.ne_none_iff_exists'.mp (result_override ((within_override row).mp hrow))
    obtain ⟨t', ht'⟩ := ih (hrest next hnext)
    exact ⟨t', Option.bind_eq_some_iff.mpr ⟨next, hnext, ht'⟩⟩

theorem Loaded.overrides (h : t.Loaded rows n)
    (overrides : List ActionRow) (hres : (loadWardenOverrides overrides t).result = some t') :
    t'.Loaded rows n := by
  induction overrides generalizing t with
  | nil =>
    obtain rfl := Option.some.inj hres
    exact h
  | cons row overrides ih =>
    obtain ⟨next, hnext, hrest⟩ := Option.bind_eq_some_iff.mp hres
    exact ih (h.override hnext) hrest

end CheckTables

/-! ### Requests and answers -/

section Sessions

variable {t : CheckTables} {a : Asking}

theorem within_requestLookups (ids : List CheckId) :
    (requestLookups t ids).Within Use.Safe ↔ ∀ id ∈ ids, t.Has id := by
  induction ids with
  | nil => simp [requestLookups]
  | cons id ids ih =>
    rw [requestLookups, within_deref_bind, List.forall_mem_cons, t.getWardenDataById_eq, ih]
    unfold CheckTables.Has
    cases t.slot id <;> simp

theorem mem_of_mem_popBack {α : Type} (n : ℕ) (todo : List α) :
    (∀ x ∈ (popBack n todo).1, x ∈ todo) ∧ ∀ x ∈ (popBack n todo).2, x ∈ todo := by
  induction n generalizing todo with
  | zero => simp [popBack]
  | succ n ih =>
    unfold popBack
    cases hlast : todo.getLast? with
    | none => simp
    | some last =>
      have hmem := List.mem_of_getLast? hlast
      obtain ⟨hpop, hrest⟩ := ih todo.dropLast
      constructor
      · intro x hx
        rcases List.mem_cons.mp hx with rfl | hx
        · exact hmem
        · exact (List.dropLast_sublist todo).subset (hpop x hx)
      · intro x hx
        exact (List.dropLast_sublist todo).subset (hrest x hx)

structure Asking.Held (t : CheckTables) (a : Asking) : Prop where
  mem : ∀ id ∈ a.memChecksTodo, t.Has id
  other : ∀ id ∈ a.otherChecksTodo, t.Has id
  current : ∀ id ∈ a.currentChecks, t.Has id

theorem within_requestData (hsound : t.Sound) (h786 : t.Has 786) (h209 : t.Has 209)
    (h : a.Held t) (config : Config) :
    (t.requestData config a).Within Use.Safe ∧
      ∀ a', (t.requestData config a).result = some a' → a'.Held t := by
  have hmem : ∀ id ∈ if a.memChecksTodo.isEmpty then t.memChecksIdPool else a.memChecksTodo,
      t.Has id := by
    split
    · exact hsound.mem
    · exact h.mem
  have hother : ∀ id ∈ if a.otherChecksTodo.isEmpty then t.otherChecksIdPool
      else a.otherChecksTodo, t.Has id := by
    split
    · exact hsound.other
    · exact h.other
  have hpopMem := mem_of_mem_popBack config.numMemChecks
    (if a.memChecksTodo.isEmpty then t.memChecksIdPool else a.memChecksTodo)
  have hpopOther := mem_of_mem_popBack config.numOtherChecks
    (if a.otherChecksTodo.isEmpty then t.otherChecksIdPool else a.otherChecksTodo)
  have hcurrent : ∀ id ∈ (popBack config.numMemChecks
        (if a.memChecksTodo.isEmpty then t.memChecksIdPool else a.memChecksTodo)).1.filter
          (fun id => id ≠ 786 ∧ id ≠ 209) ++ [786, 209] ++
        (popBack config.numOtherChecks (if a.otherChecksTodo.isEmpty then t.otherChecksIdPool
          else a.otherChecksTodo)).1, t.Has id := by
    intro id hid
    rw [List.mem_append, List.mem_append] at hid
    obtain (hid | hid) | hid := hid
    · exact hmem id (hpopMem.1 id (List.mem_filter.mp hid).1)
    · rcases List.mem_pair.mp hid with rfl | rfl
      · exact h786
      · exact h209
    · exact hother id (hpopOther.1 id hid)
  refine ⟨(Traced.within_map _ _).mpr ((within_requestLookups _).mpr hcurrent), fun a' hres => ?_⟩
  obtain ⟨_, _, rfl⟩ := Option.map_eq_some_iff.mp hres
  exact ⟨fun id hid => hmem id (hpopMem.2 id hid), fun id hid => hother id (hpopOther.2 id hid),
    hcurrent⟩

theorem within_answerLookups (h : t.Resolves id) (buff : ByteBuffer) : (answerLookups t id buff).Within Use.Safe := by
  obtain ⟨check, hcheck, hresult⟩ := h
  refine within_deref_bind.mpr ⟨check, hcheck, ?_⟩
  cases hkind : check.kind with
  | memCheck | mpqCheck =>
    refine within_fetch_bind.mpr fun ⟨read, buff⟩ _ => ?_
    dsimp only
    split
    · exact Traced.within_pure _
    · rw [Traced.within_map, within_deref]
      exact hresult (by simp [hkind])
  | luaStrCheck =>
    refine within_fetch_bind.mpr fun ⟨read, buff⟩ _ => ?_
    dsimp only
    split
    · exact Traced.within_pure _
    · rw [Traced.within_map]
      simp [fetch, Traced.Within]
  | _ => exact Traced.within_pure _

theorem within_answersLookups {ids : List CheckId} (h : ∀ id ∈ ids, t.Resolves id)
    (buff : ByteBuffer) : (answersLookups t ids buff).Within Use.Safe := by
  induction ids generalizing buff with
  | nil => exact Traced.within_pure _
  | cons id ids ih =>
    refine (Traced.within_bind _ _).mpr ⟨within_answerLookups (h id List.mem_cons_self) buff, ?_⟩
    intro buff' _
    exact ih (fun i hi => h i (List.mem_cons_of_mem id hi)) buff'

theorem within_handleDataLookups (sha1 : Bytes → Fin 5 → UInt32)
    (h : ∀ id ∈ a.currentChecks, t.Resolves id) (buff : ByteBuffer) :
    (handleDataLookups sha1 t a buff).Within Use.Safe := by
  refine within_fetch_bind.mpr fun ⟨length, buff⟩ _ =>
    within_fetch_bind.mpr fun ⟨checksum, buff⟩ _ => ?_
  dsimp only
  split
  · exact Traced.within_pure _
  · refine within_fetch_bind.mpr fun ⟨result, buff⟩ _ => ?_
    dsimp only
    split
    · exact Traced.within_pure _
    · exact within_fetch_bind.mpr fun ticks _ => within_answersLookups h _

theorem CheckTables.Sound.resolves (h : t.Sound) (hhas : t.Has id) : t.Resolves id := by
  obtain ⟨check, hcheck⟩ := Option.isSome_iff_exists.mp hhas
  exact ⟨check, by rw [t.getWardenDataById_eq, hcheck], h.result id check hcheck⟩

theorem held_of_reaches (hsound : t.Sound) (h786 : t.Has 786) (h209 : t.Has 209)
    (h : Reaches (tableStep t) anyStep AsksNothing a) : a.Held t := by
  refine h.invariant (I := fun a => a.Held t) ?_ ?_
  · rintro a rfl
    exact ⟨by simp, by simp, by simp⟩
  · intro a event a' ha _ hstep
    cases event with
    | request config => exact (within_requestData hsound h786 h209 ha config).2 a' hstep
    | answer buff =>
      obtain rfl := Option.some.inj hstep
      exact ha

/-- In every state a session reaches the current checks resolve, and neither a request nor an
answer uses an absent entry. -/
def RunsSafely (sha1 : Bytes → Fin 5 → UInt32) (t : CheckTables) : Prop :=
  ∀ a, Reaches (tableStep t) anyStep AsksNothing a →
    (∀ id ∈ a.currentChecks, t.Resolves id) ∧
    (∀ config, (t.requestData config a).Within Use.Safe) ∧
    ∀ buff, (handleDataLookups sha1 t a buff).Within Use.Safe

theorem runsSafely_iff (sha1 : Bytes → Fin 5 → UInt32) (hsound : t.Sound) :
    RunsSafely sha1 t ↔ t.Has 786 ∧ t.Has 209 := by
  constructor
  · intro h
    obtain ⟨_, hrequest, _⟩ := h ⟨[], [], []⟩ (.start rfl)
    have hcurrent := (within_requestLookups _).mp ((Traced.within_map _ _).mp (hrequest ⟨0, 0⟩))
    exact ⟨hcurrent 786 (by simp), hcurrent 209 (by simp)⟩
  · rintro ⟨h786, h209⟩ a ha
    have hheld := held_of_reaches hsound h786 h209 ha
    have hresolves := fun id hid => hsound.resolves (hheld.current id hid)
    exact ⟨hresolves, fun config => (within_requestData hsound h786 h209 hheld config).1,
      within_handleDataLookups sha1 hresolves⟩

end Sessions

/-! ### The tables -/

/-- The texts that go through the temporary buffer fit, overrides name checks that exist or ids
behind the end of the store, and the two checks of every request are there. -/
structure Complete (hex2bn : Bytes → ℕ) (rows : List CheckRow) (overrides : List ActionRow) :
    Prop where
  temp : ∀ row ∈ rows, row.TempFits hex2bn
  overrides : ∀ row ∈ overrides, row.action ≤ 2 → row.wardenId.toNat ≤ maxCheckId rows + 1 →
    row.wardenId ∈ rows.map CheckRow.id
  wpePro : 786 ∈ rows.map CheckRow.id
  woWEmuHacker : 209 ∈ rows.map CheckRow.id

theorem loadWardenChecks_within (rows : List CheckRow) :
    (loadWardenChecks hex2bn rows).Within Use.Safe ↔
      rows ≠ [] ∧ ∀ row ∈ rows, row.TempFits hex2bn := by
  rw [loadWardenChecks, within_deref_bind, ← within_loadRows rows (.blank (maxCheckId rows))]
  cases rows <;> simp

theorem loadWardenChecks_result (h : rows ≠ []) :
    (loadWardenChecks hex2bn rows).result =
      some (rows.foldl (CheckTables.insert hex2bn) (.blank (maxCheckId rows))) := by
  rw [loadWardenChecks, Traced.result_bind]
  simp only [result_loadRows]
  cases rows with
  | nil => exact absurd rfl h
  | cons row rows => rfl

/-- The loaders and all sessions after them are safe exactly for complete tables. -/
theorem tables_safe (hex2bn : Bytes → ℕ) (sha1 : Bytes → Fin 5 → UInt32) (rows : List CheckRow)
    (overrides : List ActionRow) :
    ((loadTables hex2bn rows overrides).Within Use.Safe ∧
        ∀ t, (loadTables hex2bn rows overrides).result = some t → RunsSafely sha1 t) ↔
      Complete hex2bn rows overrides := by
  have hloaded := loaded_foldl hex2bn rows
  have hresult : ∀ {t}, rows ≠ [] → (loadWardenOverrides overrides
      (rows.foldl (CheckTables.insert hex2bn) (.blank (maxCheckId rows)))).result = some t →
      (loadTables hex2bn rows overrides).result = some t := by
    intro t hrows ht
    rw [loadTables, Traced.result_bind, loadWardenChecks_result hrows]
    exact ht
  constructor
  · rintro ⟨hload, hruns⟩
    obtain ⟨hchecks, hover⟩ := (Traced.within_bind _ _).mp hload
    obtain ⟨hrows, htemp⟩ := (loadWardenChecks_within rows).mp hchecks
    have hover := hover _ (loadWardenChecks_result hrows)
    obtain ⟨t, ht⟩ := CheckTables.exists_overrides hover
    have hfinal := hloaded.overrides overrides ht
    obtain ⟨h786, h209⟩ := (runsSafely_iff sha1 hfinal.toSound).mp (hruns t (hresult hrows ht))
    exact ⟨htemp, (hloaded.within_overrides overrides).mp hover, (hfinal.has _).mp h786,
      (hfinal.has _).mp h209⟩
  · intro h
    have hrows : rows ≠ [] := by
      rintro rfl
      simpa using h.wpePro
    refine ⟨(Traced.within_bind _ _).mpr
      ⟨(loadWardenChecks_within rows).mpr ⟨hrows, h.temp⟩, fun t ht => ?_⟩, fun t ht => ?_⟩
    · rw [loadWardenChecks_result hrows] at ht
      obtain rfl := Option.some.inj ht
      exact (hloaded.within_overrides overrides).mpr h.overrides
    · obtain ⟨t0, ht0, hover⟩ := Option.bind_eq_some_iff.mp ht
      rw [loadWardenChecks_result hrows] at ht0
      obtain rfl := Option.some.inj ht0
      have hfinal := hloaded.overrides overrides hover
      exact (runsSafely_iff sha1 hfinal.toSound).mpr
        ⟨(hfinal.has _).mpr h.wpePro, (hfinal.has _).mpr h.woWEmuHacker⟩

theorem override_in_hole :
    ¬∀ (hex2bn : Bytes → ℕ) (sha1 : Bytes → Fin 5 → UInt32) (rows : List CheckRow)
      (overrides : List ActionRow),
      (loadTables hex2bn rows overrides).Within Use.Safe ∧
        ∀ t, (loadTables hex2bn rows overrides).result = some t → RunsSafely sha1 t := by
  intro h
  have hload := (h (fun _ => 0) (fun _ _ => 0) [⟨1, 0x8B, [], [], 0, 0, [], []⟩] [⟨0, 2⟩]).1
  exact absurd (hload (.entry false) (by decide)) (by simp [Use.Safe])

end HysteriaCore.Warden
