import HysteriaCore.Dungeon.Queue

/-!
# What a check has found out

`CheckCompatibility` leaves by many exits. They fall into five outcomes, and the
two that keep a combination or propose a group come with what the loops before
them have established.
-/

namespace HysteriaCore.Dungeon
open Lib

namespace LFGQueue

/-! ### The loops -/

variable {q : LFGQueue}

theorem rolesOf_of_find {g : ℕ} {d : LfgQueueData}
    (h : q.queueDataStore.find? g = some d) : q.rolesOf g = d.roles := by
  rw [rolesOf, h]
  rfl

def playersOf (q : LFGQueue) (guids : List ℕ) : ℕ := (guids.map fun g => (q.rolesOf g).length).sum

theorem playersOf_cons (q : LFGQueue) (g : ℕ) (guids : List ℕ) :
    q.playersOf (g :: guids) = (q.rolesOf g).length + q.playersOf guids := by
  simp [playersOf]

theorem scanQueues_spec (w : World) (q : LFGQueue) (guids : List ℕ) (s : Scan) {s' : Scan}
    (h : scanQueues w q guids s = .inr s') (hgroups : s'.numLfgGroups ≤ 1)
    (hplayers : s'.numPlayers ≤ MAXGROUPSIZE) :
    (∀ g ∈ guids, ∃ d, q.queueDataStore.find? g = some d) ∧
    s'.numPlayers = s.numPlayers + q.playersOf guids ∧
    s'.numLfgGroups = s.numLfgGroups + guids.countP w.isLfgGroup := by
  induction guids generalizing s with
  | nil =>
    cases h
    simp [playersOf]
  | cons g guids ih =>
    rw [scanQueues] at h
    split at h
    · cases hd : q.queueDataStore.find? g with
      | none => simp [hd] at h
      | some d =>
        rw [hd] at h
        obtain ⟨hkeyed, hnum, hlfg⟩ := ih (s.add w d) h
        have hguid : d.guid = g := ((KeyedList.find?_eq_some_iff _ _ _).mp hd).2
        refine ⟨?_, ?_, ?_⟩
        · intro g' hg'
          rcases List.mem_cons.mp hg' with rfl | hg'
          · exact ⟨d, hd⟩
          · exact hkeyed g' hg'
        · rw [hnum, playersOf_cons, rolesOf_of_find hd]
          show s.numPlayers + d.roles.length + _ = _
          omega
        · rw [hlfg, List.countP_cons, Scan.add, hguid]
          dsimp only
          split_ifs <;> omega
    · rename_i hstop
      cases h
      exact absurd ⟨by omega, hplayers⟩ hstop

def Apart (w : World) (p x : ℕ × Role) : Prop := p.1 ≠ x.1 ∧ w.hasIgnore p.1 x.1 = false

theorem insertRow_perm (p : ℕ × Role) (roles : RoleRows) : (insertRow p roles).Perm (p :: roles) :=
  List.perm_orderedInsert _ p roles

theorem joinEntry_cons_of_apart {w : World} {p : ℕ × Role} {rest acc : RoleRows}
    (h : ∀ x ∈ acc, Apart w p x) : joinEntry w (p :: rest) acc = joinEntry w rest (insertRow p acc) := by
  rw [joinEntry, if_neg]
  simp only [List.any_eq_true, decide_eq_true_eq, not_exists, not_and, not_or, Bool.not_eq_true]
  exact h

theorem joinEntry_cons_of_not {w : World} {p : ℕ × Role} {rest acc : RoleRows}
    (h : ¬∀ x ∈ acc, Apart w p x) : joinEntry w (p :: rest) acc = acc := by
  rw [joinEntry, if_pos]
  simp only [Apart, not_forall, not_and, Bool.not_eq_false] at h
  obtain ⟨x, hx, hx'⟩ := h
  simp only [List.any_eq_true, decide_eq_true_eq]
  exact ⟨x, hx, or_iff_not_imp_left.mpr hx'⟩

theorem joinEntry_length_le (w : World) (rows acc : RoleRows) :
    (joinEntry w rows acc).length ≤ acc.length + rows.length := by
  induction rows generalizing acc with
  | nil => exact Nat.le_refl _
  | cons p rest ih =>
    by_cases h : ∀ x ∈ acc, Apart w p x
    · rw [joinEntry_cons_of_apart h]
      have hle := ih (insertRow p acc)
      rw [(insertRow_perm p acc).length_eq] at hle
      simp only [List.length_cons] at hle ⊢
      omega
    · rw [joinEntry_cons_of_not h]
      omega

theorem joinEntry_nodup (w : World) (rows acc : RoleRows) (h : (acc.map Prod.fst).Nodup) :
    ((joinEntry w rows acc).map Prod.fst).Nodup := by
  induction rows generalizing acc with
  | nil => exact h
  | cons p rest ih =>
    by_cases hp : ∀ x ∈ acc, Apart w p x
    · rw [joinEntry_cons_of_apart hp]
      apply ih
      rw [((insertRow_perm p acc).map Prod.fst).nodup_iff, List.map_cons, List.nodup_cons]
      refine ⟨fun hm => ?_, h⟩
      obtain ⟨x, hx, heq⟩ := List.mem_map.mp hm
      exact (hp x hx).1 heq.symm
    · rw [joinEntry_cons_of_not hp]
      exact h

theorem joinEntry_full (w : World) (rows acc : RoleRows)
    (h : (joinEntry w rows acc).length = acc.length + rows.length) :
    (joinEntry w rows acc).Perm (acc ++ rows) ∧ ∀ p ∈ rows, ∀ x ∈ acc, Apart w p x := by
  induction rows generalizing acc with
  | nil => exact ⟨by rw [List.append_nil]; exact List.Perm.refl _, by simp⟩
  | cons p rest ih =>
    by_cases hp : ∀ x ∈ acc, Apart w p x
    · rw [joinEntry_cons_of_apart hp] at h ⊢
      have hins := insertRow_perm p acc
      obtain ⟨hperm, hapart⟩ := ih (insertRow p acc) (by
        rw [h, hins.length_eq, List.length_cons, List.length_cons]
        omega)
      refine ⟨hperm.trans ((hins.append_right rest).trans List.perm_middle.symm), ?_⟩
      intro p' hp' x hx
      rcases List.mem_cons.mp hp' with rfl | hp'
      · exact hp x hx
      · exact hapart p' hp' x (hins.mem_iff.mpr (List.mem_cons_of_mem p hx))
    · rw [joinEntry_cons_of_not hp, List.length_cons] at h
      omega

def EntriesApart (w : World) (q : LFGQueue) (a b : ℕ) : Prop :=
  ∀ x ∈ q.rolesOf a, ∀ p ∈ q.rolesOf b, Apart w p x

variable {guids : List ℕ}

section Join
variable (w : World) (q : LFGQueue)

theorem joinFold_length_le (guids : List ℕ) (acc : RoleRows) :
    (guids.foldl (fun acc g => joinEntry w (q.rolesOf g) acc) acc).length ≤
      acc.length + q.playersOf guids := by
  induction guids generalizing acc with
  | nil => exact Nat.le_refl _
  | cons g guids ih =>
    have hle := ih (joinEntry w (q.rolesOf g) acc)
    have hentry := joinEntry_length_le w (q.rolesOf g) acc
    rw [List.foldl_cons, playersOf_cons]
    omega

theorem joinFold_full (guids : List ℕ) (acc : RoleRows)
    (h : (guids.foldl (fun acc g => joinEntry w (q.rolesOf g) acc) acc).length =
      acc.length + q.playersOf guids) :
    (guids.foldl (fun acc g => joinEntry w (q.rolesOf g) acc) acc).Perm
        (acc ++ guids.flatMap q.rolesOf) ∧
      (∀ x ∈ acc, ∀ g ∈ guids, ∀ p ∈ q.rolesOf g, Apart w p x) ∧ guids.Pairwise (EntriesApart w q) := by
  induction guids generalizing acc with
  | nil => simp
  | cons g guids ih =>
    have hle := joinFold_length_le w q guids (joinEntry w (q.rolesOf g) acc)
    have hentry := joinEntry_length_le w (q.rolesOf g) acc
    rw [List.foldl_cons, playersOf_cons] at h
    obtain ⟨hperm, hapart⟩ := joinEntry_full w (q.rolesOf g) acc (by omega)
    obtain ⟨hrest, hold, hpair⟩ := ih (joinEntry w (q.rolesOf g) acc) (by omega)
    have hmem : ∀ x, x ∈ joinEntry w (q.rolesOf g) acc ↔ x ∈ acc ∨ x ∈ q.rolesOf g := by
      intro x
      rw [hperm.mem_iff, List.mem_append]
    refine ⟨?_, ?_, List.pairwise_cons.mpr ⟨?_, hpair⟩⟩
    · rw [List.foldl_cons, List.flatMap_cons, ← List.append_assoc]
      exact hrest.trans (hperm.append_right _)
    · intro x hx g' hg' p hp
      rcases List.mem_cons.mp hg' with rfl | hg'
      · exact hapart p hp x hx
      · exact hold x ((hmem x).mpr (.inl hx)) g' hg' p hp
    · intro g' hg' x hx p hp
      exact hold x ((hmem x).mpr (.inr hx)) g' hg' p hp

theorem joinRoles_nodup (guids : List ℕ) : ((joinRoles w q guids).map Prod.fst).Nodup :=
  foldl_invariant (I := fun acc : RoleRows => (acc.map Prod.fst).Nodup)
    (fun acc g h => joinEntry_nodup w (q.rolesOf g) acc h) guids List.nodup_nil

theorem joinRoles_full (h : q.playersOf guids = (joinRoles w q guids).length) :
    (joinRoles w q guids).Perm (guids.flatMap q.rolesOf) ∧ guids.Pairwise (EntriesApart w q) := by
  obtain ⟨hperm, -, hpair⟩ := joinFold_full w q guids [] (by
    rw [List.length_nil, Nat.zero_add]
    exact h.symm)
  exact ⟨hperm, hpair⟩

end Join

theorem mem_commonDungeons {x : ℕ} (h : x ∈ q.commonDungeons guids) : ∀ g ∈ guids, x ∈ q.dungeonsOf g := by
  have hfold : ∀ (rest : List ℕ) (s : Finset ℕ),
      x ∈ rest.foldl (fun common g => common ∩ q.dungeonsOf g) s →
        x ∈ s ∧ ∀ g ∈ rest, x ∈ q.dungeonsOf g := by
    intro rest
    induction rest with
    | nil => exact fun s hs => ⟨hs, by simp⟩
    | cons g rest ih =>
      intro s hs
      obtain ⟨hinter, hrest⟩ := ih _ hs
      obtain ⟨hs, hg⟩ := Finset.mem_inter.mp hinter
      exact ⟨hs, List.forall_mem_cons.mpr ⟨hg, hrest⟩⟩
  cases guids with
  | nil => simp
  | cons g rest => exact List.forall_mem_cons.mpr (hfold rest _ h)

theorem selectRandom_mem (roll : ℕ) {dungeons : Finset ℕ} (h : dungeons.Nonempty) :
    selectRandom roll dungeons ∈ dungeons := by
  have hlt : roll % dungeons.card < (dungeons.sort (· ≤ ·)).length := by
    rw [Finset.length_sort]
    exact Nat.mod_lt _ (Finset.card_pos.mpr h)
  rw [selectRandom, List.getD_eq_getElem?_getD, List.getElem?_eq_getElem hlt, Option.getD_some]
  exact (Finset.mem_sort _).mp (List.getElem_mem hlt)

/-! ### What the lists depend on -/

def core (q : LFGQueue) (g : ℕ) : Option (RoleRows × Finset ℕ) :=
  (q.queueDataStore.find? g).map fun d => (d.roles, d.dungeons)

theorem rolesOf_eq (q : LFGQueue) (g : ℕ) : q.rolesOf g = (q.core g).elim [] (·.1) := by
  rw [rolesOf, core]
  cases q.queueDataStore.find? g <;> rfl

theorem dungeonsOf_eq (q : LFGQueue) (g : ℕ) : q.dungeonsOf g = (q.core g).elim ∅ (·.2) := by
  rw [dungeonsOf, core]
  cases q.queueDataStore.find? g <;> rfl

variable {f : LfgQueueData → LfgQueueData}

theorem core_adjust (q : LFGQueue) (guid g : ℕ)
    (hf : ∀ d, (f d).guid = d.guid)
    (hsame : ∀ d, (f d).roles = d.roles ∧ (f d).dungeons = d.dungeons) :
    core { q with queueDataStore := q.queueDataStore.adjust guid f hf } g = q.core g := by
  simp only [core, KeyedList.find?_adjust, Option.map_map]
  congr 1
  funext d
  by_cases h : g = guid <;> simp [h, hsame d]

theorem updateBest_same (key : Lfg5Guids) (d : LfgQueueData) :
    (updateBest key d).roles = d.roles ∧ (updateBest key d).dungeons = d.dungeons := by
  rw [updateBest]
  split <;> exact ⟨rfl, rfl⟩

theorem refreshBest_same (key : Lfg5Guids) (d : LfgQueueData) :
    (refreshBest key d).roles = d.roles ∧ (refreshBest key d).dungeons = d.dungeons := by
  rw [refreshBest]
  split
  · exact ⟨rfl, rfl⟩
  · exact updateBest_same key d

structure Same (q q' : LFGQueue) : Prop where
  core : ∀ g, q'.core g = q.core g
  list : q'.compatibleList = q.compatibleList
  temp : q'.compatibleTempList = q.compatibleTempList
  new : q'.newToQueueStore = q.newToQueueStore

theorem Same.refl (q : LFGQueue) : q.Same q := ⟨fun _ => rfl, rfl, rfl, rfl⟩

theorem Same.trans {a b c : LFGQueue} (h : a.Same b) (h' : b.Same c) : a.Same c :=
  ⟨fun g => (h'.core g).trans (h.core g), h'.list.trans h.list, h'.temp.trans h.temp,
    h'.new.trans h.new⟩

theorem same_adjust (q : LFGQueue) (guid : ℕ)
    (hf : ∀ d, (f d).guid = d.guid)
    (hsame : ∀ d, (f d).roles = d.roles ∧ (f d).dungeons = d.dungeons) :
    q.Same { q with queueDataStore := q.queueDataStore.adjust guid f hf } :=
  ⟨fun g => core_adjust q guid g hf hsame, rfl, rfl, rfl⟩

/-! ### The outcomes -/

/-- What the loops establish about the guids of a check, the new one first. -/
structure Team (w : World) (q : LFGQueue) (guids : List ℕ) : Prop where
  keyed : ∀ g ∈ guids, ∃ d, q.queueDataStore.find? g = some d
  groups : guids.countP w.isLfgGroup ≤ 1
  apart : guids.Pairwise (EntriesApart w q)

structure Full (q : LFGQueue) (guids : List ℕ) (selected : RoleRows) (dungeons : Finset ℕ) : Prop where
  five : q.playersOf guids = MAXGROUPSIZE
  perm : selected.Perm (guids.flatMap q.rolesOf)
  nodup : (selected.map Prod.fst).Nodup
  passed : (checkGroupRoles selected).1 ≠ 0 ∨ ∃ g, guids = [g] ∧ selected = q.rolesOf g
  common : ∀ x ∈ dungeons, ∀ g ∈ guids, x ∈ q.dungeonsOf g
  nonempty : dungeons.Nonempty ∨ ∃ g, guids = [g] ∧ dungeons = q.dungeonsOf g

inductive Outcome (w : World) (q : LFGQueue) (guids : List ℕ) (current : List (List ℕ))
    (strGuids : Lfg5Guids) : Checked → Prop where
  | refused {c : LfgCompatibility} (found : Found) (hmatch : c ≠ .isMatch)
      (hless : c ≠ .withLessPlayers) : Outcome w q guids current strGuids ⟨c, q, found, none⟩
  | missing (guid : ℕ) (found : Found) :
      Outcome w q guids current strGuids ⟨.pending, q.removeFromQueue guid false, found, none⟩
  | kept {q' : LFGQueue} (roles : RoleRows) (found : Found) (hteam : Team w q guids)
      (hcur : strGuids.raw ∉ current) (hsmall : q.playersOf guids < MAXGROUPSIZE)
      (hcommon : guids.length ≠ 1 → ∃ x, ∀ g ∈ guids, x ∈ q.dungeonsOf g) (hsame : q.Same q') :
      Outcome w q guids current strGuids
        ⟨.withLessPlayers, q'.addToCompatibles (strGuids.addRoles roles), found, none⟩
  | asked {check : Lfg5Guids} {selected : RoleRows} {dungeons : Finset ℕ} (scan : Scan)
      (found : Found) (hcheck : check.Holds guids) (hteam : Team w q guids)
      (hfull : Full q guids selected dungeons) :
      Outcome w q guids current strGuids
        (propose w q check strGuids scan dungeons (checkGroupRoles selected).2 found)

theorem same_addLess (q : LFGQueue) (guids : List ℕ) (key : Lfg5Guids) :
    q.Same (guids.foldl (fun q guid =>
      { q with queueDataStore :=
          q.queueDataStore.adjust guid (refreshBest key) (refreshBest_guid key) }) q) :=
  foldl_invariant (I := fun q' => q.Same q')
    (fun q' guid h => h.trans (same_adjust q' guid _ (refreshBest_same key))) guids (Same.refl q)

theorem checkSeveral_outcome (w : World) {check strGuids : Lfg5Guids}
    {current : List (List ℕ)} {scan : Scan} (found : Found)
    (hcheck : check.Holds guids) (hcur : strGuids.raw ∉ current)
    (hkeyed : ∀ g ∈ guids, ∃ d, q.queueDataStore.find? g = some d)
    (hgroups : guids.countP w.isLfgGroup ≤ 1) (hnum : scan.numPlayers = q.playersOf guids)
    (hle : scan.numPlayers ≤ MAXGROUPSIZE) :
    Outcome w q guids current strGuids (checkSeveral w q check strGuids scan found) := by
  rw [checkSeveral, hcheck.guids_eq]
  dsimp only
  split
  · exact .refused found (by decide) (by decide)
  rename_i hall
  rw [not_not, hnum] at hall
  obtain ⟨hperm, hapart⟩ := joinRoles_full w q hall
  split
  · exact .refused found (by decide) (by decide)
  rename_i hroles
  rw [not_or] at hroles
  cases found.mark (checkGroupRoles (joinRoles w q guids)).1 with
  | none => exact .refused found (by decide) (by decide)
  | some mark =>
    dsimp only
    split
    · exact .refused found (by decide) (by decide)
    rename_i hdungeons
    obtain ⟨x, hx⟩ := Finset.nonempty_iff_ne_empty.mpr hdungeons
    split
    · rename_i hless
      rw [addLess]
      refine .kept _ _ ⟨hkeyed, hgroups, hapart⟩ hcur ?_ (fun _ => ⟨x, mem_commonDungeons hx⟩)
        (same_addLess q guids _)
      omega
    · rename_i hfive
      rw [not_not] at hfive
      exact .asked scan found hcheck ⟨hkeyed, hgroups, hapart⟩
        ⟨hnum.symm.trans hfive, hperm, joinRoles_nodup w q guids, .inl hroles.1,
          fun x hx => mem_commonDungeons hx, .inl ⟨x, hx⟩⟩

theorem checkCompatibility_outcome (w : World) (q : LFGQueue) {e : Lfg5Guids} {l : List ℕ}
    (hl : e.Holds l) (hlen : l.length ≤ 4) {newGuid : ℕ} (hnew : newGuid ≠ 0) (found : Found)
    (current : List (List ℕ)) :
    Outcome w q (newGuid :: l) current (e.noRoles.insert newGuid)
      (checkCompatibility w q e newGuid found current) := by
  have hcheck : (e.noRoles.forceInsertFront newGuid).Holds (newGuid :: l) :=
    hl.noRoles.forceInsertFront hlen hnew
  rw [checkCompatibility]
  split
  · exact .refused found (by decide) (by decide)
  rename_i hcur
  rw [hcheck.guids_eq, hcheck.size_eq, hcheck.front_eq]
  cases hscan : scanQueues w q (newGuid :: l) ⟨0, 0, 0, []⟩ with
  | inl guid => exact .missing guid found
  | inr scan =>
    dsimp only
    split
    · exact .refused found (by decide) (by decide)
    rename_i hgroups
    rw [not_lt] at hgroups
    by_cases hmany : MAXGROUPSIZE < scan.numPlayers
    · have hnot : ¬((newGuid :: l).length = 1 ∧ scan.numPlayers < MAXGROUPSIZE) :=
        fun h => absurd h.2 (not_lt.mpr hmany.le)
      rw [if_neg hnot, if_pos hmany]
      exact .refused found (by decide) (by decide)
    rw [not_lt] at hmany
    obtain ⟨hkeyed, hnum, hlfg⟩ := scanQueues_spec w q _ _ hscan hgroups hmany
    simp only [Nat.zero_add] at hnum hlfg
    by_cases hone : l = []
    · subst hone
      have hteam : Team w q [newGuid] := ⟨hkeyed, hlfg ▸ hgroups, List.pairwise_singleton _ _⟩
      split
      · rename_i hless
        refine .kept _ _ hteam hcur (hnum ▸ hless.2) (fun h => absurd rfl h) ?_
        exact same_adjust q newGuid _ fun d => ⟨rfl, rfl⟩
      · rename_i hless
        have hfive : scan.numPlayers = MAXGROUPSIZE := by
          simp only [List.length_singleton, true_and] at hless
          omega
        rw [if_neg (not_lt.mpr hmany), if_neg (by simp), checkOne, if_neg (not_not.mpr hfive)]
        rw [hcheck.front_eq]
        refine .asked scan found hcheck hteam ⟨hnum.symm.trans hfive, ?_, ?_, .inr ⟨_, rfl, rfl⟩, ?_,
          .inr ⟨_, rfl, rfl⟩⟩
        · simp
        · obtain ⟨d, hd⟩ := hkeyed newGuid List.mem_cons_self
          rw [rolesOf_of_find hd]
          exact (List.pairwise_map.mpr (d.sorted.imp fun h => Nat.ne_of_lt h))
        · intro x hx g hg
          rw [List.mem_singleton.mp hg]
          exact hx
    · have htwo : 1 < (newGuid :: l).length := by
        have hpos := List.length_pos_iff.mpr hone
        simp only [List.length_cons]
        omega
      have hnot : ¬((newGuid :: l).length = 1 ∧ scan.numPlayers < MAXGROUPSIZE) := by omega
      rw [if_neg hnot, if_neg (not_lt.mpr hmany), if_pos htwo]
      exact checkSeveral_outcome w found hcheck hcur hkeyed (hlfg ▸ hgroups) hnum hmany

end LFGQueue

end HysteriaCore.Dungeon
