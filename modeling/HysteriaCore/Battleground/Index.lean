import HysteriaCore.Battleground.Queue

/-!
# The index of the battleground queue

A group's own fields name the one list it stands in, and the map from players
to groups is the inverse of the groups' player sets. Three routines move
groups between lists; all of them are `move`.
-/

namespace HysteriaCore.Battleground
open Lib

namespace BattlegroundQueue

def Names (q : BattlegroundQueue) (b : BracketId) (t : GroupType) (g : ℕ) : Prop :=
  ∃ i, q.info g = some i ∧ i.bracketId = b ∧ i.groupType = t

structure Indexed (q : BattlegroundQueue) : Prop where
  listed : ∀ b t g, g ∈ q.queuedGroups b t ↔ q.Names b t g
  nodup : ∀ b t, (q.queuedGroups b t).Nodup
  nonempty : ∀ g i, q.info g = some i → i.players.Nonempty
  mapped : ∀ p g, q.queuedPlayers p = some g ↔ ∃ i, q.info g = some i ∧ p ∈ i.players

theorem indexed_empty : empty.Indexed := by
  refine ⟨fun b t g => ?_, fun b t => List.nodup_nil, fun g i h => ?_, fun p g => ?_⟩
  · simp [empty, Names]
  · cases h
  · simp [empty]

variable {q : BattlegroundQueue}

theorem Indexed.withPools (h : q.Indexed) (pools : Pools) : Indexed { q with selectionPools := pools } :=
  ⟨h.listed, h.nodup, h.nonempty, h.mapped⟩

theorem Indexed.select (h : q.Indexed) (team : TeamId) (g n : ℕ) : (q.select team g n).Indexed := by
  rw [BattlegroundQueue.select]
  cases q.info g with
  | none => exact h
  | some ginfo => exact h.withPools _

variable {i : GroupQueueInfo} {g : ℕ}

theorem modify_eq (hi : q.info g = some i)
    (f : GroupQueueInfo → GroupQueueInfo) :
    q.modify g f = { q with info := Function.update q.info g (some (f i)) } := by
  rw [modify, hi, Option.map_some]

theorem modify_info_self
    (hi : q.info g = some i) (f : GroupQueueInfo → GroupQueueInfo) :
    (q.modify g f).info g = some (f i) := by
  simp [modify, hi]

theorem modify_info_ne (q : BattlegroundQueue) {g g' : ℕ} (h : g' ≠ g)
    (f : GroupQueueInfo → GroupQueueInfo) : (q.modify g f).info g' = q.info g' := by
  simp [modify, h]

variable {f : GroupQueueInfo → GroupQueueInfo}

theorem Indexed.modify (h : q.Indexed) (g : ℕ)
    (hplayers : ∀ i, (f i).players = i.players)
    (hbracket : ∀ i, (f i).bracketId = i.bracketId) (htype : ∀ i, (f i).groupType = i.groupType) :
    (q.modify g f).Indexed := by
  have hinfo : ∀ g', (q.modify g f).info g' = none ∧ q.info g' = none ∨
      ∃ i j, (q.modify g f).info g' = some j ∧ q.info g' = some i ∧ j.players = i.players ∧
        j.bracketId = i.bracketId ∧ j.groupType = i.groupType := by
    intro g'
    by_cases hg : g' = g
    · subst hg
      cases hi : q.info g' with
      | none => exact .inl ⟨by simp [BattlegroundQueue.modify, hi], rfl⟩
      | some i =>
        exact .inr ⟨i, f i, modify_info_self hi f, rfl, hplayers i, hbracket i, htype i⟩
    · rw [modify_info_ne q hg]
      cases hi : q.info g' with
      | none => exact .inl ⟨rfl, rfl⟩
      | some i => exact .inr ⟨i, i, rfl, rfl, rfl, rfl, rfl⟩
  constructor
  · intro b t g'
    refine (h.listed b t g').trans ?_
    rcases hinfo g' with ⟨hn, ho⟩ | ⟨i, j, hn, ho, -, hb, ht⟩
    · simp [Names, hn, ho]
    · simp [Names, hn, ho, hb, ht]
  · exact h.nodup
  · intro g' j hj
    rcases hinfo g' with ⟨hn, -⟩ | ⟨i, j', hn, ho, hp, -⟩
    · rw [hn] at hj
      cases hj
    · cases hn.symm.trans hj
      rw [hp]
      exact h.nonempty g' i ho
  · intro p g'
    refine (h.mapped p g').trans ?_
    rcases hinfo g' with ⟨hn, ho⟩ | ⟨i, j, hn, ho, hp, -⟩
    · simp [hn, ho]
    · simp [hn, ho, hp]

/-! ### Moving a group -/

def move (q : BattlegroundQueue) (b : BracketId) (t t' : GroupType)
    (f : GroupQueueInfo → GroupQueueInfo) (g : ℕ) : BattlegroundQueue :=
  ((q.modify g f).setGroups b t' (g :: ·)).setGroups b t (·.erase g)

theorem move_info_self
    (hi : q.info g = some i) (b : BracketId) (t t' : GroupType)
    (f : GroupQueueInfo → GroupQueueInfo) : (q.move b t t' f g).info g = some (f i) :=
  modify_info_self hi f

theorem move_info_ne (q : BattlegroundQueue) {g g' : ℕ} (h : g' ≠ g) (b : BracketId)
    (t t' : GroupType) (f : GroupQueueInfo → GroupQueueInfo) :
    (q.move b t t' f g).info g' = q.info g' :=
  modify_info_ne q h f

theorem move_queuedGroups (q : BattlegroundQueue) {t t' : GroupType} (hne : t ≠ t')
    (b b' : BracketId) (s : GroupType) (f : GroupQueueInfo → GroupQueueInfo) (g : ℕ) :
    (q.move b t t' f g).queuedGroups b' s =
      if b' = b ∧ s = t then (q.queuedGroups b t).erase g
      else if b' = b ∧ s = t' then g :: q.queuedGroups b t' else q.queuedGroups b' s := by
  by_cases hb : b' = b
  · subst hb
    by_cases hs : s = t
    · subst hs
      simp [move, setGroups, modify, hne]
    · by_cases hs' : s = t' <;> simp [move, setGroups, modify, hs, hs', Ne.symm hne]
  · simp [move, setGroups, modify, hb]

variable {b : BracketId}

theorem Indexed.move (h : q.Indexed) {t t' : GroupType}
    (hne : t ≠ t') (hg : q.Names b t g)
    (hplayers : ∀ i, (f i).players = i.players) (hbracket : ∀ i, (f i).bracketId = i.bracketId)
    (htype : ∀ i, (f i).groupType = t') : (q.move b t t' f g).Indexed := by
  obtain ⟨i, hi, hib, hit⟩ := hg
  have hself := move_info_self hi b t t' f
  have hother : ∀ {g'}, g' ≠ g → (q.move b t t' f g).info g' = q.info g' :=
    fun hg' => move_info_ne q hg' b t t' f
  have hmem : g ∈ q.queuedGroups b t := (h.listed b t g).mpr ⟨i, hi, hib, hit⟩
  have hfresh : g ∉ q.queuedGroups b t' := by
    intro hm
    obtain ⟨j, hj, -, hjt⟩ := (h.listed b t' g).mp hm
    cases hi.symm.trans hj
    exact hne (hit.symm.trans hjt)
  constructor
  · intro b' s g'
    rw [move_queuedGroups q hne]
    by_cases hg' : g' = g
    · subst hg'
      have hnames : (q.move b t t' f g').Names b' s g' ↔ b' = b ∧ s = t' := by
        simp only [Names, hself, Option.some.injEq, exists_eq_left', hbracket, htype, hib]
        exact and_congr eq_comm eq_comm
      rw [hnames]
      split
      · rename_i hbs
        rw [(h.nodup b t).mem_erase_iff]
        simp [hbs.2, hne]
      · split
        · rename_i hbs
          simp [hbs]
        · rename_i hbs
          -- a list that the group neither left nor joined does not hold it
          refine iff_of_false (fun hm => ?_) hbs
          obtain ⟨j, hj, hjb, hjt⟩ := (h.listed b' s g').mp hm
          cases hi.symm.trans hj
          exact absurd ⟨hjb.symm.trans hib, hjt.symm.trans hit⟩ ‹¬(b' = b ∧ s = t)›
    · have hnames : (q.move b t t' f g).Names b' s g' ↔ q.Names b' s g' := by
        simp only [Names, hother hg']
      rw [hnames, ← h.listed]
      split
      · rename_i hbs
        rw [List.mem_erase_of_ne hg', hbs.1, hbs.2]
      · split
        · rename_i hbs
          rw [List.mem_cons, hbs.1, hbs.2]
          exact or_iff_right hg'
        · exact Iff.rfl
  · intro b' s
    rw [move_queuedGroups q hne]
    split
    · exact (h.nodup b t).erase g
    · split
      · exact List.nodup_cons.mpr ⟨hfresh, h.nodup b t'⟩
      · exact h.nodup b' s
  · intro g' j hj
    by_cases hg' : g' = g
    · subst hg'
      cases hself.symm.trans hj
      rw [hplayers]
      exact h.nonempty g' i hi
    · exact h.nonempty g' j ((hother hg').symm.trans hj)
  · intro p g'
    refine (h.mapped p g').trans ?_
    by_cases hg' : g' = g
    · subst hg'
      simp [hself, hi, hplayers]
    · rw [hother hg']

variable {l : List ℕ}

theorem Indexed.walk {t : GroupType}
    {f : BattlegroundQueue → ℕ → BattlegroundQueue}
    (hkeep : ∀ q g, Indexed q → q.Names b t g → (f q g).Indexed)
    (hframe : ∀ q g g', g' ≠ g → (f q g).info g' = q.info g') (hl : l.Nodup)
    (h : q.Indexed) (hnames : ∀ g ∈ l, q.Names b t g) : (l.foldl f q).Indexed := by
  induction l generalizing q with
  | nil => exact h
  | cons g l ih =>
    obtain ⟨hg, hl⟩ := List.nodup_cons.mp hl
    apply ih hl (hkeep q g h (hnames g List.mem_cons_self))
    intro g' hg'
    obtain ⟨i, hi, hlist⟩ := hnames g' (List.mem_cons_of_mem g hg')
    refine ⟨i, ?_, hlist⟩
    rw [hframe q g g' (fun heq => hg (heq ▸ hg')), hi]

/-! ### The two checks -/

theorem GroupType.premade_ne_normal (team team' : TeamId) :
    GroupType.premade team ≠ .normal team' := by
  cases team <;> cases team' <;> decide

theorem Indexed.moveExpired (h : q.Indexed) {team : TeamId}
    (hg : q.Names b (.premade team) g) (time n : ℕ) : (q.moveExpired b team time n g).Indexed := by
  rw [BattlegroundQueue.moveExpired]
  split
  · exact h.move (GroupType.premade_ne_normal team team) hg (fun _ => rfl) (fun _ => rfl)
      (fun _ => rfl)
  · exact h

theorem moveExpired_info_ne (b : BracketId) (team : TeamId) (time n : ℕ) (q : BattlegroundQueue)
    (g g' : ℕ) (hg : g' ≠ g) : (q.moveExpired b team time n g).info g' = q.info g' := by
  rw [BattlegroundQueue.moveExpired]
  split
  · exact move_info_ne q hg b _ _ _
  · rfl

theorem Indexed.moveAllExpired (h : q.Indexed) (b : BracketId)
    (team : TeamId) (time n : ℕ) : (q.moveAllExpired b time n team).Indexed :=
  .walk (fun _ _ hq hg => hq.moveExpired hg time n) (moveExpired_info_ne b team time n)
    (h.nodup b _) h fun g hg => (h.listed b _ g).mp hg

theorem Indexed.checkPremadeMatch (h : q.Indexed) (b : BracketId)
    (n m now wait : ℕ) : (q.checkPremadeMatch b n m now wait).1.Indexed := by
  rw [BattlegroundQueue.checkPremadeMatch]
  have h0 : Indexed { q with selectionPools := fun _ => .init } := h.withPools _
  dsimp only
  split
  · exact (h0.select _ _ _).select _ _ _
  · exact foldl_invariant (fun q team hq => hq.moveAllExpired b team _ n) _ h0

theorem tryPools_selected (n g : ℕ) (ginfo : GroupQueueInfo) (js : List TeamId) (pools : Pools)
    (h : ∀ j, (pools j).selectedGroups.Sublist l) (j : TeamId) :
    ((tryPools n g ginfo js pools).1 j).selectedGroups.Sublist (l ++ [g]) := by
  -- as long as no pool has taken the group, the pools still go by `l`
  have hkept : ∀ j, (pools j).selectedGroups.Sublist (l ++ [g]) :=
    fun j => (h j).trans (List.sublist_append_left l [g])
  induction js generalizing pools with
  | nil => exact hkept j
  | cons k js ih =>
    rw [tryPools]
    split
    · have hadded : ((pools k).addGroup g ginfo n).1.selectedGroups.Sublist (l ++ [g]) := by
        rw [SelectionPool.addGroup]
        split
        · exact (h k).append (List.Sublist.refl [g])
        · exact hkept k
      dsimp only
      split
      · show (Function.update pools k _ j).selectedGroups.Sublist _
        by_cases hj : j = k
        · rw [hj, Function.update_self]
          exact hadded
        · rw [Function.update_of_ne hj]
          exact hkept j
      · rename_i hfalse
        have hsame : ((pools k).addGroup g ginfo n).1 = pools k := by
          rw [SelectionPool.addGroup] at hfalse ⊢
          split
          · rename_i hfits
            simp [hfits] at hfalse
          · rfl
        rw [hsame, Function.update_eq_self]
        exact ih pools h hkept
    · exact ih pools h hkept

theorem fillPools_selected (info : ℕ → Option GroupQueueInfo) (n : ℕ) (rest : List ℕ)
    (pools : Pools) (h : ∀ j, (pools j).selectedGroups.Sublist l) (j : TeamId) :
    ((fillPools info n rest pools).1 j).selectedGroups.Sublist (l ++ rest) := by
  induction rest generalizing pools l with
  | nil =>
    rw [List.append_nil]
    exact h j
  | cons g rest ih =>
    rw [fillPools, List.append_cons]
    cases info g with
    | none => exact ih pools fun j => (h j).trans (List.sublist_append_left l [g])
    | some ginfo =>
      have htried := tryPools_selected n g ginfo [.alliance, .horde] pools h
      dsimp only
      split
      · exact (htried j).trans (List.sublist_append_left _ rest)
      · exact ih _ htried

theorem GroupType.normal_ne_wrong (team : TeamId) :
    GroupType.normal team ≠ .normal (if team = .alliance then .horde else .alliance) ∨
      team = .neutral := by
  cases team <;> decide

theorem Indexed.checkSkirmishOf (h : q.Indexed) (b : BracketId) (n : ℕ)
    (teams : List TeamId) (hteams : .neutral ∉ teams) : (checkSkirmishOf b n teams q).1.Indexed := by
  induction teams generalizing q with
  | nil => exact h
  | cons team teams ih =>
    obtain ⟨hteam, hteams⟩ := not_or.mp (mt List.mem_cons.mpr hteams)
    rw [BattlegroundQueue.checkSkirmishOf]
    split
    · exact ih h hteams
    · dsimp only
      split
      · generalize hwrong : (if team = TeamId.alliance then TeamId.horde else .alliance) = wrong
        have hne : GroupType.normal team ≠ .normal wrong := by
          rw [← hwrong]
          exact (GroupType.normal_ne_wrong team).resolve_right (Ne.symm hteam)
        have hsel := fillPools_selected q.info n (q.queuedGroups b (.normal team))
          (fun _ => .init) (fun _ => List.Sublist.refl []) wrong
        rw [List.nil_append] at hsel
        refine .walk (fun q g hq hg => ?_) (fun q g g' hg => ?_)
          ((h.nodup b (.normal team)).sublist hsel) (h.withPools _)
          fun g hg => (h.listed b (.normal team) g).mp (hsel.subset hg)
        · exact hq.move hne hg (fun _ => rfl) (fun _ => rfl) (fun _ => rfl)
        · exact move_info_ne q hg b (.normal team) (.normal wrong) _
      · exact ih (h.withPools _) hteams

/-! ### AddGroup -/

theorem addMember_eq (g : ℕ) {p : ℕ}
    (hi : q.info g = some i) (hp : q.queuedPlayers p = none) :
    addMember g q p = some { q with
      info := Function.update q.info g (some { i with players := insert p i.players })
      queuedPlayers := Function.update q.queuedPlayers p (some g) } := by
  simp [addMember, modify, hi, hp]

theorem addMembers_eq (g : ℕ) (l : List ℕ) (q : BattlegroundQueue)
    (hi : q.info g = some i) (hl : l.Nodup) (hnew : ∀ p ∈ l, q.queuedPlayers p = none) :
    l.foldlM (addMember g) q = some { q with
      info := Function.update q.info g (some { i with players := i.players ∪ l.toFinset })
      queuedPlayers := fun p => if p ∈ l then some g else q.queuedPlayers p } := by
  induction l generalizing q i with
  | nil =>
    have hsame : Function.update q.info g (some { i with players := i.players }) = q.info := by
      rw [← hi, Function.update_eq_self]
    simp [hsame]
  | cons p l ih =>
    obtain ⟨hp, hl⟩ := List.nodup_cons.mp hl
    rw [List.foldlM_cons, addMember_eq g hi (hnew p List.mem_cons_self), Option.bind_eq_bind,
      Option.bind_some]
    refine (ih _ (Function.update_self g _ _) hl fun p' hp' => ?_).trans ?_
    · have hne : p' ≠ p := fun heq => hp (heq ▸ hp')
      show Function.update q.queuedPlayers p (some g) p' = none
      rw [Function.update_of_ne hne]
      exact hnew p' (List.mem_cons_of_mem p hp')
    · have hplayers : insert p i.players ∪ l.toFinset = i.players ∪ (p :: l).toFinset := by
        ext p'
        simp only [Finset.mem_union, Finset.mem_insert, List.mem_toFinset, List.mem_cons]
        tauto
      simp only [Function.update_idem, hplayers, Option.some.injEq, BattlegroundQueue.mk.injEq,
        and_true, true_and]
      funext p'
      by_cases hp' : p' = p
      · simp [hp', hp]
      · simp [hp', Function.update_of_ne]

theorem Indexed.addGroup (h : q.Indexed) {new leader : ℕ} (team : TeamId)
    {grp : Option (List (Option ℕ))} (b : BracketId) (rated premade : Bool) (now : ℕ)
    (hnew : q.info new = none) (hleader : leader ∈ members leader grp)
    (hmembers : (members leader grp).Nodup)
    (hfree : ∀ p ∈ members leader grp, q.queuedPlayers p = none) :
    ∃ q', q.addGroup new leader team grp b rated premade now = some q' ∧ q'.Indexed := by
  rw [BattlegroundQueue.addGroup]
  generalize members leader grp = l at *
  generalize (if !rated && !premade then GroupType.normal team else .premade team) = index
  have hadd := addMembers_eq new l
    { q with info := Function.update q.info new (some ⟨∅, team, rated, now, 0, b, index⟩) }
    (Function.update_self new _ _) hmembers hfree
  rw [hadd, Option.map_some]
  refine ⟨_, rfl, ?_⟩
  rw [Finset.empty_union, Function.update_idem]
  have hunlisted : ∀ b' t, new ∉ q.queuedGroups b' t := by
    intro b' t hm
    obtain ⟨i, hi, -⟩ := (h.listed b' t new).mp hm
    rw [hnew] at hi
    cases hi
  have hunmapped : ∀ p, q.queuedPlayers p ≠ some new := by
    intro p hp
    obtain ⟨i, hi, -⟩ := (h.mapped p new).mp hp
    rw [hnew] at hi
    cases hi
  constructor
  · intro b' t g
    by_cases hg : g = new
    · subst hg
      by_cases hbt : b' = b ∧ t = index
      · simp [setGroups, Names, hbt]
      · have hflip : ¬(b = b' ∧ index = t) := fun ⟨h1, h2⟩ => hbt ⟨h1.symm, h2.symm⟩
        simp [setGroups, Names, hbt, hunlisted, hflip]
    · have hold := h.listed b' t g
      by_cases hbt : b' = b ∧ t = index
      · obtain ⟨rfl, rfl⟩ := hbt
        simpa [setGroups, Names, hg] using hold
      · simpa [setGroups, Names, hg, hbt] using hold
  · intro b' t
    simp only [setGroups]
    split
    · rw [← List.concat_eq_append]
      exact (h.nodup b' t).concat (hunlisted b' t)
    · exact h.nodup b' t
  · intro g i hi
    by_cases hg : g = new
    · subst hg
      simp only [setGroups, Function.update_self, Option.some.injEq] at hi
      subst hi
      exact ⟨leader, List.mem_toFinset.mpr hleader⟩
    · simp only [setGroups, Function.update_of_ne hg] at hi
      exact h.nonempty g i hi
  · intro p g
    by_cases hg : g = new
    · subst hg
      by_cases hp : p ∈ l
      · simp [setGroups, hp]
      · simp [setGroups, hp, hunmapped]
    · have hold := h.mapped p g
      by_cases hp : p ∈ l
      · -- a player who joins now was in no other group
        rw [hfree p hp] at hold
        simpa [setGroups, hp, hg, Ne.symm hg] using hold
      · simpa [setGroups, hp, hg] using hold

/-! ### RemovePlayer -/

variable {p g : ℕ}

theorem Indexed.find (h : q.Indexed)
    (hp : q.queuedPlayers p = some g) :
    ∃ i, q.info g = some i ∧ p ∈ i.players ∧ g ∈ q.queuedGroups i.bracketId i.groupType := by
  obtain ⟨i, hi, hmem⟩ := (h.mapped p g).mp hp
  exact ⟨i, hi, hmem, (h.listed _ _ g).mpr ⟨i, hi, rfl, rfl⟩⟩

theorem Indexed.group_eq (h : q.Indexed) {p g g' : ℕ}
    {i i' : GroupQueueInfo} (hi : q.info g = some i) (hp : p ∈ i.players)
    (hi' : q.info g' = some i') (hp' : p ∈ i'.players) : g = g' :=
  Option.some.inj (((h.mapped p g).mpr ⟨i, hi, hp⟩).symm.trans ((h.mapped p g').mpr ⟨i', hi', hp'⟩))

theorem Indexed.leave (h : q.Indexed)
    (hi : q.info g = some i) (hp : p ∈ i.players) (hrest : (i.players.erase p).Nonempty) :
    Indexed { q with
      info := Function.update q.info g (some { i with players := i.players.erase p })
      queuedPlayers := Function.update q.queuedPlayers p none } := by
  constructor
  · intro b t g'
    refine (h.listed b t g').trans ?_
    by_cases hg : g' = g
    · subst hg
      simp [Names, hi]
    · simp [Names, hg]
  · exact h.nodup
  · intro g' j hj
    by_cases hg : g' = g
    · subst hg
      simp only [Function.update_self, Option.some.injEq] at hj
      subst hj
      exact hrest
    · simp only [Function.update_of_ne hg] at hj
      exact h.nonempty g' j hj
  · intro p' g'
    have hold := h.mapped p' g'
    by_cases hp' : p' = p
    · subst hp'
      by_cases hg : g' = g
      · subst hg
        simp
      · have hout : ∀ j, q.info g' = some j → p' ∉ j.players :=
          fun j hj hm => hg (h.group_eq hj hm hi hp)
        simpa [hg] using hout
    · by_cases hg : g' = g
      · subst hg
        simpa [hp', hi] using hold
      · simpa [hp', hg] using hold

theorem Indexed.leaveLast (h : q.Indexed)
    (hi : q.info g = some i) (hp : p ∈ i.players) (hrest : ¬(i.players.erase p).Nonempty) :
    Indexed { q.setGroups i.bracketId i.groupType (·.erase g) with
      info := Function.update q.info g none
      queuedPlayers := Function.update q.queuedPlayers p none } := by
  have honly : ∀ p' ∈ i.players, p' = p := by
    intro p' hp'
    by_contra hne
    exact hrest ⟨p', Finset.mem_erase.mpr ⟨hne, hp'⟩⟩
  constructor
  · intro b t g'
    have hold := h.listed b t g'
    by_cases hbt : b = i.bracketId ∧ t = i.groupType
    · obtain ⟨rfl, rfl⟩ := hbt
      by_cases hg : g' = g
      · subst hg
        simp [setGroups, Names, (h.nodup i.bracketId i.groupType).mem_erase_iff]
      · simpa [setGroups, Names, hg, List.mem_erase_of_ne hg] using hold
    · by_cases hg : g' = g
      · subst hg
        have hout : g' ∉ q.queuedGroups b t := by
          intro hm
          obtain ⟨j, hj, hjb, hjt⟩ := hold.mp hm
          cases hi.symm.trans hj
          exact hbt ⟨hjb.symm, hjt.symm⟩
        simpa [setGroups, Names, hbt] using hout
      · simpa [setGroups, Names, hbt, hg] using hold
  · intro b t
    simp only [setGroups]
    split
    · exact (h.nodup b t).erase g
    · exact h.nodup b t
  · intro g' j hj
    by_cases hg : g' = g
    · subst hg
      simp at hj
    · simp only [Function.update_of_ne hg] at hj
      exact h.nonempty g' j hj
  · intro p' g'
    have hold := h.mapped p' g'
    by_cases hp' : p' = p
    · subst hp'
      by_cases hg : g' = g
      · subst hg
        simp
      · have hout : ∀ j, q.info g' = some j → p' ∉ j.players :=
          fun j hj hm => hg (h.group_eq hj hm hi hp)
        simpa [hg] using hout
    · by_cases hg : g' = g
      · subst hg
        have hout : q.queuedPlayers p' ≠ some g' := by
          intro hm
          obtain ⟨j, hj, hmem⟩ := hold.mp hm
          cases hi.symm.trans hj
          exact hp' (honly p' hmem)
        simpa [hp'] using hout
      · simpa [hp', hg] using hold

theorem Indexed.removeOne (h : q.Indexed)
    (hi : q.info g = some i) (hp : p ∈ i.players) :
    ∃ q' next, q.removeOne p = some (q', next) ∧ q'.Indexed ∧ ∀ p', next = some p' →
      ∃ i', q'.info g = some i' ∧ p' ∈ i'.players ∧ i'.players.card + 1 = i.players.card := by
  have hmap := (h.mapped p g).mpr ⟨i, hi, hp⟩
  have hlist := (h.listed i.bracketId i.groupType g).mpr ⟨i, hi, rfl, rfl⟩
  have hcard := Finset.card_erase_add_one hp
  simp only [BattlegroundQueue.removeOne, hmap, hi, hlist, hp, not_true_eq_false, if_false]
  rw [modify_eq hi]
  split
  · rename_i hrest
    have hleave := h.leave hi hp hrest
    split
    · refine ⟨_, _, rfl, hleave, fun p' hp' => ?_⟩
      cases hp'
      exact ⟨_, Function.update_self g _ _, Finset.min'_mem _ hrest, hcard⟩
    · exact ⟨_, _, rfl, hleave, fun p' hp' => by cases hp'⟩
  · rename_i hrest
    have hlast := h.leaveLast hi hp hrest
    refine ⟨_, _, rfl, ?_, fun p' hp' => by cases hp'⟩
    simpa only [setGroups, Function.update_idem] using hlast

theorem Indexed.removeWithin (h : q.Indexed)
    (hi : q.info g = some i) (hp : p ∈ i.players) (depth : ℕ) (hdepth : i.players.card ≤ depth) :
    ∃ q', removeWithin depth q p = some q' ∧ q'.Indexed := by
  induction depth generalizing q p i with
  | zero =>
    have hpos := Finset.card_pos.mpr ⟨p, hp⟩
    omega
  | succ depth ih =>
    obtain ⟨q', next, hone, hq', hnext⟩ := h.removeOne hi hp
    rw [BattlegroundQueue.removeWithin, hone]
    cases next with
    | none => exact ⟨q', rfl, hq'⟩
    | some p' =>
      obtain ⟨i', hi', hp', hcard⟩ := hnext p' rfl
      exact ih hq' hi' hp' (by omega)

theorem Indexed.removePlayer (h : q.Indexed) {p : ℕ}
    (hp : (q.queuedPlayers p).isSome) : ∃ q', q.removePlayer p = some q' ∧ q'.Indexed := by
  obtain ⟨g, hg⟩ := Option.isSome_iff_exists.mp hp
  obtain ⟨i, hi, hmem, -⟩ := h.find hg
  apply h.removeWithin hi hmem
  simp [hg, hi]

/-! ### Runs -/

theorem Indexed.step {q q' : BattlegroundQueue} {c : Call} (h : q.Indexed)
    (hs : q.step c = some q') : q'.Indexed := by
  cases c with
  | addGroup new leader team grp b rated premade now =>
    simp only [BattlegroundQueue.step, Option.ite_none_right_eq_some] at hs
    obtain ⟨⟨hnew, hleader, hmembers, hfree⟩, hs⟩ := hs
    obtain ⟨q₁, hadd, hq₁⟩ := h.addGroup team b rated premade now hnew hleader hmembers hfree
    cases hadd.symm.trans hs
    exact hq₁
  | removePlayer p =>
    simp only [BattlegroundQueue.step, Option.ite_none_right_eq_some] at hs
    obtain ⟨hp, hs⟩ := hs
    obtain ⟨q₁, hrem, hq₁⟩ := h.removePlayer hp
    cases hrem.symm.trans hs
    exact hq₁
  | checkPremadeMatch b n m now wait =>
    cases hs
    exact h.checkPremadeMatch b n m now wait
  | checkSkirmishForSameFaction b n =>
    cases hs
    exact h.checkSkirmishOf b n _ (by decide)
  | inviteGroup g instanceId team =>
    cases hs
    exact h.modify g (fun _ => rfl) (fun _ => rfl) (fun _ => rfl)

theorem Reachable.indexed (h : q.Reachable) : q.Indexed := by
  refine Reaches.invariant (I := Indexed) (fun q h0 => ?_) (fun q c q' hq _ hs => hq.step hs) h
  rw [show q = empty from h0]
  exact indexed_empty

theorem Indexed.count_eq_one (h : q.Indexed)
    (hi : q.info g = some i) : ∑ b, ∑ t, (q.queuedGroups b t).count g = 1 := by
  have hout : ∀ b t, ¬(b = i.bracketId ∧ t = i.groupType) → (q.queuedGroups b t).count g = 0 := by
    intro b t hbt
    refine List.count_eq_zero.mpr fun hm => hbt ?_
    obtain ⟨j, hj, hjb, hjt⟩ := (h.listed b t g).mp hm
    cases hi.symm.trans hj
    exact ⟨hjb.symm, hjt.symm⟩
  have hin : g ∈ q.queuedGroups i.bracketId i.groupType :=
    (h.listed _ _ g).mpr ⟨i, hi, rfl, rfl⟩
  calc ∑ b, ∑ t, (q.queuedGroups b t).count g
      = ∑ t, (q.queuedGroups i.bracketId t).count g :=
        Finset.sum_eq_single _
          (fun b _ hb => Finset.sum_eq_zero fun t _ => hout b t fun hbt => hb hbt.1)
          fun hb => absurd (Finset.mem_univ _) hb
    _ = (q.queuedGroups i.bracketId i.groupType).count g :=
        Finset.sum_eq_single _ (fun t _ ht => hout _ t fun hbt => ht hbt.2)
          fun ht => absurd (Finset.mem_univ _) ht
    _ = 1 := List.count_eq_one_of_mem (h.nodup _ _) hin

/-- Every group occurs exactly once, in the list its own fields name, with players in it; the lists
hold live groups only, the map is the inverse of the player sets, and `RemovePlayer` of a queued
player runs into none of its `ASSERT`s. -/
theorem reachable_queue_consistent (q : BattlegroundQueue) (h : q.Reachable) :
    (∀ g i, q.info g = some i → (∑ b, ∑ t, (q.queuedGroups b t).count g) = 1 ∧
      g ∈ q.queuedGroups i.bracketId i.groupType ∧ i.players.Nonempty) ∧
    (∀ b t, ∀ g ∈ q.queuedGroups b t, (q.info g).isSome) ∧
    (∀ p g, q.queuedPlayers p = some g ↔ ∃ i, q.info g = some i ∧ p ∈ i.players) ∧
    ∀ p, (q.queuedPlayers p).isSome → (q.removePlayer p).isSome := by
  have hq := h.indexed
  refine ⟨fun g i hi => ⟨hq.count_eq_one hi, (hq.listed _ _ g).mpr ⟨i, hi, rfl, rfl⟩,
    hq.nonempty g i hi⟩, fun b t g hg => ?_, hq.mapped, fun p hp => ?_⟩
  · obtain ⟨i, hi, -⟩ := (hq.listed b t g).mp hg
    rw [hi]
    rfl
  · obtain ⟨q', hrem, -⟩ := hq.removePlayer hp
    rw [hrem]
    rfl

def sampleRun : List Call :=
  let b : BracketId := ⟨3, by decide⟩
  [.addGroup 100 1 .alliance (some [some 1, none, some 2]) b true false 5,
    .addGroup 101 3 .horde none b false false 6,
    .addGroup 102 4 .alliance (some [some 4, some 5]) b false true 40,
    .addGroup 103 6 .alliance (some [some 6, some 7]) b false false 41,
    .checkPremadeMatch b 2 5 90 30, .checkSkirmishForSameFaction b 2, .removePlayer 1]

theorem reachable_queue_consistent_sample : ∃ q : BattlegroundQueue, q.Reachable ∧
    (q.queuedPlayers 6).isSome ∧ (q.removePlayer 6).isSome ∧
      ∀ g i, q.info g = some i → (∑ b, ∑ t, (q.queuedGroups b t).count g) = 1 := by
  have hempty : Starts empty := rfl
  obtain ⟨q, hq, htest⟩ := Reaches.exists_of_replay BattlegroundQueue.step anyStep hempty sampleRun
    (replayOk_anyStep _ _ _) (fun q => (q.queuedPlayers 6).isSome) (by decide)
  obtain ⟨hgroups, -, -, hremove⟩ := reachable_queue_consistent q hq
  exact ⟨q, hq, htest, hremove 6 htest, fun g i hi => (hgroups g i hi).1⟩

end BattlegroundQueue

end HysteriaCore.Battleground
