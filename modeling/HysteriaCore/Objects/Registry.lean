import HysteriaCore.Lib.KeyedList
import HysteriaCore.Lib.Runs

/-!
# The registry of online players (shade/Objects/ObjectMgr.cpp)

`Player_Add` and `Player_Remove` only queue; `Update` drains the additions and then the
removals, and finds the player of each by its GUID. `HandlePlayerLogin` adds an object it
has just made, and `PlayerLogout` removes the object of its session and forgets it, so no
object is added twice or removed twice. `CleanupChannels` is not part of the model.
-/

namespace HysteriaCore.Objects
open Lib

/-- A `Player` object; `object` stands for the pointer. `session` and `social` are the
pointers `m_session` and `m_social`. -/
structure Player where
  object : ℕ
  guid : ℕ
  team : ℕ
  session : ℕ
  social : ℕ
  deriving DecidableEq

def HORDE : ℕ := 67
def ALLIANCE : ℕ := 469

structure PlayerCounts where
  playerCount : UInt32
  maxPlayerCount : UInt32
  hordeCount : UInt32
  allyCount : UInt32

namespace PlayerCounts

def zero : PlayerCounts := ⟨0, 0, 0, 0⟩

def increase (c : PlayerCounts) (team : ℕ) : PlayerCounts where
  playerCount := c.playerCount + 1
  maxPlayerCount := max c.maxPlayerCount (c.playerCount + 1)
  hordeCount := if team = HORDE then c.hordeCount + 1 else c.hordeCount
  allyCount := if team = ALLIANCE then c.allyCount + 1 else c.allyCount

def decrease (c : PlayerCounts) (team : ℕ) : PlayerCounts where
  playerCount := c.playerCount - 1
  maxPlayerCount := c.maxPlayerCount
  hordeCount := if team = HORDE then c.hordeCount - 1 else c.hordeCount
  allyCount := if team = ALLIANCE then c.allyCount - 1 else c.allyCount

end PlayerCounts

/-- The `ObjectMgr`, with the objects ever passed to `Player_Add` (the latest first) and to
`Player_Remove`, and those deleted. -/
structure ObjectMgr where
  playerMap : KeyedList Player.guid
  newPlayer : List Player
  delPlayer : List Player
  counts : PlayerCounts
  added : List Player
  removed : List Player
  deleted : List Player

namespace ObjectMgr

def initial : ObjectMgr := ⟨.empty, [], [], .zero, [], [], []⟩

def playerAdd (s : ObjectMgr) (player : Player) : ObjectMgr :=
  { s with newPlayer := s.newPlayer ++ [player], added := player :: s.added }

def playerRemove (s : ObjectMgr) (player : Player) : ObjectMgr :=
  { s with delPlayer := s.delPlayer ++ [player], removed := player :: s.removed }

def addNew (s : ObjectMgr) (nPlayer : Player) : ObjectMgr :=
  let s :=
    match s.playerMap.find? nPlayer.guid with
    | some _ =>
      { s with
        counts := s.counts.decrease nPlayer.team
        playerMap := s.playerMap.erase nPlayer.guid }
    | none => s
  { s with playerMap := s.playerMap.put nPlayer, counts := s.counts.increase nPlayer.team }

def removeOld (s : ObjectMgr) (nPlayer : Player) : ObjectMgr :=
  match s.playerMap.find? nPlayer.guid with
  | some _ =>
    { s with
      counts := s.counts.decrease nPlayer.team
      deleted := nPlayer :: s.deleted
      playerMap := s.playerMap.erase nPlayer.guid }
  | none => s

def update (s : ObjectMgr) : ObjectMgr :=
  let s := s.newPlayer.foldl addNew { s with newPlayer := [] }
  s.delPlayer.foldl removeOld { s with delPlayer := [] }

def findPlayer (s : ObjectMgr) (guid : ℕ) : Option Player := s.playerMap.find? guid

inductive Event where
  | playerAdd (player : Player)
  | playerRemove (player : Player)
  | update
  deriving DecidableEq

def step (s : ObjectMgr) : Event → Option ObjectMgr
  | .playerAdd player => guarded (player.object ∉ s.added.map Player.object) (s.playerAdd player)
  | .playerRemove player => guarded (player ∈ s.added ∧ player ∉ s.removed) (s.playerRemove player)
  | .update => some s.update

def Starts (s : ObjectMgr) : Prop := s = initial

/-! ### Look-ups that find what was added last -/

def lastAdded (added without : List Player) (guid : ℕ) : Option Player :=
  added.find? fun p => decide (p.guid = guid ∧ p ∉ without)

structure Exact (s : ObjectMgr) : Prop where
  findPlayer_eq : ∀ guid, s.findPlayer guid = lastAdded s.added s.removed guid
  deleted : ∀ p ∈ s.removed, p ∈ s.deleted

/-- No object in `_DelPlayer` shares its GUID with another object that was not deleted. -/
def Alone (s : ObjectMgr) : Prop :=
  ∀ p ∈ s.delPlayer, ∀ q ∈ s.added, q.guid = p.guid → q ∉ s.deleted → q = p

instance (s : ObjectMgr) : Decidable s.Alone := inferInstanceAs (Decidable (∀ p ∈ _, _))

def KeepsExact (s : ObjectMgr) : Event → Prop
  | .update => s.Alone
  | _ => True

/-! ### The two loops -/

theorem lastAdded_congr {added d d' : List Player} (h : ∀ p, p ∈ d ↔ p ∈ d') (guid : ℕ) :
    lastAdded added d guid = lastAdded added d' guid := by
  unfold lastAdded
  simp only [h]

theorem lastAdded_eq_none {added d : List Player} {guid : ℕ} :
    lastAdded added d guid = none ↔ ∀ p ∈ added, p.guid = guid → p ∈ d := by
  simp [lastAdded, List.find?_eq_none]

theorem addNew_spec (s : ObjectMgr) (p : Player) :
    ∃ m c, s.addNew p = { s with playerMap := m, counts := c } ∧
      ∀ g, m.find? g = if p.guid = g then some p else s.playerMap.find? g := by
  unfold addNew
  cases s.playerMap.find? p.guid with
  | none => exact ⟨_, _, rfl, fun g => KeyedList.find?_put ..⟩
  | some old =>
    refine ⟨_, _, rfl, fun g => ?_⟩
    rw [KeyedList.find?_put, KeyedList.find?_erase]
    by_cases h : p.guid = g
    · rw [if_pos h, if_pos h]
    · rw [if_neg h, if_neg h, if_neg (Ne.symm h)]

theorem foldl_addNew (queue : List Player) (s : ObjectMgr) (old : List Player)
    (hqueue : ∀ p ∈ queue, p ∉ s.deleted)
    (hmap : ∀ g, s.playerMap.find? g = lastAdded old s.deleted g) :
    ∃ m c, queue.foldl addNew s = { s with playerMap := m, counts := c } ∧
      ∀ g, m.find? g = lastAdded (queue.reverse ++ old) s.deleted g := by
  induction queue generalizing s old with
  | nil => exact ⟨_, _, rfl, hmap⟩
  | cons p rest ih =>
    obtain ⟨m, c, hadd, hfind⟩ := s.addNew_spec p
    have hp : p ∉ s.deleted := hqueue p (.head _)
    have hnext : ∀ g, m.find? g = lastAdded (p :: old) s.deleted g := by
      intro g
      rw [hfind]
      by_cases hg : p.guid = g
      · rw [if_pos hg, lastAdded, List.find?_cons_of_pos (by simp [hg, hp])]
      · rw [if_neg hg, hmap, lastAdded, lastAdded, List.find?_cons_of_neg (by simp [hg])]
    obtain ⟨m', c', hrest, hfind'⟩ := ih { s with playerMap := m, counts := c } (p :: old)
      (fun q hq => hqueue q (.tail _ hq)) hnext
    refine ⟨m', c', ?_, fun g => ?_⟩
    · rw [List.foldl_cons, hadd, hrest]
    · rw [hfind', List.reverse_cons, List.append_assoc]
      rfl

variable {s : ObjectMgr}

theorem removeOld_found {p q : Player} (h : s.playerMap.find? p.guid = some q) :
    s.removeOld p =
      { s with
        counts := s.counts.decrease p.team
        deleted := p :: s.deleted
        playerMap := s.playerMap.erase p.guid } := by
  rw [removeOld, h]

theorem removeOld_missing {p : Player} (h : s.playerMap.find? p.guid = none) : s.removeOld p = s := by
  rw [removeOld, h]

theorem foldl_removeOld (queue : List Player) (s : ObjectMgr) (hnodup : queue.Nodup)
    (hadded : ∀ p ∈ queue, p ∈ s.added ∧ p ∉ s.deleted)
    (halone : ∀ p ∈ queue, ∀ q ∈ s.added, q.guid = p.guid → q ∉ s.deleted → q = p)
    (hmap : ∀ g, s.playerMap.find? g = lastAdded s.added s.deleted g) :
    ∃ m c, queue.foldl removeOld s =
        { s with playerMap := m, counts := c, deleted := queue.reverse ++ s.deleted } ∧
      ∀ g, m.find? g = lastAdded s.added (queue.reverse ++ s.deleted) g := by
  induction queue generalizing s with
  | nil => exact ⟨_, _, rfl, hmap⟩
  | cons p rest ih =>
    obtain ⟨hp, hrest⟩ := List.nodup_cons.mp hnodup
    obtain ⟨hpadded, hpdeleted⟩ := hadded p (.head _)
    obtain ⟨q, hq⟩ : ∃ q, s.playerMap.find? p.guid = some q := by
      refine Option.ne_none_iff_exists'.mp fun hnone => hpdeleted ?_
      rw [hmap] at hnone
      exact lastAdded_eq_none.mp hnone p hpadded rfl
    have hnext : ∀ g, (s.playerMap.erase p.guid).find? g = lastAdded s.added (p :: s.deleted) g := by
      intro g
      rw [KeyedList.find?_erase]
      by_cases hg : g = p.guid
      · rw [if_pos hg, Eq.comm, lastAdded_eq_none]
        intro r hr hrg
        by_cases hrd : r ∈ s.deleted
        · exact .tail _ hrd
        · rw [halone p (.head _) r hr (hrg.trans hg) hrd]
          exact .head _
      · rw [if_neg hg, hmap]
        unfold lastAdded
        refine congrArg (List.find? · _) (funext fun r => decide_eq_decide.mpr ?_)
        rw [List.mem_cons, not_or]
        exact and_congr_right fun hr => ⟨fun h => ⟨fun e => hg (by rw [← hr, e]), h⟩, And.right⟩
    obtain ⟨m, c, hfold, hfind⟩ := ih
      { s with
        counts := s.counts.decrease p.team
        deleted := p :: s.deleted
        playerMap := s.playerMap.erase p.guid } hrest
      (by
        intro r hr
        obtain ⟨hra, hrd⟩ := hadded r (.tail _ hr)
        refine ⟨hra, fun h => ?_⟩
        rcases List.mem_cons.mp h with rfl | h
        · exact hp hr
        · exact hrd h)
      (fun r hr q hq hguid hqd => halone r (.tail _ hr) q hq hguid fun h => hqd (.tail _ h)) hnext
    refine ⟨m, c, ?_, fun g => ?_⟩
    · rw [List.foldl_cons, removeOld_found hq, hfold, List.reverse_cons, List.append_assoc]
      rfl
    · rw [hfind, List.reverse_cons, List.append_assoc]
      rfl

/-! ### Runs -/

/-- Between two calls: `old` are the objects that an `Update` has seen. -/
structure Inv (s : ObjectMgr) (old : List Player) : Prop where
  added : s.added = s.newPlayer.reverse ++ old
  nodup : s.added.Nodup
  deleted : ∀ p ∈ s.deleted, p ∈ old
  delPlayer : s.delPlayer.Nodup
  waiting : ∀ p ∈ s.delPlayer, p ∈ s.added ∧ p ∉ s.deleted
  removed : ∀ p, p ∈ s.removed ↔ p ∈ s.delPlayer ∨ p ∈ s.deleted
  map : ∀ g, s.playerMap.find? g = lastAdded old s.deleted g

variable {old : List Player}

theorem Inv.update_eq (h : Inv s old) :
    ∃ m c, s.update = s.delPlayer.foldl removeOld
        { s with playerMap := m, newPlayer := [], delPlayer := [], counts := c } ∧
      ∀ g, m.find? g = lastAdded s.added s.deleted g := by
  have hnew : ∀ p ∈ s.newPlayer, p ∉ s.deleted := by
    intro p hp hd
    have hdisjoint := List.disjoint_of_nodup_append (h.added ▸ h.nodup)
    exact hdisjoint (List.mem_reverse.mpr hp) (h.deleted p hd)
  obtain ⟨m, c, hfold, hfind⟩ := foldl_addNew s.newPlayer { s with newPlayer := [] } old hnew h.map
  refine ⟨m, c, ?_, fun g => ?_⟩
  · unfold update
    rw [hfold]
  · rw [hfind, h.added]

theorem Inv.update (h : Inv s old) (halone : s.Alone) : Inv s.update s.added ∧ Exact s.update := by
  obtain ⟨m, c, heq, hmap⟩ := h.update_eq
  obtain ⟨m', c', hfold, hmap'⟩ := foldl_removeOld s.delPlayer
    { s with playerMap := m, newPlayer := [], delPlayer := [], counts := c } h.delPlayer h.waiting
    halone hmap
  rw [heq, hfold]
  have hremoved : ∀ p, p ∈ s.removed ↔ p ∈ s.delPlayer.reverse ++ s.deleted := by
    intro p
    rw [h.removed, List.mem_append, List.mem_reverse]
  constructor
  · refine ⟨rfl, h.nodup, ?_, .nil, by simp, fun p => ?_, hmap'⟩
    · intro p hp
      rcases List.mem_append.mp hp with hp | hp
      · exact (h.waiting p (List.mem_reverse.mp hp)).1
      · rw [h.added]
        exact List.mem_append_right _ (h.deleted p hp)
    · rw [hremoved]
      simp
  · refine ⟨fun g => ?_, fun p => (hremoved p).mp⟩
    show m'.find? g = lastAdded s.added s.removed g
    rw [hmap', lastAdded_congr hremoved]

theorem Inv.step {s t : ObjectMgr} {e : Event} (h : ∃ old, Inv s old) (hok : s.KeepsExact e)
    (hs : s.step e = some t) : ∃ old, Inv t old := by
  obtain ⟨old, h⟩ := h
  cases e with
  | playerAdd p =>
    obtain ⟨hfresh, rfl⟩ := guarded_eq_some.mp hs
    have hp : p ∉ s.added := fun hp => hfresh (List.mem_map_of_mem hp)
    refine ⟨old, ?_, List.nodup_cons.mpr ⟨hp, h.nodup⟩, h.deleted, h.delPlayer, ?_, h.removed, h.map⟩
    · show p :: s.added = (s.newPlayer ++ [p]).reverse ++ old
      rw [List.reverse_append, h.added]
      rfl
    · exact fun q hq => ⟨.tail _ (h.waiting q hq).1, (h.waiting q hq).2⟩
  | playerRemove p =>
    obtain ⟨⟨hp, hnew⟩, rfl⟩ := guarded_eq_some.mp hs
    have hnew : p ∉ s.delPlayer ∧ p ∉ s.deleted := not_or.mp fun hor => hnew ((h.removed p).mpr hor)
    refine ⟨old, h.added, h.nodup, h.deleted, ?_, ?_, ?_, h.map⟩
    · exact List.Nodup.append h.delPlayer (List.nodup_singleton p) (by simpa using hnew.1)
    · intro q hq
      rcases List.mem_append.mp hq with hq | hq
      · exact h.waiting q hq
      · rw [List.mem_singleton.mp hq]
        exact ⟨hp, hnew.2⟩
    · intro q
      show q ∈ p :: s.removed ↔ q ∈ s.delPlayer ++ [p] ∨ q ∈ s.deleted
      rw [List.mem_cons, List.mem_append, List.mem_singleton, h.removed]
      tauto
  | update =>
    cases hs
    exact ⟨s.added, (h.update hok).1⟩

theorem foldl_removeOld_missing (queue : List Player) (s : ObjectMgr) (g : ℕ)
    (hmap : s.playerMap.find? g = none) :
    (queue.foldl removeOld s).playerMap.find? g = none ∧
      ∀ p ∈ (queue.foldl removeOld s).deleted, p.guid = g → p ∈ s.deleted := by
  induction queue generalizing s with
  | nil => exact ⟨hmap, fun p hp _ => hp⟩
  | cons p rest ih =>
    rw [List.foldl_cons]
    cases hp : s.playerMap.find? p.guid with
    | none =>
      rw [removeOld_missing hp]
      exact ih s hmap
    | some q =>
      have hne : p.guid ≠ g := fun h => by simp [← h, hp] at hmap
      rw [removeOld_found hp]
      obtain ⟨hnone, hdeleted⟩ := ih
        { s with
          counts := s.counts.decrease p.team
          deleted := p :: s.deleted
          playerMap := s.playerMap.erase p.guid }
        (by rw [KeyedList.find?_erase, hmap, ite_self])
      refine ⟨hnone, fun r hr hrg => ?_⟩
      rcases List.mem_cons.mp (hdeleted r hr hrg) with rfl | h
      · exact absurd hrg hne
      · exact h

theorem foldl_removeOld_once (queue : List Player) (s : ObjectMgr) {p : Player} (hp : p ∈ queue) :
    (queue.foldl removeOld s).playerMap.find? p.guid = none ∧
      ∃ q, ∀ r ∈ (queue.foldl removeOld s).deleted, r.guid = p.guid → r = q ∨ r ∈ s.deleted := by
  induction queue generalizing s with
  | nil => exact absurd hp List.not_mem_nil
  | cons q rest ih =>
    rw [List.foldl_cons]
    by_cases hq : q.guid = p.guid
    · cases hfind : s.playerMap.find? q.guid with
      | none =>
        rw [removeOld_missing hfind]
        obtain ⟨hnone, hdeleted⟩ := foldl_removeOld_missing rest s p.guid (hq ▸ hfind)
        exact ⟨hnone, p, fun r hr hrg => .inr (hdeleted r hr hrg)⟩
      | some _ =>
        rw [removeOld_found hfind]
        obtain ⟨hnone, hdeleted⟩ := foldl_removeOld_missing rest
          { s with
            counts := s.counts.decrease q.team
            deleted := q :: s.deleted
            playerMap := s.playerMap.erase q.guid } p.guid
          (by rw [KeyedList.find?_erase, if_pos hq.symm])
        exact ⟨hnone, q, fun r hr hrg => List.mem_cons.mp (hdeleted r hr hrg)⟩
    · have hrest : p ∈ rest := (List.mem_cons.mp hp).resolve_left fun h => hq (by rw [h])
      obtain ⟨hnone, r, hr⟩ := ih (s.removeOld q) hrest
      refine ⟨hnone, r, fun x hx hxg => (hr x hx hxg).imp_right fun hxd => ?_⟩
      cases hfind : s.playerMap.find? q.guid with
      | none => rwa [removeOld_missing hfind] at hxd
      | some _ =>
        rw [removeOld_found hfind] at hxd
        exact (List.mem_cons.mp hxd).resolve_left fun h => hq (by rw [← h, hxg])

theorem foldl_removeOld_eq (queue : List Player) (s : ObjectMgr) :
    ∃ m c d, queue.foldl removeOld s = { s with playerMap := m, counts := c, deleted := d } ∧
      ∀ g p, m.find? g = some p → s.playerMap.find? g = some p := by
  induction queue generalizing s with
  | nil => exact ⟨_, _, _, rfl, fun _ _ h => h⟩
  | cons p rest ih =>
    rw [List.foldl_cons]
    cases hfind : s.playerMap.find? p.guid with
    | none =>
      rw [removeOld_missing hfind]
      exact ih s
    | some q =>
      rw [removeOld_found hfind]
      obtain ⟨m, c, d, heq, hsub⟩ := ih
        { s with
          counts := s.counts.decrease p.team
          deleted := p :: s.deleted
          playerMap := s.playerMap.erase p.guid }
      refine ⟨m, c, d, heq, fun g r hr => ?_⟩
      have herase := hsub g r hr
      dsimp only at herase
      rw [KeyedList.find?_erase] at herase
      split at herase
      · cases herase
      · exact herase

theorem foldl_addNew_eq (queue : List Player) (s : ObjectMgr) :
    ∃ m c, queue.foldl addNew s = { s with playerMap := m, counts := c } ∧
      ∀ g p, m.find? g = some p → s.playerMap.find? g = some p ∨ p ∈ queue := by
  induction queue generalizing s with
  | nil => exact ⟨_, _, rfl, fun _ _ h => .inl h⟩
  | cons p rest ih =>
    obtain ⟨m, c, hadd, hfind⟩ := s.addNew_spec p
    obtain ⟨m', c', hrest, hsub⟩ := ih { s with playerMap := m, counts := c }
    refine ⟨m', c', by rw [List.foldl_cons, hadd, hrest], fun g q hq => ?_⟩
    rcases hsub g q hq with hq | hq
    · dsimp only at hq
      rw [hfind] at hq
      split at hq
      · exact .inr (Option.some.inj hq ▸ .head _)
      · exact .inl hq
    · exact .inr (.tail _ hq)

theorem update_spec (s : ObjectMgr) :
    ∃ m c d, s.update =
        { s with playerMap := m, newPlayer := [], delPlayer := [], counts := c, deleted := d } ∧
      ∀ g p, m.find? g = some p →
        (s.playerMap.find? g = some p ∨ p ∈ s.newPlayer) ∧ ∀ q ∈ s.delPlayer, q.guid ≠ g := by
  obtain ⟨m, c, hadd, hfind⟩ := foldl_addNew_eq s.newPlayer { s with newPlayer := [] }
  obtain ⟨m', c', d, hremove, hsub⟩ := foldl_removeOld_eq s.delPlayer
    { s with playerMap := m, newPlayer := [], delPlayer := [], counts := c }
  have hupdate : s.update = s.delPlayer.foldl removeOld
      { s with playerMap := m, newPlayer := [], delPlayer := [], counts := c } := by
    unfold update
    rw [hadd]
  refine ⟨m', c', d, hupdate.trans hremove, fun g p hp => ⟨hfind g p (hsub g p hp), ?_⟩⟩
  rintro q hq rfl
  have hnone := (foldl_removeOld_once s.delPlayer
    { s with playerMap := m, newPlayer := [], delPlayer := [], counts := c } hq).1
  rw [hremove] at hnone
  exact Option.some_ne_none p (hp.symm.trans hnone)

theorem Inv.alone_of_exact (h : Inv s old) (hexact : Exact s.update) : s.Alone := by
  obtain ⟨m, c, heq, -⟩ := h.update_eq
  intro p hp q hq hguid hqd
  by_contra hne
  obtain ⟨hnone, r, hr⟩ := foldl_removeOld_once s.delPlayer
    { s with playerMap := m, newPlayer := [], delPlayer := [], counts := c } hp
  have hremoved : s.update.removed = s.removed ∧ s.update.added = s.added := by
    obtain ⟨_, _, _, hupdate, -⟩ := s.update_spec
    rw [hupdate]
    exact ⟨rfl, rfl⟩
  obtain ⟨hremoved, hadded⟩ := hremoved
  rw [← heq] at hnone hr
  have hgone : q ∈ s.removed := by
    have hlast := (hexact.findPlayer_eq p.guid).symm.trans hnone
    rw [hremoved, hadded] at hlast
    exact lastAdded_eq_none.mp hlast q hq hguid
  have hpr : p ∈ s.removed := (h.removed p).mpr (.inl hp)
  have hpr' := (hr p (hexact.deleted p (hremoved ▸ hpr)) rfl).resolve_right (h.waiting p hp).2
  have hqr' := (hr q (hexact.deleted q (hremoved ▸ hgone)) hguid).resolve_right hqd
  exact hne (hqr'.trans hpr'.symm)

theorem reachable_inv (h : Reaches step KeepsExact Starts s) : ∃ old, Inv s old := by
  refine h.invariant ?_ fun _ _ _ hs hok ht => Inv.step hs hok ht
  rintro s rfl
  exact ⟨[], rfl, .nil, by simp [initial], .nil, by simp [initial], by simp [initial], fun _ => rfl⟩

/-- After a run in which no `Update` removes an object while another one of its GUID is
still there, the next `Update` does what it should exactly if it removes none either. -/
theorem update_exact_iff {s : ObjectMgr} (h : Reaches step KeepsExact Starts s) :
    Exact s.update ↔ s.Alone := by
  obtain ⟨old, hinv⟩ := reachable_inv h
  exact ⟨hinv.alone_of_exact, fun halone => (hinv.update halone).2⟩

instance (s : ObjectMgr) (e : Event) : Decidable (s.KeepsExact e) :=
  match e with
  | .update => inferInstanceAs (Decidable s.Alone)
  | .playerAdd _ | .playerRemove _ => isTrue trivial

theorem initial_starts : Starts initial := rfl

/-- A relogin after the old object was deleted, with the new one to be removed. -/
theorem update_exact_relogin :
    ∃ s, Reaches step KeepsExact Starts s ∧ s.deleted.length = 1 ∧ s.delPlayer.length = 1 ∧
      Exact s.update := by
  let old : Player := ⟨0, 7, HORDE, 0, 0⟩
  let new : Player := ⟨1, 7, HORDE, 0, 0⟩
  obtain ⟨s, hs, h⟩ := Reaches.exists_of_replay step KeepsExact initial_starts
    [.playerAdd old, .update, .playerRemove old, .update, .playerAdd new, .playerRemove new]
    (by decide) (fun s => decide (s.deleted.length = 1 ∧ s.delPlayer.length = 1 ∧ s.Alone)) (by decide)
  obtain ⟨hdeleted, hdel, halone⟩ := of_decide_eq_true h
  exact ⟨s, hs, hdeleted, hdel, (update_exact_iff hs).mpr halone⟩

/-- The relogin and the removal of the old object in one batch: the new player is lost. -/
theorem update_loses_relogin :
    ¬ ∀ s, Reaches step anyStep Starts s → Exact s.update := by
  intro hall
  let old : Player := ⟨0, 7, HORDE, 0, 0⟩
  let new : Player := ⟨1, 7, HORDE, 0, 0⟩
  obtain ⟨s, hs, h⟩ := Reaches.exists_of_replay step anyStep initial_starts
    [.playerAdd old, .update, .playerRemove old, .playerAdd new] (replayOk_anyStep ..)
    (fun s => decide (s.update.findPlayer 7 ≠ lastAdded s.update.added s.update.removed 7)) (by decide)
  exact of_decide_eq_true h ((hall s hs).findPlayer_eq 7)

/-! ### The player counter -/

def Counted (s : ObjectMgr) : Prop := s.counts.playerCount = UInt32.ofNat s.playerMap.size

theorem uint32_ofNat_succ_sub (n : ℕ) : UInt32.ofNat (n + 1) - 1 = UInt32.ofNat n := by
  rw [UInt32.ofNat_add]
  exact UInt32.add_sub_cancel ..

theorem Counted.addNew (h : Counted s) (p : Player) : Counted (s.addNew p) := by
  have hcount : s.counts.playerCount = UInt32.ofNat s.playerMap.size := h
  unfold ObjectMgr.addNew
  cases hfind : s.playerMap.find? p.guid with
  | none =>
    have hsize := s.playerMap.size_put_of_new ((KeyedList.find?_eq_none_iff ..).mp hfind)
    show s.counts.playerCount + 1 = UInt32.ofNat (s.playerMap.put p).size
    rw [hsize, hcount, UInt32.ofNat_add]
    rfl
  | some old =>
    obtain ⟨hold, hguid⟩ := (KeyedList.find?_eq_some_iff ..).mp hfind
    have herase := s.playerMap.size_erase_of_mem hold
    have hput : ((s.playerMap.erase p.guid).put p).size = (s.playerMap.erase p.guid).size + 1 :=
      KeyedList.size_put_of_new _ fun b hb => ((KeyedList.mem_erase ..).mp hb).2
    rw [hguid] at herase
    show s.counts.playerCount - 1 + 1 = UInt32.ofNat ((s.playerMap.erase p.guid).put p).size
    rw [hput, herase, hcount]
    exact UInt32.sub_add_cancel ..

theorem Counted.removeOld (h : Counted s) (p : Player) : Counted (s.removeOld p) := by
  have hcount : s.counts.playerCount = UInt32.ofNat s.playerMap.size := h
  cases hfind : s.playerMap.find? p.guid with
  | none => rwa [removeOld_missing hfind]
  | some old =>
    obtain ⟨hold, hguid⟩ := (KeyedList.find?_eq_some_iff ..).mp hfind
    have herase := s.playerMap.size_erase_of_mem hold
    rw [hguid] at herase
    rw [removeOld_found hfind]
    show s.counts.playerCount - 1 = UInt32.ofNat (s.playerMap.erase p.guid).size
    rw [hcount, ← herase]
    exact uint32_ofNat_succ_sub _

theorem foldl_counted {f : ObjectMgr → Player → ObjectMgr}
    (hf : ∀ s p, Counted s → Counted (f s p)) (queue : List Player) (h : Counted s) : Counted (queue.foldl f s) := by
  induction queue generalizing s with
  | nil => exact h
  | cons p rest ih => exact ih (hf s p h)

theorem playerCount_eq_size (h : Reaches step anyStep Starts s) : Counted s := by
  refine h.invariant ?_ fun s e t hs _ ht => ?_
  · rintro s rfl
    rfl
  · cases e with
    | playerAdd p =>
      obtain ⟨-, rfl⟩ := guarded_eq_some.mp ht
      exact hs
    | playerRemove p =>
      obtain ⟨-, rfl⟩ := guarded_eq_some.mp ht
      exact hs
    | update =>
      cases ht
      have hadd : Counted (s.newPlayer.foldl addNew { s with newPlayer := [] }) :=
        foldl_counted (fun _ p hc => hc.addNew p) _ hs
      exact foldl_counted (fun _ p hc => hc.removeOld p) _ hadd

end ObjectMgr

end HysteriaCore.Objects
