import HysteriaCore.Dungeon.Manager

/-!
# Voting somebody out of the group

`InitBoot` opens a vote over the members of a group, `UpdateBoot` takes an answer, counts and closes
the vote. Members come and go in between.
-/

namespace HysteriaCore.Dungeon
open Lib

def LFG_TIME_BOOT : ℕ := 120

def LFG_GROUP_KICK_VOTES_NEEDED : ℕ := 3

namespace LfgPlayerBoot

/-- `votes[guid]`: an entry that `operator[]` makes has the value 0, which is `LFG_ANSWER_DENY`. -/
def access (boot : LfgPlayerBoot) (guid : ℕ) : LfgPlayerBoot × LfgAnswer :=
  match boot.votes.find? guid with
  | some vote => (boot, vote.2)
  | none => ({ boot with votes := boot.votes.put (guid, .deny) }, .deny)

def vote (boot : LfgPlayerBoot) (guid : ℕ) (answer : LfgAnswer) : LfgPlayerBoot :=
  { boot with votes := boot.votes.put (guid, answer) }

def votesNum (boot : LfgPlayerBoot) : ℕ :=
  boot.votes.rows.countP (fun vote => vote.2 ≠ .pending) % 256

def agreeNum (boot : LfgPlayerBoot) : ℕ :=
  boot.votes.rows.countP (fun vote => vote.2 = .agree) % 256

def answered (boot : LfgPlayerBoot) (guid : ℕ) (accept : Bool) : LfgPlayerBoot × Option Bool :=
  let found := boot.access guid
  -- Cheat check: Player can't vote twice
  if found.2 ≠ .pending then (found.1, none)
  else
    let boot := found.1.vote guid (.ofBool accept)
    if boot.agreeNum < LFG_GROUP_KICK_VOTES_NEEDED ∧
        (boot.votesNum : ℤ) - boot.agreeNum < LFG_GROUP_KICK_VOTES_NEEDED then
      (boot, none)
    else (boot, some (boot.agreeNum = LFG_GROUP_KICK_VOTES_NEEDED))

end LfgPlayerBoot

/-- A vote that was closed; the victim is removed from the group when it passed. -/
structure BootResult where
  gguid : ℕ
  victim : ℕ
  passed : Bool
  deriving DecidableEq, Repr

namespace LFGMgr

variable (isGroupGuid : ℕ → Bool)

def initBoot (m : LFGMgr) (gguid kicker victim : ℕ) (reason : String) (now : ℕ) : LFGMgr :=
  let m := m.setState isGroupGuid gguid .boot
  let boot : LfgPlayerBoot :=
    { votes := ((m.bootsStore gguid).map (·.votes)).getD .empty
      inProgress := true
      cancelTime := now + LFG_TIME_BOOT
      reason := reason
      victim := victim }
  let players := (m.groupsStore gguid).players
  let m := players.foldl (fun m guid => m.setState isGroupGuid guid .boot) m
  let boot := players.foldl (fun boot guid => boot.vote guid .pending) boot
  let boot := (boot.vote victim .deny).vote kicker .agree
  { m with bootsStore := Function.update m.bootsStore gguid (some boot) }

def updateBoot (m : LFGMgr) (guid : ℕ) (accept : Bool) : LFGMgr × Option BootResult :=
  let gguid := (m.playersStore guid).group
  if gguid = 0 then (m, none)
  else
    match m.bootsStore gguid with
    | none => (m, none)
    | some boot =>
      match boot.answered guid accept with
      | (boot, none) => ({ m with bootsStore := Function.update m.bootsStore gguid (some boot) }, none)
      | (boot, some passed) =>
        let m := boot.votes.rows.foldl (fun m vote =>
          if vote.1 ≠ boot.victim then m.setState isGroupGuid vote.1 .dungeon else m) m
        let m := m.setState isGroupGuid gguid .dungeon
        let kicks := (m.groupsStore gguid).decreaseKicksLeft
        let m :=
          if passed then { m with groupsStore := Function.update m.groupsStore gguid kicks } else m
        ({ m with bootsStore := Function.update m.bootsStore gguid none },
          some ⟨gguid, boot.victim, passed⟩)

def setGroup (m : LFGMgr) (guid group : ℕ) : LFGMgr :=
  { m with
    playersStore :=
      Function.update m.playersStore guid { m.playersStore guid with group := group } }

def addPlayerToGroup (m : LFGMgr) (gguid guid : ℕ) : LFGMgr :=
  { m with
    groupsStore := Function.update m.groupsStore gguid ((m.groupsStore gguid).addPlayer guid) }

def removePlayerFromGroup (m : LFGMgr) (gguid guid : ℕ) : LFGMgr :=
  { m with
    groupsStore := Function.update m.groupsStore gguid ((m.groupsStore gguid).removePlayer guid) }

end LFGMgr

/-! ### The electorate -/

structure Electorate where
  registered : Finset ℕ
  answer : ℕ → Option Bool

variable {e : Electorate} {guid : ℕ}

namespace Electorate

def start (players : List ℕ) (kicker victim : ℕ) : Electorate where
  registered := insert kicker (insert victim players.toFinset)
  answer := fun guid =>
    if guid = kicker then some true else if guid = victim then some false else none

def count (e : Electorate) (accept : Bool) : ℕ :=
  (e.registered.filter fun guid => e.answer guid = some accept).card

def decided (e : Electorate) : Option Bool :=
  if LFG_GROUP_KICK_VOTES_NEEDED ≤ e.count true then some true
  else if LFG_GROUP_KICK_VOTES_NEEDED ≤ e.count false then some false
  else none

def call (e : Electorate) (guid : ℕ) (accept : Bool) : Electorate :=
  if guid ∈ e.registered ∧ e.answer guid = none ∧ e.decided = none then
    { e with answer := Function.update e.answer guid (some accept) }
  else e

theorem count_start_le (players : List ℕ) (kicker victim : ℕ) (b : Bool) :
    (start players kicker victim).count b ≤ 1 := by
  refine Finset.card_le_one.mpr fun x hx y hy => ?_
  have hx' := (Finset.mem_filter.mp hx).2
  have hy' := (Finset.mem_filter.mp hy).2
  simp only [start] at hx' hy'
  cases b <;> grind

theorem decided_eq_none : e.decided = none ↔ e.count true ≤ 2 ∧ e.count false ≤ 2 := by
  have hneeded : LFG_GROUP_KICK_VOTES_NEEDED = 3 := rfl
  rw [decided]
  split
  · exact iff_of_false nofun (by omega)
  · split
    · exact iff_of_false nofun (by omega)
    · exact iff_of_true rfl (by omega)

theorem start_decided (players : List ℕ) (kicker victim : ℕ) :
    (start players kicker victim).decided = none := by
  have htrue := count_start_le players kicker victim true
  have hfalse := count_start_le players kicker victim false
  exact decided_eq_none.mpr (by omega)

theorem count_update (hmem : guid ∈ e.registered)
    (hnone : e.answer guid = none) (accept b : Bool) :
    count { e with answer := Function.update e.answer guid (some accept) } b =
      e.count b + if accept = b then 1 else 0 := by
  have hnot : guid ∉ e.registered.filter fun g => e.answer g = some b := by
    rw [Finset.mem_filter, hnone]
    exact fun h => nomatch h.2
  have hfilter : (e.registered.filter fun g => Function.update e.answer guid (some accept) g = some b) =
      if accept = b then insert guid (e.registered.filter fun g => e.answer g = some b)
      else e.registered.filter fun g => e.answer g = some b := by
    ext g
    by_cases hg : g = guid
    · subst hg
      split <;> simp_all
    · rw [Finset.mem_filter, Function.update_of_ne hg]
      split
      · rw [Finset.mem_insert, or_iff_right hg, Finset.mem_filter]
      · rw [Finset.mem_filter]
  rw [count, hfilter]
  split
  · exact Finset.card_insert_of_notMem hnot
  · rfl

theorem call_of_decided {passed : Bool} (h : e.decided = some passed) (guid : ℕ)
    (accept : Bool) : e.call guid accept = e := by
  rw [call, if_neg]
  rintro ⟨-, -, hnone⟩
  rw [hnone] at h
  cases h

end Electorate

/-! ### The map of votes -/

def answerOf (answer : Option Bool) : LfgAnswer := (answer.map LfgAnswer.ofBool).getD .pending

namespace LfgPlayerBoot

def Holds (boot : LfgPlayerBoot) (e : Electorate) : Prop :=
  ∀ guid, boot.votes.find? guid =
    if guid ∈ e.registered then some (guid, answerOf (e.answer guid)) else none

theorem answerOf_eq {answer : Option Bool} {b : Bool} :
    answerOf answer = .ofBool b ↔ answer = some b := by
  cases answer with
  | none => cases b <;> exact iff_of_false nofun nofun
  | some a => cases a <;> cases b <;> decide

theorem answerOf_pending {answer : Option Bool} : answerOf answer = .pending ↔ answer = none := by
  cases answer with
  | none => exact iff_of_true rfl rfl
  | some a => cases a <;> exact iff_of_false nofun nofun

theorem Holds.mem_iff {boot : LfgPlayerBoot} (h : boot.Holds e)
    (vote : ℕ × LfgAnswer) :
    vote ∈ boot.votes ↔ vote.1 ∈ e.registered ∧ vote.2 = answerOf (e.answer vote.1) := by
  have hfind := KeyedList.find?_eq_some_iff boot.votes vote.1 vote
  rw [h vote.1] at hfind
  rw [← and_iff_left (rfl : Prod.fst vote = vote.1) (a := vote ∈ boot.votes), ← hfind]
  split
  · rename_i hmem
    rw [Option.some_inj]
    exact ⟨fun heq => ⟨hmem, (congrArg Prod.snd heq).symm⟩, fun heq => Prod.ext rfl heq.2.symm⟩
  · rename_i hmem
    exact iff_of_false nofun fun hboth => hmem hboth.1

theorem Holds.countP_eq {boot : LfgPlayerBoot} (h : boot.Holds e) (b : Bool) :
    boot.votes.rows.countP (fun vote => vote.2 = .ofBool b) = e.count b := by
  refine boot.votes.countP_eq_card _ fun guid => ?_
  rw [Finset.mem_filter]
  constructor
  · rintro ⟨hmem, hanswer⟩
    exact ⟨(guid, answerOf (e.answer guid)), (h.mem_iff _).mpr ⟨hmem, rfl⟩, rfl,
      decide_eq_true (answerOf_eq.mpr hanswer)⟩
  · rintro ⟨vote, hvote, rfl, hagree⟩
    obtain ⟨hmem, hanswer⟩ := (h.mem_iff vote).mp hvote
    exact ⟨hmem, answerOf_eq.mp (hanswer.symm.trans (of_decide_eq_true hagree))⟩

theorem countP_answered (rows : List (ℕ × LfgAnswer)) :
    rows.countP (fun vote => vote.2 ≠ .pending) =
      rows.countP (fun vote => vote.2 = .ofBool true) +
        rows.countP fun vote => vote.2 = .ofBool false := by
  induction rows with
  | nil => rfl
  | cons vote rows ih =>
    simp only [List.countP_cons, ih]
    cases vote.2 <;> simp [LfgAnswer.ofBool] <;> omega

theorem Holds.tally {boot : LfgPlayerBoot} (h : boot.Holds e)
    (hsmall : ∀ b, e.count b ≤ 3) :
    boot.agreeNum = e.count true ∧ boot.votesNum = e.count true + e.count false := by
  have htrue := h.countP_eq true
  have hfalse := h.countP_eq false
  have hle := hsmall true
  have hle' := hsmall false
  have hagree : boot.agreeNum = e.count true % 256 := congrArg (· % 256) htrue
  rw [hagree, votesNum, countP_answered, htrue, hfalse]
  omega

theorem Holds.access {boot : LfgPlayerBoot} (h : boot.Holds e)
    (hmem : guid ∈ e.registered) : boot.access guid = (boot, answerOf (e.answer guid)) := by
  have hfind := h guid
  rw [if_pos hmem] at hfind
  rw [LfgPlayerBoot.access, hfind]

theorem Holds.vote {boot : LfgPlayerBoot} (h : boot.Holds e)
    (hmem : guid ∈ e.registered) (accept : Bool) :
    (boot.vote guid (.ofBool accept)).Holds
      { e with answer := Function.update e.answer guid (some accept) } := by
  intro g
  rw [LfgPlayerBoot.vote, KeyedList.find?_put]
  dsimp only
  by_cases hg : g = guid
  · rw [hg, if_pos rfl, if_pos hmem, Function.update_self]
    rfl
  · rw [if_neg (Ne.symm hg), Function.update_of_ne hg, h g]

theorem Holds.answered {boot : LfgPlayerBoot} (h : boot.Holds e)
    (hopen : e.decided = none) (hmem : guid ∈ e.registered) (accept : Bool) :
    (boot.answered guid accept).2 = (e.call guid accept).decided ∧
      (boot.answered guid accept).1.Holds (e.call guid accept) ∧
      (boot.answered guid accept).1.victim = boot.victim := by
  rw [LfgPlayerBoot.answered, h.access hmem]
  dsimp only
  by_cases hnone : e.answer guid = none
  case neg =>
    have hsame : e.call guid accept = e := if_neg fun hboth => hnone hboth.2.1
    rw [if_pos (answerOf_pending.not.mpr hnone), hsame]
    exact ⟨hopen.symm, h, rfl⟩
  have hcall : e.call guid accept =
      { e with answer := Function.update e.answer guid (some accept) } :=
    if_pos ⟨hmem, hnone, hopen⟩
  rw [if_neg (not_not_intro (answerOf_pending.mpr hnone)), hcall]
  have hholds := h.vote hmem accept
  have htrue := Electorate.count_update hmem hnone accept true
  have hfalse := Electorate.count_update hmem hnone accept false
  obtain ⟨hle, hle'⟩ := Electorate.decided_eq_none.mp hopen
  have hsmall : ∀ b, Electorate.count
      { e with answer := Function.update e.answer guid (some accept) } b ≤ 3 := by
    intro b
    cases b
    · rw [hfalse]
      split <;> omega
    · rw [htrue]
      split <;> omega
  obtain ⟨hagree, hvotes⟩ := hholds.tally hsmall
  have hneeded : LFG_GROUP_KICK_VOTES_NEEDED = 3 := rfl
  rw [hagree, hvotes, Electorate.decided]
  split
  · rename_i hfew
    rw [if_neg (by omega), if_neg (by omega)]
    exact ⟨rfl, hholds, rfl⟩
  · rename_i hmany
    refine ⟨?_, hholds, rfl⟩
    dsimp only
    by_cases hpassed : LFG_GROUP_KICK_VOTES_NEEDED ≤ Electorate.count
        { e with answer := Function.update e.answer guid (some accept) } true
    · have hle3 := hsmall true
      rw [if_pos hpassed, decide_eq_true (by omega)]
    · rw [if_neg hpassed, if_pos (by omega), decide_eq_false (by omega)]

theorem find?_vote (boot : LfgPlayerBoot) (guid : ℕ) (answer : LfgAnswer) (g : ℕ) :
    (boot.vote guid answer).votes.find? g =
      if g = guid then some (guid, answer) else boot.votes.find? g := by
  rw [vote, KeyedList.find?_put]
  exact if_congr eq_comm rfl rfl

theorem find?_vote_foldl (players : List ℕ) (boot : LfgPlayerBoot) (g : ℕ) :
    (players.foldl (fun boot guid => boot.vote guid .pending) boot).votes.find? g =
      if g ∈ players then some (g, .pending) else boot.votes.find? g := by
  induction players generalizing boot with
  | nil => rfl
  | cons guid players ih =>
    rw [List.foldl_cons, ih, find?_vote]
    by_cases hg : g = guid
    · subst hg
      simp
    · simp [hg]

theorem victim_vote_foldl (players : List ℕ) (boot : LfgPlayerBoot) :
    (players.foldl (fun boot guid => boot.vote guid .pending) boot).victim = boot.victim := by
  induction players generalizing boot with
  | nil => rfl
  | cons guid players ih => exact ih _

end LfgPlayerBoot

/-! ### The manager's boots -/

namespace LFGMgr

variable {isGroupGuid : ℕ → Bool}

theorem setState_bootsStore (m : LFGMgr) (guid : ℕ) (state : LfgState) :
    (m.setState isGroupGuid guid state).bootsStore = m.bootsStore := by
  rw [setState]
  split <;> rfl

theorem foldl_bootsStore {α : Type*} {f : LFGMgr → α → LFGMgr}
    (hf : ∀ m a, (f m a).bootsStore = m.bootsStore) (as : List α) (m : LFGMgr) :
    (as.foldl f m).bootsStore = m.bootsStore := by
  induction as generalizing m with
  | nil => rfl
  | cons a as ih => exact (ih (f m a)).trans (hf m a)

theorem setState_players (m : LFGMgr) (guid g : ℕ) (state : LfgState) :
    ((m.setState isGroupGuid guid state).groupsStore g).players = (m.groupsStore g).players := by
  rw [setState]
  split
  · dsimp only
    by_cases hg : g = guid
    · rw [hg, Function.update_self, LfgGroupData.setState_players]
    · rw [Function.update_of_ne hg]
  · rfl

theorem initBoot_bootsStore (m : LFGMgr) (gguid kicker victim : ℕ) (reason : String) (now : ℕ)
    (hfree : m.bootsStore gguid = none) :
    ∃ boot, (m.initBoot isGroupGuid gguid kicker victim reason now).bootsStore gguid = some boot ∧
      boot.victim = victim ∧
      boot.Holds (.start (m.groupsStore gguid).players kicker victim) := by
  refine ⟨_, Function.update_self _ _ _, LfgPlayerBoot.victim_vote_foldl _ _, fun guid => ?_⟩
  rw [LfgPlayerBoot.find?_vote, LfgPlayerBoot.find?_vote, LfgPlayerBoot.find?_vote_foldl]
  simp only [setState_players, setState_bootsStore, hfree, Electorate.start, Finset.mem_insert,
    List.mem_toFinset]
  by_cases hkicker : guid = kicker
  · rw [if_pos hkicker, if_pos (.inl hkicker), if_pos hkicker, hkicker]
    rfl
  · rw [if_neg hkicker, if_neg hkicker]
    by_cases hvictim : guid = victim
    · rw [if_pos hvictim, if_pos (.inr (.inl hvictim)), if_pos hvictim, hvictim]
      rfl
    · rw [if_neg hvictim, if_neg hvictim]
      simp only [hkicker, hvictim, false_or]
      rfl

theorem updateBoot_none (m : LFGMgr) (guid : ℕ) (accept : Bool)
    (h : m.bootsStore (m.playersStore guid).group = none) :
    m.updateBoot isGroupGuid guid accept = (m, none) := by
  rw [updateBoot, h]
  exact ite_self _

theorem updateBoot_some (m : LFGMgr) (guid : ℕ) (accept : Bool)
    (hgroup : (m.playersStore guid).group ≠ 0) {boot : LfgPlayerBoot}
    (h : m.bootsStore (m.playersStore guid).group = some boot) :
    (m.updateBoot isGroupGuid guid accept).1.bootsStore =
        Function.update m.bootsStore (m.playersStore guid).group
          (if (boot.answered guid accept).2.isSome then none else some (boot.answered guid accept).1) ∧
      (m.updateBoot isGroupGuid guid accept).2 = (boot.answered guid accept).2.map fun passed =>
        ⟨(m.playersStore guid).group, (boot.answered guid accept).1.victim, passed⟩ := by
  rw [updateBoot]
  dsimp only
  rw [if_neg hgroup, h]
  dsimp only
  rcases boot.answered guid accept with ⟨boot', _ | passed⟩
  · exact ⟨rfl, rfl⟩
  · refine ⟨?_, rfl⟩
    have hboots : ∀ m' : LFGMgr,
        (if passed = true then
          { m' with
            groupsStore := Function.update m'.groupsStore (m.playersStore guid).group
              (m'.groupsStore (m.playersStore guid).group).decreaseKicksLeft }
        else m').bootsStore = m'.bootsStore := by
      intro m'
      split <;> rfl
    dsimp only
    rw [hboots, setState_bootsStore, foldl_bootsStore]
    · rfl
    · intro m' vote
      split
      · exact setState_bootsStore _ _ _
      · rfl

theorem updateBoot_other (m : LFGMgr) (guid : ℕ) (accept : Bool) {gguid : ℕ}
    (h : (m.playersStore guid).group ≠ gguid) :
    (m.updateBoot isGroupGuid guid accept).1.bootsStore gguid = m.bootsStore gguid ∧
      ∀ r ∈ (m.updateBoot isGroupGuid guid accept).2, r.gguid ≠ gguid := by
  by_cases hzero : (m.playersStore guid).group = 0
  · rw [updateBoot, if_pos hzero]
    exact ⟨rfl, nofun⟩
  cases hboot : m.bootsStore (m.playersStore guid).group with
  | none =>
    rw [updateBoot_none m guid accept hboot]
    exact ⟨rfl, nofun⟩
  | some boot =>
    obtain ⟨hboots, hresult⟩ := @updateBoot_some isGroupGuid m guid accept hzero boot hboot
    rw [hboots, hresult, Function.update_of_ne (Ne.symm h)]
    refine ⟨rfl, fun r hr => ?_⟩
    obtain ⟨passed, -, rfl⟩ := Option.mem_map.mp hr
    exact h

end LFGMgr

/-! ### Whole votes -/

inductive BootAction where
  | updateBoot (guid : ℕ) (accept : Bool)
  | addMember (gguid guid : ℕ)
  | removeMember (gguid guid : ℕ)
  deriving DecidableEq, Repr

/-- The manager with the votes that were closed, beside the electorate of one group. -/
structure BootRun where
  m : LFGMgr
  results : List BootResult
  electorate : Electorate

namespace BootRun

variable (isGroupGuid : ℕ → Bool) (gguid : ℕ)

def start (m : LFGMgr) (kicker victim : ℕ) (reason : String) (now : ℕ) : BootRun where
  m := m.initBoot isGroupGuid gguid kicker victim reason now
  results := []
  electorate := .start (m.groupsStore gguid).players kicker victim

def step (s : BootRun) : BootAction → BootRun
  | .updateBoot guid accept =>
    let updated := s.m.updateBoot isGroupGuid guid accept
    { m := updated.1
      results := s.results ++ updated.2.toList
      electorate :=
        if (s.m.playersStore guid).group = gguid then s.electorate.call guid accept
        else s.electorate }
  | .addMember g guid => { s with m := (s.m.setGroup guid g).addPlayerToGroup g guid }
  | .removeMember g guid => { s with m := (s.m.setGroup guid 0).removePlayerFromGroup g guid }

def RegisteredCall (s : BootRun) : BootAction → Prop
  | .updateBoot guid _ =>
    (s.m.playersStore guid).group = gguid → s.m.bootsStore gguid ≠ none →
      guid ∈ s.electorate.registered
  | _ => True

/-- The vote is closed once, when the electorate has decided, and the way that it decided. -/
def Follows (victim : ℕ) (s : BootRun) : Prop :=
  (s.results.filter fun r => r.gguid = gguid) =
      (s.electorate.decided.map fun passed => BootResult.mk gguid victim passed).toList ∧
    (s.m.bootsStore gguid = none ↔ s.electorate.decided ≠ none)

def Running (victim : ℕ) (s : BootRun) : Prop :=
  Follows gguid victim s ∧
    ∀ boot, s.m.bootsStore gguid = some boot → boot.victim = victim ∧ boot.Holds s.electorate

variable {isGroupGuid} {gguid}

theorem Running.start (m : LFGMgr) (kicker victim : ℕ) (reason : String) (now : ℕ)
    (hfree : m.bootsStore gguid = none) :
    Running gguid victim (start isGroupGuid gguid m kicker victim reason now) := by
  obtain ⟨boot, hboot, hvictim, hholds⟩ :=
    @LFGMgr.initBoot_bootsStore isGroupGuid m gguid kicker victim reason now hfree
  have hopen : (Electorate.start (m.groupsStore gguid).players kicker victim).decided = none :=
    Electorate.start_decided _ _ _
  refine ⟨⟨?_, ?_⟩, fun boot' hboot' => ?_⟩
  · rw [BootRun.start, hopen]
    rfl
  · rw [BootRun.start, hopen, hboot]
    exact iff_of_false nofun (not_not_intro rfl)
  · obtain rfl := Option.some.inj (hboot.symm.trans hboot')
    exact ⟨hvictim, hholds⟩

theorem Running.step {victim : ℕ} (hgguid : gguid ≠ 0) {s : BootRun} {a : BootAction}
    (h : Running gguid victim s) (hcall : RegisteredCall gguid s a) :
    Running gguid victim (s.step isGroupGuid gguid a) := by
  cases a with
  | addMember g guid => exact h
  | removeMember g guid => exact h
  | updateBoot guid accept =>
    obtain ⟨⟨hresults, hclosed⟩, hboots⟩ := h
    by_cases hgroup : (s.m.playersStore guid).group = gguid
    case neg =>
      obtain ⟨hsame, hother⟩ := @LFGMgr.updateBoot_other isGroupGuid s.m guid accept gguid hgroup
      have hnothing : (s.m.updateBoot isGroupGuid guid accept).2.toList.filter
          (fun r => r.gguid = gguid) = [] := by
        rw [List.filter_eq_nil_iff]
        intro r hr
        simpa using hother r (Option.mem_toList.mp hr)
      refine ⟨⟨?_, ?_⟩, ?_⟩
      · rw [BootRun.step, List.filter_append, hnothing, List.append_nil, if_neg hgroup, hresults]
      · rw [BootRun.step, hsame, if_neg hgroup, hclosed]
      · rw [BootRun.step, hsame, if_neg hgroup]
        exact hboots
    subst hgroup
    cases hboot : s.m.bootsStore (s.m.playersStore guid).group with
    | none =>
      obtain ⟨passed, hpassed⟩ := Option.ne_none_iff_exists'.mp (hclosed.mp hboot)
      have hsame : s.step isGroupGuid (s.m.playersStore guid).group (.updateBoot guid accept) = s := by
        rw [BootRun.step, LFGMgr.updateBoot_none s.m guid accept hboot, if_pos rfl,
          Electorate.call_of_decided hpassed]
        simp only [Option.toList_none, List.append_nil]
      rw [hsame]
      exact ⟨⟨hresults, hclosed⟩, hboots⟩
    | some boot =>
      have hopen : s.electorate.decided = none := by
        by_contra hdecided
        rw [hclosed.mpr hdecided] at hboot
        cases hboot
      obtain ⟨hvictim, hholds⟩ := hboots boot hboot
      obtain ⟨hdecided, hholds', hvictim'⟩ :=
        hholds.answered hopen (hcall rfl (by rw [hboot]; exact nofun)) accept
      obtain ⟨hstore, hresult⟩ := @LFGMgr.updateBoot_some isGroupGuid s.m guid accept hgguid boot hboot
      rw [hopen] at hresults
      rw [hvictim', hvictim, hdecided] at hresult
      rw [hdecided] at hstore
      refine ⟨⟨?_, ?_⟩, ?_⟩
      · rw [BootRun.step, hresult, if_pos rfl, List.filter_append, hresults]
        cases (s.electorate.call guid accept).decided <;> simp
      · rw [BootRun.step, hstore, Function.update_self, if_pos rfl]
        cases (s.electorate.call guid accept).decided <;> simp
      · rw [BootRun.step, hstore, Function.update_self, if_pos rfl]
        intro boot' hboot'
        dsimp only
        split at hboot'
        · cases hboot'
        · obtain rfl := Option.some.inj hboot'
          exact ⟨hvictim'.trans hvictim, hholds'⟩

end BootRun

/-- When every answer to the running vote comes from somebody who was asked, the vote is closed when
the electorate has decided, and the way that it decided. -/
theorem vote_kick_by_electorate (isGroupGuid : ℕ → Bool) (m : LFGMgr) {gguid : ℕ}
    (kicker victim : ℕ) (reason : String) (now : ℕ) (hgguid : gguid ≠ 0)
    (hfree : m.bootsStore gguid = none) (actions : List BootAction)
    (hcalls : along (BootRun.step isGroupGuid gguid) (BootRun.RegisteredCall gguid) actions
      (.start isGroupGuid gguid m kicker victim reason now)) :
    BootRun.Follows gguid victim (actions.foldl (BootRun.step isGroupGuid gguid)
      (.start isGroupGuid gguid m kicker victim reason now)) :=
  (along.invariant (fun _ _ h hcall => h.step hgguid hcall)
    (BootRun.Running.start m kicker victim reason now hfree) hcalls).1

/-! ### A member who was not asked -/

def fiveInside : LFGMgr where
  playersStore := fun guid => { (default : LfgPlayerData) with group := if guid ≤ 5 then 100 else 0 }
  groupsStore := fun _ => { (default : LfgGroupData) with players := [1, 2, 3, 4, 5] }
  queuesStore := fun _ => .initial
  proposalsStore := fun _ => none
  bootsStore := fun _ => none

def startFive : BootRun := .start (fun guid => guid = 100) 100 fiveInside 1 2 "" 0

theorem vote_kick_by_electorate_five : BootRun.Follows 100 2
    ([.updateBoot 3 true, .updateBoot 3 false, .updateBoot 4 true].foldl
      (BootRun.step (fun guid => guid = 100) 100) startFive) :=
  vote_kick_by_electorate _ fiveInside 1 2 "" 0 (by decide) rfl _
    ⟨fun _ _ => by decide, fun _ _ => by decide, fun _ _ => by decide, trivial⟩

/-- Player 6 takes the place of player 5 and agrees: that is an entry that denies, and the next
denial closes the vote though only two of those who were asked denied. -/
theorem newcomer_denies :
    let s := ([.removeMember 100 5, .addMember 100 6, .updateBoot 6 true,
      .updateBoot 3 false].foldl (BootRun.step (fun guid => guid = 100) 100) startFive)
    s.results = [⟨100, 2, false⟩] ∧ s.electorate.count false = 2 ∧ s.electorate.decided = none := by
  decide +kernel

end HysteriaCore.Dungeon
