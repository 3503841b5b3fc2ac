import HysteriaCore.Lib.Runs
import Mathlib.Data.Finset.Basic

/-!
# The quests of game events

An event lists the quests that creatures and game objects offer while it is active.
`UpdateEventQuests` puts these pairs into the relation maps when the event starts and takes
them out when it stops.
-/

namespace HysteriaCore.Events
open Lib

abbrev QuestRelation := ℕ × ℕ

structure EventQuests where
  creatureQuests : ℕ → List QuestRelation
  gameObjectQuests : ℕ → List QuestRelation

/-- The events that are active, and the two relation maps of `ObjectMgr`. -/
structure GameEventMgr where
  activeEvents : Finset ℕ
  creatureQuestRelations : Multiset QuestRelation
  goQuestRelations : Multiset QuestRelation

def hasQuestActiveEventExcept (lists : ℕ → List QuestRelation) (active : Finset ℕ) (quest event : ℕ) : Bool :=
  decide (∃ e ∈ active, e ≠ event ∧ ∃ p ∈ lists e, p.2 = quest)

def removeRelation (lists : ℕ → List QuestRelation) (active : Finset ℕ) (event : ℕ)
    (relations : Multiset QuestRelation) (p : QuestRelation) : Multiset QuestRelation :=
  if hasQuestActiveEventExcept lists active p.2 event then relations else relations.erase p

def updateRelations (lists : ℕ → List QuestRelation) (active : Finset ℕ) (event : ℕ) (activate : Bool)
    (relations : Multiset QuestRelation) : Multiset QuestRelation :=
  if activate then (lists event).foldl (fun relations p => p ::ₘ relations) relations
  else (lists event).foldl (removeRelation lists active event) relations

inductive Change where
  | start (event : ℕ)
  | stop (event : ℕ)
deriving DecidableEq

namespace GameEventMgr
variable (quests : EventQuests) (m : GameEventMgr)

def hasCreatureQuestActiveEventExcept (quest event : ℕ) : Bool :=
  hasQuestActiveEventExcept quests.creatureQuests m.activeEvents quest event

def hasGameObjectQuestActiveEventExcept (quest event : ℕ) : Bool :=
  hasQuestActiveEventExcept quests.gameObjectQuests m.activeEvents quest event

def updateEventQuests (event : ℕ) (activate : Bool) : GameEventMgr :=
  { m with
    creatureQuestRelations :=
      updateRelations quests.creatureQuests m.activeEvents event activate m.creatureQuestRelations
    goQuestRelations := updateRelations quests.gameObjectQuests m.activeEvents event activate m.goQuestRelations }

def next : Change → GameEventMgr
  | .start event => { m with activeEvents := insert event m.activeEvents }.updateEventQuests quests event true
  | .stop event => { m with activeEvents := m.activeEvents.erase event }.updateEventQuests quests event false

def Alternates : Change → Prop
  | .start event => event ∉ m.activeEvents
  | .stop event => event ∈ m.activeEvents

instance : ∀ c, Decidable (m.Alternates c)
  | .start _ => inferInstanceAs (Decidable (_ ∉ _))
  | .stop _ => inferInstanceAs (Decidable (_ ∈ _))

end GameEventMgr

def Listed (lists : ℕ → List QuestRelation) (active : Finset ℕ) (p : QuestRelation) : Prop :=
  ∃ e ∈ active, p ∈ lists e

instance (lists : ℕ → List QuestRelation) (active : Finset ℕ) (p : QuestRelation) :
    Decidable (Listed lists active p) := inferInstanceAs (Decidable (∃ e ∈ active, _))

def Follows (lists : ℕ → List QuestRelation) (active : Finset ℕ) (relations : Multiset QuestRelation) : Prop :=
  ∀ event, ∀ p ∈ lists event, p ∈ relations ↔ Listed lists active p

/-- When an event stops, each of its pairs is listed by another active event, or its quest is not and
the map has no copies of it but the event's own. -/
def StopsCleanly (lists : ℕ → List QuestRelation) (active : Finset ℕ) (relations : Multiset QuestRelation) :
    Change → Prop
  | .start _ => True
  | .stop event => ∀ p ∈ lists event, Listed lists (active.erase event) p ∨
      hasQuestActiveEventExcept lists active p.2 event = false ∧ relations.count p ≤ (lists event).count p

instance (lists : ℕ → List QuestRelation) (active : Finset ℕ) (relations : Multiset QuestRelation) :
    ∀ c, Decidable (StopsCleanly lists active relations c)
  | .start _ => isTrue trivial
  | .stop _ => inferInstanceAs (Decidable (∀ _ ∈ _, _))

/-! ### What one update does to the copies of a pair -/

section Update
variable {lists : ℕ → List QuestRelation} {active : Finset ℕ} {relations : Multiset QuestRelation}

theorem count_addAll (l : List QuestRelation) (relations : Multiset QuestRelation) (p : QuestRelation) :
    (l.foldl (fun relations p => p ::ₘ relations) relations).count p = relations.count p + l.count p := by
  induction l generalizing relations with
  | nil => rfl
  | cons a l ih =>
    rw [List.foldl_cons, ih, Multiset.count_cons, List.count_cons]
    by_cases heq : p = a
    · rw [if_pos heq, if_pos (by simpa using heq.symm)]
      omega
    · rw [if_neg heq, if_neg (by simpa using fun h : a = p => heq h.symm)]
      omega

theorem count_removeRelation (event : ℕ) (relations : Multiset QuestRelation) (a p : QuestRelation) :
    (removeRelation lists active event relations a).count p =
      relations.count p - if a = p ∧ hasQuestActiveEventExcept lists active p.2 event = false then 1 else 0 := by
  rw [removeRelation]
  by_cases heq : a = p
  · subst heq
    cases hasQuestActiveEventExcept lists active a.2 event with
    | true => rw [if_pos rfl, if_neg (by simp), Nat.sub_zero]
    | false => rw [if_neg (by simp), if_pos ⟨rfl, rfl⟩, Multiset.count_erase_self]
  · have hother : ¬(a = p ∧ hasQuestActiveEventExcept lists active p.2 event = false) := fun hboth => heq hboth.1
    rw [if_neg hother, Nat.sub_zero]
    split
    · rfl
    · exact Multiset.count_erase_of_ne (Ne.symm heq) _

theorem count_removeAll (event : ℕ) (l : List QuestRelation) (relations : Multiset QuestRelation)
    (p : QuestRelation) : (l.foldl (removeRelation lists active event) relations).count p =
      relations.count p - if hasQuestActiveEventExcept lists active p.2 event then 0 else l.count p := by
  induction l generalizing relations with
  | nil => simp
  | cons a l ih =>
    rw [List.foldl_cons, ih, count_removeRelation, List.count_cons]
    cases hasQuestActiveEventExcept lists active p.2 event with
    | true => simp
    | false =>
      by_cases heq : a = p
      · simp only [heq, Bool.false_eq_true, if_false, and_self, if_true, beq_self_eq_true]
        omega
      · simp [heq]

variable {event : ℕ}

theorem hasQuestActiveEventExcept_of_listed {p : QuestRelation}
    (h : Listed lists (active.erase event) p) : hasQuestActiveEventExcept lists active p.2 event = true := by
  obtain ⟨e, he, hp⟩ := h
  obtain ⟨hne, hactive⟩ := Finset.mem_erase.mp he
  exact decide_eq_true ⟨e, hactive, hne, p, hp, rfl⟩

theorem hasQuestActiveEventExcept_erase (quest event : ℕ) :
    hasQuestActiveEventExcept lists (active.erase event) quest event =
      hasQuestActiveEventExcept lists active quest event := by
  refine decide_eq_decide.mpr ⟨?_, ?_⟩
  · rintro ⟨e, he, hne, hlists⟩
    exact ⟨e, Finset.mem_of_mem_erase he, hne, hlists⟩
  · rintro ⟨e, he, hne, hlists⟩
    exact ⟨e, Finset.mem_erase.mpr ⟨hne, he⟩, hne, hlists⟩

def Counted (lists : ℕ → List QuestRelation) (active : Finset ℕ) (relations : Multiset QuestRelation) : Prop :=
  ∀ e ∈ active, ∀ p, (lists e).count p ≤ relations.count p

theorem count_update_true (event : ℕ) (p : QuestRelation) :
    (updateRelations lists active event true relations).count p = relations.count p + (lists event).count p := by
  rw [updateRelations, if_pos rfl, count_addAll]

theorem count_update_false (event : ℕ) (p : QuestRelation) :
    (updateRelations lists (active.erase event) event false relations).count p =
      relations.count p - if hasQuestActiveEventExcept lists active p.2 event then 0
        else (lists event).count p := by
  rw [updateRelations, if_neg Bool.false_ne_true, count_removeAll, hasQuestActiveEventExcept_erase]

theorem listed_insert {p : QuestRelation} :
    Listed lists (insert event active) p ↔ p ∈ lists event ∨ Listed lists active p := by
  simp only [Listed, Finset.mem_insert, or_and_right, exists_or, exists_eq_left]

theorem Counted.start (h : Counted lists active relations) (event : ℕ) :
    Counted lists (insert event active) (updateRelations lists (insert event active) event true relations) := by
  intro e he p
  rw [count_update_true]
  rcases Finset.mem_insert.mp he with rfl | hold
  · omega
  · have hle := h e hold p
    omega

theorem Follows.start (h : Follows lists active relations) (event : ℕ) :
    Follows lists (insert event active) (updateRelations lists (insert event active) event true relations) := by
  intro e p hp
  have hbefore := h e p hp
  rw [← Multiset.count_pos] at hbefore ⊢
  rw [count_update_true, listed_insert, ← hbefore, ← List.count_pos_iff]
  omega

theorem Counted.stop (h : Counted lists active relations) (event : ℕ) :
    Counted lists (active.erase event) (updateRelations lists (active.erase event) event false relations) := by
  intro e he p
  rw [count_update_false]
  have hle := h e (Finset.mem_of_mem_erase he) p
  by_cases hp : p ∈ lists e
  · rw [if_pos (hasQuestActiveEventExcept_of_listed ⟨e, he, hp⟩)]
    omega
  · rw [List.count_eq_zero_of_not_mem hp]
    exact Nat.zero_le _

theorem follows_stop_iff (hcounted : Counted lists active relations) (h : Follows lists active relations)
    (hevent : event ∈ active) :
    Follows lists (active.erase event) (updateRelations lists (active.erase event) event false relations) ↔
      StopsCleanly lists active relations (.stop event) := by
  constructor
  · intro hafter p hp
    by_cases hlisted : Listed lists (active.erase event) p
    · exact .inl hlisted
    · have hnone := Multiset.count_eq_zero.mpr fun hmem => hlisted ((hafter event p hp).mp hmem)
      rw [count_update_false] at hnone
      have hpos := List.count_pos_iff.mpr hp
      have hle := hcounted event hevent p
      cases hother : hasQuestActiveEventExcept lists active p.2 event with
      | true =>
        rw [hother, if_pos rfl] at hnone
        omega
      | false =>
        rw [hother, if_neg Bool.false_ne_true] at hnone
        exact .inr ⟨rfl, by omega⟩
  · intro hclean e p hp
    rw [← Multiset.count_pos, count_update_false]
    have hbefore := h e p hp
    rw [← Multiset.count_pos] at hbefore
    by_cases hlisted : Listed lists (active.erase event) p
    · obtain ⟨e', he', hp'⟩ := hlisted
      rw [if_pos (hasQuestActiveEventExcept_of_listed ⟨e', he', hp'⟩), Nat.sub_zero, hbefore]
      exact iff_of_true ⟨e', Finset.mem_of_mem_erase he', hp'⟩ ⟨e', he', hp'⟩
    · rw [iff_false_right hlisted]
      by_cases hown : p ∈ lists event
      · obtain ⟨hother, hle⟩ := (hclean p hown).resolve_left hlisted
        rw [if_neg (by simp [hother])]
        omega
      · have hnone : ¬Listed lists active p := by
          rintro ⟨e', he', hp'⟩
          refine hlisted ⟨e', Finset.mem_erase.mpr ⟨?_, he'⟩, hp'⟩
          rintro rfl
          exact hown hp'
        have hzero := mt hbefore.mp hnone
        omega

end Update

/-! ### Runs -/

namespace GameEventMgr
variable {quests : EventQuests} {m : GameEventMgr}

def CreaturesFollow (quests : EventQuests) (m : GameEventMgr) : Prop :=
  Follows quests.creatureQuests m.activeEvents m.creatureQuestRelations

def StopsCleanly (quests : EventQuests) (m : GameEventMgr) (c : Change) : Prop :=
  Events.StopsCleanly quests.creatureQuests m.activeEvents m.creatureQuestRelations c

instance (m : GameEventMgr) (c : Change) : Decidable (m.StopsCleanly quests c) :=
  inferInstanceAs (Decidable (Events.StopsCleanly ..))

def Counted (quests : EventQuests) (m : GameEventMgr) : Prop :=
  Events.Counted quests.creatureQuests m.activeEvents m.creatureQuestRelations

theorem counted_next (h : m.Counted quests) (c : Change) : (m.next quests c).Counted quests := by
  cases c with
  | start event => exact Events.Counted.start h event
  | stop event => exact Events.Counted.stop h event

theorem creaturesFollow_next_iff (hcounted : m.Counted quests) (h : m.CreaturesFollow quests) {c : Change}
    (hc : m.Alternates c) : (m.next quests c).CreaturesFollow quests ↔ m.StopsCleanly quests c := by
  cases c with
  | start event => exact iff_of_true (Follows.start h event) trivial
  | stop event => exact follows_stop_iff hcounted h hc

theorem creaturesFollow_along_iff {changes : List Change} (hcounted : m.Counted quests)
    (h : m.CreaturesFollow quests) (hchanges : along (next quests) Alternates changes m) :
    (∀ n, ((changes.take n).foldl (next quests) m).CreaturesFollow quests) ↔
      along (next quests) (StopsCleanly quests) changes m := by
  induction changes generalizing m with
  | nil => exact iff_of_true (fun n => by rw [List.take_nil]; exact h) trivial
  | cons c changes ih =>
    have hstep := creaturesFollow_next_iff hcounted h hchanges.1
    constructor
    · intro hall
      have hnext := hall 1
      rw [List.take_succ_cons, List.take_zero] at hnext
      refine ⟨hstep.mp hnext, (ih (counted_next hcounted c) hnext hchanges.2).mp fun n => ?_⟩
      exact hall (n + 1)
    · rintro ⟨hclean, hrest⟩ n
      have hnext := hstep.mpr hclean
      cases n with
      | zero => exact h
      | succ n => exact (ih (counted_next hcounted c) hnext hchanges.2).mpr hrest n

/-- From the load on, the relation map of the creatures follows the active events throughout a sequence
of starts and stops if and only if each event of it stops cleanly. -/
theorem follows_throughout_iff (quests : EventQuests) (m : GameEventMgr) (hactive : m.activeEvents = ∅)
    (hload : ∀ event, ∀ p ∈ quests.creatureQuests event, p ∉ m.creatureQuestRelations) (changes : List Change)
    (hchanges : along (next quests) Alternates changes m) :
    (∀ n, ((changes.take n).foldl (next quests) m).CreaturesFollow quests) ↔
      along (next quests) (StopsCleanly quests) changes m := by
  have hnone : ∀ e, e ∉ m.activeEvents := fun e he => by simp [hactive] at he
  refine creaturesFollow_along_iff (fun e he => absurd he (hnone e)) (fun event p hp => ?_) hchanges
  exact iff_of_false (hload event p hp) fun ⟨e, he, _⟩ => hnone e he

/-! ### Two events with a quest in common -/

def sampleQuests : EventQuests where
  creatureQuests event := if event = 1 then [(100, 7)] else if event = 2 then [(100, 7), (200, 7)] else []
  gameObjectQuests _ := []

def sample : GameEventMgr := ⟨∅, {(300, 7)}, ∅⟩

theorem follows_throughout_iff_sample :
    (∀ n, (([.start 1, .stop 1, .start 2, .stop 2].take n).foldl (next sampleQuests) sample).CreaturesFollow
      sampleQuests) ↔
      along (next sampleQuests) (StopsCleanly sampleQuests) [.start 1, .stop 1, .start 2, .stop 2] sample := by
  refine follows_throughout_iff sampleQuests sample rfl (fun event p hp => ?_) _ (by decide)
  unfold sampleQuests at hp
  dsimp only at hp
  split at hp
  · obtain rfl := List.mem_singleton.mp hp
    decide
  · split at hp
    · rcases List.mem_cons.mp hp with rfl | hp
      · decide
      · obtain rfl := List.mem_singleton.mp hp
        decide
    · cases hp

/-- Both events start and stop: a copy of the pair stays although no event is active. -/
theorem relation_stays : along (next sampleQuests) Alternates [.start 1, .start 2, .stop 1, .stop 2] sample ∧
    ([.start 1, .start 2, .stop 1, .stop 2].foldl (next sampleQuests) sample).activeEvents = ∅ ∧
    (100, 7) ∈ ([.start 1, .start 2, .stop 1, .stop 2].foldl (next sampleQuests) sample).creatureQuestRelations := by
  decide

end GameEventMgr

end HysteriaCore.Events
