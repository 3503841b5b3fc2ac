import HysteriaCore.Instances.ResetTimes
import HysteriaCore.Lib.Runs
import Mathlib.Algebra.BigOperators.Group.List.Basic
import Mathlib.Tactic.IntervalCases

/-!
# One event for each map and difficulty

A turn of the loop of `Update` puts the successor of the first event into the queue and then removes what
is first. These are one and the same event as long as the successor does not sort before it, which is so
unless the new reset time is less than an hour after the old one.
-/

namespace HysteriaCore.Instances
open Lib

/-! ### The queue -/

theorem insertEvent_perm (time : ℤ) (e : InstResetEvent) (queue : List (ℤ × InstResetEvent)) :
    (insertEvent time e queue).Perm ((time, e) :: queue) := by
  induction queue with
  | nil => exact .refl _
  | cons x queue ih =>
    rw [insertEvent]
    by_cases hlt : time < x.1
    · rw [if_pos hlt]
    · rw [if_neg hlt]
      exact (ih.cons x).trans (.swap _ _ _)

theorem insertEvent_cons {t time : ℤ} (h : t ≤ time) (e next : InstResetEvent) (queue : List (ℤ × InstResetEvent)) :
    insertEvent time next ((t, e) :: queue) = (t, e) :: insertEvent time next queue := if_neg (not_lt.mpr h)

def Ordered (queue : List (ℤ × InstResetEvent)) : Prop := queue.Pairwise fun x y => x.1 ≤ y.1

variable {queue : List (ℤ × InstResetEvent)}

theorem Ordered.insertEvent (h : Ordered queue) (time : ℤ)
    (e : InstResetEvent) : Ordered (insertEvent time e queue) := by
  induction queue with
  | nil => exact List.pairwise_singleton _ _
  | cons x queue ih =>
    obtain ⟨hx, hrest⟩ := List.pairwise_cons.mp h
    rw [Instances.insertEvent]
    by_cases hlt : time < x.1
    · rw [if_pos hlt]
      refine List.pairwise_cons.mpr ⟨?_, h⟩
      intro y hy
      rcases List.mem_cons.mp hy with rfl | hy
      · exact hlt.le
      · exact hlt.le.trans (hx y hy)
    · rw [if_neg hlt]
      refine List.pairwise_cons.mpr ⟨?_, ih hrest⟩
      intro y hy
      rcases List.mem_cons.mp ((insertEvent_perm time e queue).mem_iff.mp hy) with rfl | hy
      · exact not_lt.mp hlt
      · exact hx y hy

/-! ### The reset times -/

theorem MapDifficulty.day_le_period (d : MapDifficulty) : DAY ≤ d.period := by
  unfold MapDifficulty.period
  split <;> omega

variable {d : MapDifficulty}

theorem MapDifficulty.day_dvd_period (h : DAY ∣ d.ratedPeriod) : DAY ∣ d.period := by
  unfold MapDifficulty.period
  split
  · exact dvd_rfl
  · exact h

namespace Config
variable {cfg : Config} {d : MapDifficulty} {now resetTime : ℕ}

theorem lt_nextReset (cfg : Config) (d : MapDifficulty) (resetTime : ℕ) : resetTime < cfg.nextReset d resetTime := by
  have hperiod := d.day_le_period
  unfold nextReset
  simp only [DAY, MINUTE] at *
  omega

theorem nextReset_le (hhour : cfg.hour ≤ 23) : cfg.nextReset d resetTime ≤ resetTime + d.period + 2 * DAY := by
  unfold nextReset diff
  simp only [DAY, MINUTE, HOUR] at *
  omega

def lastReset (cfg : Config) (d : MapDifficulty) (resetTime now : ℕ) : ℕ :=
  cfg.nextReset d resetTime + (now - cfg.nextReset d resetTime + (d.period - 1)) / d.period * d.period

theorem nextReset_le_lastReset : cfg.nextReset d resetTime ≤ cfg.lastReset d resetTime now := Nat.le_add_right _ _

/-- A reset time that is due leaves an hour at least until the next one, and the reset times up to `now`
are unsigned numbers of 32 bits. -/
def InTime (cfg : Config) (now : ℕ) (d : MapDifficulty) (resetTime : ℕ) : Prop :=
  resetTime < now →
    (resetTime + MINUTE) % DAY + 3540 ≤ d.period + cfg.diff ∧ cfg.lastReset d resetTime now < 2 ^ 32

instance : Decidable (cfg.InTime now d resetTime) := inferInstanceAs (Decidable (_ → _))

theorem InTime.le_nextReset (h : cfg.InTime now d resetTime) (hdue : resetTime < now) :
    resetTime + 3600 ≤ cfg.nextReset d resetTime := by
  have hgap := (h hdue).1
  unfold nextReset
  simp only [DAY, MINUTE] at *
  omega

theorem InTime.nextReset_lt (h : cfg.InTime now d resetTime) (hdue : resetTime < now) :
    cfg.nextReset d resetTime < 2 ^ 32 := nextReset_le_lastReset.trans_lt (h hdue).2

theorem nextReset_nextReset (hhour : cfg.hour ≤ 23) (hrate : DAY ∣ d.ratedPeriod) :
    cfg.nextReset d (cfg.nextReset d resetTime) = cfg.nextReset d resetTime + d.period := by
  obtain ⟨days, hdays⟩ := MapDifficulty.day_dvd_period hrate
  unfold nextReset diff
  rw [hdays]
  simp only [DAY, MINUTE, HOUR] at *
  omega

theorem lastReset_nextReset (hhour : cfg.hour ≤ 23) (hrate : DAY ∣ d.ratedPeriod)
    (hdue : cfg.nextReset d resetTime < now) :
    cfg.lastReset d (cfg.nextReset d resetTime) now = cfg.lastReset d resetTime now := by
  have hpos : 0 < d.period := Nat.lt_of_lt_of_le (by decide) d.day_le_period
  unfold lastReset
  rw [nextReset_nextReset hhour hrate]
  generalize cfg.nextReset d resetTime = t at *
  generalize d.period = period at *
  by_cases hlast : now ≤ t + period
  · have hnone : (now - (t + period) + (period - 1)) / period = 0 := Nat.div_eq_of_lt (by omega)
    have hone : (now - t + (period - 1)) / period = 1 := Nat.div_eq_of_lt_le (by omega) (by omega)
    rw [hnone, hone]
    omega
  · have hmore : now - t + (period - 1) = now - (t + period) + (period - 1) + period := by omega
    rw [hmore, Nat.add_div_right _ hpos, Nat.succ_mul]
    omega

theorem InTime.next (h : cfg.InTime now d resetTime) (hdue : resetTime < now) (hhour : cfg.hour ≤ 23)
    (hrate : DAY ∣ d.ratedPeriod) : cfg.InTime now d (cfg.nextReset d resetTime) := by
  intro hnext
  refine ⟨?_, ?_⟩
  · obtain ⟨days, hdays⟩ := MapDifficulty.day_dvd_period hrate
    have hperiod := d.day_le_period
    unfold nextReset diff
    rw [hdays] at hperiod ⊢
    simp only [DAY, MINUTE, HOUR] at *
    omega
  · rw [lastReset_nextReset hhour hrate hnext]
    exact (h hdue).2

end Config

/-! ### What has been called for a pair -/

def Entry.Before (a b : Entry) : Prop :=
  a.resetTime < b.resetTime ∨ a.resetTime = b.resetTime ∧ a.type < b.type

def Schedule.calls (m : Schedule) (pair : ℕ × ℕ) : List Entry := m.log.filter fun a => decide (a.pair = pair)

def resets (calls : List Entry) : List Entry := calls.filter fun a => decide (a.type = 5)

/-- The calls for a map and difficulty whose reset time has been `first` and is now `resetTime`. -/
structure History (d : MapDifficulty) (first : ℕ) (calls : List Entry) (resetTime : ℕ) : Prop where
  ordered : calls.Pairwise Entry.Before
  /-- every reset time but the present one has been reset, once, and led to the next one -/
  chain : first :: (resets calls).map Entry.newTime = (resets calls).map Entry.resetTime ++ [resetTime]
  due : ∀ a ∈ resets calls,
    a.resetTime < a.now ∧ a.resetTime < a.newTime ∧ a.newTime ≤ a.resetTime + d.period + 2 * DAY

structure Track (d : MapDifficulty) (first : ℕ) (calls : List Entry) (resetTime type : ℕ) : Prop
    extends History d first calls resetTime where
  past : ∀ a ∈ calls, a.resetTime < resetTime ∨ a.resetTime = resetTime ∧ a.type < type

namespace Track
variable {d : MapDifficulty} {first : ℕ} {calls : List Entry} {resetTime type : ℕ}

theorem nil (d : MapDifficulty) (first type : ℕ) : Track d first [] first type :=
  ⟨⟨.nil, rfl, fun _ ha => nomatch ha⟩, fun _ ha => nomatch ha⟩

theorem ordered_append (h : Track d first calls resetTime type) {a : Entry} (htime : a.resetTime = resetTime)
    (htype : a.type = type) : (calls ++ [a]).Pairwise Entry.Before := by
  refine List.pairwise_append.mpr ⟨h.ordered, List.pairwise_singleton _ _, ?_⟩
  intro b hb c hc
  obtain rfl := List.mem_singleton.mp hc
  unfold Entry.Before
  rw [htime, htype]
  exact h.past b hb

theorem warn (h : Track d first calls resetTime type) (hwarn : type < 5) (pair : ℕ × ℕ) (newTime now : ℕ) :
    Track d first (calls ++ [⟨pair, type, resetTime, newTime, now⟩]) resetTime (type + 1) := by
  have hresets : resets (calls ++ [⟨pair, type, resetTime, newTime, now⟩]) = resets calls := by
    rw [resets, List.filter_append, List.filter_cons_of_neg (by simpa using hwarn.ne), List.filter_nil,
      List.append_nil, resets]
  refine ⟨⟨h.ordered_append rfl rfl, ?_, ?_⟩, ?_⟩
  · rw [hresets]
    exact h.chain
  · rw [hresets]
    exact h.due
  · intro a ha
    rcases List.mem_append.mp ha with ha | ha
    · rcases h.past a ha with hlt | ⟨heq, hlt⟩
      · exact .inl hlt
      · exact .inr ⟨heq, hlt.trans (Nat.lt_succ_self _)⟩
    · obtain rfl := List.mem_singleton.mp ha
      exact .inr ⟨rfl, Nat.lt_succ_self _⟩

theorem reset (h : Track d first calls resetTime 5) {now newTime : ℕ} (hdue : resetTime < now)
    (hlater : resetTime < newTime) (hle : newTime ≤ resetTime + d.period + 2 * DAY) (pair : ℕ × ℕ) (next : ℕ) :
    Track d first (calls ++ [⟨pair, 5, resetTime, newTime, now⟩]) newTime next := by
  have hresets : resets (calls ++ [⟨pair, 5, resetTime, newTime, now⟩])
      = resets calls ++ [⟨pair, 5, resetTime, newTime, now⟩] := List.filter_append _ _
  refine ⟨⟨h.ordered_append rfl rfl, ?_, ?_⟩, ?_⟩
  · rw [hresets, List.map_append, List.map_append, ← List.cons_append, h.chain]
    rfl
  · intro a ha
    rw [hresets] at ha
    rcases List.mem_append.mp ha with ha | ha
    · exact h.due a ha
    · obtain rfl := List.mem_singleton.mp ha
      exact ⟨hdue, hlater, hle⟩
  · intro a ha
    rcases List.mem_append.mp ha with ha | ha
    · refine .inl ?_
      rcases h.past a ha with hlt | ⟨heq, -⟩
      · exact hlt.trans hlater
      · rwa [heq]
    · obtain rfl := List.mem_singleton.mp ha
      exact .inl hlater

end Track

/-! ### A turn of the loop -/

namespace Schedule
variable {cfg : Config} {m : Schedule} {now : ℕ}

/-- What a turn with the event `e` does when the event is removed that it was about. -/
def follow (m : Schedule) (now : ℕ) (e : InstResetEvent) (queue : List (ℤ × InstResetEvent))
    (type resetTime : ℕ) : Schedule :=
  { m with
    resetTime := Function.update m.resetTime e.pair resetTime
    queue := insertEvent (resetTime - resetTimeDelay type) { e with type } queue
    log := m.log ++ [⟨e.pair, e.type, m.resetTime e.pair, resetTime, now⟩] }

inductive Follows (cfg : Config) (now : ℕ) (d : MapDifficulty) : ℕ → ℕ → ℕ → ℕ → Prop where
  | warn (type resetTime : ℕ) (h : type < 5) : Follows cfg now d type resetTime (type + 1) resetTime
  | reset (resetTime : ℕ) (h : resetTime < now) : Follows cfg now d 5 resetTime 1 (cfg.nextReset d resetTime)

structure Sound (cfg : Config) (m : Schedule) : Prop where
  ordered : Ordered m.queue
  pairs : (m.queue.map fun x => x.2.pair).Perm (cfg.scheduled.map MapDifficulty.pair)
  events : ∀ x ∈ m.queue,
    1 ≤ x.2.type ∧ x.2.type ≤ 5 ∧ x.1 = m.resetTime x.2.pair - resetTimeDelay x.2.type
  tracks : ∀ x ∈ m.queue, ∀ d ∈ cfg.scheduled, d.pair = x.2.pair →
    Track d (m.first d.pair) (m.calls d.pair) (m.resetTime d.pair) x.2.type

theorem resetTimeDelay_succ {type : ℕ} (hpos : 1 ≤ type) (hwarn : type < 5) :
    resetTimeDelay (type + 1) ≤ resetTimeDelay type := by
  interval_cases type <;> decide

theorem mem_scheduled : d ∈ cfg.scheduled ↔ d ∈ cfg.mapDifficulties ∧ d.resetTime ≠ 0 := by
  unfold Config.scheduled
  rw [List.mem_filter, decide_eq_true_iff]
  rfl

variable {x : ℤ × InstResetEvent}

theorem Sound.exists_scheduled (h : m.Sound cfg) (hx : x ∈ m.queue) : ∃ d ∈ cfg.scheduled, d.pair = x.2.pair :=
  List.mem_map.mp (h.pairs.mem_iff.mp (List.mem_map_of_mem hx))

theorem Sound.exists_event (h : m.Sound cfg) (hd : d ∈ cfg.scheduled) : ∃ x ∈ m.queue, x.2.pair = d.pair :=
  List.mem_map.mp (h.pairs.mem_iff.mpr (List.mem_map_of_mem hd))

variable {e : InstResetEvent} {t : ℤ}

theorem turn_warn (hpos : 1 ≤ e.type)
    (hwarn : e.type < 5) (hkey : t = m.resetTime e.pair - resetTimeDelay e.type) :
    m.turn cfg now t e queue = m.follow now e queue (e.type + 1) (m.resetTime e.pair) := by
  have hcalled : m.resetOrWarnAll cfg e.mapid e.difficulty (decide (e.type < 5)) (m.resetTime e.pair) = m :=
    if_pos (.inr (decide_eq_true hwarn))
  have hdelay := resetTimeDelay_succ hpos hwarn
  have hbehind : t ≤ m.resetTime e.pair - resetTimeDelay (e.type + 1) := by omega
  unfold turn follow
  rw [if_neg (by omega)]
  dsimp only
  rw [hcalled, if_pos (decide_eq_true hwarn)]
  dsimp only [scheduleReset]
  rw [insertEvent_cons hbehind, Function.update_eq_self]
  rfl

theorem resetOrWarnAll_reset (hd : d ∈ cfg.scheduled)
    (hinst : cfg.instanceable d.mapid = true) {resetTime : ℕ} (hgap : 3600 ≤ cfg.nextReset d resetTime)
    (hfits : cfg.nextReset d resetTime < 2 ^ 32) :
    m.resetOrWarnAll cfg d.mapid d.difficulty false resetTime
      = { m with
          resetTime := Function.update m.resetTime d.pair (cfg.nextReset d resetTime)
          queue := insertEvent (cfg.nextReset d resetTime - 3600 : ℕ) ⟨1, d.mapid, d.difficulty⟩ m.queue } := by
  obtain ⟨hmem, hreset⟩ := mem_scheduled.mp hd
  have hfind : cfg.mapDifficulties.find? (d.mapid, d.difficulty) = some d :=
    (cfg.mapDifficulties.find?_eq_some_iff _ _).mpr ⟨hmem, rfl⟩
  unfold resetOrWarnAll
  rw [if_neg (by simp [hinst]), hfind]
  dsimp only
  rw [if_neg hreset, u32_of_lt hfits, subU32_of_le hgap hfits]
  rfl

theorem turn_reset (hinst : ∀ d ∈ cfg.scheduled, cfg.instanceable d.mapid = true)
    (hq : m.queue = (t, e) :: queue) (htype : e.type = 5)
    (hkey : t = m.resetTime e.pair) (hdue : m.resetTime e.pair < now) (hd : d ∈ cfg.scheduled)
    (hpair : d.pair = e.pair) (hok : cfg.InTime now d (m.resetTime e.pair)) :
    m.turn cfg now t e queue = m.follow now e queue 1 (cfg.nextReset d (m.resetTime e.pair)) := by
  have hgap := hok.le_nextReset hdue
  have hfits := hok.nextReset_lt hdue
  obtain ⟨hmap, hdifficulty⟩ : d.mapid = e.mapid ∧ d.difficulty = e.difficulty := Prod.mk.inj hpair
  have hcalled := resetOrWarnAll_reset (m := m) hd (hinst d hd) (by omega) hfits
  rw [hmap, hdifficulty, hpair, hq] at hcalled
  have hfirst : resetTimeDelay 1 = 3600 := rfl
  have hnext : ((cfg.nextReset d (m.resetTime e.pair) - 3600 : ℕ) : ℤ)
      = cfg.nextReset d (m.resetTime e.pair) - resetTimeDelay 1 := by omega
  rw [hnext, insertEvent_cons (by omega)] at hcalled
  unfold turn follow
  rw [if_neg (by omega)]
  dsimp only
  rw [htype, decide_eq_false (by decide), hcalled]
  simp only [Bool.false_eq_true, if_false, List.tail_cons, Function.update_self]

theorem Sound.turn_eq (h : m.Sound cfg) (hinst : ∀ d ∈ cfg.scheduled, cfg.instanceable d.mapid = true)
    (hq : m.queue = (t, e) :: queue)
    (hdue : t < now) (hd : d ∈ cfg.scheduled) (hpair : d.pair = e.pair)
    (hok : cfg.InTime now d (m.resetTime e.pair)) :
    ∃ type resetTime, Follows cfg now d e.type (m.resetTime e.pair) type resetTime ∧
      m.turn cfg now t e queue = m.follow now e queue type resetTime := by
  obtain ⟨hpos, hle, hkey⟩ := h.events (t, e) (by rw [hq]; exact List.mem_cons_self)
  dsimp only at hpos hle hkey
  by_cases hwarn : e.type < 5
  · exact ⟨_, _, .warn _ _ hwarn, turn_warn hpos hwarn hkey⟩
  · have htype : e.type = 5 := by omega
    have hdelay : resetTimeDelay 5 = 0 := rfl
    rw [htype, hdelay, Nat.cast_zero, sub_zero] at hkey
    have hbefore : m.resetTime e.pair < now := by omega
    exact ⟨_, _, htype ▸ .reset _ hbefore, turn_reset hinst hq htype hkey hbefore hd hpair hok⟩

variable {type resetTime type' resetTime' : ℕ}

theorem Follows.type_range (h : Follows cfg now d type resetTime type' resetTime') : 1 ≤ type' ∧ type' ≤ 5 := by
  cases h with
  | warn _ _ hwarn => omega
  | reset => decide

theorem Follows.track {first : ℕ} {calls : List Entry}
    (h : Follows cfg now d type resetTime type' resetTime') (hhour : cfg.hour ≤ 23)
    (ht : Track d first calls resetTime type) (pair : ℕ × ℕ) :
    Track d first (calls ++ [⟨pair, type, resetTime, resetTime', now⟩]) resetTime' type' := by
  cases h with
  | warn _ _ hwarn => exact ht.warn hwarn pair _ now
  | reset _ hdue => exact ht.reset hdue (cfg.lt_nextReset d _) (Config.nextReset_le hhour) pair 1

theorem Follows.inTime
    (h : Follows cfg now d type resetTime type' resetTime') (hok : cfg.InTime now d resetTime)
    (hhour : cfg.hour ≤ 23) (hrate : DAY ∣ d.ratedPeriod) : cfg.InTime now d resetTime' := by
  cases h with
  | warn => exact hok
  | reset _ hdue => exact hok.next hdue hhour hrate

theorem Follows.remaining_lt
    (h : Follows cfg now d type resetTime type' resetTime') :
    5 * (now - resetTime') + (5 - type') < 5 * (now - resetTime) + (5 - type) := by
  cases h with
  | warn _ _ hwarn => omega
  | reset _ hdue =>
    have hlater := cfg.lt_nextReset d resetTime
    omega

section Follow
variable {t : ℤ} {e : InstResetEvent} {queue : List (ℤ × InstResetEvent)} {type resetTime : ℕ}

theorem follow_perm : (m.follow now e queue type resetTime).queue.Perm
    ((resetTime - resetTimeDelay type, { e with type }) :: queue) := insertEvent_perm _ _ _

theorem calls_follow_self : (m.follow now e queue type resetTime).calls e.pair
    = m.calls e.pair ++ [⟨e.pair, e.type, m.resetTime e.pair, resetTime, now⟩] := by
  unfold calls follow
  rw [List.filter_append, List.filter_cons_of_pos (by simp), List.filter_nil]

theorem calls_follow_of_ne {pair : ℕ × ℕ} (hne : pair ≠ e.pair) :
    (m.follow now e queue type resetTime).calls pair = m.calls pair := by
  unfold calls follow
  rw [List.filter_append, List.filter_cons_of_neg (by simpa using hne.symm), List.filter_nil, List.append_nil]

theorem resetTime_follow_of_ne {pair : ℕ × ℕ} (hne : pair ≠ e.pair) :
    (m.follow now e queue type resetTime).resetTime pair = m.resetTime pair := Function.update_of_ne hne _ _

theorem resetTime_follow_self : (m.follow now e queue type resetTime).resetTime e.pair = resetTime :=
  Function.update_self _ _ _

theorem scheduled_distinct (cfg : Config) : (cfg.scheduled.map MapDifficulty.pair).Nodup :=
  cfg.mapDifficulties.distinct.sublist (List.filter_sublist.map _)

theorem Sound.pair_ne (h : m.Sound cfg) (hq : m.queue = (t, e) :: queue) (hx : x ∈ queue) : x.2.pair ≠ e.pair := by
  have hdistinct := h.pairs.nodup_iff.mpr (scheduled_distinct cfg)
  rw [hq, List.map_cons] at hdistinct
  intro heq
  exact (List.nodup_cons.mp hdistinct).1 (heq ▸ List.mem_map_of_mem hx)

theorem Sound.follow (h : m.Sound cfg) (hhour : cfg.hour ≤ 23) (hq : m.queue = (t, e) :: queue)
    (hd : d ∈ cfg.scheduled) (hpair : d.pair = e.pair)
    (hf : Follows cfg now d e.type (m.resetTime e.pair) type resetTime) :
    (m.follow now e queue type resetTime).Sound cfg := by
  have hmem : ∀ x ∈ queue, x ∈ m.queue := fun x hx => by rw [hq]; exact List.mem_cons_of_mem _ hx
  refine ⟨?_, ?_, ?_, ?_⟩
  · have hordered := h.ordered
    rw [hq] at hordered
    exact Ordered.insertEvent (List.pairwise_cons.mp hordered).2 _ _
  · have hpairs := h.pairs
    rw [hq] at hpairs
    exact (follow_perm.map _).trans hpairs
  · intro x hx
    rcases List.mem_cons.mp (follow_perm.mem_iff.mp hx) with rfl | hx
    · obtain ⟨hpos, hle⟩ := hf.type_range
      refine ⟨hpos, hle, ?_⟩
      show (resetTime : ℤ) - _ = ((m.follow now e queue type resetTime).resetTime e.pair : ℤ) - _
      rw [resetTime_follow_self]
    · rw [resetTime_follow_of_ne (h.pair_ne hq hx)]
      exact h.events x (hmem x hx)
  · intro x hx d' hd' hpair'
    rcases List.mem_cons.mp (follow_perm.mem_iff.mp hx) with rfl | hx
    · have heq : d' = d := cfg.mapDifficulties.eq_of_key_eq (mem_scheduled.mp hd').1 (mem_scheduled.mp hd).1
        (hpair'.trans hpair.symm)
      have htrack := h.tracks (t, e) (by rw [hq]; exact List.mem_cons_self) d hd hpair
      rw [hpair] at htrack
      rw [heq, hpair, calls_follow_self, resetTime_follow_self]
      exact hf.track hhour htrack e.pair
    · have hne : d'.pair ≠ e.pair := hpair' ▸ h.pair_ne hq hx
      rw [calls_follow_of_ne hne, resetTime_follow_of_ne hne]
      exact h.tracks x (hmem x hx) d' hd' hpair'

/-! ### The loop -/

def InTime (cfg : Config) (m : Schedule) (now : ℕ) : Prop :=
  ∀ d ∈ cfg.scheduled, cfg.InTime now d (m.resetTime d.pair)

theorem InTime.follow (h : m.InTime cfg now) (hhour : cfg.hour ≤ 23) (hrate : ∀ d ∈ cfg.scheduled, DAY ∣ d.ratedPeriod)
    (hd : d ∈ cfg.scheduled) (hpair : d.pair = e.pair)
    (hf : Follows cfg now d e.type (m.resetTime e.pair) type resetTime) :
    (m.follow now e queue type resetTime).InTime cfg now := by
  intro d' hd'
  by_cases heq : d'.pair = e.pair
  · have hsame : d' = d := cfg.mapDifficulties.eq_of_key_eq (mem_scheduled.mp hd').1 (mem_scheduled.mp hd).1
      (heq.trans hpair.symm)
    have hbefore := h d hd
    rw [hpair] at hbefore
    rw [hsame, hpair, resetTime_follow_self]
    exact hf.inTime hbefore hhour (hrate d hd)
  · rw [resetTime_follow_of_ne heq]
    exact h d' hd'

def remaining (m : Schedule) (now : ℕ) : ℕ :=
  (m.queue.map fun x => 5 * (now - m.resetTime x.2.pair) + (5 - x.2.type)).sum

theorem remaining_follow (h : m.Sound cfg) (hq : m.queue = (t, e) :: queue)
    (hf : Follows cfg now d e.type (m.resetTime e.pair) type resetTime) :
    (m.follow now e queue type resetTime).remaining now < m.remaining now := by
  have hothers : (queue.map fun x => 5 * (now - (m.follow now e queue type resetTime).resetTime x.2.pair) + (5 - x.2.type))
      = queue.map fun x => 5 * (now - m.resetTime x.2.pair) + (5 - x.2.type) :=
    List.map_congr_left fun x hx => by rw [resetTime_follow_of_ne (h.pair_ne hq hx)]
  have hpair : ({ e with type } : InstResetEvent).pair = e.pair := rfl
  unfold remaining
  rw [(follow_perm.map _).sum_eq, hq, List.map_cons, List.map_cons, List.sum_cons, List.sum_cons, hothers]
  dsimp only
  rw [hpair, resetTime_follow_self]
  exact Nat.add_lt_add_right hf.remaining_lt _

end Follow

section Loop
variable (hhour : cfg.hour ≤ 23) (hinst : ∀ d ∈ cfg.scheduled, cfg.instanceable d.mapid = true)
  (hrate : ∀ d ∈ cfg.scheduled, DAY ∣ d.ratedPeriod)
include hhour hinst hrate

theorem Sound.turn (h : m.Sound cfg) (hok : m.InTime cfg now)
    (hq : m.queue = (t, e) :: queue) (hdue : t < now) :
    (m.turn cfg now t e queue).Sound cfg ∧ (m.turn cfg now t e queue).InTime cfg now ∧
      (m.turn cfg now t e queue).remaining now < m.remaining now := by
  have hmem : (t, e) ∈ m.queue := by
    rw [hq]
    exact List.mem_cons_self
  obtain ⟨d, hd, hpair⟩ := h.exists_scheduled hmem
  have hintime := hok d hd
  rw [hpair] at hintime
  obtain ⟨type, resetTime, hf, hturn⟩ := h.turn_eq hinst hq hdue hd hpair hintime
  rw [hturn]
  exact ⟨h.follow hhour hq hd hpair hf, hok.follow hhour hrate hd hpair hf, remaining_follow h hq hf⟩

theorem Sound.afterUpdate {fuel : ℕ} {m m' : Schedule} (h : m.Sound cfg) (hok : m.InTime cfg now)
    (hu : Schedule.update cfg now fuel m = some m') : m'.Sound cfg ∧ ∀ x ∈ m'.queue, now ≤ x.1 := by
  induction fuel generalizing m with
  | zero => nomatch hu
  | succ fuel ih =>
    rw [Schedule.update] at hu
    cases hq : m.queue with
    | nil =>
      rw [hq] at hu
      obtain rfl := Option.some.inj hu
      exact ⟨h, by simp [hq]⟩
    | cons x queue =>
      obtain ⟨t, e⟩ := x
      rw [hq] at hu
      dsimp only at hu
      by_cases hstop : (now : ℤ) ≤ t
      · rw [if_pos hstop] at hu
        obtain rfl := Option.some.inj hu
        refine ⟨h, ?_⟩
        have hordered := h.ordered
        rw [hq] at hordered ⊢
        intro y hy
        rcases List.mem_cons.mp hy with rfl | hy
        · exact hstop
        · exact hstop.trans ((List.pairwise_cons.mp hordered).1 y hy)
      · rw [if_neg hstop] at hu
        obtain ⟨hsound, hintime, -⟩ := h.turn hhour hinst hrate hok hq (not_le.mp hstop)
        exact ih hsound hintime hu

theorem Sound.exists_update {fuel : ℕ} {m : Schedule} (h : m.Sound cfg) (hok : m.InTime cfg now)
    (hfuel : m.remaining now < fuel) : ∃ m', update cfg now fuel m = some m' := by
  induction fuel generalizing m with
  | zero => exact absurd hfuel (Nat.not_lt_zero _)
  | succ fuel ih =>
    rw [Schedule.update]
    cases hq : m.queue with
    | nil => exact ⟨m, rfl⟩
    | cons x queue =>
      obtain ⟨t, e⟩ := x
      dsimp only
      by_cases hstop : (now : ℤ) ≤ t
      · exact ⟨m, if_pos hstop⟩
      · rw [if_neg hstop]
        obtain ⟨hsound, hintime, hless⟩ := h.turn hhour hinst hrate hok hq (not_le.mp hstop)
        exact ih hsound hintime (by omega)

end Loop

/-! ### Loading -/

theorem firstType_range (now t : ℕ) : 1 ≤ firstType now t ∧ firstType now t ≤ 5 := by
  unfold firstType
  cases hf : ([1, 2, 3, 4] : List ℕ).find? fun type => decide (now + resetTimeDelay type < t) with
  | none => decide
  | some type =>
    have hmem := List.mem_of_find?_eq_some hf
    simp only [List.mem_cons, List.not_mem_nil, or_false] at hmem
    dsimp only [Option.getD_some]
    omega

structure Loading (done : List MapDifficulty) (m : Schedule) : Prop where
  ordered : Ordered m.queue
  pairs : (m.queue.map fun x => x.2.pair).Perm (done.map MapDifficulty.pair)
  events : ∀ x ∈ m.queue,
    1 ≤ x.2.type ∧ x.2.type ≤ 5 ∧ x.1 = m.resetTime x.2.pair - resetTimeDelay x.2.type
  log : m.log = []

theorem Loading.load {done : List MapDifficulty} (h : m.Loading done)
    (hnew : d.pair ∉ done.map MapDifficulty.pair) : (m.loadMapDifficulty cfg now d).Loading (d :: done) := by
  unfold loadMapDifficulty
  extract_lets period today t m₁
  have hperm := insertEvent_perm (t - resetTimeDelay (firstType now t)) ⟨firstType now t, d.mapid, d.difficulty⟩ m.queue
  refine ⟨h.ordered.insertEvent _ _, ?_, ?_, h.log⟩
  · exact (hperm.map _).trans (h.pairs.cons d.pair)
  · intro x hx
    rcases List.mem_cons.mp (hperm.mem_iff.mp hx) with rfl | hx
    · obtain ⟨hpos, hle⟩ := firstType_range now t
      refine ⟨hpos, hle, ?_⟩
      show (t : ℤ) - _ = (Function.update m.resetTime d.pair t d.pair : ℕ) - _
      rw [Function.update_self]
    · have hne : x.2.pair ≠ d.pair := by
        intro heq
        exact hnew (heq ▸ h.pairs.mem_iff.mp (List.mem_map_of_mem hx))
      have hsame : m₁.resetTime x.2.pair = m.resetTime x.2.pair := Function.update_of_ne hne _ _
      show 1 ≤ x.2.type ∧ x.2.type ≤ 5 ∧ x.1 = m₁.resetTime x.2.pair - resetTimeDelay x.2.type
      rw [hsame]
      exact h.events x hx

theorem Loading.foldl {ds done : List MapDifficulty} {m : Schedule} (h : m.Loading done)
    (hnew : ((ds ++ done).map MapDifficulty.pair).Nodup) :
    ∃ loaded, loaded.Perm (ds ++ done) ∧ (ds.foldl (fun m d => m.loadMapDifficulty cfg now d) m).Loading loaded := by
  induction ds generalizing done m with
  | nil => exact ⟨done, .refl _, h⟩
  | cons d ds ih =>
    have hmiddle : ((d :: ds) ++ done).Perm (ds ++ d :: done) := List.perm_middle.symm
    have hnew' := (hmiddle.map MapDifficulty.pair).nodup_iff.mp hnew
    have hd : d.pair ∉ done.map MapDifficulty.pair := by
      rw [List.cons_append, List.map_cons, List.nodup_cons, List.map_append] at hnew
      exact fun hmem => hnew.1 (List.mem_append_right _ hmem)
    obtain ⟨loaded, hperm, hloading⟩ := ih (h.load hd) hnew'
    exact ⟨loaded, hperm.trans hmiddle.symm, hloading⟩

theorem Loading.nil (h : m.queue = [] ∧ m.log = []) : m.Loading [] := by
  obtain ⟨hqueue, hlog⟩ := h
  refine ⟨?_, ?_, ?_, hlog⟩
  · rw [hqueue]
    exact .nil
  · rw [hqueue]
    exact .nil
  · rw [hqueue]
    exact fun x hx => nomatch hx

theorem loadRow_frame (m : Schedule) (row : (ℕ × ℕ) × ℕ) (h : m.queue = [] ∧ m.log = []) :
    (loadRow cfg m row).queue = [] ∧ (loadRow cfg m row).log = [] := by
  unfold loadRow
  split
  · exact h
  · exact h

theorem Loaded.sound (h : m.Loaded cfg) : m.Sound cfg := by
  obtain ⟨rows, now, rfl⟩ := h
  unfold loadResetTimes
  extract_lets m₁ m₂
  have hrows : m₁.queue = [] ∧ m₁.log = [] := foldl_invariant loadRow_frame rows ⟨rfl, rfl⟩
  have hdistinct : ((cfg.scheduled ++ []).map MapDifficulty.pair).Nodup := by
    rw [List.append_nil]
    exact scheduled_distinct cfg
  obtain ⟨loaded, hperm, hloading⟩ := (Loading.nil hrows).foldl hdistinct
  rw [List.append_nil] at hperm
  refine ⟨hloading.ordered, hloading.pairs.trans (hperm.map _), hloading.events, ?_⟩
  intro x hx d hd hpair
  have hcalls : m₂.calls d.pair = [] := by
    have hlog : m₂.log = [] := hloading.log
    unfold calls
    rw [hlog, List.filter_nil]
  show Track d (m₂.resetTime d.pair) (m₂.calls d.pair) (m₂.resetTime d.pair) x.2.type
  rw [hcalls]
  exact .nil d _ _

/-! ### Every run -/

def KeepsSchedule (cfg : Config) (m : Schedule) (tick : Tick) : Prop := m.InTime cfg tick.now

instance (cfg : Config) (m : Schedule) (tick : Tick) : Decidable (KeepsSchedule cfg m tick) :=
  inferInstanceAs (Decidable (∀ d ∈ cfg.scheduled, _))

theorem Sound.setClock (h : m.Sound cfg) (clock : ℕ) : Sound cfg { m with clock } :=
  ⟨h.ordered, h.pairs, h.events, h.tracks⟩

theorem Sound.history (h : m.Sound cfg) (hd : d ∈ cfg.scheduled) :
    History d (m.first d.pair) (m.calls d.pair) (m.resetTime d.pair) := by
  obtain ⟨x, hx, hpair⟩ := h.exists_event hd
  exact (h.tracks x hx d hd hpair.symm).toHistory

theorem Sound.le_resetTime (h : m.Sound cfg) (hdue : ∀ x ∈ m.queue, (now : ℤ) ≤ x.1)
    (hd : d ∈ cfg.scheduled) : now ≤ m.resetTime d.pair := by
  obtain ⟨x, hx, hpair⟩ := h.exists_event hd
  have hle := hdue x hx
  have hkey := (h.events x hx).2.2
  rw [hpair] at hkey
  omega

/-- Each map and difficulty that is reset has one event in the queue, no two of them being the same pair;
what has been called for it is in order, each reset time has been reset once and after its time; and
`Update` ends with no reset time before the clock. -/
theorem schedule_of_reaches (hhour : cfg.hour ≤ 23) (hinst : ∀ d ∈ cfg.scheduled, cfg.instanceable d.mapid = true)
    (hrate : ∀ d ∈ cfg.scheduled, DAY ∣ d.ratedPeriod)
    (h : Reaches (step cfg) (KeepsSchedule cfg) (Loaded cfg) m) :
    (m.queue.map fun x => x.2.pair).Perm (cfg.scheduled.map MapDifficulty.pair) ∧
    (∀ d ∈ cfg.scheduled, History d (m.first d.pair) (m.calls d.pair) (m.resetTime d.pair)) ∧
    ∀ now, m.clock ≤ now → m.InTime cfg now →
      ∃ fuel m', step cfg m ⟨now, fuel⟩ = some m' ∧ ∀ d ∈ cfg.scheduled, now ≤ m'.resetTime d.pair := by
  have hsound : m.Sound cfg := by
    refine h.invariant (fun m hm => hm.sound) fun m tick m' hm hok hstep => ?_
    unfold step at hstep
    split at hstep
    · obtain ⟨m₁, hm₁, rfl⟩ := Option.map_eq_some_iff.mp hstep
      exact (hm.afterUpdate hhour hinst hrate hok hm₁).1.setClock tick.now
    · nomatch hstep
  refine ⟨hsound.pairs, fun d hd => hsound.history hd, ?_⟩
  intro now hclock hok
  obtain ⟨m₁, hm₁⟩ := hsound.exists_update hhour hinst hrate hok (Nat.lt_succ_self _)
  obtain ⟨hsound₁, hdue⟩ := hsound.afterUpdate hhour hinst hrate hok hm₁
  refine ⟨m.remaining now + 1, { m₁ with clock := now }, ?_, fun d hd => hsound₁.le_resetTime hdue hd⟩
  unfold step
  rw [if_pos hclock, hm₁]
  rfl

def sampleConfig (hour : ℕ) : Config where
  hour := hour
  mapDifficulties := ⟨[⟨249, 0, 604800, 604800⟩, ⟨269, 1, 86400, 86400⟩, ⟨1, 0, 0, 0⟩], by decide⟩
  instanceable mapid := decide (mapid ≠ 1)

theorem loaded_of_rows (cfg : Config) (rows : List ((ℕ × ℕ) × ℕ)) (now : ℕ) : Loaded cfg (loadResetTimes cfg rows now) :=
  ⟨rows, now, rfl⟩

/-- Eight resets of the daily pair and one of the weekly pair in nine days. -/
theorem schedule_of_reaches_sample : ∃ m, Reaches (step (sampleConfig 4)) (KeepsSchedule (sampleConfig 4))
      (Loaded (sampleConfig 4)) m ∧
    (resets (m.calls (269, 1))).length = 8 ∧ (resets (m.calls (249, 0))).length = 1 ∧
    (m.queue.map fun x => x.2.pair).Perm ((sampleConfig 4).scheduled.map MapDifficulty.pair) := by
  obtain ⟨m, hm, htest⟩ := Reaches.exists_of_replay (step (sampleConfig 4)) (KeepsSchedule (sampleConfig 4))
    (loaded_of_rows (sampleConfig 4) [] 1728000000) [⟨1728200000, 50⟩, ⟨1728777600, 50⟩]
    (by decide +kernel)
    (fun m => decide ((resets (m.calls (269, 1))).length = 8 ∧ (resets (m.calls (249, 0))).length = 1))
    (by decide +kernel)
  obtain ⟨hdaily, hweekly⟩ := of_decide_eq_true htest
  exact ⟨m, hm, hdaily, hweekly, (schedule_of_reaches (by decide) (by decide) (by decide) hm).1⟩

/-- The stored time is 61 seconds before midnight, and the resets are at midnight: the first warning of the
next period sorts before the reset, is removed in its place, and the pair is reset a second time, before
its time. -/
theorem reset_before_time : ∃ m, Reaches (step (sampleConfig 0)) anyStep (Loaded (sampleConfig 0)) m ∧
    (m.calls (269, 1)).map (fun a => (a.type, a.resetTime, a.newTime, a.now)) =
      [(5, 1727999939, 1728000000, 1727999950), (5, 1728000000, 1728086400, 1727999950)] ∧
    ¬∀ d ∈ (sampleConfig 0).scheduled, History d (m.first d.pair) (m.calls d.pair) (m.resetTime d.pair) := by
  obtain ⟨m, hm, htest⟩ := Reaches.exists_of_replay (step (sampleConfig 0)) anyStep
    (loaded_of_rows (sampleConfig 0) [((269, 1), 1727999939)] 1727999950) [⟨1727999950, 50⟩]
    (replayOk_anyStep ..)
    (fun m => decide ((m.calls (269, 1)).map (fun a => (a.type, a.resetTime, a.newTime, a.now)) =
        [(5, 1727999939, 1728000000, 1727999950), (5, 1728000000, 1728086400, 1727999950)] ∧
      ∃ a ∈ resets (m.calls (269, 1)), ¬ a.resetTime < a.now))
    (by decide +kernel)
  obtain ⟨hcalls, a, ha, hearly⟩ := of_decide_eq_true htest
  exact ⟨m, hm, hcalls, fun h => hearly ((h ⟨269, 1, 86400, 86400⟩ (by decide)).due a ha).1⟩

end Schedule

end HysteriaCore.Instances
