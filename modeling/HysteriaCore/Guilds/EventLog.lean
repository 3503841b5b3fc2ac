import HysteriaCore.Lib.KeyedList
import HysteriaCore.Lib.Runs
import HysteriaCore.Lib.Window
import Mathlib.Data.UInt

/-!
# Guild event logs (Guild::LogHolder, Guild::EventLogEntry, GuildMgr::LoadGuilds)

Each guild has a log of its last events, in memory and as rows of `guild_eventlog`. The rows' keys
go round below the maximum number of records, and the next key is found again at a restart.
-/

namespace HysteriaCore.Guilds.EventLog
open Lib

def GUILD_EVENT_LOG_GUID_UNDEFINED : ℕ := 0xFFFFFFFF

/-- What an entry tells: `m_timestamp`, `m_eventType`, `m_playerGuid1`, `m_playerGuid2`, `m_newRank`. -/
structure GuildEvent where
  timestamp : UInt32
  eventType : UInt8
  playerGuid1 : UInt32
  playerGuid2 : UInt32
  newRank : UInt8
  deriving DecidableEq

/-- An entry in memory, and the row that `SaveToDB` makes of it. -/
structure EventLogEntry extends GuildEvent where
  guildId : ℕ
  guid : ℕ
  deriving DecidableEq

def EventLogEntry.key (e : EventLogEntry) : ℕ × ℕ := (e.guildId, e.guid)

structure LogHolder where
  log : List EventLogEntry
  nextGUID : ℕ

namespace LogHolder

def new : LogHolder := ⟨[], GUILD_EVENT_LOG_GUID_UNDEFINED⟩

def canInsert (maxRecords : ℕ) (h : LogHolder) : Bool := h.log.length < maxRecords

def loadEvent (h : LogHolder) (entry : EventLogEntry) : LogHolder where
  log := entry :: h.log
  nextGUID := if h.nextGUID = GUILD_EVENT_LOG_GUID_UNDEFINED then entry.guid else h.nextGUID

def getNextGUID (maxRecords : ℕ) (h : LogHolder) : ℕ :=
  if h.nextGUID = GUILD_EVENT_LOG_GUID_UNDEFINED then 0 else (h.nextGUID + 1) % 2 ^ 32 % maxRecords

def addEvent (maxRecords : ℕ) (h : LogHolder) (entry : EventLogEntry) : List EventLogEntry :=
  (if maxRecords ≤ h.log.length then h.log.tail else h.log) ++ [entry]

def loadEventLogFromDB (maxRecords : ℕ) (h : LogHolder) (entry : EventLogEntry) : LogHolder :=
  if h.canInsert maxRecords then h.loadEvent entry else h

end LogHolder

/-- The logs of all guilds. `history` is a log for the proofs, of what happened in each guild. -/
structure World where
  holders : ℕ → LogHolder
  guildEventlog : KeyedList EventLogEntry.key
  time : UInt32
  history : ℕ → List GuildEvent

def OrderBy (x y : EventLogEntry) : Prop :=
  y.timestamp < x.timestamp ∨ (x.timestamp = y.timestamp ∧ y.guid ≤ x.guid)

instance (x y : EventLogEntry) : Decidable (OrderBy x y) := inferInstanceAs (Decidable (_ ∨ _))

inductive Event where
  | logEvent (guildId : ℕ) (e : GuildEvent)
  | restart (result : List EventLogEntry)

namespace World
variable (maxRecords : ℕ)

def logEvent (w : World) (guildId : ℕ) (e : GuildEvent) : World :=
  let h := w.holders guildId
  let guid := h.getNextGUID maxRecords
  let entry : EventLogEntry := ⟨e, guildId, guid⟩
  { holders := Function.update w.holders guildId ⟨h.addEvent maxRecords entry, guid⟩
    guildEventlog := (w.guildEventlog.erase (guildId, guid)).put entry
    time := e.timestamp
    history := Function.update w.history guildId (w.history guildId ++ [e]) }

def loadRow (holders : ℕ → LogHolder) (entry : EventLogEntry) : ℕ → LogHolder :=
  Function.update holders entry.guildId ((holders entry.guildId).loadEventLogFromDB maxRecords entry)

def trimmed (w : World) : KeyedList EventLogEntry.key := w.guildEventlog.filter fun r => r.guid ≤ maxRecords

def restart (w : World) (result : List EventLogEntry) : World :=
  { w with
    holders := result.foldl (loadRow maxRecords) fun _ => .new
    guildEventlog := w.trimmed maxRecords }

def step (w : World) : Event → Option World
  | .logEvent guildId e => guarded (w.time ≤ e.timestamp) (w.logEvent maxRecords guildId e)
  | .restart result =>
    guarded (result.Perm (w.trimmed maxRecords).rows ∧ result.Pairwise OrderBy) (w.restart maxRecords result)

def Started (w : World) : Prop :=
  (∀ g, w.holders g = .new) ∧ w.guildEventlog = .empty ∧ ∀ g, w.history g = []

end World

/-! ### The ring of a guild -/

def ringEntry (maxRecords guildId : ℕ) (q : GuildEvent × ℕ) : EventLogEntry := ⟨q.1, guildId, q.2 % maxRecords⟩

def ring (maxRecords guildId : ℕ) (history : List GuildEvent) : List EventLogEntry :=
  (window maxRecords history).map (ringEntry maxRecords guildId)

section Ring
variable {maxRecords g : ℕ} {history : List GuildEvent}

theorem ring_concat (hpos : 0 < maxRecords) (e : GuildEvent) :
    ring maxRecords g (history ++ [e]) =
      (ring maxRecords g history).drop (if maxRecords ≤ history.length then 1 else 0) ++
        [ringEntry maxRecords g (e, history.length)] := by
  rw [ring, window_concat hpos, List.map_append, List.map_drop]
  rfl

theorem length_ring : (ring maxRecords g history).length = min history.length maxRecords := by
  rw [ring, List.length_map, length_window]

theorem filter_ring (hpos : 0 < maxRecords) :
    (ring maxRecords g history).filter (fun r => r.guid ≠ history.length % maxRecords) =
      (ring maxRecords g history).drop (if maxRecords ≤ history.length then 1 else 0) := by
  rw [ring, List.filter_map, ← List.map_drop, ← filter_slot_window hpos]
  rfl

theorem map_ring : (ring maxRecords g history).map EventLogEntry.toGuildEvent =
    history.drop (history.length - maxRecords) := by
  rw [ring, List.map_map, ← map_fst_window]
  rfl

theorem guid_lt_of_mem_ring (hpos : 0 < maxRecords) {r : EventLogEntry} (h : r ∈ ring maxRecords g history) :
    r.guid < maxRecords := by
  obtain ⟨q, -, rfl⟩ := List.mem_map.mp h
  exact Nat.mod_lt _ hpos

theorem getLast?_ring (hpos : 0 < maxRecords) :
    ((ring maxRecords g history).getLast?.map EventLogEntry.guid).getD GUILD_EVENT_LOG_GUID_UNDEFINED =
      if history = [] then GUILD_EVENT_LOG_GUID_UNDEFINED else (history.length - 1) % maxRecords := by
  cases history using List.reverseRecOn with
  | nil => simp [ring, window]
  | append_singleton history e =>
    rw [ring_concat hpos, List.getLast?_concat, if_neg (by simp), List.length_append]
    rfl

end Ring

/-! ### Loading -/

section Loading
variable {maxRecords g : ℕ}

theorem foldl_loadRow (result : List EventLogEntry) (holders : ℕ → LogHolder) :
    (result.foldl (World.loadRow maxRecords) holders) g =
      (result.filter fun r => r.guildId = g).foldl (LogHolder.loadEventLogFromDB maxRecords) (holders g) := by
  induction result generalizing holders with
  | nil => rfl
  | cons r result ih =>
    rw [List.foldl_cons, ih, World.loadRow]
    by_cases hguild : r.guildId = g
    · subst hguild
      rw [Function.update_self, List.filter_cons_of_pos (by simp), List.foldl_cons]
    · rw [Function.update_of_ne (Ne.symm hguild), List.filter_cons_of_neg (by simpa using hguild)]

theorem foldl_load (rs : List EventLogEntry) (h : LogHolder) (hroom : h.log.length + rs.length ≤ maxRecords)
    (hdefined : ∀ r ∈ rs, r.guid ≠ GUILD_EVENT_LOG_GUID_UNDEFINED) :
    rs.foldl (LogHolder.loadEventLogFromDB maxRecords) h =
      ⟨rs.reverse ++ h.log, if h.nextGUID = GUILD_EVENT_LOG_GUID_UNDEFINED then
        (rs.head?.map EventLogEntry.guid).getD GUILD_EVENT_LOG_GUID_UNDEFINED else h.nextGUID⟩ := by
  induction rs generalizing h with
  | nil =>
    obtain ⟨log, nextGUID⟩ := h
    simp
  | cons r rs ih =>
    rw [List.length_cons] at hroom
    have hcan : h.canInsert maxRecords = true := decide_eq_true (by omega)
    rw [List.foldl_cons, LogHolder.loadEventLogFromDB, if_pos hcan, ih _ ?_ fun r hr =>
      hdefined r (List.mem_cons_of_mem _ hr)]
    · have hr := hdefined r (List.mem_cons_self ..)
      by_cases hnext : h.nextGUID = GUILD_EVENT_LOG_GUID_UNDEFINED
      · simp [LogHolder.loadEvent, hnext, hr]
      · simp [LogHolder.loadEvent, hnext]
    · rw [LogHolder.loadEvent, List.length_cons]
      omega

end Loading

namespace World

/-! ### The invariant -/

/-- The log and the rows of a guild are the ring of its history. -/
structure Ringed (maxRecords : ℕ) (w : World) (g : ℕ) : Prop where
  log : (w.holders g).log = ring maxRecords g (w.history g)
  next : (w.holders g).nextGUID = if w.history g = [] then GUILD_EVENT_LOG_GUID_UNDEFINED
    else ((w.history g).length - 1) % maxRecords
  rows : (w.guildEventlog.filter fun r => r.guildId = g).rows.Perm (ring maxRecords g (w.history g))
  times : (w.history g).Pairwise fun x y => x.timestamp ≤ y.timestamp
  past : ∀ e ∈ w.history g, e.timestamp ≤ w.time

variable {maxRecords : ℕ} {w : World} {g : ℕ}

theorem rows_saved (rows : KeyedList EventLogEntry.key) (entry : EventLogEntry) :
    (((rows.erase entry.key).put entry).filter fun r => r.guildId = entry.guildId).rows =
      (rows.filter fun r => r.guildId = entry.guildId).rows.filter (fun r => r.guid ≠ entry.guid) ++ [entry] := by
  show List.filter _ (List.filter _ (List.filter _ rows.rows) ++ [entry]) = List.filter _ (List.filter _ rows.rows) ++ _
  rw [List.filter_append, List.filter_cons_of_pos (by simp), List.filter_nil]
  simp only [List.filter_filter]
  refine congrArg (· ++ [entry]) (List.filter_congr fun r _ => ?_)
  by_cases hguild : r.guildId = entry.guildId <;> simp [EventLogEntry.key, hguild]

theorem rows_saved_other (rows : KeyedList EventLogEntry.key) {entry : EventLogEntry} (hg : entry.guildId ≠ g) :
    (((rows.erase entry.key).put entry).filter fun r => r.guildId = g).rows =
      (rows.filter fun r => r.guildId = g).rows := by
  show List.filter _ (List.filter _ (List.filter _ rows.rows) ++ [entry]) = List.filter _ rows.rows
  rw [List.filter_append, List.filter_cons_of_neg (by simpa using hg), List.filter_nil, List.append_nil]
  simp only [List.filter_filter]
  refine List.filter_congr fun r _ => ?_
  by_cases hguild : r.guildId = g
  · simp [EventLogEntry.key, hguild, Ne.symm hg]
  · simp [hguild]

theorem Ringed.getNextGUID (h : w.Ringed maxRecords g) (hpos : 0 < maxRecords) (hsmall : maxRecords < 2 ^ 32) :
    (w.holders g).getNextGUID maxRecords = (w.history g).length % maxRecords := by
  rw [LogHolder.getNextGUID, h.next]
  by_cases hnil : w.history g = []
  · rw [if_pos hnil, if_pos rfl, hnil, List.length_nil, Nat.zero_mod]
  · rw [if_neg hnil]
    have hlength := List.length_pos_iff.mpr hnil
    have hlt := Nat.mod_lt ((w.history g).length - 1) hpos
    have hdefined : ((w.history g).length - 1) % maxRecords ≠ GUILD_EVENT_LOG_GUID_UNDEFINED := by
      rw [GUILD_EVENT_LOG_GUID_UNDEFINED]
      omega
    rw [if_neg hdefined, Nat.mod_eq_of_lt (b := 2 ^ 32) (by omega), Nat.mod_add_mod, Nat.sub_add_cancel hlength]

theorem Ringed.logEvent (h : ∀ g, w.Ringed maxRecords g) (hpos : 0 < maxRecords) (hsmall : maxRecords < 2 ^ 32)
    (guildId : ℕ) {e : GuildEvent} (htime : w.time ≤ e.timestamp) (g : ℕ) :
    (w.logEvent maxRecords guildId e).Ringed maxRecords g := by
  have hguid := (h guildId).getNextGUID hpos hsmall
  have hpast : ∀ g, ∀ x ∈ w.history g, x.timestamp ≤ e.timestamp :=
    fun g x hx => UInt32.le_trans ((h g).past x hx) htime
  by_cases hguild : g = guildId
  · subst hguild
    have hentry : (⟨e, g, (w.holders g).getNextGUID maxRecords⟩ : EventLogEntry) =
        ringEntry maxRecords g (e, (w.history g).length) := by
      rw [hguid]
      rfl
    have hfull : (maxRecords ≤ (ring maxRecords g (w.history g)).length) ↔
        maxRecords ≤ (w.history g).length := by
      rw [length_ring]
      omega
    refine ⟨?_, ?_, ?_, ?_, ?_⟩
    · simp only [World.logEvent, Function.update_self, LogHolder.addEvent, hentry, (h g).log, hfull]
      rw [ring_concat hpos]
      split
      · rw [List.drop_one]
      · rw [List.drop_zero]
    · simp only [World.logEvent, Function.update_self, hguid]
      rw [if_neg (by simp), List.length_append, List.length_singleton, Nat.add_sub_cancel]
    · simp only [World.logEvent, Function.update_self, hentry]
      rw [hguid, ring_concat hpos, ← filter_ring hpos]
      refine List.Perm.trans (.of_eq (rows_saved w.guildEventlog _)) ?_
      exact ((h g).rows.filter _).append_right _
    · simp only [World.logEvent, Function.update_self]
      rw [List.pairwise_append]
      refine ⟨(h g).times, List.pairwise_singleton _ _, fun x hx y hy => ?_⟩
      rw [List.mem_singleton.mp hy]
      exact hpast g x hx
    · simp only [World.logEvent, Function.update_self]
      intro x hx
      rcases List.mem_append.mp hx with hx | hx
      · exact hpast g x hx
      · rw [List.mem_singleton.mp hx]
        exact UInt32.le_refl _
  · have hne : guildId ≠ g := fun heq => hguild heq.symm
    refine ⟨?_, ?_, ?_, ?_, fun x hx => ?_⟩
    · simp only [World.logEvent, Function.update_of_ne hguild]
      exact (h g).log
    · simp only [World.logEvent, Function.update_of_ne hguild]
      exact (h g).next
    · simp only [World.logEvent, Function.update_of_ne hguild]
      exact (List.Perm.of_eq (rows_saved_other w.guildEventlog hne)).trans (h g).rows
    · simp only [World.logEvent, Function.update_of_ne hguild]
      exact (h g).times
    · simp only [World.logEvent, Function.update_of_ne hguild] at hx
      exact hpast g x hx

def InOrder (log : List EventLogEntry) : Prop := log.Pairwise fun x y => x.timestamp = y.timestamp → x.guid < y.guid

theorem Ringed.result (h : w.Ringed maxRecords g) (hpos : 0 < maxRecords) {result : List EventLogEntry}
    (hresult : result.Perm (w.trimmed maxRecords).rows) :
    (result.filter fun r => r.guildId = g).Perm (ring maxRecords g (w.history g)) := by
  have hall : (ring maxRecords g (w.history g)).filter (fun r => r.guid ≤ maxRecords) =
      ring maxRecords g (w.history g) :=
    List.filter_eq_self.mpr fun r hr => decide_eq_true (guid_lt_of_mem_ring hpos hr).le
  rw [← hall]
  refine (hresult.filter _).trans (.trans (.of_eq ?_) (h.rows.filter _))
  show List.filter _ (List.filter _ _) = List.filter _ (List.filter _ _)
  rw [List.filter_filter, List.filter_filter]
  exact List.filter_congr fun r _ => Bool.and_comm ..

theorem Ringed.holders_restart (h : w.Ringed maxRecords g) (hpos : 0 < maxRecords) (hsmall : maxRecords < 2 ^ 32)
    {result : List EventLogEntry} (hresult : result.Perm (w.trimmed maxRecords).rows) :
    (w.restart maxRecords result).holders g = ⟨(result.filter fun r => r.guildId = g).reverse,
      ((result.filter fun r => r.guildId = g).head?.map EventLogEntry.guid).getD
        GUILD_EVENT_LOG_GUID_UNDEFINED⟩ := by
  have hperm := h.result hpos hresult
  have hroom : LogHolder.new.log.length + (result.filter fun r => r.guildId = g).length ≤ maxRecords := by
    rw [hperm.length_eq, length_ring]
    show 0 + _ ≤ _
    omega
  have hdefined : ∀ r ∈ result.filter fun r => r.guildId = g, r.guid ≠ GUILD_EVENT_LOG_GUID_UNDEFINED := by
    intro r hr
    have hlt := guid_lt_of_mem_ring hpos (hperm.mem_iff.mp hr)
    rw [GUILD_EVENT_LOG_GUID_UNDEFINED]
    omega
  show result.foldl (loadRow maxRecords) _ g = _
  rw [foldl_loadRow, foldl_load _ _ hroom hdefined, if_pos (by rfl)]
  show LogHolder.mk (_ ++ []) _ = _
  rw [List.append_nil]

theorem ring_guids (maxRecords g : ℕ) (history : List GuildEvent) :
    (ring maxRecords g history).Pairwise fun x y => x.guid ≠ y.guid := by
  rw [ring, List.pairwise_map]
  exact slots_pairwise ..

theorem OrderBy.antisymm {x y : EventLogEntry} (h : OrderBy x y) (h' : OrderBy y x) : x.guid = y.guid := by
  rcases h with hlt | ⟨heq, hle⟩
  · rcases h' with hlt' | ⟨heq', -⟩
    · exact absurd (UInt32.lt_trans hlt hlt') (UInt32.lt_irrefl _)
    · rw [heq'] at hlt
      exact absurd hlt (UInt32.lt_irrefl _)
  · rcases h' with hlt' | ⟨-, hle'⟩
    · rw [heq] at hlt'
      exact absurd hlt' (UInt32.lt_irrefl _)
    · exact Nat.le_antisymm hle' hle

theorem inOrder_iff_pairwise (h : w.Ringed maxRecords g) : InOrder (ring maxRecords g (w.history g)) ↔
    (ring maxRecords g (w.history g)).Pairwise fun x y => OrderBy y x := by
  have htimes : (ring maxRecords g (w.history g)).Pairwise fun x y => x.timestamp ≤ y.timestamp := by
    have hlast : ((ring maxRecords g (w.history g)).map EventLogEntry.toGuildEvent).Pairwise
        fun x y => x.timestamp ≤ y.timestamp := by
      rw [map_ring]
      exact h.times.sublist (List.drop_sublist ..)
    exact List.Pairwise.of_map EventLogEntry.toGuildEvent (fun _ _ hle => hle) hlast
  have hkeys := ring_guids maxRecords g (w.history g)
  constructor
  · intro horder
    refine (htimes.and horder).imp fun {x y} hxy => ?_
    by_cases heq : x.timestamp = y.timestamp
    · exact .inr ⟨heq.symm, (hxy.2 heq).le⟩
    · exact .inl (UInt32.lt_of_le_of_ne hxy.1 heq)
  · intro horder
    refine (hkeys.and horder).imp fun {x y} hxy heq => ?_
    rcases hxy.2 with hlt | ⟨-, hle⟩
    · rw [heq] at hlt
      exact absurd hlt (UInt32.lt_irrefl _)
    · exact lt_of_le_of_ne hle hxy.1

theorem Ringed.restart_iff (h : w.Ringed maxRecords g) (hpos : 0 < maxRecords) (hsmall : maxRecords < 2 ^ 32)
    {result : List EventLogEntry} (hresult : result.Perm (w.trimmed maxRecords).rows)
    (hsorted : result.Pairwise OrderBy) :
    (w.restart maxRecords result).Ringed maxRecords g ↔ InOrder (w.holders g).log := by
  have hholder := h.holders_restart hpos hsmall hresult
  have hperm := h.result hpos hresult
  have hdesc : ((result.filter fun r => r.guildId = g).reverse).Pairwise fun x y => OrderBy y x :=
    List.pairwise_reverse.mpr (hsorted.filter _)
  rw [h.log, inOrder_iff_pairwise h]
  constructor
  · intro hringed
    have hlog := hringed.log
    rw [hholder] at hlog
    rw [← show (result.filter fun r => r.guildId = g).reverse = ring maxRecords g (w.history g) from hlog]
    exact hdesc
  · intro horder
    have hlog : (result.filter fun r => r.guildId = g).reverse = ring maxRecords g (w.history g) := by
      have hsame := (List.reverse_perm (result.filter fun r => r.guildId = g)).trans hperm
      have hkeys : ((ring maxRecords g (w.history g)).map EventLogEntry.guid).Nodup :=
        List.pairwise_map.mpr (ring_guids ..)
      refine List.Perm.eq_of_pairwise ?_ hdesc horder hsame
      intro x y hx hy hxy hyx
      exact List.inj_on_of_nodup_map hkeys (hsame.mem_iff.mp hx) hy (OrderBy.antisymm hyx hxy)
    refine ⟨?_, ?_, ?_, h.times, h.past⟩
    · rw [hholder]
      exact hlog
    · rw [hholder, ← getLast?_ring (g := g) hpos]
      show Option.getD _ _ = _
      rw [World.restart, ← hlog, List.getLast?_reverse]
    · refine List.Perm.trans (.of_eq ?_) (h.result hpos (.refl _))
      rfl

/-! ### Runs -/

def KeepsOrder (w : World) : Event → Prop
  | .logEvent .. => True
  | .restart _ => ∀ g, InOrder (w.holders g).log

/-- A guild has its last events in memory, in their order, and the same entries as rows. -/
structure Persistent (maxRecords : ℕ) (w : World) (g : ℕ) : Prop where
  memory : (w.holders g).log.map EventLogEntry.toGuildEvent =
    (w.history g).drop ((w.history g).length - maxRecords)
  rows : (w.guildEventlog.filter fun r => r.guildId = g).rows.Perm (w.holders g).log

theorem Ringed.persistent (h : w.Ringed maxRecords g) : w.Persistent maxRecords g := by
  refine ⟨?_, ?_⟩
  · rw [h.log, map_ring]
  · rw [h.log]
    exact h.rows

theorem Started.ringed (h : w.Started) (g : ℕ) : w.Ringed maxRecords g := by
  obtain ⟨hholders, hrows, hhistory⟩ := h
  refine ⟨?_, ?_, ?_, ?_, ?_⟩
  · rw [hholders, hhistory]
    simp [LogHolder.new, ring, window]
  · rw [hholders, hhistory, if_pos rfl]
    rfl
  · rw [hrows, hhistory]
    simp [KeyedList.empty, KeyedList.filter, ring, window]
  · rw [hhistory]
    exact List.Pairwise.nil
  · rw [hhistory]
    exact fun e he => absurd he List.not_mem_nil

/-- The logs in every run that restarts only where the order of the rows is that of the events. -/
theorem persistent_of_reaches (hpos : 0 < maxRecords) (hsmall : maxRecords < 2 ^ 32)
    (h : Reaches (step maxRecords) KeepsOrder Started w) (g : ℕ) : w.Persistent maxRecords g := by
  have hringed : ∀ g, w.Ringed maxRecords g := by
    refine h.invariant (I := fun s => ∀ g, s.Ringed maxRecords g) (fun s hs g => hs.ringed g) fun s e t hi hok hs => ?_
    cases e with
    | logEvent guildId e =>
      obtain ⟨htime, rfl⟩ := guarded_eq_some.mp hs
      exact Ringed.logEvent hi hpos hsmall guildId htime
    | restart result =>
      obtain ⟨⟨hresult, hsorted⟩, rfl⟩ := guarded_eq_some.mp hs
      intro g
      exact ((hi g).restart_iff hpos hsmall hresult hsorted).mpr (hok g)
  exact (hringed g).persistent

section Samples

def fresh : World := ⟨fun _ => .new, .empty, 0, fun _ => []⟩

theorem fresh_started : fresh.Started := ⟨fun _ => rfl, rfl, fun _ => rfl⟩

def join (timestamp : UInt32) : GuildEvent := ⟨timestamp, 2, 7, 0, 0⟩

def sampleDay : World :=
  ((fresh.logEvent 2 1 (join 10)).logEvent 2 1 (join 10)).logEvent 2 1 (join 11)

theorem persistent_of_reaches_restarted : ∃ w, Reaches (step 2) KeepsOrder Started w ∧
    (w.history 1).length = 4 ∧ w.Persistent 2 1 := by
  have hday : Reaches (step 2) KeepsOrder Started sampleDay := by
    have hok : replayOk (step 2) KeepsOrder fresh
        [.logEvent 1 (join 10), .logEvent 1 (join 10), .logEvent 1 (join 11)] :=
      ⟨trivial, fun _ _ => ⟨trivial, fun _ _ => ⟨trivial, fun _ _ => trivial⟩⟩⟩
    exact .of_replay (.start fresh_started) hok rfl
  have horder : ∀ g, InOrder (sampleDay.holders g).log := by
    intro g
    by_cases hg : g = 1
    · subst hg
      simp only [InOrder]
      decide
    · simp [sampleDay, World.logEvent, Function.update_of_ne hg, fresh, LogHolder.new, InOrder]
  have hrestart : Reaches (step 2) KeepsOrder Started (sampleDay.restart 2 [⟨join 11, 1, 0⟩, ⟨join 10, 1, 1⟩]) :=
    .next (a := Event.restart [⟨join 11, 1, 0⟩, ⟨join 10, 1, 1⟩]) hday horder
      (guarded_eq_some.mpr ⟨by decide +kernel, rfl⟩)
  have hlast : Reaches (step 2) KeepsOrder Started
      ((sampleDay.restart 2 [⟨join 11, 1, 0⟩, ⟨join 10, 1, 1⟩]).logEvent 2 1 (join 12)) :=
    .next (a := Event.logEvent 1 (join 12)) hrestart trivial (guarded_eq_some.mpr ⟨by decide +kernel, rfl⟩)
  exact ⟨_, hlast, by decide +kernel, persistent_of_reaches (by decide) (by decide) hlast 1⟩

/-- Three events of one second: the restart takes the first that is kept for the last. -/
theorem restart_turns_order : ¬ ∀ maxRecords w, 0 < maxRecords → maxRecords < 2 ^ 32 →
    Reaches (step maxRecords) anyStep Started w → ∀ g, w.Persistent maxRecords g := by
  intro hall
  obtain ⟨w, hw, htest⟩ := Reaches.exists_of_replay (step 2) anyStep fresh_started
    [.logEvent 1 ⟨10, 2, 7, 0, 0⟩, .logEvent 1 ⟨10, 2, 8, 0, 0⟩, .logEvent 1 ⟨10, 2, 9, 0, 0⟩,
      .restart [⟨⟨10, 2, 8, 0, 0⟩, 1, 1⟩, ⟨⟨10, 2, 9, 0, 0⟩, 1, 0⟩]]
    (replayOk_anyStep ..)
    (fun w => (w.holders 1).log.map EventLogEntry.toGuildEvent ≠
      (w.history 1).drop ((w.history 1).length - 2)) (by decide +kernel)
  exact of_decide_eq_true htest (hall 2 w (by decide) (by decide) hw 1).memory

end Samples

end World

end HysteriaCore.Guilds.EventLog
