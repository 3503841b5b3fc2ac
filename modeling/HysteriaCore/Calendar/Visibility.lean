import HysteriaCore.Calendar.Guards
import HysteriaCore.Calendar.Ids
import Mathlib.Data.Finset.Union

/-!
# The events that a player sees (`CalendarMgr::GetPlayerEvents`)

They are found in two ways: by the invites of the player, and by the guild id. Events that are of no
guild and players without a guild have an id there too, and it is the same.
-/

namespace HysteriaCore.Calendar
open Lib

structure EventRow where
  id : ℕ
  creator : ℕ
  eventTime : ℕ
  flags : ℕ

def CalendarEvent.ofGuild (e : CalendarEvent) : Bool := e.isGuildEvent || e.isGuildAnnouncement

def EventRow.load (getGuildIdFromStorage : ℕ → ℕ) (row : EventRow) : CalendarEvent :=
  let e : CalendarEvent := ⟨row.id, row.creator, 0, row.eventTime, row.flags⟩
  if e.isGuildEvent || e.isGuildAnnouncement then { e with guildId := getGuildIdFromStorage row.creator } else e

namespace CalendarMgr
variable (m : CalendarMgr)

/-- `GetPlayerEvents`; `player` is the guild id of the player if he is found in or out of world. -/
def getPlayerEvents (guid : ℕ) (player : Option ℕ) : Finset CalendarEvent :=
  let events := ((m.invites.filter fun i => decide (i.invitee = guid)).filterMap
    fun i => m.getEvent i.eventId).toFinset
  match player with
  | none => events
  | some guildId => events ∪ (m.events.filter fun e => decide (e.guildId = guildId)).toFinset

def Invited (guid : ℕ) (e : CalendarEvent) : Prop := ∃ i ∈ m.invites, i.invitee = guid ∧ i.eventId = e.eventId

/-- What an online player is to see, who is in the guild `guildId`, or in none where it is 0. -/
def ShowsExactly (guid guildId : ℕ) : Prop :=
  ∀ e, e ∈ m.getPlayerEvents guid (some guildId) ↔
    e ∈ m.events ∧ (m.Invited guid e ∨ (guildId ≠ 0 ∧ e.guildId = guildId ∧ e.ofGuild = true))

def KeepsGuild : Request → Prop
  | .updateEvent eventId eventTime flags now => inPast eventTime now = true ∨ ∀ e ∈ m.getEvent eventId,
      e.guildId ≠ 0 → ({ e with flags := flags } : CalendarEvent).ofGuild = true
  | _ => True

def GuildMarked : Prop := ∀ e ∈ m.events, e.guildId ≠ 0 → e.ofGuild = true

instance : ∀ r, Decidable (m.KeepsGuild r)
  | .updateEvent eventId eventTime flags now =>
    match h : m.getEvent eventId with
    | none => isTrue (.inr fun e he => by rw [h] at he; exact nomatch he)
    | some e =>
      decidable_of_iff (inPast eventTime now = true ∨
        (e.guildId ≠ 0 → ({ e with flags := flags } : CalendarEvent).ofGuild = true))
        (or_congr_right (by simp only [h, Option.mem_some_iff, forall_eq']))
  | .addEvent .. | .removeEvent .. | .copyEvent .. | .eventInvite .. | .eventSignup .. | .eventRsvp .. => isTrue trivial
  | .eventRemoveInvite .. | .eventStatus .. | .eventModeratorStatus .. => isTrue trivial
  | .deleteCharacter .. | .leaveGuild .. => isTrue trivial

section
variable {m : CalendarMgr}

/-! ### One look at the calendar -/

theorem getEvent_iff (hids : (m.events.map CalendarEvent.eventId).Nodup) {id : ℕ} {e : CalendarEvent} :
    m.getEvent id = some e ↔ e ∈ m.events ∧ e.eventId = id := by
  constructor
  · intro h
    exact ⟨List.mem_of_find?_eq_some h,
      of_decide_eq_true (List.find?_some (p := fun e : CalendarEvent => decide (e.eventId = id)) h)⟩
  · intro h
    obtain ⟨hmem, rfl⟩ := h
    cases hfind : m.getEvent e.eventId with
    | none => exact absurd (decide_eq_true rfl) (List.find?_eq_none.mp hfind e hmem)
    | some e' =>
      have hsame : e'.eventId = e.eventId := of_decide_eq_true
        (List.find?_some (p := fun e' : CalendarEvent => decide (e'.eventId = e.eventId)) hfind)
      exact congrArg some (List.inj_on_of_nodup_map hids (List.mem_of_find?_eq_some hfind) hmem hsame)

theorem mem_getPlayerEvents (hids : (m.events.map CalendarEvent.eventId).Nodup) (guid guildId : ℕ)
    (e : CalendarEvent) :
    e ∈ m.getPlayerEvents guid (some guildId) ↔ e ∈ m.events ∧ (m.Invited guid e ∨ e.guildId = guildId) := by
  have hinvited : e ∈ ((m.invites.filter fun i => decide (i.invitee = guid)).filterMap
      fun i => m.getEvent i.eventId).toFinset ↔ e ∈ m.events ∧ m.Invited guid e := by
    rw [List.mem_toFinset, List.mem_filterMap]
    constructor
    · intro h
      obtain ⟨i, hi, hevent⟩ := h
      obtain ⟨hmem, hwho⟩ := List.mem_filter.mp hi
      obtain ⟨he, hid⟩ := (getEvent_iff hids).mp hevent
      exact ⟨he, i, hmem, of_decide_eq_true hwho, hid.symm⟩
    · intro h
      obtain ⟨he, i, hi, hwho, hid⟩ := h
      exact ⟨i, List.mem_filter.mpr ⟨hi, decide_eq_true hwho⟩, (getEvent_iff hids).mpr ⟨he, hid.symm⟩⟩
  have hguild : e ∈ (m.events.filter fun e => decide (e.guildId = guildId)).toFinset ↔
      e ∈ m.events ∧ e.guildId = guildId := by
    rw [List.mem_toFinset, List.mem_filter, decide_eq_true_iff]
  show e ∈ _ ∪ _ ↔ _
  rw [Finset.mem_union, hinvited, hguild, and_or_left]

theorem showsExactly_iff (hids : (m.events.map CalendarEvent.eventId).Nodup) (guid guildId : ℕ) :
    m.ShowsExactly guid guildId ↔ ∀ e ∈ m.events, e.guildId = guildId →
      m.Invited guid e ∨ (guildId ≠ 0 ∧ e.ofGuild = true) := by
  constructor
  · intro h e he hguild
    have hright := ((h e).mp ((mem_getPlayerEvents hids guid guildId e).mpr ⟨he, .inr hguild⟩)).2
    exact hright.imp_right fun hok => ⟨hok.1, hok.2.2⟩
  · intro h e
    rw [mem_getPlayerEvents hids]
    refine and_congr_right fun he => ⟨fun hfound => ?_, fun hright => hright.imp_right fun hok => hok.2.1⟩
    rcases hfound with hinvited | hguild
    · exact .inl hinvited
    · exact (h e he hguild).imp_right fun hok => ⟨hok.1, hguild, hok.2⟩

/-! ### Requests -/

theorem mem_modify {α : Type} {l : List α} {k : ℕ} {g : α → α} {a : α} (h : a ∈ l.modify k g) :
    a ∈ l ∨ ∃ b, l[k]? = some b ∧ a = g b := by
  obtain ⟨i, hi⟩ := List.mem_iff_getElem?.mp h
  by_cases hik : k = i
  · subst hik
    rw [List.getElem?_modify_eq] at hi
    obtain ⟨b, hb, rfl⟩ := Option.map_eq_some_iff.mp hi
    exact .inr ⟨b, hb, rfl⟩
  · rw [List.getElem?_modify_ne _ _ hik] at hi
    exact .inl (List.mem_iff_getElem?.mpr ⟨i, hi⟩)

theorem events_addInvite (e : CalendarEvent) (invite : CalendarInvite) :
    (m.addInvite e invite).events = m.events := by
  rw [addInvite]
  split <;> rfl

theorem GuildMarked.addInvite (h : m.GuildMarked) (e : CalendarEvent) (invite : CalendarInvite) :
    (m.addInvite e invite).GuildMarked := by
  rw [GuildMarked, events_addInvite]
  exact h

theorem GuildMarked.addEvent (h : m.GuildMarked) {e : CalendarEvent} (he : e.guildId ≠ 0 → e.ofGuild = true) :
    (m.addEvent e).GuildMarked := by
  intro e' he'
  rcases List.mem_append.mp he' with hold | hnew
  · exact h e' hold
  · obtain rfl := List.mem_singleton.mp hnew
    exact he

theorem GuildMarked.removeEvent (h : m.GuildMarked) (eventId : ℕ) : (m.removeEvent eventId).GuildMarked := by
  rw [CalendarMgr.removeEvent]
  split
  · exact h
  · dsimp only
    rw [foldl_freeInviteId]
    exact fun e he => h e (List.mem_of_mem_eraseP he)

theorem GuildMarked.removeInvite (h : m.GuildMarked) (inviteId eventId : ℕ) :
    (m.removeInvite inviteId eventId).GuildMarked := by
  rw [CalendarMgr.removeInvite]
  split
  · exact h
  · split
    · exact h
    · exact h

theorem GuildMarked.modifyInvite (h : m.GuildMarked) (inviteId : ℕ) (g : CalendarInvite → CalendarInvite) :
    (m.modifyInvite inviteId g).GuildMarked := by
  rw [CalendarMgr.modifyInvite]
  split
  · exact h
  · exact h

theorem GuildMarked.handleCalendarAddEvent (h : m.GuildMarked) (guid guildId : ℕ) (r : AddRequest) (now : ℕ) :
    (m.handleCalendarAddEvent guid guildId r now).GuildMarked := by
  unfold CalendarMgr.handleCalendarAddEvent
  split
  · exact h
  · extract_lets eventId m' e e' m''
    have hmarked : e'.guildId ≠ 0 → e'.ofGuild = true := by
      intro hguild
      by_cases hof : (e.isGuildEvent || e.isGuildAnnouncement) = true
      · rw [show e' = { e with guildId := guildId } from if_pos hof]
        exact hof
      · rw [show e' = e from if_neg hof] at hguild
        exact absurd rfl hguild
    have hmade : m'.GuildMarked := h
    split
    next hannouncement =>
      rw [show m'' = m' from if_pos hannouncement]
      exact hmade.addEvent hmarked
    · split
      · exact hmade
      next invitees _ =>
        have hinvited : ((invitees.take 100).foldl (CalendarMgr.inviteTo e' guid) m').GuildMarked :=
          foldl_invariant (I := GuildMarked) (fun m i hm =>
            GuildMarked.addInvite (m := m.getFreeInviteId.2) hm e' _) _ hmade
        exact hinvited.addEvent hmarked

theorem GuildMarked.handleCalendarUpdateEvent (h : m.GuildMarked) {eventId eventTime flags now : ℕ}
    (hkeeps : m.KeepsGuild (.updateEvent eventId eventTime flags now)) :
    (m.handleCalendarUpdateEvent eventId eventTime flags now).GuildMarked := by
  rw [CalendarMgr.handleCalendarUpdateEvent]
  split
  · exact h
  next hpast =>
    split
    · exact h
    next k hk =>
      obtain ⟨e, hget, hfind⟩ := find?_of_findIdx? hk
      intro e' he' hguild
      rcases mem_modify he' with hold | ⟨b, hb, rfl⟩
      · exact h e' hold hguild
      · obtain rfl := Option.some.inj (hget.symm.trans hb)
        exact (hkeeps.resolve_left hpast) e hfind hguild

theorem GuildMarked.handleCalendarCopyEvent (h : m.GuildMarked) (eventId eventTime now : ℕ) :
    (m.handleCalendarCopyEvent eventId eventTime now).GuildMarked := by
  unfold CalendarMgr.handleCalendarCopyEvent
  split
  · exact h
  · split
    · exact h
    next oldEvent hold =>
      extract_lets id m' newEvent m''
      have hmade : m'.GuildMarked := h
      have hadded : m''.GuildMarked := hmade.addEvent (h oldEvent (List.mem_of_find?_eq_some hold))
      exact foldl_invariant (I := GuildMarked) (fun m i hm =>
        GuildMarked.addInvite (m := m.getFreeInviteId.2) hm newEvent _) _ hadded

theorem GuildMarked.handleCalendarEventInvite (h : m.GuildMarked) (guid : ℕ) (invitee : Option Invitee)
    (refused isPreInvite : Bool) (eventId : ℕ) :
    (m.handleCalendarEventInvite guid invitee refused isPreInvite eventId).GuildMarked := by
  unfold CalendarMgr.handleCalendarEventInvite
  split
  · exact h
  · split
    · exact h
    · split
      · exact h
      · split
        · exact h
        next e _ =>
          split
          · exact h
          · exact GuildMarked.addInvite (m := m.getFreeInviteId.2) h e _

theorem GuildMarked.handleCalendarEventSignup (h : m.GuildMarked) (guid guildId eventId : ℕ) (tentative : Bool)
    (now : ℕ) : (m.handleCalendarEventSignup guid guildId eventId tentative now).GuildMarked := by
  unfold CalendarMgr.handleCalendarEventSignup
  split
  · exact h
  next e _ =>
    split
    · exact h
    · exact GuildMarked.addInvite (m := m.getFreeInviteId.2) h e _

theorem GuildMarked.removeEvents (h : m.GuildMarked) (own : List CalendarEvent) :
    (own.foldl (fun m e => m.removeEvent e.eventId) m).GuildMarked :=
  foldl_invariant (I := GuildMarked) (fun _ e hm => hm.removeEvent e.eventId) own h

theorem GuildMarked.removeAllPlayerEventsAndInvites (h : m.GuildMarked) (guid : ℕ) :
    (m.removeAllPlayerEventsAndInvites guid).GuildMarked := by
  unfold CalendarMgr.removeAllPlayerEventsAndInvites
  extract_lets own m'
  have hevents : m'.GuildMarked := h.removeEvents own
  exact foldl_invariant (I := GuildMarked) (fun _ i hm => hm.removeInvite i.inviteId i.eventId) _ hevents

theorem GuildMarked.removePlayerGuildEventsAndSignups (h : m.GuildMarked) (guid guildId : ℕ) :
    (m.removePlayerGuildEventsAndSignups guid guildId).GuildMarked := by
  unfold CalendarMgr.removePlayerGuildEventsAndSignups
  extract_lets own m'
  have hevents : m'.GuildMarked := h.removeEvents own
  refine foldl_invariant (I := GuildMarked) (fun _ i hm => ?_) _ hevents
  split
  · exact hm.removeInvite i.inviteId i.eventId
  · exact hm

theorem GuildMarked.next (h : m.GuildMarked) {r : Request} (hkeeps : m.KeepsGuild r) : (m.next r).GuildMarked := by
  cases r with
  | addEvent guid guildId r now => exact h.handleCalendarAddEvent guid guildId r now
  | updateEvent eventId eventTime flags now => exact h.handleCalendarUpdateEvent hkeeps
  | removeEvent eventId => exact h.removeEvent eventId
  | copyEvent eventId eventTime now => exact h.handleCalendarCopyEvent eventId eventTime now
  | eventInvite guid invitee refused isPreInvite eventId =>
    exact h.handleCalendarEventInvite guid invitee refused isPreInvite eventId
  | eventSignup guid guildId eventId tentative now =>
    exact h.handleCalendarEventSignup guid guildId eventId tentative now
  | eventRsvp eventId inviteId status now =>
    rw [CalendarMgr.next, handleCalendarEventRsvp]
    split
    · exact h
    · split
      · exact h
      · exact h.modifyInvite inviteId _
  | eventRemoveInvite invitee inviteId eventId =>
    rw [CalendarMgr.next, handleCalendarEventRemoveInvite]
    split
    · exact h
    · split
      · exact h
      · exact h.removeInvite inviteId eventId
  | eventStatus eventId inviteId status =>
    rw [CalendarMgr.next, handleCalendarEventStatus]
    split
    · exact h
    · exact h.modifyInvite inviteId _
  | eventModeratorStatus eventId inviteId rank =>
    rw [CalendarMgr.next, handleCalendarEventModeratorStatus]
    split
    · exact h
    · exact h.modifyInvite inviteId _
  | deleteCharacter guid => exact h.removeAllPlayerEventsAndInvites guid
  | leaveGuild guid guildId => exact h.removePlayerGuildEventsAndSignups guid guildId

/-! ### Runs -/

theorem load_marked (getGuildIdFromStorage : ℕ → ℕ) (row : EventRow) (h : (row.load getGuildIdFromStorage).guildId ≠ 0) :
    (row.load getGuildIdFromStorage).ofGuild = true := by
  rw [EventRow.load] at h ⊢
  dsimp only at h ⊢
  split
  next hof => exact hof
  next hnot => exact absurd (congrArg CalendarEvent.guildId (if_neg hnot)) h

theorem load_eventId (getGuildIdFromStorage : ℕ → ℕ) (row : EventRow) :
    (row.load getGuildIdFromStorage).eventId = row.id := by
  rw [EventRow.load]
  dsimp only
  split <;> rfl

def loaded (getGuildIdFromStorage : ℕ → ℕ) (rows : List EventRow) (invites : List CalendarInvite) : CalendarMgr :=
  LoadFromDB (rows.map (EventRow.load getGuildIdFromStorage)) invites

theorem loaded_sound {getGuildIdFromStorage : ℕ → ℕ} {rows : List EventRow} {invites : List CalendarInvite}
    (hrows : (rows.map EventRow.id).Nodup ∧ ∀ row ∈ rows, 1 ≤ row.id)
    (hinvites : (invites.map CalendarInvite.inviteId).Nodup ∧ ∀ i ∈ invites, 1 ≤ i.inviteId) :
    (loaded getGuildIdFromStorage rows invites).Sound [] := by
  have hids : (rows.map (EventRow.load getGuildIdFromStorage)).map CalendarEvent.eventId = rows.map EventRow.id := by
    rw [List.map_map]
    exact List.map_congr_left fun row _ => load_eventId getGuildIdFromStorage row
  refine .loadFromDB (hids ▸ hrows.1) (fun e he => ?_) hinvites.1 hinvites.2
  obtain ⟨row, hrow, rfl⟩ := List.mem_map.mp he
  rw [load_eventId]
  exact hrows.2 row hrow

/-- As long as no update takes an event away from its guild, the members of a guild see exactly their
events. A player without a guild sees exactly his where he is invited to all that are of no guild. -/
theorem visible_of_reaches {getGuildIdFromStorage : ℕ → ℕ} {rows : List EventRow} {invites : List CalendarInvite}
    (hrows : (rows.map EventRow.id).Nodup ∧ ∀ row ∈ rows, 1 ≤ row.id)
    (hinvites : (invites.map CalendarInvite.inviteId).Nodup ∧ ∀ i ∈ invites, 1 ≤ i.inviteId)
    (h : Reaches step KeepsGuild (Eq (loaded getGuildIdFromStorage rows invites)) m) (guid guildId : ℕ) :
    (guildId ≠ 0 → m.ShowsExactly guid guildId) ∧
      (guildId = 0 → (m.ShowsExactly guid guildId ↔ ∀ e ∈ m.events, e.guildId = 0 → m.Invited guid e)) := by
  have hboth : m.Sound [] ∧ m.GuildMarked := by
    refine h.invariant (I := fun m => m.Sound [] ∧ m.GuildMarked) (fun m hm => ?_) fun m r m' hm hok hstep => ?_
    · subst hm
      refine ⟨loaded_sound hrows hinvites, fun e he => ?_⟩
      obtain ⟨row, _, rfl⟩ := List.mem_map.mp he
      exact load_marked getGuildIdFromStorage row
    · obtain rfl := Option.some.inj hstep
      exact ⟨hm.1.next r, hm.2.next hok⟩
  have hids : (m.events.map CalendarEvent.eventId).Nodup := hboth.1.events.live_nodup
  rw [showsExactly_iff hids]
  refine ⟨fun hguild e he hsame => ?_, fun hguild => ?_⟩
  · exact .inr ⟨hguild, hboth.2 e he (hsame ▸ hguild)⟩
  · subst hguild
    refine forall₂_congr fun e _ => imp_congr_right fun _ => ?_
    exact ⟨fun hright => hright.resolve_right fun hnot => hnot.1 rfl, .inl⟩

end

/-- A member of guild 7 and a player without a guild after an update and a copy of an event of the guild. -/
theorem visible_of_reaches_sample : ∃ m, Reaches step KeepsGuild (Eq (loaded (fun _ => 7) [⟨1, 10, 500000, 0x400⟩,
      ⟨2, 11, 500000, 0⟩] [⟨1, 2, 11, 11, 0, 1, 2⟩])) m ∧
    m.events.map (fun e => (e.eventId, e.guildId)) = [(1, 7), (2, 0), (3, 7)] ∧
    m.ShowsExactly 12 7 ∧ m.ShowsExactly 11 0 := by
  obtain ⟨m, hm, htest⟩ := Reaches.exists_of_replay step KeepsGuild (rfl : loaded (fun _ => 7)
      [⟨1, 10, 500000, 0x400⟩, ⟨2, 11, 500000, 0⟩] [⟨1, 2, 11, 11, 0, 1, 2⟩] = _)
    [.updateEvent 1 600000 0x440 0, .copyEvent 1 700000 0]
    (by decide +kernel)
    (fun m => decide (m.events.map (fun e => (e.eventId, e.guildId)) = [(1, 7), (2, 0), (3, 7)] ∧
      ∀ e ∈ m.events, e.guildId = 0 → ∃ i ∈ m.invites, i.invitee = 11 ∧ i.eventId = e.eventId))
    (by decide +kernel)
  obtain ⟨hevents, hinvited⟩ := of_decide_eq_true htest
  have hvisible := visible_of_reaches (by decide) (by decide) hm
  exact ⟨m, hm, hevents, (hvisible 12 7).1 (by decide), ((hvisible 11 0).2 rfl).mpr hinvited⟩

/-- Two players without a guild: the second one sees the personal event of the first. -/
theorem personal_event_seen : ¬ ∀ (getGuildIdFromStorage : ℕ → ℕ) (rows : List EventRow)
    (invites : List CalendarInvite) (m : CalendarMgr),
    ((rows.map EventRow.id).Nodup ∧ ∀ row ∈ rows, 1 ≤ row.id) →
    ((invites.map CalendarInvite.inviteId).Nodup ∧ ∀ i ∈ invites, 1 ≤ i.inviteId) →
    Reaches step anyStep (Eq (loaded getGuildIdFromStorage rows invites)) m →
    ∀ guid guildId, m.ShowsExactly guid guildId := by
  intro h
  obtain ⟨m, hm, htest⟩ := Reaches.exists_of_replay step anyStep (rfl : loaded (fun _ => 0) [] [] = _)
    [.addEvent 10 0 ⟨500000, 0, some [(10, 1, 2)]⟩ 0] (replayOk_anyStep ..)
    (fun m => decide (m.events = [⟨1, 10, 0, 500000, 0⟩] ∧ m.invites.map CalendarInvite.invitee = [10]))
    (by decide +kernel)
  obtain ⟨hevents, hinvites⟩ := of_decide_eq_true htest
  have hshown := h (fun _ => 0) [] [] m (by decide) (by decide) hm 12 0
  rw [showsExactly_iff (by rw [hevents]; decide), hevents] at hshown
  rcases hshown _ (List.mem_singleton_self _) rfl with ⟨i, hi, hwho, _⟩ | hguild
  · have hmem : i.invitee ∈ [10] := hinvites ▸ List.mem_map_of_mem hi
    rw [hwho] at hmem
    exact absurd hmem (by decide)
  · exact hguild.1 rfl

end CalendarMgr

end HysteriaCore.Calendar
