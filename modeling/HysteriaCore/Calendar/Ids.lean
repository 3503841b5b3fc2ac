import HysteriaCore.Calendar.CalendarMgr
import HysteriaCore.Lib.Counting

/-!
# The ids of events and invites

Whatever is asked of the calendar, no id is given out while an event or an invite has it.
-/

namespace HysteriaCore.Calendar
open Lib

namespace CalendarMgr
variable {m : CalendarMgr} {pending : List ℕ}

/-- The pools know the ids of the events, of those `pending` that are being made, and of the invites. -/
structure Sound (pending : List ℕ) (m : CalendarMgr) : Prop where
  events : m.eventIds.Serves (pending ++ m.events.map CalendarEvent.eventId)
  invites : m.inviteIds.Serves (m.invites.map CalendarInvite.inviteId)
  fresh : m.reused = false

theorem Sound.loadFromDB {events : List CalendarEvent} {invites : List CalendarInvite}
    (hevents : (events.map CalendarEvent.eventId).Nodup) (heventIds : ∀ e ∈ events, 1 ≤ e.eventId)
    (hinvites : (invites.map CalendarInvite.inviteId).Nodup) (hinviteIds : ∀ i ∈ invites, 1 ≤ i.inviteId) :
    (LoadFromDB events invites).Sound [] where
  events := IdPool.serves_ofIds hevents fun id hid => by
    obtain ⟨e, he, rfl⟩ := List.mem_map.mp hid
    exact heventIds e he
  invites := IdPool.serves_ofIds hinvites fun id hid => by
    obtain ⟨i, hi, rfl⟩ := List.mem_map.mp hid
    exact hinviteIds i hi
  fresh := rfl

/-! ### Giving out and taking back -/

theorem Sound.getFreeEventId (h : m.Sound []) : m.getFreeEventId.2.Sound [m.getFreeEventId.1] := by
  obtain ⟨hnew, hserves⟩ := h.events.take
  refine ⟨hserves, h.invites, ?_⟩
  show (m.reused || decide _) = false
  rw [h.fresh, Bool.false_or]
  exact decide_eq_false hnew

theorem Sound.getFreeInviteId (h : m.Sound pending) (e : CalendarEvent) {invite : CalendarInvite}
    (hid : invite.inviteId = m.getFreeInviteId.1) : (m.getFreeInviteId.2.addInvite e invite).Sound pending := by
  obtain ⟨hnew, hserves⟩ := h.invites.take
  have hfresh : m.getFreeInviteId.2.reused = false := by
    show (m.reused || decide _) = false
    rw [h.fresh, Bool.false_or]
    exact decide_eq_false hnew
  rw [addInvite]
  split
  · exact ⟨h.events, hserves.sublist (List.sublist_cons_self _ _), hfresh⟩
  · refine ⟨h.events, hserves.perm ?_, hfresh⟩
    show (_ :: m.invites.map _).Perm ((m.invites ++ [invite]).map CalendarInvite.inviteId)
    rw [List.map_append, List.map_singleton, hid]
    exact (List.perm_append_singleton _ _).symm

theorem Sound.addEvent {e : CalendarEvent} (h : m.Sound [e.eventId]) : (m.addEvent e).Sound [] := by
  refine ⟨h.events.perm ?_, h.invites, h.fresh⟩
  show (e.eventId :: m.events.map _).Perm ((m.events ++ [e]).map CalendarEvent.eventId)
  rw [List.map_append, List.map_singleton]
  exact (List.perm_append_singleton _ _).symm

theorem Sound.freeEventId {id : ℕ} (h : m.Sound [id]) : (m.freeEventId id).Sound [] :=
  ⟨h.events.release, h.invites, h.fresh⟩

theorem foldl_freeInviteId (l : List CalendarInvite) : l.foldl (fun m i => m.freeInviteId i.inviteId) m =
    { m with inviteIds := (l.map CalendarInvite.inviteId).foldl IdPool.release m.inviteIds } := by
  induction l generalizing m with
  | nil => rfl
  | cons i l ih =>
    rw [List.foldl_cons, ih]
    rfl

theorem Sound.removeEvent (h : m.Sound []) (eventId : ℕ) : (m.removeEvent eventId).Sound [] := by
  rw [CalendarMgr.removeEvent]
  split
  · exact h
  next e hfind =>
    dsimp only
    rw [foldl_freeInviteId]
    have hevents := (perm_eraseP_of_find? hfind).map CalendarEvent.eventId
    have hinvites := (List.filter_append_perm (fun i : CalendarInvite => decide (i.eventId = eventId))
      m.invites).map CalendarInvite.inviteId
    rw [List.map_append] at hinvites
    have hrest : (m.invites.filter fun i => decide (i.eventId ≠ eventId)) =
        m.invites.filter fun i => !decide (i.eventId = eventId) :=
      List.filter_congr fun i _ => decide_not
    refine ⟨(h.events.perm hevents).release, ?_, h.fresh⟩
    show IdPool.Serves _ ((m.invites.filter fun i => decide (i.eventId ≠ eventId)).map CalendarInvite.inviteId)
    rw [hrest]
    exact (h.invites.perm hinvites.symm).releaseAll

theorem Sound.removeInvite (h : m.Sound []) (inviteId eventId : ℕ) : (m.removeInvite inviteId eventId).Sound [] := by
  rw [CalendarMgr.removeInvite]
  split
  · exact h
  · split
    · exact h
    next i hfind =>
      have hinvites := (perm_eraseP_of_find? hfind).map CalendarInvite.inviteId
      exact ⟨h.events, (h.invites.perm hinvites).release, h.fresh⟩

theorem Sound.modifyInvite (h : m.Sound []) (inviteId : ℕ) {g : CalendarInvite → CalendarInvite}
    (hg : ∀ i, (g i).inviteId = i.inviteId) : (m.modifyInvite inviteId g).Sound [] := by
  rw [CalendarMgr.modifyInvite]
  split
  · exact h
  next k _ =>
    refine ⟨h.events, ?_, h.fresh⟩
    show m.inviteIds.Serves ((m.invites.modify k g).map CalendarInvite.inviteId)
    rw [map_modify_of_same hg]
    exact h.invites

/-! ### Requests -/

theorem Sound.inviteTo (h : m.Sound pending) (e : CalendarEvent) (guid : ℕ) (invitee : ℕ × ℕ × ℕ) :
    (inviteTo e guid m invitee).Sound pending := h.getFreeInviteId e rfl

theorem Sound.copyInvite (h : m.Sound pending) (e : CalendarEvent) (invite : CalendarInvite) :
    (copyInvite e m invite).Sound pending := h.getFreeInviteId e rfl

theorem Sound.handleCalendarAddEvent (h : m.Sound []) (guid guildId : ℕ) (r : AddRequest) (now : ℕ) :
    (m.handleCalendarAddEvent guid guildId r now).Sound [] := by
  unfold CalendarMgr.handleCalendarAddEvent
  split
  · exact h
  · have htaken := h.getFreeEventId
    extract_lets eventId m' e e' m''
    have hid : e'.eventId = eventId := by
      rw [show e' = if _ then _ else _ from rfl]
      split <;> rfl
    have hmade : m'.Sound [e'.eventId] := hid.symm ▸ htaken
    split
    next hannouncement =>
      rw [show m'' = m' from if_pos hannouncement]
      exact hmade.addEvent
    · split
      · exact hmade.freeEventId
      next invitees _ =>
        have hinvited : ((invitees.take 100).foldl (CalendarMgr.inviteTo e' guid) m').Sound [e'.eventId] :=
          foldl_invariant (fun m i hm => hm.inviteTo e' guid i) (invitees.take 100) hmade
        exact hinvited.addEvent

theorem Sound.handleCalendarUpdateEvent (h : m.Sound []) (eventId eventTime flags now : ℕ) :
    (m.handleCalendarUpdateEvent eventId eventTime flags now).Sound [] := by
  rw [CalendarMgr.handleCalendarUpdateEvent]
  split
  · exact h
  · split
    · exact h
    next k _ =>
      refine ⟨?_, h.invites, h.fresh⟩
      exact (map_modify_of_same (f := CalendarEvent.eventId)
        (g := fun e => { e with eventTime := eventTime, flags := flags }) (fun _ => rfl) m.events k) ▸ h.events

theorem Sound.handleCalendarCopyEvent (h : m.Sound []) (eventId eventTime now : ℕ) :
    (m.handleCalendarCopyEvent eventId eventTime now).Sound [] := by
  unfold CalendarMgr.handleCalendarCopyEvent
  split
  · exact h
  · split
    · exact h
    next oldEvent _ =>
      have htaken := h.getFreeEventId
      extract_lets id m' newEvent m''
      have hadded : m''.Sound [] := Sound.addEvent (e := newEvent) htaken
      exact foldl_invariant (fun m i hm => hm.copyInvite newEvent i) _ hadded

theorem Sound.handleCalendarEventInvite (h : m.Sound []) (guid : ℕ) (invitee : Option Invitee)
    (refused isPreInvite : Bool) (eventId : ℕ) :
    (m.handleCalendarEventInvite guid invitee refused isPreInvite eventId).Sound [] := by
  unfold CalendarMgr.handleCalendarEventInvite
  split
  · exact h
  · split
    · exact h
    · split
      · exact h
      · split
        · exact h
        next e _ =>
          split
          · exact h
          · exact h.getFreeInviteId e rfl

theorem Sound.handleCalendarEventSignup (h : m.Sound []) (guid guildId eventId : ℕ) (tentative : Bool) (now : ℕ) :
    (m.handleCalendarEventSignup guid guildId eventId tentative now).Sound [] := by
  unfold CalendarMgr.handleCalendarEventSignup
  split
  · exact h
  next e _ =>
    split
    · exact h
    · exact h.getFreeInviteId e rfl

theorem Sound.removeAllPlayerEventsAndInvites (h : m.Sound []) (guid : ℕ) :
    (m.removeAllPlayerEventsAndInvites guid).Sound [] := by
  unfold CalendarMgr.removeAllPlayerEventsAndInvites
  extract_lets own m'
  have hevents : m'.Sound [] := foldl_invariant (fun m e hm => hm.removeEvent _) own h
  exact foldl_invariant (fun m i hm => hm.removeInvite _ _) _ hevents

theorem Sound.removePlayerGuildEventsAndSignups (h : m.Sound []) (guid guildId : ℕ) :
    (m.removePlayerGuildEventsAndSignups guid guildId).Sound [] := by
  unfold CalendarMgr.removePlayerGuildEventsAndSignups
  extract_lets own m'
  have hevents : m'.Sound [] := foldl_invariant (fun m e hm => hm.removeEvent _) own h
  refine foldl_invariant (fun m i hm => ?_) _ hevents
  split
  · exact hm.removeInvite _ _
  · exact hm

theorem Sound.next (h : m.Sound []) (r : Request) : (m.next r).Sound [] := by
  cases r with
  | addEvent guid guildId r now => exact h.handleCalendarAddEvent guid guildId r now
  | updateEvent eventId eventTime flags now => exact h.handleCalendarUpdateEvent eventId eventTime flags now
  | removeEvent eventId => exact h.removeEvent eventId
  | copyEvent eventId eventTime now => exact h.handleCalendarCopyEvent eventId eventTime now
  | eventInvite guid invitee refused isPreInvite eventId =>
    exact h.handleCalendarEventInvite guid invitee refused isPreInvite eventId
  | eventSignup guid guildId eventId tentative now =>
    exact h.handleCalendarEventSignup guid guildId eventId tentative now
  | eventRsvp eventId inviteId status now =>
    rw [CalendarMgr.next, handleCalendarEventRsvp]
    split
    · exact h
    · split
      · exact h
      · exact h.modifyInvite inviteId fun _ => rfl
  | eventRemoveInvite invitee inviteId eventId =>
    rw [CalendarMgr.next, handleCalendarEventRemoveInvite]
    split
    · exact h
    · split
      · exact h
      · exact h.removeInvite inviteId eventId
  | eventStatus eventId inviteId status =>
    rw [CalendarMgr.next, handleCalendarEventStatus]
    split
    · exact h
    · exact h.modifyInvite inviteId fun _ => rfl
  | eventModeratorStatus eventId inviteId rank =>
    rw [CalendarMgr.next, handleCalendarEventModeratorStatus]
    split
    · exact h
    · exact h.modifyInvite inviteId fun _ => rfl
  | deleteCharacter guid => exact h.removeAllPlayerEventsAndInvites guid
  | leaveGuild guid guildId => exact h.removePlayerGuildEventsAndSignups guid guildId

/-- From any rows with different ids, no request gives out an id that is in use, and none would be
given out next. -/
theorem ids_of_reaches {events : List CalendarEvent} {invites : List CalendarInvite}
    (hevents : (events.map CalendarEvent.eventId).Nodup) (heventIds : ∀ e ∈ events, 1 ≤ e.eventId)
    (hinvites : (invites.map CalendarInvite.inviteId).Nodup) (hinviteIds : ∀ i ∈ invites, 1 ≤ i.inviteId)
    (h : Reaches step anyStep (Eq (LoadFromDB events invites)) m) :
    m.reused = false ∧ m.getFreeEventId.1 ∉ m.events.map CalendarEvent.eventId ∧
      m.getFreeInviteId.1 ∉ m.invites.map CalendarInvite.inviteId := by
  have hsound : m.Sound [] := by
    refine h.invariant (fun m hm => ?_) fun m r m' hm _ hstep => ?_
    · subst hm
      exact .loadFromDB hevents heventIds hinvites hinviteIds
    · obtain rfl := Option.some.inj hstep
      exact hm.next r
  exact ⟨hsound.fresh, hsound.events.take.1, hsound.invites.take.1⟩

def sampleEvents : List CalendarEvent := [⟨1, 10, 0, 500000, 0⟩, ⟨4, 11, 7, 500000, 0x400⟩]

def sampleInvites : List CalendarInvite := [⟨2, 1, 10, 10, 0, 1, 2⟩, ⟨5, 1, 12, 10, 0, 0, 0⟩]

theorem ids_of_reaches_sample : ∃ m, Reaches step anyStep (Eq (LoadFromDB sampleEvents sampleInvites)) m ∧
    m.events.map CalendarEvent.eventId = [1, 2, 3] ∧ m.invites.map CalendarInvite.inviteId = [2, 5, 3, 4] ∧
    m.reused = false := by
  obtain ⟨m, hm, htest⟩ := Reaches.exists_of_replay step anyStep
    (rfl : LoadFromDB sampleEvents sampleInvites = _)
    [.removeEvent 4, .eventInvite 10 (some ⟨13, 0⟩) false false 1, .eventRemoveInvite 13 1 1,
      .addEvent 11 7 ⟨600000, 0x40, none⟩ 0, .copyEvent 1 700000 0]
    (replayOk_anyStep ..)
    (fun m => decide (m.events.map CalendarEvent.eventId = [1, 2, 3] ∧
      m.invites.map CalendarInvite.inviteId = [2, 5, 3, 4])) (by decide +kernel)
  obtain ⟨hevents, hinvites⟩ := of_decide_eq_true htest
  exact ⟨m, hm, hevents, hinvites,
    (ids_of_reaches (by decide) (by decide) (by decide) (by decide) hm).1⟩

end CalendarMgr

end HysteriaCore.Calendar
