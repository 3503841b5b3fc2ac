import HysteriaCore.Lib.IdPool
import HysteriaCore.Lib.Runs

/-!
# The calendar

Events and invites, each with an id of its own, and the requests of the players.
-/

namespace HysteriaCore.Calendar
open Lib

def CALENDAR_FLAG_INVITES_LOCKED : ℕ := 0x010
def CALENDAR_FLAG_WITHOUT_INVITES : ℕ := 0x040
def CALENDAR_FLAG_GUILD_EVENT : ℕ := 0x400

def CALENDAR_STATUS_INVITED : ℕ := 0
def CALENDAR_STATUS_SIGNED_UP : ℕ := 6
def CALENDAR_STATUS_NOT_SIGNED_UP : ℕ := 7
def CALENDAR_STATUS_TENTATIVE : ℕ := 8
def CALENDAR_STATUS_REMOVED : ℕ := 9

def CALENDAR_RANK_PLAYER : ℕ := 0

def defaultStatusTime : ℕ := 946684800

structure CalendarInvite where
  inviteId : ℕ
  eventId : ℕ
  invitee : ℕ
  senderGUID : ℕ
  statusTime : ℕ
  status : ℕ
  rank : ℕ
deriving DecidableEq

structure CalendarEvent where
  eventId : ℕ
  creatorGUID : ℕ
  guildId : ℕ
  eventTime : ℕ
  flags : ℕ
deriving DecidableEq

namespace CalendarEvent
variable (e : CalendarEvent)

def isGuildEvent : Bool := decide (e.flags &&& CALENDAR_FLAG_GUILD_EVENT ≠ 0)
def isGuildAnnouncement : Bool := decide (e.flags &&& CALENDAR_FLAG_WITHOUT_INVITES ≠ 0)
def isLocked : Bool := decide (e.flags &&& CALENDAR_FLAG_INVITES_LOCKED ≠ 0)

end CalendarEvent

structure CalendarMgr where
  events : List CalendarEvent
  invites : List CalendarInvite
  eventIds : IdPool
  inviteIds : IdPool
  /-- an id that was in use has been given out; not data of the server -/
  reused : Bool

namespace CalendarMgr
variable (m : CalendarMgr)

def LoadFromDB (events : List CalendarEvent) (invites : List CalendarInvite) : CalendarMgr where
  events := events
  invites := invites
  eventIds := .ofIds (events.map CalendarEvent.eventId)
  inviteIds := .ofIds (invites.map CalendarInvite.inviteId)
  reused := false

def getEvent (eventId : ℕ) : Option CalendarEvent := m.events.find? fun e => decide (e.eventId = eventId)

def getInvite (inviteId : ℕ) : Option CalendarInvite := m.invites.find? fun i => decide (i.inviteId = inviteId)

def freeEventId (id : ℕ) : CalendarMgr := { m with eventIds := m.eventIds.release id }

/-- `FreeInviteId`, called by the destructor of `CalendarInvite` -/
def freeInviteId (id : ℕ) : CalendarMgr := { m with inviteIds := m.inviteIds.release id }

def getFreeEventId : ℕ × CalendarMgr :=
  (m.eventIds.take.1,
    { m with
      eventIds := m.eventIds.take.2
      reused := m.reused || decide (m.eventIds.take.1 ∈ m.events.map CalendarEvent.eventId) })

def getFreeInviteId : ℕ × CalendarMgr :=
  (m.inviteIds.take.1,
    { m with
      inviteIds := m.inviteIds.take.2
      reused := m.reused || decide (m.inviteIds.take.1 ∈ m.invites.map CalendarInvite.inviteId) })

def addEvent (e : CalendarEvent) : CalendarMgr := { m with events := m.events ++ [e] }

def addInvite (e : CalendarEvent) (invite : CalendarInvite) : CalendarMgr :=
  if e.isGuildAnnouncement then m else { m with invites := m.invites ++ [invite] }

def removeEvent (eventId : ℕ) : CalendarMgr :=
  match m.getEvent eventId with
  | none => m
  | some e =>
    let gone := m.invites.filter fun i => decide (i.eventId = eventId)
    let m := gone.foldl (fun m i => m.freeInviteId i.inviteId) m
    let m := { m with invites := m.invites.filter fun i => decide (i.eventId ≠ eventId) }
    let m := m.freeEventId e.eventId
    { m with events := m.events.eraseP fun e => decide (e.eventId = eventId) }

def removeInvite (inviteId eventId : ℕ) : CalendarMgr :=
  match m.getEvent eventId with
  | none => m
  | some _ =>
    match m.invites.find? fun i => decide (i.eventId = eventId ∧ i.inviteId = inviteId) with
    | none => m
    | some i =>
      let m := m.freeInviteId i.inviteId
      { m with invites := m.invites.eraseP fun i => decide (i.eventId = eventId ∧ i.inviteId = inviteId) }

def getPlayerInvites (guid : ℕ) : List CalendarInvite := m.invites.filter fun i => decide (i.invitee = guid)

def removeAllPlayerEventsAndInvites (guid : ℕ) : CalendarMgr :=
  let own := m.events.filter fun e => decide (e.creatorGUID = guid)
  let m := own.foldl (fun m e => m.removeEvent e.eventId) m
  (m.getPlayerInvites guid).foldl (fun m i => m.removeInvite i.inviteId i.eventId) m

def removePlayerGuildEventsAndSignups (guid guildId : ℕ) : CalendarMgr :=
  let own := m.events.filter fun e => decide (e.creatorGUID = guid) && (e.isGuildEvent || e.isGuildAnnouncement)
  let m := own.foldl (fun m e => m.removeEvent e.eventId) m
  (m.getPlayerInvites guid).foldl
    (fun m i =>
      if (m.getEvent i.eventId).any fun e => e.isGuildEvent && decide (e.guildId = guildId)
      then m.removeInvite i.inviteId i.eventId else m) m

def modifyInvite (inviteId : ℕ) (g : CalendarInvite → CalendarInvite) : CalendarMgr :=
  match m.invites.findIdx? fun i => decide (i.inviteId = inviteId) with
  | none => m
  | some k => { m with invites := m.invites.modify k g }

end CalendarMgr

/-! ### Requests -/

def inPast (eventTime now : ℕ) : Bool := decide (eventTime + 86400 < now)

/-- `CMSG_CALENDAR_ADD_EVENT`; there are no invitees when the packet ends before its list does -/
structure AddRequest where
  eventTime : ℕ
  flags : ℕ
  invitees : Option (List (ℕ × ℕ × ℕ))

/-- What the server finds out about the name in `CMSG_CALENDAR_EVENT_INVITE`. -/
structure Invitee where
  guid : ℕ
  guildId : ℕ

namespace CalendarMgr
variable (m : CalendarMgr)

def inviteTo (e : CalendarEvent) (guid : ℕ) (m : CalendarMgr) (invitee : ℕ × ℕ × ℕ) : CalendarMgr :=
  let id := m.getFreeInviteId.1
  let m := m.getFreeInviteId.2
  m.addInvite e ⟨id, e.eventId, invitee.1, guid, defaultStatusTime, invitee.2.1, invitee.2.2⟩

/-- `HandleCalendarAddEvent`, by a player of the guild `guildId` -/
def handleCalendarAddEvent (guid guildId : ℕ) (r : AddRequest) (now : ℕ) : CalendarMgr :=
  if inPast r.eventTime now then m
  else
    let eventId := m.getFreeEventId.1
    let m := m.getFreeEventId.2
    let e : CalendarEvent := ⟨eventId, guid, 0, r.eventTime, r.flags⟩
    let e := if e.isGuildEvent || e.isGuildAnnouncement then { e with guildId := guildId } else e
    if e.isGuildAnnouncement then
      let m := m.addInvite e
        ⟨0, e.eventId, 0, guid, defaultStatusTime, CALENDAR_STATUS_NOT_SIGNED_UP, CALENDAR_RANK_PLAYER⟩
      m.addEvent e
    else
      match r.invitees with
      | none => m.freeEventId e.eventId
      | some invitees =>
        let m := (invitees.take 100).foldl (inviteTo e guid) m
        m.addEvent e

def handleCalendarUpdateEvent (eventId eventTime flags now : ℕ) : CalendarMgr :=
  if inPast eventTime now then m
  else
    match m.events.findIdx? fun e => decide (e.eventId = eventId) with
    | none => m
    | some k => { m with events := m.events.modify k fun e => { e with eventTime := eventTime, flags := flags } }

def handleCalendarRemoveEvent (eventId : ℕ) : CalendarMgr := m.removeEvent eventId

def copyInvite (e : CalendarEvent) (m : CalendarMgr) (invite : CalendarInvite) : CalendarMgr :=
  let id := m.getFreeInviteId.1
  let m := m.getFreeInviteId.2
  m.addInvite e { invite with inviteId := id, eventId := e.eventId }

def handleCalendarCopyEvent (eventId eventTime now : ℕ) : CalendarMgr :=
  if inPast eventTime now then m
  else
    match m.getEvent eventId with
    | none => m
    | some oldEvent =>
      let id := m.getFreeEventId.1
      let m := m.getFreeEventId.2
      let newEvent := { oldEvent with eventId := id, eventTime := eventTime }
      let m := m.addEvent newEvent
      (m.invites.filter fun i => decide (i.eventId = eventId)).foldl (copyInvite newEvent) m

/-- `HandleCalendarEventInvite`; `refused` stands for the checks of team and ignore list. An invite for
an event that is still being made is only shown. -/
def handleCalendarEventInvite (guid : ℕ) (invitee : Option Invitee) (refused isPreInvite : Bool)
    (eventId : ℕ) : CalendarMgr :=
  match invitee with
  | none => m
  | some invitee =>
    if refused then m
    else if isPreInvite then m
    else
      match m.getEvent eventId with
      | none => m
      | some e =>
        if e.isGuildEvent = true ∧ e.guildId = invitee.guildId then m
        else
          let id := m.getFreeInviteId.1
          let m := m.getFreeInviteId.2
          m.addInvite e
            ⟨id, eventId, invitee.guid, guid, defaultStatusTime, CALENDAR_STATUS_INVITED, CALENDAR_RANK_PLAYER⟩

def handleCalendarEventSignup (guid guildId eventId : ℕ) (tentative : Bool) (now : ℕ) : CalendarMgr :=
  match m.getEvent eventId with
  | none => m
  | some e =>
    if e.isGuildEvent = true ∧ e.guildId ≠ guildId then m
    else
      let id := m.getFreeInviteId.1
      let m := m.getFreeInviteId.2
      m.addInvite e
        ⟨id, eventId, guid, guid, now, if tentative then CALENDAR_STATUS_TENTATIVE else CALENDAR_STATUS_SIGNED_UP,
          CALENDAR_RANK_PLAYER⟩

def handleCalendarEventRsvp (eventId inviteId status now : ℕ) : CalendarMgr :=
  match m.getEvent eventId with
  | none => m
  | some e =>
    if status ≠ CALENDAR_STATUS_REMOVED ∧ e.isLocked = true then m
    else m.modifyInvite inviteId fun i => { i with status := status, statusTime := now }

def handleCalendarEventRemoveInvite (invitee inviteId eventId : ℕ) : CalendarMgr :=
  match m.getEvent eventId with
  | none => m
  | some e => if e.creatorGUID = invitee then m else m.removeInvite inviteId eventId

def handleCalendarEventStatus (eventId inviteId status : ℕ) : CalendarMgr :=
  match m.getEvent eventId with
  | none => m
  | some _ => m.modifyInvite inviteId fun i => { i with status := status }

def handleCalendarEventModeratorStatus (eventId inviteId rank : ℕ) : CalendarMgr :=
  match m.getEvent eventId with
  | none => m
  | some _ => m.modifyInvite inviteId fun i => { i with rank := rank }

end CalendarMgr

inductive Request where
  | addEvent (guid guildId : ℕ) (r : AddRequest) (now : ℕ)
  | updateEvent (eventId eventTime flags now : ℕ)
  | removeEvent (eventId : ℕ)
  | copyEvent (eventId eventTime now : ℕ)
  | eventInvite (guid : ℕ) (invitee : Option Invitee) (refused isPreInvite : Bool) (eventId : ℕ)
  | eventSignup (guid guildId eventId : ℕ) (tentative : Bool) (now : ℕ)
  | eventRsvp (eventId inviteId status now : ℕ)
  | eventRemoveInvite (invitee inviteId eventId : ℕ)
  | eventStatus (eventId inviteId status : ℕ)
  | eventModeratorStatus (eventId inviteId rank : ℕ)
  | deleteCharacter (guid : ℕ)
  | leaveGuild (guid guildId : ℕ)

def CalendarMgr.next (m : CalendarMgr) : Request → CalendarMgr
  | .addEvent guid guildId r now => m.handleCalendarAddEvent guid guildId r now
  | .updateEvent eventId eventTime flags now => m.handleCalendarUpdateEvent eventId eventTime flags now
  | .removeEvent eventId => m.handleCalendarRemoveEvent eventId
  | .copyEvent eventId eventTime now => m.handleCalendarCopyEvent eventId eventTime now
  | .eventInvite guid invitee refused isPreInvite eventId =>
    m.handleCalendarEventInvite guid invitee refused isPreInvite eventId
  | .eventSignup guid guildId eventId tentative now => m.handleCalendarEventSignup guid guildId eventId tentative now
  | .eventRsvp eventId inviteId status now => m.handleCalendarEventRsvp eventId inviteId status now
  | .eventRemoveInvite invitee inviteId eventId => m.handleCalendarEventRemoveInvite invitee inviteId eventId
  | .eventStatus eventId inviteId status => m.handleCalendarEventStatus eventId inviteId status
  | .eventModeratorStatus eventId inviteId rank => m.handleCalendarEventModeratorStatus eventId inviteId rank
  | .deleteCharacter guid => m.removeAllPlayerEventsAndInvites guid
  | .leaveGuild guid guildId => m.removePlayerGuildEventsAndSignups guid guildId

def step (m : CalendarMgr) (r : Request) : Option CalendarMgr := some (m.next r)

end HysteriaCore.Calendar
