import HysteriaCore.Calendar.CalendarMgr
import HysteriaCore.Lib.Counting

/-!
# The guards of locked events and of their creators

A request names an event, for the guard, and an invite, for the change. The two need not belong
together.
-/

namespace HysteriaCore.Calendar
open Lib

namespace CalendarMgr
variable (m : CalendarMgr)

def isLocked (i : CalendarInvite) : Bool := m.events.any fun e => decide (e.eventId = i.eventId) && e.isLocked

def isCreators (i : CalendarInvite) : Bool :=
  m.events.any fun e => decide (e.eventId = i.eventId) && decide (e.creatorGUID = i.invitee)

/-- An answer leaves the invites of locked events as they are, unless it is a removal of oneself; a removal
leaves the invites of creators there. -/
def Guarded : Request → Prop
  | .eventRsvp eventId inviteId status now => status ≠ CALENDAR_STATUS_REMOVED →
      (m.handleCalendarEventRsvp eventId inviteId status now).invites.filter m.isLocked = m.invites.filter m.isLocked
  | .eventRemoveInvite invitee inviteId eventId =>
      (m.handleCalendarEventRemoveInvite invitee inviteId eventId).invites.filter m.isCreators =
        m.invites.filter m.isCreators
  | _ => True

def NamesTheirs : Request → Prop
  | .eventRsvp eventId inviteId status now => ∀ e ∈ m.getEvent eventId,
      status ≠ CALENDAR_STATUS_REMOVED → e.isLocked = false →
        ∀ i ∈ m.getInvite inviteId, m.isLocked i = true → i.status = status ∧ i.statusTime = now
  | .eventRemoveInvite invitee inviteId eventId => ∀ e ∈ m.getEvent eventId, e.creatorGUID ≠ invitee →
      ∀ i ∈ m.invites.find? fun i => decide (i.eventId = eventId ∧ i.inviteId = inviteId), m.isCreators i = false
  | _ => True

instance : ∀ r, Decidable (m.Guarded r)
  | .eventRsvp .. => inferInstanceAs (Decidable (_ → _))
  | .eventRemoveInvite .. => inferInstanceAs (Decidable (_ = _))
  | .addEvent .. => isTrue trivial
  | .updateEvent .. => isTrue trivial
  | .removeEvent .. => isTrue trivial
  | .copyEvent .. => isTrue trivial
  | .eventInvite .. => isTrue trivial
  | .eventSignup .. => isTrue trivial
  | .eventStatus .. => isTrue trivial
  | .eventModeratorStatus .. => isTrue trivial
  | .deleteCharacter .. => isTrue trivial
  | .leaveGuild .. => isTrue trivial

end CalendarMgr

/-! ### One entry of a list -/

section Lists
variable {α : Type} {p q : α → Bool}

variable {l : List α}

theorem find?_of_findIdx? {k : ℕ} (h : l.findIdx? p = some k) : ∃ a, l[k]? = some a ∧ l.find? p = some a := by
  induction l generalizing k with
  | nil => cases h
  | cons b l ih =>
    rw [List.findIdx?_cons] at h
    rw [List.find?_cons]
    cases hb : p b with
    | true =>
      rw [hb, if_pos rfl] at h
      obtain rfl := Option.some.inj h
      exact ⟨b, rfl, rfl⟩
    | false =>
      rw [hb, if_neg Bool.false_ne_true] at h
      obtain ⟨k', hk', rfl⟩ := Option.map_eq_some_iff.mp h
      exact ih hk'

theorem find?_of_findIdx?_none (h : l.findIdx? p = none) : l.find? p = none := by
  rw [List.find?_eq_none]
  exact fun a ha => by simpa using List.findIdx?_eq_none_iff.mp h a ha

theorem filter_modify_iff {g : α → α} {k : ℕ} {a : α} (ha : l[k]? = some a) (hg : q (g a) = q a) :
    (l.modify k g).filter q = l.filter q ↔ (q a = true → g a = a) := by
  induction l generalizing k with
  | nil => cases ha
  | cons b l ih =>
    cases k with
    | zero =>
      obtain rfl : b = a := Option.some.inj ha
      rw [List.modify_zero_cons, List.filter_cons, List.filter_cons, hg]
      cases q b with
      | true => simp
      | false => simp
    | succ k =>
      rw [List.modify_succ_cons, List.filter_cons, List.filter_cons]
      split
      · rw [List.cons_inj_right]
        exact ih ha
      · exact ih ha

theorem filter_eraseP_iff {a : α} (ha : l.find? p = some a) : (l.eraseP p).filter q = l.filter q ↔ q a = false := by
  induction l with
  | nil => cases ha
  | cons b l ih =>
    rw [List.find?_cons] at ha
    rw [List.eraseP_cons]
    cases hb : p b with
    | true =>
      rw [hb] at ha
      obtain rfl : b = a := Option.some.inj ha
      rw [cond_true, List.filter_cons]
      cases q b with
      | true =>
        refine iff_of_false (fun heq => ?_) (by decide)
        have hlen := congrArg List.length heq
        rw [if_pos rfl, List.length_cons] at hlen
        omega
      | false => exact iff_of_true rfl rfl
    | false =>
      rw [hb] at ha
      rw [cond_false, List.filter_cons, List.filter_cons]
      split
      · rw [List.cons_inj_right]
        exact ih ha
      · exact ih ha

end Lists

/-! ### Requests -/

namespace CalendarMgr
variable {m : CalendarMgr}

theorem rsvp_guarded_iff (eventId inviteId status now : ℕ) :
    m.Guarded (.eventRsvp eventId inviteId status now) ↔ m.NamesTheirs (.eventRsvp eventId inviteId status now) := by
  rw [Guarded, NamesTheirs, handleCalendarEventRsvp]
  cases hevent : m.getEvent eventId with
  | none => exact iff_of_true (fun _ => rfl) fun e he => by cases he
  | some e =>
    simp only [Option.mem_some_iff, forall_eq']
    refine imp_congr_right fun hstatus => ?_
    cases hlocked : e.isLocked with
    | true =>
      rw [if_pos ⟨hstatus, rfl⟩]
      exact iff_of_true rfl fun hno => by cases hno
    | false =>
      rw [if_neg (by simp), modifyInvite, getInvite]
      cases hidx : m.invites.findIdx? fun i => decide (i.inviteId = inviteId) with
      | none =>
        rw [find?_of_findIdx?_none hidx]
        exact iff_of_true rfl fun _ i hi => by cases hi
      | some k =>
        obtain ⟨i, hi, hfind⟩ := find?_of_findIdx? hidx
        rw [hfind]
        simp only [Option.mem_some_iff, forall_eq', forall_true_left]
        have hsame : m.isLocked { i with status := status, statusTime := now } = m.isLocked i := rfl
        rw [filter_modify_iff hi hsame]
        refine imp_congr_right fun _ => ?_
        constructor
        · intro heq
          rw [← heq]
          exact ⟨rfl, rfl⟩
        · rintro ⟨rfl, rfl⟩
          rfl

theorem removeInvite_guarded_iff (invitee inviteId eventId : ℕ) :
    m.Guarded (.eventRemoveInvite invitee inviteId eventId) ↔
      m.NamesTheirs (.eventRemoveInvite invitee inviteId eventId) := by
  rw [Guarded, NamesTheirs, handleCalendarEventRemoveInvite]
  cases hevent : m.getEvent eventId with
  | none => exact iff_of_true rfl fun e he => by cases he
  | some e =>
    simp only [Option.mem_some_iff, forall_eq']
    by_cases hcreator : e.creatorGUID = invitee
    · rw [if_pos hcreator]
      exact iff_of_true rfl fun hne => absurd hcreator hne
    · rw [if_neg hcreator, removeInvite, hevent]
      dsimp only
      cases hfind : m.invites.find? fun i => decide (i.eventId = eventId ∧ i.inviteId = inviteId) with
      | none => exact iff_of_true rfl fun _ i hi => by cases hi
      | some i =>
        simp only [Option.mem_some_iff, forall_eq', hcreator, ne_eq, not_false_iff, forall_true_left]
        exact filter_eraseP_iff hfind

theorem guarded_iff (m : CalendarMgr) (r : Request) : m.Guarded r ↔ m.NamesTheirs r := by
  cases r with
  | eventRsvp eventId inviteId status now => exact rsvp_guarded_iff eventId inviteId status now
  | eventRemoveInvite invitee inviteId eventId => exact removeInvite_guarded_iff invitee inviteId eventId
  | _ => exact Iff.rfl

/-- From every state, a sequence of requests respects the locks and the creators if and only if each of
them names an invite that belongs under the guard it has passed. -/
theorem guarded_throughout_iff (m : CalendarMgr) (rs : List Request) :
    along next Guarded rs m ↔ along next NamesTheirs rs m := along_congr guarded_iff rs m

def sampleGuarded : CalendarMgr :=
  LoadFromDB [⟨1, 10, 0, 500000, 0⟩, ⟨2, 20, 0, 500000, 0x010⟩]
    [⟨1, 1, 10, 10, 0, 1, 2⟩, ⟨2, 1, 30, 10, 0, 0, 0⟩, ⟨3, 2, 20, 20, 0, 1, 2⟩, ⟨4, 2, 30, 20, 0, 0, 0⟩]

/-- An answer to event 1 accepts the invite to event 2; a removal of player 30 from event 1 removes
its creator. -/
theorem guards_bypassed : ¬along next Guarded [.eventRsvp 1 4 1 400000] sampleGuarded ∧
    ¬along next Guarded [.eventRemoveInvite 30 1 1] sampleGuarded ∧
    (sampleGuarded.handleCalendarEventRsvp 1 4 1 400000).getInvite 4 = some ⟨4, 2, 30, 20, 400000, 1, 0⟩ ∧
    (sampleGuarded.handleCalendarEventRemoveInvite 30 1 1).getInvite 1 = none := by decide

end CalendarMgr

end HysteriaCore.Calendar
