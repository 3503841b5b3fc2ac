import HysteriaCore.Utilities.EventProcessor

/-!
# Runs of the event processor

What holds of the executions and deletions after any sequence of calls.
-/

namespace HysteriaCore.Utilities
open Lib

namespace EventProcessor

def deletedEvents (s : EventProcessor) : List ℕ := s.deleted.map Prod.fst

/-- What the processor is for: every event is executed in time and deleted once. -/
structure Conserved (s : EventProcessor) : Prop where
  once : (s.executed.map (·.entry.node)).Nodup
  due : ∀ x ∈ s.executed, x.execTime ≤ x.time
  unmarked : ∀ x ∈ s.executed, x.toAbort = false
  ordered : (s.executed.map Execution.execTime).Pairwise (· ≤ ·)
  deletedOnce : s.deletedEvents.Nodup
  reasons : ∀ event, (event, Reason.aborted false) ∉ s.deleted
  kept : ∀ event ∈ s.added, event ∈ s.deletedEvents ∨ event ∈ s.entries.map Entry.event ∨
    s.control.current = some event

/-- The steps that keep this: the clock does not wrap, an aborted event that `Update` deletes is
deletable, and an event that is added by an `Abort` of `KillAllEvents(true)` goes behind the
iterator. -/
def Heeded (s : EventProcessor) : Action → Prop
  | .update pTime => s.time + pTime < 2 ^ 64
  | .back _ => ∀ event ∈ s.control.aborted, s.deletable event = true
  | .addEvent _ eTime _ => s.control.forced = true → ∃ next ∈ s.ahead.head?, next.time ≤ eTime
  | _ => True

instance (s : EventProcessor) : ∀ a, Decidable (s.Heeded a)
  | .update pTime => inferInstanceAs (Decidable (s.time + pTime < 2 ^ 64))
  | .back _ => inferInstanceAs (Decidable (∀ event ∈ s.control.aborted, _))
  | .addEvent _ _ _ => inferInstanceAs (Decidable (_ → ∃ next ∈ s.ahead.head?, _))
  | .markAbort _ | .setDeletable _ _ | .killAllEvents _ | .turn => isTrue trivial

/-! ### Times and executions -/

structure Timely (s : EventProcessor) : Prop where
  sorted : s.entries.Pairwise (·.time ≤ ·.time)
  nodes : (s.executed.map (·.entry.node) ++ s.entries.map Entry.node).Nodup
  fresh : ∀ n ∈ s.executed.map (·.entry.node) ++ s.entries.map Entry.node, n < s.inserted
  execTime : ∀ e ∈ s.entries, (s.events e.event).execTime = e.time
  past : ∀ x ∈ s.executed, x.execTime ≤ s.time
  behind : ∀ x ∈ s.executed, ∀ e ∈ s.entries, x.execTime ≤ e.time
  due : ∀ x ∈ s.executed, x.execTime ≤ x.time
  unmarked : ∀ x ∈ s.executed, x.toAbort = false
  ordered : (s.executed.map Execution.execTime).Pairwise (· ≤ ·)

theorem Timely.shrink {s s' : EventProcessor} (h : Timely s)
    (hentries : s'.entries.Sublist s.entries) (hexecuted : s'.executed = s.executed)
    (htime : s.time ≤ s'.time) (hinserted : s'.inserted = s.inserted)
    (hexecTime : ∀ event, (s'.events event).execTime = (s.events event).execTime) : Timely s' where
  sorted := h.sorted.sublist hentries
  nodes := by
    rw [hexecuted]
    exact h.nodes.sublist ((hentries.map Entry.node).append_left _)
  fresh := by
    rw [hexecuted, hinserted]
    exact fun n hn => h.fresh n (((hentries.map Entry.node).append_left _).subset hn)
  execTime := fun e he => (hexecTime e.event).trans (h.execTime e (hentries.subset he))
  past := by
    rw [hexecuted]
    exact fun x hx => (h.past x hx).trans htime
  behind := by
    rw [hexecuted]
    exact fun x hx e he => h.behind x hx e (hentries.subset he)
  due := hexecuted ▸ h.due
  unmarked := hexecuted ▸ h.unmarked
  ordered := hexecuted ▸ h.ordered

theorem Timely.execute {s s' : EventProcessor} (h : Timely s) {e : Entry}
    (hentries : s.entries = e :: s'.entries) (hdue : e.time ≤ s.time)
    (hmark : (s.events e.event).toAbort = false)
    (hexecuted : s'.executed =
      s.executed ++ [⟨e, (s.events e.event).execTime, s.time, (s.events e.event).toAbort⟩])
    (htime : s'.time = s.time) (hinserted : s'.inserted = s.inserted)
    (hevents : s'.events = s.events) : Timely s' := by
  have hexec := h.execTime e (hentries ▸ List.mem_cons_self)
  have hsub : s'.entries.Sublist s.entries := hentries ▸ List.sublist_cons_self e _
  have hsorted := h.sorted
  rw [hentries, List.pairwise_cons] at hsorted
  have hperm : (s'.executed.map (·.entry.node) ++ s'.entries.map Entry.node).Perm
      (s.executed.map (·.entry.node) ++ s.entries.map Entry.node) := by
    rw [hexecuted, hentries, List.map_append, List.append_assoc]
    exact .refl _
  rw [hexec, hmark] at hexecuted
  refine ⟨hsorted.2, hperm.nodup_iff.mpr h.nodes, ?_, ?_, ?_, ?_, ?_, ?_, ?_⟩
  · intro n hn
    rw [hinserted]
    exact h.fresh n (hperm.mem_iff.mp hn)
  · intro e' he'
    rw [hevents]
    exact h.execTime e' (hsub.subset he')
  · rw [hexecuted, htime, List.forall_mem_append]
    exact ⟨h.past, by simpa using hdue⟩
  · rw [hexecuted, List.forall_mem_append]
    exact ⟨fun x hx e' he' => h.behind x hx e' (hsub.subset he'), by simpa using hsorted.1⟩
  · rw [hexecuted, List.forall_mem_append]
    exact ⟨h.due, by simpa using hdue⟩
  · rw [hexecuted, List.forall_mem_append]
    exact ⟨h.unmarked, by simp⟩
  · rw [hexecuted, List.map_append, List.pairwise_append]
    refine ⟨h.ordered, List.pairwise_singleton _ _, fun a ha b hb => ?_⟩
    obtain ⟨x, hx, rfl⟩ := List.mem_map.mp ha
    rw [List.map_cons, List.map_nil, List.mem_singleton] at hb
    rw [hb]
    exact h.behind x hx e (hentries ▸ List.mem_cons_self)

theorem insert_entries (s : EventProcessor) (e : Entry)
    (hsorted : s.entries.Pairwise (·.time ≤ ·.time)) (houtside : s.control.outside = true)
    (hpassed : s.control.walks = false → s.passed = []) :
    (s.insert e).entries = insertEntry e s.entries := by
  have hplain : s.passed = [] →
      s.passed ++ insertEntry e s.ahead = insertEntry e (s.passed ++ s.ahead) := by
    intro hnil
    rw [hnil]
    rfl
  unfold insert
  split
  · rename_i hnil
    simp only [entries, hnil, List.append_nil]
  · rename_i next rest _ hahead
    split
    · rename_i hlt
      rw [entries, entries, hahead]
      exact (insertEntry_append_of_lt hlt _ _).symm
    · rename_i hle
      refine (insertEntry_append_of_le (fun x hx => ?_) _).symm
      have hmem : next ∈ s.ahead := hahead ▸ List.mem_cons_self
      exact ((List.pairwise_append.mp hsorted).2.2 x hx next hmem).trans (Nat.le_of_not_lt hle)
  · rename_i hcontrol hother
    refine hplain (hpassed ?_)
    cases hc : s.control with
    | killing force =>
      rw [hc] at houtside
      cases houtside
    | killAborting force old =>
      cases hahead : s.ahead with
      | nil => exact absurd hahead (hcontrol force old hc)
      | cons next rest => exact absurd hahead (hother force old next rest hc)
    | idle | updating _ | executing _ _ | aborting _ _ => rfl

structure Parts (s : EventProcessor) (e : Entry) (passed ahead : List Entry) : Prop where
  eq : s.insert e = { s with passed := passed, ahead := ahead }
  perm : (passed ++ ahead).Perm (e :: s.entries)
  mem_passed : ∀ x ∈ passed, x = e ∨ x ∈ s.passed
  mem_ahead : ∀ x ∈ ahead, x = e ∨ x ∈ s.ahead
  idle : s.control.walks = false → passed = s.passed
  kept : ∀ x ∈ s.passed, x ∈ passed
  forced : s.control.forced = true → (∃ next ∈ s.ahead.head?, next.time ≤ e.time) →
    passed = s.passed

theorem insert_parts (s : EventProcessor) (e : Entry) : ∃ passed ahead, Parts s e passed ahead := by
  have hmem : ∀ l : List Entry, ∀ x ∈ insertEntry e l, x = e ∨ x ∈ l := fun l x hx =>
    List.mem_cons.mp ((insertEntry_perm e l).mem_iff.mp hx)
  have hkeep : ∀ l : List Entry, ∀ x ∈ l, x ∈ insertEntry e l := fun l x hx =>
    (insertEntry_perm e l).mem_iff.mpr (List.mem_cons_of_mem e hx)
  have hpassed : s.insert e = { s with passed := insertEntry e s.passed } ∧
        (∃ force old, s.control = .killAborting force old) ∧
        (¬∃ next ∈ s.ahead.head?, next.time ≤ e.time) ∨
      s.insert e = { s with ahead := insertEntry e s.ahead } := by
    unfold insert
    split
    · rename_i force old hcontrol hnil
      refine .inl ⟨rfl, ⟨force, old, hcontrol⟩, ?_⟩
      rintro ⟨next, hnext, -⟩
      rw [hnil] at hnext
      cases hnext
    · rename_i force old next rest hcontrol hahead
      split
      · rename_i hlt
        refine .inl ⟨rfl, ⟨force, old, hcontrol⟩, ?_⟩
        rintro ⟨next', hnext, hle⟩
        rw [hahead, List.head?_cons, Option.mem_some_iff] at hnext
        subst hnext
        omega
      · exact .inr rfl
    · exact .inr rfl
  rcases hpassed with ⟨heq, ⟨force, old, hcontrol⟩, hlate⟩ | heq
  · refine ⟨_, _, heq, (insertEntry_perm e _).append_right _, hmem _, fun x hx => .inr hx,
      fun hwalks => ?_, hkeep _, fun _ hnext => ?_⟩
    · rw [hcontrol] at hwalks
      cases hwalks
    · exact absurd hnext hlate
  · exact ⟨_, _, heq, ((insertEntry_perm e _).append_left _).trans List.perm_middle,
      fun x hx => .inr hx, hmem _, fun _ => rfl, fun x hx => hx, fun _ _ => rfl⟩

theorem addEvent_frame (s : EventProcessor) (event eTime : ℕ) (setAddtime : Bool) :
    (s.addEvent event eTime setAddtime).executed = s.executed ∧
      (s.addEvent event eTime setAddtime).time = s.time ∧
      (s.addEvent event eTime setAddtime).inserted = s.inserted + 1 ∧
      (s.addEvent event eTime setAddtime).events = Function.update s.events event
        { s.events event with
          addTime := if setAddtime then s.time else (s.events event).addTime, execTime := eTime } := by
  obtain ⟨passed, ahead, hparts⟩ := insert_parts
    { s with
      events := Function.update s.events event
        { s.events event with
          addTime := if setAddtime then s.time else (s.events event).addTime, execTime := eTime }
      added := s.added ++ [event]
      inserted := s.inserted + 1 }
    ⟨eTime, event, s.inserted⟩
  have heq : s.addEvent event eTime setAddtime = _ := hparts.eq
  rw [heq]
  exact ⟨rfl, rfl, rfl, rfl⟩

theorem Timely.add {s : EventProcessor} (h : Timely s) {event eTime : ℕ} (setAddtime : Bool)
    (houtside : s.control.outside = true) (hpassed : s.control.walks = false → s.passed = [])
    (htime : s.time ≤ eTime) (hnew : event ∉ s.entries.map Entry.event) :
    Timely (s.addEvent event eTime setAddtime) := by
  have hentries : (s.addEvent event eTime setAddtime).entries =
      insertEntry ⟨eTime, event, s.inserted⟩ s.entries :=
    insert_entries _ _ h.sorted houtside hpassed
  have hperm := insertEntry_perm ⟨eTime, event, s.inserted⟩ s.entries
  have hmem : ∀ x ∈ insertEntry ⟨eTime, event, s.inserted⟩ s.entries,
      x = ⟨eTime, event, s.inserted⟩ ∨ x ∈ s.entries :=
    fun x hx => List.mem_cons.mp (hperm.mem_iff.mp hx)
  obtain ⟨hexecuted, hclock, hinserted, hevents⟩ := addEvent_frame s event eTime setAddtime
  have hnodes : (s.executed.map (·.entry.node) ++
      (insertEntry ⟨eTime, event, s.inserted⟩ s.entries).map Entry.node).Perm
        (s.inserted :: (s.executed.map (·.entry.node) ++ s.entries.map Entry.node)) :=
    ((hperm.map Entry.node).append_left _).trans List.perm_middle
  refine ⟨?_, ?_, ?_, ?_, ?_, ?_, hexecuted ▸ h.due, hexecuted ▸ h.unmarked, hexecuted ▸ h.ordered⟩
  · rw [hentries]
    exact insertEntry_sorted _ h.sorted
  · rw [hexecuted, hentries, hnodes.nodup_iff, List.nodup_cons]
    exact ⟨fun hold => (h.fresh _ hold).false, h.nodes⟩
  · rw [hexecuted, hentries, hinserted]
    intro n hn
    rcases List.mem_cons.mp (hnodes.mem_iff.mp hn) with rfl | hn
    · exact Nat.lt_succ_self _
    · exact (h.fresh n hn).trans (Nat.lt_succ_self _)
  · rw [hentries]
    intro x hx
    rcases hmem x hx with rfl | hx
    · rw [hevents, Function.update_self]
    · have hne : x.event ≠ event := fun heq => hnew (heq ▸ List.mem_map_of_mem hx)
      rw [hevents, Function.update_of_ne hne]
      exact h.execTime x hx
  · rw [hexecuted, hclock]
    exact h.past
  · rw [hexecuted, hentries]
    intro x hx y hy
    rcases hmem y hy with rfl | hy
    · exact (h.past x hx).trans htime
    · exact h.behind x hx y hy

/-! ### Who owns an event -/

def Held (s : EventProcessor) : Prop :=
  match s.control with
  | .idle | .updating _ => s.passed = []
  | .executing _ event => s.passed = [] ∧ event ∈ s.added ∧ event ∉ s.deletedEvents
  | .aborting _ event =>
    s.passed = [] ∧ event ∈ s.added ∧ event ∉ s.deletedEvents ∧ event ∉ s.entries.map Entry.event
  | .killing force => ∀ e ∈ s.passed, e.event ∈ s.deletedEvents ↔ force = true
  | .killAborting force old =>
    old ∈ s.passed ∧ old.event ∉ s.deletedEvents ∧
      ∀ e ∈ s.passed, e ≠ old → (e.event ∈ s.deletedEvents ↔ force = true)

structure Owned (s : EventProcessor) : Prop where
  distinct : (s.entries.map Entry.event).Nodup
  added : ∀ e ∈ s.entries, e.event ∈ s.added
  gone : ∀ event ∈ s.deletedEvents, event ∈ s.added
  deletedOnce : s.deletedEvents.Nodup
  reasons : ∀ event, (event, Reason.aborted false) ∉ s.deleted
  alive : ∀ e ∈ s.ahead, e.event ∉ s.deletedEvents
  kept : ∀ event ∈ s.added, event ∈ s.deletedEvents ∨ event ∈ s.entries.map Entry.event ∨
    s.control.current = some event
  held : s.Held

theorem Owned.passed_nil {s : EventProcessor} (h : Owned s) (hwalks : s.control.walks = false) :
    s.passed = [] := by
  have hheld := h.held
  unfold Held at hheld
  cases hc : s.control with
  | killing _ | killAborting _ _ =>
    rw [hc] at hwalks
    cases hwalks
  | idle | updating _ =>
    rw [hc] at hheld
    exact hheld
  | executing _ _ | aborting _ _ =>
    rw [hc] at hheld
    exact hheld.1

theorem Owned.entry_inj {s : EventProcessor} (h : Owned s) {e e' : Entry} (he : e ∈ s.entries)
    (he' : e' ∈ s.entries) (heq : e.event = e'.event) : e = e' :=
  List.inj_on_of_nodup_map h.distinct he he' heq

theorem Owned.entry_new {s : EventProcessor} (h : Owned s) {event : ℕ}
    (hnew : event ∉ s.added ∨ s.control.executed = some event ∧ event ∉ s.entries.map Entry.event) :
    event ∉ s.entries.map Entry.event := by
  rcases hnew with hnew | hagain
  · intro hmem
    obtain ⟨e, he, rfl⟩ := List.mem_map.mp hmem
    exact hnew (h.added e he)
  · exact hagain.2

theorem Owned.add {s : EventProcessor} (h : Owned s) {event eTime : ℕ} (setAddtime : Bool)
    (houtside : s.control.outside = true)
    (hnew : event ∉ s.added ∨ s.control.executed = some event ∧ event ∉ s.entries.map Entry.event)
    (hforced : s.control.forced = true → ∃ next ∈ s.ahead.head?, next.time ≤ eTime) :
    Owned (s.addEvent event eTime setAddtime) := by
  have hentry := h.entry_new hnew
  have halive : event ∉ s.deletedEvents := by
    rcases hnew with hnew | ⟨hexecuted, -⟩
    · exact fun hgone => hnew (h.gone event hgone)
    · have hheld := h.held
      unfold Held at hheld
      cases hc : s.control with
      | executing pTime current =>
        rw [hc] at hheld hexecuted
        obtain rfl := Option.some.inj hexecuted
        exact hheld.2.2
      | idle | updating _ | aborting _ _ | killing _ | killAborting _ _ =>
        rw [hc] at hexecuted
        cases hexecuted
  obtain ⟨passed, ahead, hparts⟩ := insert_parts
    { s with
      events := Function.update s.events event
        { s.events event with
          addTime := if setAddtime then s.time else (s.events event).addTime, execTime := eTime }
      added := s.added ++ [event]
      inserted := s.inserted + 1 }
    ⟨eTime, event, s.inserted⟩
  have heq : s.addEvent event eTime setAddtime = _ := hparts.eq
  rw [heq]
  have hmem : ∀ x ∈ passed ++ ahead, x = ⟨eTime, event, s.inserted⟩ ∨ x ∈ s.entries :=
    fun x hx => List.mem_cons.mp (hparts.perm.mem_iff.mp hx)
  refine ⟨?_, fun x hx => ?_, fun ev hev => ?_, h.deletedOnce, h.reasons, fun x hx => ?_,
    fun ev hev => ?_, ?_⟩
  · refine (hparts.perm.map Entry.event).nodup_iff.mpr (List.nodup_cons.mpr ⟨hentry, h.distinct⟩)
  · rcases hmem x hx with rfl | hx
    · exact List.mem_append_right _ (List.mem_singleton.mpr rfl)
    · exact List.mem_append_left _ (h.added x hx)
  · exact List.mem_append_left _ (h.gone ev hev)
  · rcases hparts.mem_ahead x hx with rfl | hx
    · exact halive
    · exact h.alive x hx
  · have hback : ∀ x ∈ s.entries, x ∈ passed ++ ahead := fun x hx =>
      hparts.perm.mem_iff.mpr (List.mem_cons_of_mem _ hx)
    rcases List.mem_append.mp hev with hev | hev
    · rcases h.kept ev hev with hgone | hin | hcurrent
      · exact .inl hgone
      · obtain ⟨x, hx, rfl⟩ := List.mem_map.mp hin
        exact .inr (.inl (List.mem_map_of_mem (hback x hx)))
      · exact .inr (.inr hcurrent)
    · rw [List.mem_singleton.mp hev]
      exact .inr (.inl (List.mem_map.mpr ⟨_, hparts.perm.mem_iff.mpr List.mem_cons_self, rfl⟩))
  · have hheld := h.held
    have hpassed : s.control.walks = false → passed = [] := fun hwalks =>
      (hparts.idle hwalks).trans (h.passed_nil hwalks)
    have hforced := fun hf => hparts.forced hf (hforced hf)
    unfold Held at hheld ⊢
    dsimp only
    cases hc : s.control with
    | idle => exact hpassed (by rw [hc]; rfl)
    | updating _ | killing _ =>
      rw [hc] at houtside
      cases houtside
    | executing pTime current =>
      rw [hc] at hheld
      exact ⟨hpassed (by rw [hc]; rfl), List.mem_append_left _ hheld.2.1, hheld.2.2⟩
    | aborting pTime current =>
      rw [hc] at hheld
      obtain ⟨-, hadded, hgone, hout⟩ := hheld
      refine ⟨hpassed (by rw [hc]; rfl), List.mem_append_left _ hadded, hgone, fun hin => ?_⟩
      obtain ⟨x, hx, heq⟩ := List.mem_map.mp hin
      rcases hmem x hx with rfl | hx
      · rcases hnew with hnew | hagain
        · have hsame : event = current := heq
          exact hnew (hsame ▸ hadded)
        · rw [hc] at hagain
          cases hagain.1
      · exact hout (heq ▸ List.mem_map_of_mem hx)
    | killAborting force old =>
      rw [hc] at hheld
      obtain ⟨hold, hgone, hothers⟩ := hheld
      refine ⟨hparts.kept old hold, hgone, fun x hx hne => ?_⟩
      rcases hparts.mem_passed x hx with rfl | hx'
      · cases force with
        | false => exact iff_of_false halive Bool.false_ne_true
        | true =>
          rw [hforced (by rw [hc]; rfl)] at hx
          exact hothers _ hx hne
      · exact hothers x hx' hne

theorem deletedEvents_delete (s : EventProcessor) (event : ℕ) (reason : Reason) :
    (s.delete event reason).deletedEvents = s.deletedEvents ++ [event] := by
  simp [deletedEvents, delete]

theorem Owned.delete {s : EventProcessor} (h : Owned s) {event : ℕ} {reason : Reason}
    (hadded : event ∈ s.added) (halive : event ∉ s.deletedEvents)
    (hreason : reason ≠ .aborted false) {passed : List Entry} {control : Control}
    (hpassed : passed.Sublist s.passed)
    (hkept : ∀ e ∈ s.passed, e.event = event ∨ e ∈ passed)
    (hahead : ∀ e ∈ s.ahead, e.event ≠ event)
    (hcurrent : ∀ ev, s.control.current = some ev → ev = event)
    (hheld : Held { s.delete event reason with passed := passed, control := control }) :
    Owned { s.delete event reason with passed := passed, control := control } := by
  have hdeleted := deletedEvents_delete s event reason
  have hsub : (passed ++ s.ahead).Sublist s.entries := hpassed.append_right _
  refine ⟨h.distinct.sublist (hsub.map _), fun e he => h.added e (hsub.subset he), ?_, ?_, ?_, ?_, ?_,
    hheld⟩
  · show ∀ ev ∈ (s.delete event reason).deletedEvents, ev ∈ s.added
    rw [hdeleted]
    intro ev hev
    rcases List.mem_append.mp hev with hev | hev
    · exact h.gone ev hev
    · rw [List.mem_singleton.mp hev]
      exact hadded
  · show (s.delete event reason).deletedEvents.Nodup
    rw [hdeleted, List.nodup_append]
    refine ⟨h.deletedOnce, List.nodup_singleton _, fun a ha b hb => ?_⟩
    rw [List.mem_singleton.mp hb]
    exact fun heq => halive (heq ▸ ha)
  · intro ev hev
    rcases List.mem_append.mp hev with hev | hev
    · exact h.reasons ev hev
    · exact hreason (congrArg Prod.snd (List.mem_singleton.mp hev)).symm
  · show ∀ e ∈ s.ahead, e.event ∉ (s.delete event reason).deletedEvents
    rw [hdeleted]
    intro e he hgone
    rcases List.mem_append.mp hgone with hgone | hgone
    · exact h.alive e he hgone
    · exact hahead e he (List.mem_singleton.mp hgone)
  · show ∀ ev ∈ s.added, ev ∈ (s.delete event reason).deletedEvents ∨ ev ∈ (passed ++ s.ahead).map _ ∨
      control.current = some ev
    rw [hdeleted]
    intro ev hev
    by_cases hself : ev = event
    · rw [hself]
      exact .inl (List.mem_append_right _ (List.mem_singleton.mpr rfl))
    · rcases h.kept ev hev with hgone | hin | hcur
      · exact .inl (List.mem_append_left _ hgone)
      · obtain ⟨e, he, rfl⟩ := List.mem_map.mp hin
        refine .inr (.inl (List.mem_map_of_mem ?_))
        rcases List.mem_append.mp he with he | he
        · exact List.mem_append_left _ ((hkept e he).resolve_left hself)
        · exact List.mem_append_right _ he
      · exact absurd (hcurrent ev hcur) hself

/-! ### The steps -/

theorem markAbort_execTime (s : EventProcessor) (event ev : ℕ) :
    ((s.markAbort event).events ev).execTime = (s.events ev).execTime := by
  rw [markAbort]
  dsimp only
  by_cases hev : ev = event
  · rw [hev, Function.update_self]
  · rw [Function.update_of_ne hev]

structure Sound (s : EventProcessor) : Prop where
  timely : Timely s
  owned : Owned s

theorem Sound.updateTurn {s : EventProcessor} (h : Sound s) {pTime : ℕ}
    (hcontrol : s.control = .updating pTime) : Sound (s.updateTurn pTime) := by
  obtain ⟨ht, ho⟩ := h
  have hpassed : s.passed = [] := ho.passed_nil (by rw [hcontrol]; rfl)
  have hstop : Sound { s with control := .idle } := by
    refine ⟨ht.shrink (.refl _) rfl le_rfl rfl fun _ => rfl, { ho with kept := ?_, held := hpassed }⟩
    have hkept := ho.kept
    rw [hcontrol] at hkept
    exact hkept
  unfold EventProcessor.updateTurn
  split
  · exact hstop
  · rename_i e rest hahead
    by_cases hearly : s.time < e.time
    · rw [if_pos hearly]
      exact hstop
    rw [if_neg hearly]
    dsimp only
    have hentries : s.entries = e :: rest := by rw [entries, hpassed, hahead, List.nil_append]
    have hrest : s.passed ++ rest = rest := by rw [hpassed, List.nil_append]
    have hdistinct := ho.distinct
    rw [hentries, List.map_cons, List.nodup_cons] at hdistinct
    have hadded : e.event ∈ s.added := ho.added e (hentries ▸ List.mem_cons_self)
    have halive : e.event ∉ s.deletedEvents := ho.alive e (hahead ▸ List.mem_cons_self)
    -- the entry is taken out of the map, its event is the current one
    have htaken : ∀ (control : Control) (executed : List Execution),
        control.current = some e.event →
        Held { s with ahead := rest, executed := executed, control := control } →
        Owned { s with ahead := rest, executed := executed, control := control } := by
      intro control executed hcurrent hheld
      refine ⟨?_, fun x hx => ?_, ho.gone, ho.deletedOnce, ho.reasons, fun x hx => ?_, fun ev hev => ?_,
        hheld⟩
      · show ((s.passed ++ rest).map _).Nodup
        rw [hrest]
        exact hdistinct.2
      · have hx' : x ∈ s.passed ++ rest := hx
        rw [hrest] at hx'
        exact ho.added x (hentries ▸ List.mem_cons_of_mem e hx')
      · exact ho.alive x (hahead ▸ List.mem_cons_of_mem e hx)
      · show _ ∨ ev ∈ (s.passed ++ rest).map _ ∨ control.current = some ev
        rw [hrest, hcurrent]
        rcases ho.kept ev hev with hgone | hin | hcur
        · exact .inl hgone
        · rw [hentries, List.map_cons, List.mem_cons] at hin
          rcases hin with rfl | hin
          · exact .inr (.inr rfl)
          · exact .inr (.inl hin)
        · rw [hcontrol] at hcur
          cases hcur
    by_cases hmark : (s.events e.event).toAbort = true
    · rw [if_pos hmark]
      refine ⟨ht.shrink ?_ rfl le_rfl rfl fun _ => rfl, htaken _ _ rfl ⟨hpassed, hadded, halive, ?_⟩⟩
      · show (s.passed ++ rest).Sublist s.entries
        rw [hrest, hentries]
        exact List.sublist_cons_self e rest
      · show e.event ∉ (s.passed ++ rest).map _
        rw [hrest]
        exact hdistinct.1
    · rw [if_neg hmark]
      refine ⟨ht.execute ?_ (Nat.le_of_not_lt hearly) (Bool.not_eq_true _ |>.mp hmark) rfl rfl rfl rfl,
        htaken _ _ rfl ⟨hpassed, hadded, halive⟩⟩
      show s.entries = e :: (s.passed ++ rest)
      rw [hrest, hentries]

theorem Sound.killTurn {s : EventProcessor} (h : Sound s) {force : Bool}
    (hcontrol : s.control = .killing force) : Sound (s.killTurn force) := by
  obtain ⟨ht, ho⟩ := h
  have hheld : ∀ e ∈ s.passed, e.event ∈ s.deletedEvents ↔ force = true := by
    have hheld := ho.held
    rwa [Held, hcontrol] at hheld
  have hkept := ho.kept
  rw [hcontrol] at hkept
  unfold EventProcessor.killTurn
  split
  · rename_i hahead
    have hentries : s.entries = s.passed := by rw [entries, hahead, List.append_nil]
    cases force with
    | true =>
      refine ⟨ht.shrink (List.nil_sublist _) rfl le_rfl rfl fun _ => rfl,
        { ho with distinct := List.nodup_nil, added := nofun, alive := nofun, kept := ?_, held := rfl }⟩
      intro ev hev
      rcases hkept ev hev with hgone | hin | hcur
      · exact .inl hgone
      · rw [hentries] at hin
        obtain ⟨e, he, rfl⟩ := List.mem_map.mp hin
        exact .inl ((hheld e he).mpr rfl)
      · cases hcur
    | false =>
      have hdistinct := ho.distinct
      have hadded := ho.added
      rw [hentries] at hdistinct hadded hkept
      refine ⟨ht.shrink ?_ rfl le_rfl rfl fun _ => rfl,
        { ho with distinct := hdistinct, added := hadded, alive := ?_, kept := hkept, held := rfl }⟩
      · show s.passed.Sublist s.entries
        rw [hentries]
      · exact fun e he hgone => Bool.false_ne_true ((hheld e he).mp hgone)
  · rename_i e rest hahead
    have hsame : (s.passed ++ [e]) ++ rest = s.entries := by
      rw [entries, hahead, List.append_assoc]
      rfl
    have halive : e.event ∉ s.deletedEvents := ho.alive e (hahead ▸ List.mem_cons_self)
    refine ⟨ht.shrink ?_ rfl le_rfl rfl (s.markAbort_execTime e.event), ?_, ?_, ho.gone, ho.deletedOnce, ho.reasons, ?_, ?_, ?_⟩
    · show ((s.passed ++ [e]) ++ rest).Sublist s.entries
      rw [hsame]
    · show (((s.passed ++ [e]) ++ rest).map _).Nodup
      rw [hsame]
      exact ho.distinct
    · show ∀ x ∈ (s.passed ++ [e]) ++ rest, _
      rw [hsame]
      exact ho.added
    · exact fun x hx => ho.alive x (hahead ▸ List.mem_cons_of_mem e hx)
    · show ∀ ev ∈ s.added, _ ∨ ev ∈ ((s.passed ++ [e]) ++ rest).map _ ∨ _
      rw [hsame]
      exact hkept
    · refine ⟨List.mem_append_right _ (List.mem_singleton.mpr rfl), halive, fun x hx hne => ?_⟩
      rcases List.mem_append.mp hx with hx | hx
      · exact hheld x hx
      · exact absurd (List.mem_singleton.mp hx) hne

theorem Sound.killBack {s : EventProcessor} (h : Sound s) {force : Bool} {old : Entry}
    (hcontrol : s.control = .killAborting force old) : Sound (s.killBack force old) := by
  obtain ⟨ht, ho⟩ := h
  obtain ⟨hold, halive, hothers⟩ : old ∈ s.passed ∧ old.event ∉ s.deletedEvents ∧
      ∀ e ∈ s.passed, e ≠ old → (e.event ∈ s.deletedEvents ↔ force = true) := by
    have hheld := ho.held
    rwa [Held, hcontrol] at hheld
  have hmem : ∀ e ∈ s.passed, e ∈ s.entries := fun e he => List.mem_append_left _ he
  have hadded : old.event ∈ s.added := ho.added old (hmem old hold)
  have hne : ∀ e ∈ s.passed, e.event = old.event → e = old := fun e he heq =>
    ho.entry_inj (hmem e he) (hmem old hold) heq
  have hahead : ∀ e ∈ s.ahead, e.event ≠ old.event := by
    intro e he heq
    have hdisjoint := (List.nodup_append.mp (List.Nodup.of_map _ ho.distinct)).2.2
    have hsame := ho.entry_inj (List.mem_append_right s.passed he) (hmem old hold) heq
    exact hdisjoint old hold e he hsame.symm
  have hcurrent : ∀ ev, s.control.current = some ev → ev = old.event := by
    rw [hcontrol]
    exact nofun
  have hnodup : s.passed.Nodup := (List.nodup_append.mp (List.Nodup.of_map _ ho.distinct)).1
  rw [EventProcessor.killBack]
  split
  · rename_i hforce
    subst hforce
    refine ⟨ht.shrink (.refl _) rfl le_rfl rfl fun _ => rfl, @Owned.delete s ho old.event .killed hadded
      halive (by decide) s.passed (.killing true) (.refl _) (fun e he => .inr he) hahead hcurrent ?_⟩
    show ∀ e ∈ s.passed, e.event ∈ (s.delete old.event .killed).deletedEvents ↔ true = true
    rw [deletedEvents_delete]
    intro e he
    refine iff_of_true ?_ rfl
    by_cases heq : e = old
    · rw [heq]
      exact List.mem_append_right _ (List.mem_singleton.mpr rfl)
    · exact List.mem_append_left _ ((hothers e he heq).mpr rfl)
  · rename_i hforce
    rw [Bool.not_eq_true] at hforce
    subst hforce
    split
    · refine ⟨ht.shrink (List.erase_sublist.append_right _) rfl le_rfl rfl fun _ => rfl,
        ho.delete hadded halive (by simp) List.erase_sublist (fun e he => ?_) hahead hcurrent ?_⟩
      · by_cases heq : e = old
        · exact .inl (congrArg Entry.event heq)
        · exact .inr ((List.mem_erase_of_ne heq).mpr he)
      · show ∀ e ∈ s.passed.erase old,
          e.event ∈ (s.delete old.event (.aborted true)).deletedEvents ↔ false = true
        rw [deletedEvents_delete]
        intro e he
        obtain ⟨heq, he⟩ := hnodup.mem_erase_iff.mp he
        refine iff_of_false (fun hgone => ?_) Bool.false_ne_true
        rcases List.mem_append.mp hgone with hgone | hgone
        · exact Bool.false_ne_true ((hothers e he heq).mp hgone)
        · exact heq (hne e he (List.mem_singleton.mp hgone))
    · have hkept := ho.kept
      rw [hcontrol] at hkept
      refine ⟨ht.shrink (.refl _) rfl le_rfl rfl fun _ => rfl, { ho with kept := hkept, held := ?_ }⟩
      show ∀ e ∈ s.passed, e.event ∈ s.deletedEvents ↔ false = true
      intro e he
      by_cases heq : e = old
      · exact iff_of_false (heq ▸ halive) Bool.false_ne_true
      · exact hothers e he heq

theorem Sound.back {s s' : EventProcessor} (h : Sound s) (result : Bool)
    (hallowed : s.Allowed (.back result)) (hheeded : s.Heeded (.back result))
    (hstep : s.step (.back result) = some s') : Sound s' := by
  obtain ⟨ht, ho⟩ := h
  have hheld := ho.held
  unfold Held at hheld
  unfold Allowed at hallowed
  unfold Heeded at hheeded
  unfold step at hstep
  cases hc : s.control with
  | idle | updating _ | killing _ =>
    rw [hc] at hstep
    cases hstep
  | killAborting force old =>
    rw [hc] at hstep
    obtain rfl := Option.some.inj hstep
    exact Sound.killBack ⟨ht, ho⟩ hc
  | aborting pTime event =>
    rw [hc] at hstep hheld hheeded
    obtain ⟨hpassed, hadded, halive, hout⟩ := hheld
    have hdeletable : s.deletable event = true := hheeded event rfl
    obtain rfl := Option.some.inj hstep
    refine ⟨ht.shrink (.refl _) rfl le_rfl rfl fun _ => rfl, @Owned.delete s ho event _ hadded halive
      ?_ s.passed (.updating pTime) (.refl _) (fun e he => .inr he) ?_ ?_ hpassed⟩
    · rw [hdeletable]
      decide
    · exact fun e he heq => hout (heq ▸ List.mem_map_of_mem (List.mem_append_right _ he))
    · rw [hc]
      exact fun ev hev => (Option.some.inj hev).symm
  | executing pTime event =>
    rw [hc] at hstep hheld hallowed
    obtain ⟨hpassed, hadded, halive⟩ := hheld
    have hagain : result = false ↔ event ∈ s.entries.map Entry.event := hallowed event rfl
    obtain rfl := Option.some.inj hstep
    cases result with
    | true =>
      have hout : event ∉ s.entries.map Entry.event := fun hin =>
        Bool.true_eq_false_eq_False (hagain.mpr hin)
      refine ⟨ht.shrink (.refl _) rfl le_rfl rfl fun _ => rfl, @Owned.delete s ho event .returned hadded
        halive (by decide) s.passed (.updating pTime) (.refl _) (fun e he => .inr he) ?_ ?_ hpassed⟩
      · exact fun e he heq => hout (heq ▸ List.mem_map_of_mem (List.mem_append_right _ he))
      · rw [hc]
        exact fun ev hev => (Option.some.inj hev).symm
    | false =>
      have hkept := ho.kept
      rw [hc] at hkept
      refine ⟨ht.shrink (.refl _) rfl le_rfl rfl fun _ => rfl, { ho with kept := ?_, held := hpassed }⟩
      intro ev hev
      rcases hkept ev hev with hgone | hin | hcur
      · exact .inl hgone
      · exact .inr (.inl hin)
      · rw [← Option.some.inj hcur]
        exact .inr (.inl (hagain.mp rfl))

theorem Sound.step {s s' : EventProcessor} {a : Action} (h : Sound s) (hallowed : s.Allowed a)
    (hheeded : s.Heeded a) (hstep : s.step a = some s') : Sound s' := by
  cases a with
  | addEvent event eTime setAddtime =>
    obtain ⟨houtside, rfl⟩ := guarded_eq_some.mp hstep
    obtain ⟨⟨htime, -⟩, hnew⟩ := hallowed
    refine ⟨h.timely.add setAddtime houtside h.owned.passed_nil htime ?_,
      h.owned.add setAddtime houtside hnew hheeded⟩
    exact h.owned.entry_new hnew
  | markAbort event =>
    obtain ⟨-, rfl⟩ := guarded_eq_some.mp hstep
    exact ⟨h.timely.shrink (.refl _) rfl le_rfl rfl (s.markAbort_execTime event),
      { h.owned with held := h.owned.held }⟩
  | setDeletable event deletable =>
    obtain ⟨-, rfl⟩ := guarded_eq_some.mp hstep
    exact ⟨h.timely.shrink (.refl _) rfl le_rfl rfl fun _ => rfl, { h.owned with held := h.owned.held }⟩
  | update pTime =>
    obtain ⟨hidle, rfl⟩ := guarded_eq_some.mp hstep
    have hclock : (s.time + pTime) % 2 ^ 64 = s.time + pTime := Nat.mod_eq_of_lt hheeded
    have hkept := h.owned.kept
    rw [hidle] at hkept
    refine ⟨h.timely.shrink (.refl _) rfl ?_ rfl fun _ => rfl, { h.owned with kept := hkept, held := ?_ }⟩
    · show s.time ≤ (s.time + pTime) % 2 ^ 64
      rw [hclock]
      exact Nat.le_add_right _ _
    · exact h.owned.passed_nil (by rw [hidle]; rfl)
  | killAllEvents force =>
    obtain ⟨hidle, rfl⟩ := guarded_eq_some.mp hstep
    have hkept := h.owned.kept
    rw [hidle] at hkept
    refine ⟨h.timely.shrink (.refl _) rfl le_rfl rfl fun _ => rfl,
      { h.owned with kept := hkept, held := fun e he => ?_ }⟩
    have hpassed := h.owned.passed_nil (by rw [hidle]; rfl)
    have he' : e ∈ s.passed := he
    rw [hpassed] at he'
    cases he'
  | turn =>
    unfold EventProcessor.step at hstep
    cases hc : s.control with
    | updating pTime =>
      rw [hc] at hstep
      obtain rfl := Option.some.inj hstep
      exact h.updateTurn hc
    | killing force =>
      rw [hc] at hstep
      obtain rfl := Option.some.inj hstep
      exact h.killTurn hc
    | idle | executing _ _ | aborting _ _ | killAborting _ _ =>
      rw [hc] at hstep
      cases hstep
  | back result => exact h.back result hallowed hheeded hstep

theorem Sound.initial : Sound .initial where
  timely := ⟨.nil, List.nodup_nil, nofun, nofun, nofun, nofun, nofun, nofun, .nil⟩
  owned := ⟨List.nodup_nil, nofun, nofun, List.nodup_nil, nofun, nofun, nofun, rfl⟩

theorem Sound.conserved {s : EventProcessor} (h : Sound s) : Conserved s where
  once := (List.nodup_append.mp h.timely.nodes).1
  due := h.timely.due
  unmarked := h.timely.unmarked
  ordered := h.timely.ordered
  deletedOnce := h.owned.deletedOnce
  reasons := h.owned.reasons
  kept := h.owned.kept

theorem Sound.killed {s : EventProcessor} (h : Sound s) (hcontrol : s.control = .killing true)
    (hend : s.ahead = []) : ∀ event ∈ s.added, event ∈ s.deletedEvents := by
  intro event hevent
  have hheld := h.owned.held
  rw [Held, hcontrol] at hheld
  rcases h.owned.kept event hevent with hgone | hin | hcur
  · exact hgone
  · rw [entries, hend, List.append_nil] at hin
    obtain ⟨e, he, rfl⟩ := List.mem_map.mp hin
    exact (hheld e he).mpr rfl
  · rw [hcontrol] at hcur
    cases hcur

end EventProcessor

/-- In every run whose steps keep to `Heeded`, and at the end of every `KillAllEvents(true)` in it. -/
theorem events_conserved {s : EventProcessor}
    (h : Reaches EventProcessor.step (fun s a => s.Allowed a ∧ s.Heeded a) (· = .initial) s) :
    s.Conserved ∧ ∀ s', s.control = .killing true → s.ahead = [] → s.step .turn = some s' →
      s'.control = .idle ∧ s'.entries = [] ∧ ∀ event ∈ s'.added, event ∈ s'.deletedEvents := by
  have hsound : s.Sound := h.invariant (fun s hs => hs ▸ .initial) fun s a t hs hok hstep =>
    hs.step hok.1 hok.2 hstep
  refine ⟨hsound.conserved, fun s' hcontrol hend hstep => ?_⟩
  unfold EventProcessor.step at hstep
  rw [hcontrol] at hstep
  obtain rfl := Option.some.inj hstep
  rw [EventProcessor.killTurn, hend]
  exact ⟨rfl, rfl, hsound.killed hcontrol hend⟩

def twoEvents : List Action :=
  [.addEvent 1 5 true, .addEvent 2 3 true, .update 4, .turn, .back true, .turn, .killAllEvents true,
    .turn, .back true]

theorem events_conserved_two : ∃ s : EventProcessor, s.Conserved ∧
    s.executed.map Execution.execTime = [3] ∧ s.deletedEvents = [2, 1] := by
  obtain ⟨s, hs, htest⟩ := @Reaches.exists_of_replay _ _ EventProcessor.step
    (fun s a => s.Allowed a ∧ s.Heeded a) (· = .initial) .initial rfl twoEvents (by decide)
    (fun s => s.executed.map Execution.execTime = [3] ∧ s.deletedEvents = [2, 1]) (by decide)
  exact ⟨s, (events_conserved hs).1, of_decide_eq_true htest⟩

/-- The `Abort` of event 1 adds event 2, at the end of the walk of `KillAllEvents(true)`. -/
def addedWhileKilled : List Action :=
  [.addEvent 1 0 true, .killAllEvents true, .turn, .addEvent 2 0 true, .back true, .turn]

def survivor : List Action :=
  [.addEvent 1 5 true, .setDeletable 1 false, .killAllEvents false, .turn, .back true, .turn,
    .update 5, .turn, .back true]

/-- Event 2 is cleared out of the map and never deleted, and `Update` deletes the event that is not
deletable. -/
theorem events_lost :
    (∃ s, Reaches EventProcessor.step EventProcessor.Allowed (· = .initial) s ∧
      s.control = .idle ∧ s.entries = [] ∧ 2 ∈ s.added ∧ 2 ∉ s.deletedEvents) ∧
    ∃ s, Reaches EventProcessor.step EventProcessor.Allowed (· = .initial) s ∧
      s.deletable 1 = false ∧ s.deleted = [(1, .aborted false)] := by
  constructor
  · obtain ⟨s, hs, htest⟩ := @Reaches.exists_of_replay _ _ EventProcessor.step
      EventProcessor.Allowed (· = .initial) .initial rfl addedWhileKilled (by decide)
      (fun s => s.control = .idle ∧ s.entries = [] ∧ 2 ∈ s.added ∧ 2 ∉ s.deletedEvents) (by decide)
    exact ⟨s, hs, of_decide_eq_true htest⟩
  · obtain ⟨s, hs, htest⟩ := @Reaches.exists_of_replay _ _ EventProcessor.step
      EventProcessor.Allowed (· = .initial) .initial rfl survivor (by decide)
      (fun s => s.deletable 1 = false ∧ s.deleted = [(1, .aborted false)]) (by decide)
    exact ⟨s, hs, of_decide_eq_true htest⟩

end HysteriaCore.Utilities
