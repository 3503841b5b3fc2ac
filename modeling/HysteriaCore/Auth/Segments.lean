import HysteriaCore.Auth.OnRead
import Mathlib.Logic.Relation

/-!
# Cutting the stream

`next` serves a stream command by command, whatever pieces it comes in: it takes a command when all of it
is there. A call of `OnRead` does the same unless a handler has taken bytes of a packet of which more is
to come, or goes on after `shutdown`, or gives up in front of a whole command.
-/

namespace HysteriaCore.Auth
open Lib

namespace Connection
variable (S : Surroundings) (c : Connection)

def challengeWaits (flooded : Bool) : Prop :=
  c.input.length < sizeofLogonChallenge ∨ (flooded = false ∧ sizeofLogonChallenge - 4 ≤ remainingOf c.input ∧
    c.input.length < 4 + remainingOf c.input)

def tokenThere : Bytes → Bool
  | [] => false
  | size :: text => decide (size.toNat ≤ text.length)

def tokenWaits : Prop :=
  c.wantsToken S (proofOf c.input []) = true ∧ tokenThere (c.input.drop sizeofLogonProof) = false

/-- The command at the head of the buffer waits for more bytes, or for a patch that never comes. -/
def Waits (cmd : UInt8) : Prop :=
  (cmd = AUTH_LOGON_CHALLENGE ∧ c.challengeWaits (c.env S).flooded) ∨
  (cmd = AUTH_LOGON_PROOF ∧ (c.input.length < sizeofLogonProof ∨ c.tokenWaits S)) ∨
  (cmd = AUTH_RECONNECT_CHALLENGE ∧ c.challengeWaits false) ∨
  (cmd = AUTH_RECONNECT_PROOF ∧ c.input.length < sizeofReconnectProof) ∨
  (cmd = REALM_LIST ∧ c.sock.authed = true ∧ c.input.length < 5) ∨ cmd = XFER_ACCEPT ∨ cmd = XFER_RESUME

/-- The handler takes bytes of a packet of which more is to come: the header of a challenge, or a proof whose
token is not there. -/
def Cut (cmd : UInt8) : Prop :=
  (cmd = AUTH_LOGON_CHALLENGE ∧ sizeofLogonChallenge ≤ c.input.length ∧ c.challengeWaits (c.env S).flooded) ∨
  (cmd = AUTH_LOGON_PROOF ∧ sizeofLogonProof ≤ c.input.length ∧ c.tokenWaits S) ∨
  (cmd = AUTH_RECONNECT_CHALLENGE ∧ sizeofLogonChallenge ≤ c.input.length ∧ c.challengeWaits false)

def Flooded (cmd : UInt8) : Prop := cmd = AUTH_LOGON_CHALLENGE ∧ (c.env S).flooded = true

def Unknown (cmd : UInt8) : Prop := c.dispatch S cmd = none

def Idle : Prop := ∀ cmd rest, c.input = cmd :: rest → c.Waits S cmd ∨ c.Flooded S cmd ∨ c.Unknown S cmd

def clears (cmd : UInt8) : Bool :=
  decide (cmd = AUTH_LOGON_CHALLENGE ∨ cmd = AUTH_LOGON_PROOF ∨ cmd = AUTH_RECONNECT_PROOF)

def settle (cmd : UInt8) : Connection := if clears cmd then c.clear else c

open Classical in
noncomputable def next : Option Connection :=
  if c.closed then none
  else
    match c.input with
    | [] => none
    | cmd :: _ =>
      if clears cmd ∧ c.sock.authed then some c.clear
      else if c.Waits S cmd then none
      else if c.Flooded S cmd then some c.close
      else some ((c.dispatch S cmd).elim c.close Prod.snd)

structure Harmless (challengesInARow : ℕ) (cmd : UInt8) : Prop where
  whole : ¬ c.Cut S cmd
  afterShutdown : c.closed = true → c.Idle S
  row : c.closed = false → cmd = AUTH_LOGON_CHALLENGE →
    challengesInARow + 1 = MAX_AUTH_LOGON_CHALLENGES_IN_A_ROW →
    (c.env S).flooded = true ∧ sizeofLogonChallenge ≤ c.input.length

def HarmlessCall (last : Bool) : ℕ → ℕ → Connection → Prop
  | 0, _, _ => True
  | fuel + 1, challengesInARow, c =>
    ∀ cmd rest, c.input = cmd :: rest → c.Harmless S challengesInARow cmd ∧
      ∀ ok c', c.dispatch S cmd = some (ok, c') →
        (ok = true → HarmlessCall last fuel (countChallenge cmd challengesInARow) c') ∧
        (ok = false → last = true → c'.closed = false → c'.Idle S)

def HarmlessRun : List Bytes → Connection → Prop
  | [], _ => True
  | segment :: rest, c =>
    c.closed = false → HarmlessCall S rest.isEmpty (c.feed segment).rounds 0 (c.feed segment) ∧
      ∀ c', (c.feed segment).onRead S = some c' → HarmlessRun rest c'

end Connection

/-! ### Rounds -/

variable {cmd : UInt8}

variable {command : Received AuthLogonChallenge_C → Command}

section Rounds
variable {S : Surroundings} {c : Connection}

theorem clear_authed (h : c.sock.authed = false) : c.clear = c := by
  obtain ⟨sock, input, closed, consumed, carried⟩ := c
  cases sock
  simp only at h
  rw [h]
  rfl

theorem dispatch_clear (h : Connection.clears cmd = true) : c.clear.dispatch S cmd = c.dispatch S cmd := by
  unfold Connection.clears at h
  rcases of_decide_eq_true h with rfl | rfl | rfl
  · rfl
  · rfl
  · rfl

section Waits

theorem waits_logonChallenge : c.Waits S AUTH_LOGON_CHALLENGE ↔ c.challengeWaits (c.env S).flooded := by
  simp [Connection.Waits, AUTH_LOGON_CHALLENGE, AUTH_LOGON_PROOF, AUTH_RECONNECT_CHALLENGE, AUTH_RECONNECT_PROOF,
    REALM_LIST, XFER_ACCEPT, XFER_RESUME]

theorem waits_logonProof : c.Waits S AUTH_LOGON_PROOF ↔ c.input.length < sizeofLogonProof ∨ c.tokenWaits S := by
  simp [Connection.Waits, AUTH_LOGON_CHALLENGE, AUTH_LOGON_PROOF, AUTH_RECONNECT_CHALLENGE, AUTH_RECONNECT_PROOF,
    REALM_LIST, XFER_ACCEPT, XFER_RESUME]

theorem waits_reconnectChallenge : c.Waits S AUTH_RECONNECT_CHALLENGE ↔ c.challengeWaits false := by
  simp [Connection.Waits, AUTH_LOGON_CHALLENGE, AUTH_LOGON_PROOF, AUTH_RECONNECT_CHALLENGE, AUTH_RECONNECT_PROOF,
    REALM_LIST, XFER_ACCEPT, XFER_RESUME]

theorem waits_reconnectProof : c.Waits S AUTH_RECONNECT_PROOF ↔ c.input.length < sizeofReconnectProof := by
  simp [Connection.Waits, AUTH_LOGON_CHALLENGE, AUTH_LOGON_PROOF, AUTH_RECONNECT_CHALLENGE, AUTH_RECONNECT_PROOF,
    REALM_LIST, XFER_ACCEPT, XFER_RESUME]

end Waits

theorem waits_clear (h : Connection.clears cmd = true) : c.clear.Waits S cmd ↔ c.Waits S cmd := by
  unfold Connection.clears at h
  rcases of_decide_eq_true h with rfl | rfl | rfl
  · rw [waits_logonChallenge, waits_logonChallenge]
    exact Iff.rfl
  · rw [waits_logonProof, waits_logonProof]
    exact Iff.rfl
  · rw [waits_reconnectProof, waits_reconnectProof]
    exact Iff.rfl

inductive Outcome (S : Surroundings) (c : Connection) (cmd : UInt8) : Prop where
  | waits : c.Waits S cmd → c.dispatch S cmd = some (false, c.settle cmd) → Outcome S c cmd
  | flooded : ¬ c.Waits S cmd → c.Flooded S cmd → c.dispatch S cmd = some (true, c.settle cmd) → Outcome S c cmd
  | unknown : ¬ c.Waits S cmd → ¬ c.Flooded S cmd → c.Unknown S cmd → Outcome S c cmd
  | served (ok : Bool) (c' : Connection) : ¬ c.Waits S cmd → ¬ c.Flooded S cmd → c.dispatch S cmd = some (ok, c') →
      Outcome S c cmd

theorem readChallenge_short {flooded : Bool}
    (hlen : c.input.length < sizeofLogonChallenge) :
    c.readChallenge S flooded command = c.reply (handle S.crypto (c.env S) (command .short) c.sock) := by
  unfold Connection.readChallenge
  simp only
  rw [if_pos hlen]

theorem reply_quiet {r : Result} {a : AuthSocket} (hr : r = ⟨false, a, []⟩) :
    c.reply r = (false, { c with sock := a }) := by
  rw [hr]
  unfold Connection.reply
  simp

theorem dispatch_waits (hwaits : c.Waits S cmd) (h : ¬ c.Cut S cmd) :
    c.dispatch S cmd = some (false, c.settle cmd) := by
  rcases hwaits with ⟨rfl, hw⟩ | ⟨rfl, hw⟩ | ⟨rfl, hw⟩ | ⟨rfl, hw⟩ | ⟨rfl, hauth, hw⟩ | rfl | rfl
  · have hlen : c.input.length < sizeofLogonChallenge := Nat.lt_of_not_le fun hge => h (.inl ⟨rfl, hge, hw⟩)
    show some (c.readChallenge S (c.env S).flooded .logonChallenge) = some (false, c.clear)
    rw [readChallenge_short hlen]
    exact congrArg some (reply_quiet rfl)
  · have hlen : c.input.length < sizeofLogonProof :=
      Nat.lt_of_not_le fun hge => h (.inr (.inl ⟨rfl, hge, hw.resolve_left (Nat.not_lt.mpr hge)⟩))
    show some (c.onLogonProof S) = some (false, c.clear)
    unfold Connection.onLogonProof
    rw [if_pos hlen]
    exact congrArg some (reply_quiet rfl)
  · have hlen : c.input.length < sizeofLogonChallenge :=
      Nat.lt_of_not_le fun hge => h (.inr (.inr ⟨rfl, hge, hw⟩))
    show some (c.readChallenge S false .reconnectChallenge) = some (false, c)
    rw [readChallenge_short hlen]
    exact congrArg some (reply_quiet rfl)
  · show some (c.onReconnectProof S) = some (false, c.clear)
    unfold Connection.onReconnectProof
    rw [if_pos hw]
    exact congrArg some (reply_quiet rfl)
  · have hdispatch : c.dispatch S REALM_LIST = some (c.onRealmList S) := by
      unfold Connection.dispatch
      rw [if_neg (by decide), if_neg (by decide), if_neg (by decide), if_neg (by decide), if_pos ⟨rfl, hauth⟩]
    rw [hdispatch]
    unfold Connection.onRealmList
    rw [if_pos hw]
    refine congrArg some (reply_quiet ?_)
    show (if c.sock.authed then handleRealmList (c.env S) false c.sock else _) = _
    rw [if_pos hauth]
    rfl
  · rfl
  · rfl

theorem dispatch_flooded (hwaits : ¬ c.Waits S cmd) (h : c.Flooded S cmd) :
    c.dispatch S cmd = some (true, c.settle cmd) := by
  obtain ⟨rfl, hflooded⟩ := h
  have hlen : ¬ c.input.length < sizeofLogonChallenge := fun hlt => hwaits (waits_logonChallenge.mpr (.inl hlt))
  show some (c.readChallenge S (c.env S).flooded .logonChallenge) = some (true, c.clear)
  unfold Connection.readChallenge
  simp only
  rw [if_neg hlen, if_pos hflooded]
  simp [Connection.reply, handle, handleLogonChallenge, hflooded, Connection.clear]

theorem outcome (h : ¬ c.Cut S cmd) : Outcome S c cmd := by
  by_cases hwaits : c.Waits S cmd
  · exact .waits hwaits (dispatch_waits hwaits h)
  by_cases hflooded : c.Flooded S cmd
  · exact .flooded hwaits hflooded (dispatch_flooded hwaits hflooded)
  cases hdispatch : c.dispatch S cmd with
  | none => exact .unknown hwaits hflooded hdispatch
  | some result => exact .served result.1 result.2 hwaits hflooded hdispatch

end Rounds

/-! ### More bytes behind a whole command -/

section Feed
variable {S : Surroundings} {c : Connection} (more : Bytes)

variable {buf : Bytes}

theorem getD_append {i : ℕ} (hi : i < buf.length) : (buf ++ more).getD i 0 = buf.getD i 0 := by
  rw [List.getD_eq_getElem?_getD, List.getD_eq_getElem?_getD, List.getElem?_append_left hi]

theorem field_append {offset len : ℕ} (h : offset + len ≤ buf.length) :
    field (buf ++ more) offset len = field buf offset len := by
  unfold field
  congr 1
  funext i
  exact getD_append more (by omega)

theorem remainingOf_append (h : 4 ≤ buf.length) : remainingOf (buf ++ more) = remainingOf buf := by
  unfold remainingOf
  rw [getD_append more (by omega), getD_append more (by omega)]

theorem proofOf_append (h : sizeofLogonProof ≤ buf.length) (token : Bytes) :
    proofOf (buf ++ more) token = proofOf buf token := by
  unfold sizeofLogonProof at h
  unfold proofOf
  rw [field_append more (by omega), field_append more (by omega), getD_append more (by omega)]

theorem reconnectProofOf_append (h : sizeofReconnectProof ≤ buf.length) :
    reconnectProofOf (buf ++ more) = reconnectProofOf buf := by
  unfold sizeofReconnectProof at h
  unfold reconnectProofOf
  rw [field_append more (by omega), field_append more (by omega)]

theorem skip_feed {n : ℕ} (h : n ≤ c.input.length) : (c.feed more).skip n = (c.skip n).feed more := by
  unfold Connection.feed Connection.skip
  rw [List.drop_append_of_le_length h]

theorem feed_length : (c.feed more).input.length = c.input.length + more.length := List.length_append

def feedResult (r : Bool × Connection) : Bool × Connection := (r.1, r.2.feed more)

theorem readChallenge_feed {flooded : Bool}
    (h : ¬ c.challengeWaits flooded) :
    (c.feed more).readChallenge S flooded command = feedResult more (c.readChallenge S flooded command) := by
  have hlen : sizeofLogonChallenge ≤ c.input.length := Nat.le_of_not_lt fun hlt => h (.inl hlt)
  have hfour : 4 ≤ c.input.length := le_trans (by decide) hlen
  have hremaining : remainingOf (c.feed more).input = remainingOf c.input := remainingOf_append more hfour
  have hfeed := feed_length (c := c) more
  unfold Connection.readChallenge
  simp only
  rw [if_neg (Nat.not_lt.mpr hlen), if_neg (by omega), hremaining, skip_feed more hfour]
  cases flooded with
  | true => rfl
  | false =>
    simp only [Bool.false_eq_true, if_false]
    have hskip : (c.skip 4).input.length = c.input.length - 4 := List.length_drop
    by_cases hsmall : remainingOf c.input < sizeofLogonChallenge - 4
    · rw [if_pos (.inl hsmall), if_pos (.inl hsmall)]
      rfl
    · have hrest : 4 + remainingOf c.input ≤ c.input.length :=
        Nat.le_of_not_lt fun hlt => h (.inr ⟨rfl, Nat.le_of_not_lt hsmall, hlt⟩)
      have hskip' : ¬ (c.skip 4).input.length < remainingOf c.input := by omega
      have hfed := feed_length (c := c.skip 4) more
      have hskip'' : ¬ ((c.skip 4).feed more).input.length < remainingOf c.input := by omega
      rw [if_neg fun hor => hor.elim hsmall hskip'', if_neg fun hor => hor.elim hsmall hskip']
      have htake : (c.feed more).input.take (4 + remainingOf c.input) = c.input.take (4 + remainingOf c.input) :=
        List.take_append_of_le_length hrest
      rw [htake, skip_feed more (Nat.le_of_not_lt hskip')]
      rfl

theorem onLogonProof_feed (hlen : sizeofLogonProof ≤ c.input.length) (htoken : ¬ c.tokenWaits S) :
    (c.feed more).onLogonProof S = feedResult more (c.onLogonProof S) := by
  have hfeed := feed_length (c := c) more
  have hproof : ∀ token, proofOf (c.feed more).input token = proofOf c.input token := proofOf_append more hlen
  have hwants : (c.feed more).wantsToken S (proofOf c.input []) = c.wantsToken S (proofOf c.input []) := rfl
  have hdrop : (c.feed more).input.drop sizeofLogonProof = c.input.drop sizeofLogonProof ++ more :=
    List.drop_append_of_le_length hlen
  unfold Connection.onLogonProof
  rw [if_neg (Nat.not_lt.mpr hlen), if_neg (by omega)]
  simp only [hproof, hwants, hdrop]
  cases hw : c.wantsToken S (proofOf c.input []) with
  | false =>
    simp only [Bool.false_eq_true, if_false, Nat.add_zero]
    rw [skip_feed more hlen]
    rfl
  | true =>
    simp only [if_true]
    have hthere : Connection.tokenThere (c.input.drop sizeofLogonProof) = true :=
      Bool.not_eq_false _ ▸ fun hfalse => htoken ⟨hw, hfalse⟩
    cases hbehind : c.input.drop sizeofLogonProof with
    | nil =>
      rw [hbehind] at hthere
      exact absurd hthere Bool.false_ne_true
    | cons size text =>
      rw [hbehind] at hthere
      have hle : size.toNat ≤ text.length := of_decide_eq_true hthere
      have hlength : c.input.length - sizeofLogonProof = text.length + 1 := by
        rw [← List.length_drop, hbehind, List.length_cons]
      have hread : ∀ d : Connection, d.readToken S (size :: text) = (cstr (text.take size.toNat), 1 + size.toNat) := by
        intro d
        unfold Connection.readToken
        simp only
        rw [if_neg (Nat.not_lt.mpr hle)]
      have hreadMore : (c.feed more).readToken S (size :: text ++ more) =
          (cstr (text.take size.toNat), 1 + size.toNat) := by
        unfold Connection.readToken
        simp only [List.cons_append]
        rw [if_neg (by rw [List.length_append]; omega), List.take_append_of_le_length hle]
      rw [hreadMore, hread, skip_feed more (by omega)]
      rfl

theorem dispatch_feed (hne : c.input ≠ []) (h : ¬ c.Waits S cmd) :
    (c.feed more).dispatch S cmd = (c.dispatch S cmd).map (feedResult more) := by
  have hfeed := feed_length (c := c) more
  unfold Connection.dispatch
  by_cases h0 : cmd = AUTH_LOGON_CHALLENGE
  · rw [if_pos h0, if_pos h0]
    subst h0
    exact congrArg some (readChallenge_feed more fun hw => h (waits_logonChallenge.mpr hw))
  rw [if_neg h0, if_neg h0]
  by_cases h1 : cmd = AUTH_LOGON_PROOF
  · rw [if_pos h1, if_pos h1]
    subst h1
    exact congrArg some (onLogonProof_feed more (Nat.le_of_not_lt fun hlt => h (waits_logonProof.mpr (.inl hlt)))
      fun htoken => h (waits_logonProof.mpr (.inr htoken)))
  rw [if_neg h1, if_neg h1]
  by_cases h2 : cmd = AUTH_RECONNECT_CHALLENGE
  · rw [if_pos h2, if_pos h2]
    subst h2
    exact congrArg some (readChallenge_feed more fun hw => h (waits_reconnectChallenge.mpr hw))
  rw [if_neg h2, if_neg h2]
  by_cases h3 : cmd = AUTH_RECONNECT_PROOF
  · rw [if_pos h3, if_pos h3]
    subst h3
    have hlen : sizeofReconnectProof ≤ c.input.length := Nat.le_of_not_lt fun hlt => h (waits_reconnectProof.mpr hlt)
    have hproof : reconnectProofOf (c.feed more).input = reconnectProofOf c.input := reconnectProofOf_append more hlen
    refine congrArg some ?_
    unfold Connection.onReconnectProof
    rw [if_neg (Nat.not_lt.mpr hlen), if_neg (by omega)]
    simp only [hproof]
    rw [skip_feed more hlen]
    rfl
  rw [if_neg h3, if_neg h3]
  by_cases h4 : cmd = REALM_LIST ∧ c.sock.authed
  · rw [if_pos h4, if_pos (show cmd = REALM_LIST ∧ (c.feed more).sock.authed from h4)]
    have hlen : 5 ≤ c.input.length :=
      Nat.le_of_not_lt fun hlt => h (.inr (.inr (.inr (.inr (.inl ⟨h4.1, h4.2, hlt⟩)))))
    refine congrArg some ?_
    unfold Connection.onRealmList
    rw [if_neg (Nat.not_lt.mpr hlen), if_neg (by omega), skip_feed more hlen]
    rfl
  rw [if_neg h4, if_neg (show ¬ (cmd = REALM_LIST ∧ (c.feed more).sock.authed) from h4)]
  by_cases h5 : cmd = XFER_ACCEPT ∨ cmd = XFER_RESUME
  · exact absurd (.inr (.inr (.inr (.inr (.inr h5))))) h
  rw [if_neg h5, if_neg h5]
  by_cases h6 : cmd = XFER_CANCEL
  · rw [if_pos h6, if_pos h6, skip_feed more (List.length_pos_iff.mpr hne)]
    rfl
  · rw [if_neg h6, if_neg h6]
    rfl

end Feed

/-! ### The whole stream -/

section Steps
variable {S : Surroundings}

def Steps (S : Surroundings) : Connection → Connection → Prop :=
  Relation.ReflTransGen fun c c' => c.next S = some c'

theorem steps_unique {c k k' : Connection} (h : Steps S c k) (h' : Steps S c k') (hk : k.next S = none)
    (hk' : k'.next S = none) : k = k' := by
  have hdet : Relator.RightUnique fun c c' : Connection => c.next S = some c' := by
    intro a b d hb hd
    exact Option.some.inj (hb.symm.trans hd)
  have hstop : ∀ {a b : Connection}, Steps S a b → a.next S = none → a = b := by
    intro a b hab ha
    rcases Relation.ReflTransGen.cases_head hab with heq | ⟨d, hd, -⟩
    · exact heq
    · exact absurd (ha.symm.trans hd) (Option.some_ne_none _).symm
  rcases Relation.ReflTransGen.total_of_right_unique hdet h h' with hle | hle
  · exact hstop hle hk
  · exact (hstop hle hk').symm

variable {c : Connection}

theorem waits_feed (more : Bytes) (h : ¬ c.Waits S cmd) : ¬ (c.feed more).Waits S cmd := by
  have hfeed := feed_length (c := c) more
  have hchallenge : ∀ flooded, (c.feed more).challengeWaits flooded → c.challengeWaits flooded := by
    rintro flooded (hlt | ⟨hf, hle, hlt⟩)
    · exact .inl (by omega)
    · by_cases hlen : c.input.length < sizeofLogonChallenge
      · exact .inl hlen
      · have hsame : remainingOf (c.feed more).input = remainingOf c.input :=
          remainingOf_append more (le_trans (by decide) (Nat.le_of_not_lt hlen))
        rw [hsame] at hle hlt
        exact .inr ⟨hf, hle, by omega⟩
  rintro (⟨rfl, hw⟩ | ⟨rfl, hlt | htoken⟩ | ⟨rfl, hw⟩ | ⟨rfl, hlt⟩ | ⟨rfl, hauth, hlt⟩ | hpatch)
  · exact h (waits_logonChallenge.mpr (hchallenge _ hw))
  · exact h (waits_logonProof.mpr (.inl (by omega)))
  · by_cases hlen : c.input.length < sizeofLogonProof
    · exact h (waits_logonProof.mpr (.inl hlen))
    · refine h (waits_logonProof.mpr (.inr ?_))
      obtain ⟨hwants, hthere⟩ := htoken
      have hproof : proofOf (c.feed more).input [] = proofOf c.input [] := proofOf_append more (Nat.le_of_not_lt hlen) _
      have hdrop : (c.feed more).input.drop sizeofLogonProof = c.input.drop sizeofLogonProof ++ more :=
        List.drop_append_of_le_length (Nat.le_of_not_lt hlen)
      rw [hproof] at hwants
      rw [hdrop] at hthere
      refine ⟨hwants, ?_⟩
      cases hbehind : c.input.drop sizeofLogonProof with
      | nil => rfl
      | cons size text =>
        rw [hbehind] at hthere
        have hlt : ¬ size.toNat ≤ (text ++ more).length := of_decide_eq_false hthere
        rw [List.length_append] at hlt
        exact decide_eq_false (by omega)
  · exact h (waits_reconnectChallenge.mpr (hchallenge _ hw))
  · exact h (waits_reconnectProof.mpr (by omega))
  · exact h (.inr (.inr (.inr (.inr (.inl ⟨rfl, hauth, by omega⟩)))))
  · exact h (.inr (.inr (.inr (.inr (.inr hpatch)))))

theorem next_feed {c c' : Connection} (more : Bytes) (h : c.next S = some c') :
    (c.feed more).next S = some (c'.feed more) := by
  unfold Connection.next at h ⊢
  by_cases hclosed : c.closed = true
  · rw [if_pos hclosed] at h
    exact absurd h (Option.some_ne_none _).symm
  rw [if_neg hclosed] at h
  rw [if_neg (show ¬ (c.feed more).closed = true from hclosed)]
  cases hinput : c.input with
  | nil =>
    rw [hinput] at h
    exact absurd h (Option.some_ne_none _).symm
  | cons cmd rest =>
    have hfed : (c.feed more).input = cmd :: (rest ++ more) := by
      show c.input ++ more = _
      rw [hinput]
      rfl
    rw [hinput] at h
    rw [hfed]
    simp only at h ⊢
    by_cases hclear : Connection.clears cmd ∧ c.sock.authed
    · rw [if_pos hclear] at h
      rw [if_pos (show Connection.clears cmd ∧ (c.feed more).sock.authed from hclear), ← Option.some.inj h]
      rfl
    rw [if_neg hclear] at h
    rw [if_neg (show ¬ (Connection.clears cmd ∧ (c.feed more).sock.authed) from hclear)]
    by_cases hwaits : c.Waits S cmd
    · rw [if_pos hwaits] at h
      exact absurd h (Option.some_ne_none _).symm
    rw [if_neg hwaits] at h
    rw [if_neg (waits_feed more hwaits)]
    by_cases hflooded : c.Flooded S cmd
    · rw [if_pos hflooded] at h
      rw [if_pos (show (c.feed more).Flooded S cmd from hflooded), ← Option.some.inj h]
      rfl
    rw [if_neg hflooded] at h
    rw [if_neg (show ¬ (c.feed more).Flooded S cmd from hflooded)]
    have hdispatch := dispatch_feed (S := S) more (List.ne_nil_of_length_pos (by rw [hinput]; exact Nat.succ_pos _)) hwaits
    rw [hdispatch, ← Option.some.inj h]
    cases c.dispatch S cmd with
    | none => rfl
    | some result => rfl

theorem steps_feed {c k : Connection} (more : Bytes) (h : Steps S c k) : Steps S (c.feed more) (k.feed more) := by
  induction h with
  | refl => exact Relation.ReflTransGen.refl
  | tail _ hstep ih => exact ih.tail (next_feed more hstep)

theorem steps_settle {rest : Bytes} (hopen : c.closed = false)
    (hinput : c.input = cmd :: rest) : Steps S c (c.settle cmd) := by
  unfold Connection.settle
  by_cases hclears : Connection.clears cmd = true
  · rw [if_pos hclears]
    cases hauth : c.sock.authed with
    | false =>
      rw [clear_authed hauth]
      exact Relation.ReflTransGen.refl
    | true =>
      refine Relation.ReflTransGen.single ?_
      unfold Connection.next
      rw [if_neg (by rw [hopen]; decide), hinput]
      exact if_pos ⟨hclears, hauth⟩
  · rw [if_neg hclears]
    exact Relation.ReflTransGen.refl

theorem settle_input (c : Connection) (cmd : UInt8) : (c.settle cmd).input = c.input ∧
    (c.settle cmd).closed = c.closed ∧ (c.settle cmd).consumed = c.consumed ∧ (c.settle cmd).carried = c.carried := by
  unfold Connection.settle
  split <;> exact ⟨rfl, rfl, rfl, rfl⟩

theorem settle_authed (c : Connection) (cmd : UInt8) :
    ¬ (Connection.clears cmd = true ∧ (c.settle cmd).sock.authed = true) := by
  rintro ⟨hclears, hauth⟩
  unfold Connection.settle at hauth
  rw [if_pos hclears] at hauth
  exact Bool.false_ne_true hauth

theorem dispatch_settle (c : Connection) (cmd : UInt8) : (c.settle cmd).dispatch S cmd = c.dispatch S cmd := by
  unfold Connection.settle
  split
  · exact dispatch_clear ‹_›
  · rfl

theorem waits_settle (c : Connection) (cmd : UInt8) : (c.settle cmd).Waits S cmd ↔ c.Waits S cmd := by
  unfold Connection.settle
  split
  · exact waits_clear ‹_›
  · exact Iff.rfl

theorem flooded_settle (c : Connection) (cmd : UInt8) : (c.settle cmd).Flooded S cmd ↔ c.Flooded S cmd := by
  unfold Connection.settle
  split <;> exact Iff.rfl

theorem next_settle {rest : Bytes} (hopen : c.closed = false)
    (hinput : c.input = cmd :: rest) (hwaits : ¬ c.Waits S cmd) :
    (c.Flooded S cmd → (c.settle cmd).next S = some (c.settle cmd).close) ∧
      (¬ c.Flooded S cmd → (c.settle cmd).next S =
        some ((c.dispatch S cmd).elim (c.settle cmd).close Prod.snd)) := by
  obtain ⟨hin, hclosed, -⟩ := settle_input c cmd
  have hdone := settle_authed c cmd
  have hnot : ¬ (c.settle cmd).closed = true := by
    rw [hclosed, hopen]
    decide
  have hready : ¬ (c.settle cmd).Waits S cmd := fun hw => hwaits ((waits_settle c cmd).mp hw)
  constructor
  · intro hflooded
    unfold Connection.next
    rw [if_neg hnot, hin, hinput]
    simp only
    rw [if_neg hdone, if_neg hready, if_pos ((flooded_settle c cmd).mpr hflooded)]
  · intro hflooded
    unfold Connection.next
    rw [if_neg hnot, hin, hinput]
    simp only
    rw [if_neg hdone, if_neg hready, if_neg fun hf => hflooded ((flooded_settle c cmd).mp hf), dispatch_settle]

theorem steps_idle (h : c.Idle S) :
    ∃ k, Steps S c k ∧ k.next S = none ∧ k.carried = c.carried ∧ k.consumed = c.consumed := by
  have hstop : ∀ {d : Connection}, d.closed = true → d.next S = none := fun hd => if_pos hd
  by_cases hclosed : c.closed = true
  · exact ⟨c, Relation.ReflTransGen.refl, hstop hclosed, rfl, rfl⟩
  have hopen : c.closed = false := Bool.not_eq_true _ ▸ hclosed
  cases hinput : c.input with
  | nil =>
    refine ⟨c, Relation.ReflTransGen.refl, ?_, rfl, rfl⟩
    unfold Connection.next
    rw [if_neg hclosed, hinput]
  | cons cmd rest =>
    obtain ⟨hin, hclosed', hconsumed, hcarried⟩ := settle_input c cmd
    have hsettled := steps_settle (S := S) hopen hinput
    by_cases hwaits : c.Waits S cmd
    · refine ⟨c.settle cmd, hsettled, ?_, hcarried, hconsumed⟩
      have hdone := settle_authed c cmd
      unfold Connection.next
      rw [if_neg (by rw [hclosed']; exact hclosed), hin, hinput]
      simp only
      rw [if_neg hdone, if_pos ((waits_settle c cmd).mpr hwaits)]
    · obtain ⟨hnextFlooded, hnextUnknown⟩ := next_settle hopen hinput hwaits
      refine ⟨(c.settle cmd).close, hsettled.tail ?_, hstop rfl, hcarried, hconsumed⟩
      by_cases hflooded : c.Flooded S cmd
      · exact hnextFlooded hflooded
      · have hunknown : c.dispatch S cmd = none := ((h cmd rest hinput).resolve_left hwaits).resolve_left hflooded
        have hnext := hnextUnknown hflooded
        rw [hunknown] at hnext
        exact hnext

end Steps

end HysteriaCore.Auth
