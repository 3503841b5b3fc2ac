import HysteriaCore.Lib.Obligations
import HysteriaCore.Lib.Runs
import HysteriaCore.Warden.Answers
import Mathlib.Data.Fin.VecNotation

/-!
# Requests that go unanswered

A request is met by an answer or by a penalty before the next one is sent, and
a wrong answer to a check that kicks or bans removes the session: along every
run whose packets hold what they have to hold while a request is out, and whose
wrong answers end with one that counts.
-/

namespace HysteriaCore.Warden
open Lib Net WardenWin

variable {mgr : WardenCheckMgr} {sha1 : Bytes → Fin 5 → UInt32} {config : Config}

/-! ### What an input can do -/

def NoRequest (outcomes : List (Outcome mgr)) : Prop :=
  ∀ checks, Outcome.cheatChecksRequest checks ∉ outcomes

theorem noRequest_handleData (w : WardenWin mgr) (buff : ByteBuffer) :
    NoRequest (handleData sha1 w buff).2 := by
  intro checks hmem
  have hpen := fun check id => (penalty_ne_request check id checks).symm
  unfold handleData at hmem
  dsimp only at hmem
  repeat' split at hmem
  all_goals simp [hpen] at hmem

theorem handleData_fields (sha1 : Bytes → Fin 5 → UInt32) (w : WardenWin mgr) (buff : ByteBuffer) :
    (handleData sha1 w buff).1.dataSent = false ∧
      (handleData sha1 w buff).1.currentChecks = w.currentChecks := by
  unfold handleData
  dsimp only
  repeat' split
  all_goals exact ⟨rfl, rfl⟩

/-- A request goes out when none is; a CHEAT_CHECKS_RESULT packet ends it; everything else
leaves it. -/
inductive Responds (sha1 : Bytes → Fin 5 → UInt32) (w : WardenWin mgr) (input : Input)
    (w' : WardenWin mgr) (outcomes : List (Outcome mgr)) : Prop where
  | request (hsent : w.dataSent = false) (hsent' : w'.dataSent = true)
      (hout : outcomes = [.cheatChecksRequest w'.currentChecks])
      (hinput : ∃ now, input = .update now)
  | answer {body : Bytes} {past : ℕ → UInt8} {now : BitVec 32}
      (hinput : input = .packet (2 :: body) past now) (hsent' : w'.dataSent = false)
      (hchecks : w'.currentChecks = w.currentChecks)
      (hout : outcomes = (handleData sha1 w { storage := 2 :: body, rpos := 1, past }).2)
  | other (hsent : w'.dataSent = w.dataSent) (hchecks : w'.currentChecks = w.currentChecks)
      (hout : NoRequest outcomes) (hinput : ∀ body past now, input ≠ .packet (2 :: body) past now)

theorem responds_update (w : WardenWin mgr) (now : BitVec 32) :
    Responds sha1 w (.update now) (w.update config now).1 (w.update config now).2 := by
  unfold WardenWin.update
  dsimp only
  split
  · split
    · split
      · exact .other rfl rfl (by simp [NoRequest]) (by simp)
      · exact .other rfl rfl (by simp [NoRequest]) (by simp)
    · rename_i hsent
      split
      · exact .request (Bool.of_not_eq_true hsent) rfl rfl ⟨now, rfl⟩
      · exact .other rfl rfl (by simp [NoRequest]) (by simp)
  · exact .other rfl rfl (by simp [NoRequest]) (by simp)

theorem responds_packet (w : WardenWin mgr) (contents : Bytes) (past : ℕ → UInt8) (now : BitVec 32) :
    let r := w.handleWardenDataOpcode sha1 { storage := contents, rpos := 0, past } now
    Responds sha1 w (.packet contents past now) r.1 r.2 := by
  unfold handleWardenDataOpcode
  dsimp only
  cases contents with
  | nil => exact .other rfl rfl (by simp [NoRequest]) (by simp)
  | cons opcode body =>
    dsimp only
    split
    · exact .other rfl rfl (by simp [NoRequest]) (by simp)
    · exact .other rfl rfl (by simp [NoRequest]) (by simp)
    · obtain ⟨hsent, hchecks⟩ :=
        handleData_fields sha1 w { storage := 2 :: body, rpos := 1, past }
      exact .answer rfl hsent hchecks rfl
    · unfold handleHashResult
      dsimp only
      have hpen := fun check id (checks : List mgr.Known) =>
        (penalty_ne_request check id checks).symm
      split
      · exact .other rfl rfl (by simp [NoRequest, hpen]) (by simp)
      · exact .other rfl rfl (by simp [NoRequest]) (by simp)
    · rename_i hresult _
      refine .other rfl rfl (by simp [NoRequest]) ?_
      intro body' past' now' heq
      obtain ⟨hopcode, _⟩ := List.cons.inj (Input.packet.inj heq).1
      exact hresult hopcode

theorem responds (sha1 : Bytes → Fin 5 → UInt32) (config : Config) (w : WardenWin mgr)
    (input : Input) :
    Responds sha1 w input (respond sha1 config w input).1 (respond sha1 config w input).2 := by
  cases input with
  | update now => exact responds_update w now
  | packet contents past now => exact responds_packet w contents past now

/-! ### The property -/

def Meets (sha1 : Bytes → Fin 5 → UInt32) (checks : List mgr.Known) (t : Turn mgr) : Prop :=
  (∃ contents past now, t.input = .packet contents past now ∧
    AnswersRequest sha1 (checks.map mgr.row) contents) ∨ ∃ o ∈ t.outcomes, o.IsPenalty

def Requests (t : Turn mgr) (checks : List mgr.Known) : Prop :=
  .cheatChecksRequest checks ∈ t.outcomes

def FailuresCount (sha1 : Bytes → Fin 5 → UInt32) (t : Turn mgr) : Prop :=
  ∀ body past now wrong, t.input = .packet (2 :: body) past now →
    judge sha1 t.checks body = some (.answered wrong) →
    ∀ id ∈ wrong, (mgr.row id).action ≠ .log → ∃ o ∈ t.outcomes, o.IsRemoval

structure NotEvaded (sha1 : Bytes → Fin 5 → UInt32) (s : Session mgr) : Prop where
  met : MetInTurn Requests (Meets sha1) s.trace
  counted : ∀ t ∈ s.trace, FailuresCount sha1 t

/-- The last wrong answer decides: its id is not 0, and it kicks or bans where one of them does. -/
def Counted (wrong : List mgr.Known) : Prop :=
  match wrong.getLast? with
  | none => True
  | some last => 0 < last.1 ∧
    ((∃ id ∈ wrong, (mgr.row id).action ≠ .log) → (mgr.row last).action ≠ .log)

instance (wrong : List mgr.Known) : Decidable (Counted wrong) :=
  match h : wrong.getLast? with
  | none => isTrue (by simp [Counted, h])
  | some last =>
    decidable_of_iff (0 < last.1 ∧
      ((∃ id ∈ wrong, (mgr.row id).action ≠ .log) → (mgr.row last).action ≠ .log))
      (by simp only [Counted, h])

def VerdictCounts (dataSent : Bool) : Option (Verdict mgr) → Prop
  | none => dataSent = false
  | some (.answered wrong) => Counted wrong
  | some _ => True

instance (dataSent : Bool) (v : Option (Verdict mgr)) : Decidable (VerdictCounts dataSent v) :=
  match v with
  | none => inferInstanceAs (Decidable (_ = _))
  | some (.answered wrong) => inferInstanceAs (Decidable (Counted wrong))
  | some .badChecksum | some .badTiming => isTrue trivial

/-- A CHEAT_CHECKS_RESULT packet ends early only while no request is out, and its wrong
answers count. -/
def Accountable (sha1 : Bytes → Fin 5 → UInt32) (s : Session mgr) : Input → Prop
  | .packet (2 :: body) _ _ =>
    VerdictCounts s.warden.dataSent (judge sha1 s.warden.currentChecks body)
  | _ => True

instance (s : Session mgr) : ∀ input, Decidable (Accountable sha1 s input)
  | .packet contents _ _ =>
    match contents with
    | [] => isTrue trivial
    | opcode :: body =>
      if h : opcode = 2 then
        decidable_of_iff (VerdictCounts s.warden.dataSent (judge sha1 s.warden.currentChecks body))
          (by rw [h]; rfl)
      else isTrue (by unfold Accountable; split <;> simp_all)
  | .update _ => isTrue trivial

/-! ### Runs -/

def Session.pending (s : Session mgr) : Option (List mgr.Known) :=
  if s.warden.dataSent then some s.warden.currentChecks else none

theorem met_or_penalty {w : WardenWin mgr} {body : Bytes} (past : ℕ → UInt8) {v : Verdict mgr}
    (h : judge sha1 w.currentChecks body = some v)
    (hcounted : ∀ wrong, v = .answered wrong → Counted wrong) :
    AnswersRequest sha1 (w.currentChecks.map mgr.row) (2 :: body) ∨
      ∃ o ∈ (handleData sha1 w { storage := 2 :: body, rpos := 1, past }).2, o.IsPenalty := by
  rw [handleData_eq rfl h]
  cases v with
  | badChecksum => exact .inr ⟨_, List.mem_singleton_self _, isPenalty_penalty none 0⟩
  | badTiming => exact .inr ⟨_, List.mem_singleton_self _, isPenalty_penalty none 0⟩
  | answered wrong =>
    have hc := hcounted wrong rfl
    cases hlast : wrong.getLast? with
    | none =>
      obtain rfl := List.getLast?_eq_none_iff.mp hlast
      exact .inl (answersRequest_of_judge h)
    | some last =>
      simp only [Counted, hlast] at hc
      right
      simp only [Verdict.outcomes, hlast, if_pos hc.1]
      exact ⟨_, List.mem_singleton_self _, isPenalty_penalty _ _⟩

theorem removal_of_counted {w : WardenWin mgr} {body : Bytes} {past : ℕ → UInt8}
    {wrong : List mgr.Known} (h : judge sha1 w.currentChecks body = some (.answered wrong))
    (hcounted : Counted wrong) {id : mgr.Known} (hid : id ∈ wrong)
    (hact : (mgr.row id).action ≠ .log) :
    ∃ o ∈ (handleData sha1 w { storage := 2 :: body, rpos := 1, past }).2, o.IsRemoval := by
  rw [handleData_eq rfl h]
  cases hlast : wrong.getLast? with
  | none =>
    obtain rfl := List.getLast?_eq_none_iff.mp hlast
    cases hid
  | some last =>
    simp only [Counted, hlast] at hcounted
    obtain ⟨hpos, hremoves⟩ := hcounted
    simp only [Verdict.outcomes, hlast, if_pos hpos]
    exact ⟨_, List.mem_singleton_self _, isRemoval_penalty (hremoves ⟨id, hid, hact⟩) _⟩

structure Invariant (sha1 : Bytes → Fin 5 → UInt32) (s : Session mgr) : Prop where
  notEvaded : NotEvaded sha1 s
  pending : MetOrPending Requests (Meets sha1) s.pending s.trace

variable {s : Session mgr} {input : Input}

theorem pending_of_requests {checks : List mgr.Known}
    (h : Requests (s.turn sha1 config input) checks) :
    s.pending = none ∧ (s.next sha1 config input).pending = some checks := by
  cases responds sha1 config s.warden input with
  | request hsent hsent' hout hinput =>
    have hmem : .cheatChecksRequest checks ∈ (respond sha1 config s.warden input).2 := h
    rw [hout] at hmem
    obtain rfl : checks = (respond sha1 config s.warden input).1.currentChecks := by
      simpa using hmem
    exact ⟨by simp [Session.pending, hsent], by simp [Session.pending, Session.next, hsent']⟩
  | answer hinput hsent' hchecks hout =>
    have hmem : .cheatChecksRequest checks ∈ (respond sha1 config s.warden input).2 := h
    rw [hout] at hmem
    exact absurd hmem (noRequest_handleData s.warden _ checks)
  | other hsent hchecks hout hinput => exact absurd h (hout checks)

theorem meets_or_pending {checks : List mgr.Known}
    (hok : Accountable sha1 s input) (h : s.pending = some checks) :
    Meets sha1 checks (s.turn sha1 config input) ∨
      (s.next sha1 config input).pending = some checks := by
  obtain ⟨hsent, rfl⟩ : s.warden.dataSent = true ∧ s.warden.currentChecks = checks := by
    simpa [Session.pending] using h
  cases responds sha1 config s.warden input with
  | request hsent' => simp [hsent] at hsent'
  | @answer body past now hinput hsent' hchecks hout =>
    left
    subst hinput
    cases hjudge : judge sha1 s.warden.currentChecks body with
    | none => simp [Accountable, VerdictCounts, hjudge, hsent] at hok
    | some v =>
      have hcounted : ∀ wrong, v = .answered wrong → Counted wrong := by
        rintro wrong rfl
        simpa [Accountable, VerdictCounts, hjudge] using hok
      rcases met_or_penalty past hjudge hcounted with hanswer | hpenalty
      · exact .inl ⟨2 :: body, past, now, rfl, hanswer⟩
      · exact .inr (by simpa only [Session.turn, hout] using hpenalty)
  | other hsent' hchecks hout hinput =>
    right
    simp [Session.pending, Session.next, hsent', hchecks, hsent]

theorem failuresCount_turn (hok : Accountable sha1 s input) : FailuresCount sha1 (s.turn sha1 config input) := by
  rintro body past now wrong rfl hjudge id hid hact
  have hcounted : Counted wrong := by
    have hjudge' : judge sha1 s.warden.currentChecks body = some (.answered wrong) := hjudge
    simpa [Session.turn, Accountable, VerdictCounts, hjudge'] using hok
  exact removal_of_counted hjudge hcounted hid hact

theorem invariant_step {s t : Session mgr} (h : Invariant sha1 s)
    (hok : Accountable sha1 s input) (hstep : step sha1 config s input = some t) :
    Invariant sha1 t := by
  obtain rfl := Option.some.inj hstep
  constructor
  · constructor
    · exact h.notEvaded.met.concat h.pending fun _ hc => (pending_of_requests hc).1
    · intro u hu
      rcases List.mem_append.mp hu with hold | hnew
      · exact h.notEvaded.counted u hold
      · obtain rfl := List.mem_singleton.mp hnew
        exact failuresCount_turn hok
  · apply h.pending.concat
    · exact fun _ hpending => meets_or_pending hok hpending
    · exact fun _ hc => (pending_of_requests hc).2

theorem invariant_starts (h : Starts s) : Invariant sha1 s := by
  obtain rfl := h
  exact ⟨⟨.nil, by simp [Session.initial]⟩, .nil⟩

def emptyDigest (_ : Bytes) : Fin 5 → UInt32 :=
  ![0xeea339da, 0x0d4b6b5e, 0xefbf5532, 0x90186095, 0x0907d8af]

def sampleStore : CheckId → Option WardenCheck
  | 786 | 209 => some ⟨.moduleCheck, 0, .kick, fun _ => 0⟩
  | 51 => some ⟨.luaStrCheck, 0, .log, fun _ => 0⟩
  | _ => none

def sampleMgr : WardenCheckMgr where
  checkStore := sampleStore
  memChecksIdPool := []
  otherChecksIdPool := [⟨51, by decide⟩]
  wpePro := by decide
  woWEmuHacker := by decide

def sampleConfig : Config := ⟨1, 1⟩

def requested : List Input :=
  [.packet (4 :: clientKeySeedHash) (fun _ => 0) 0, .update 10000]

def resultPacket (answers : Bytes) : Input :=
  .packet ([2, 0, 0, 0x8c, 0xbf, 0x48, 0x95, 1, 0, 0, 0, 0] ++ answers) (fun _ => 0) 0

def Turn.requested (t : Turn mgr) : Bool :=
  t.outcomes.any fun o => match o with
    | .cheatChecksRequest _ => true
    | _ => false

theorem Turn.exists_requests {t : Turn mgr} (h : t.requested = true) : ∃ checks, Requests t checks := by
  obtain ⟨o, ho, hreq⟩ := List.any_eq_true.mp h
  cases o with
  | cheatChecksRequest checks => exact ⟨checks, ho⟩
  | _ => cases hreq

def evades : List (Turn mgr) → Bool
  | [_, t, ⟨_, .packet [2] _ _, []⟩, u] => t.requested && u.requested
  | _ => false

theorem not_metInTurn_of_evades {trace : List (Turn mgr)} (h : evades trace = true) :
    ¬ MetInTurn Requests (Meets sha1) trace := by
  intro hmet
  unfold evades at h
  split at h
  · rename_i a t checks past now u
    obtain ⟨ht, hu⟩ := Bool.and_eq_true_iff.mp h
    obtain ⟨k, hk⟩ := t.exists_requests ht
    obtain ⟨k', hk'⟩ := u.exists_requests hu
    obtain ⟨v, hv, hmeets⟩ := hmet [a] t [⟨checks, .packet [2] past now, []⟩] u [] k k' rfl hk hk'
    obtain rfl := List.mem_singleton.mp hv
    rcases hmeets with ⟨contents, past', now', hinput, hanswer⟩ | ⟨o, ho, _⟩
    · obtain ⟨rfl, _, _⟩ := Input.packet.inj hinput
      obtain ⟨_, _, _, _, _, _, _, _, _, _, _, _, hcontents, _⟩ := hanswer
      simp at hcontents
    · cases ho
  · cases h

end HysteriaCore.Warden
