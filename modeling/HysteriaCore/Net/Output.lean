import HysteriaCore.Lib.Runs
import HysteriaCore.Net.Packet

/-!
# Sending bytes to a peer (shade/Server/Generics/Socket.cpp, ClientSocket.cpp, NodeSocket.cpp)

`SendPacket` and `handle_output` run under one lock. The bytes wait in a linear buffer and,
when that is full, in an `ACE_Message_Queue`, which is first in first out and refuses a
block once the bytes queued have reached its high-water mark.
-/

namespace HysteriaCore.Net
open Lib

def highWaterMark : ℕ := 8 * 1024 * 1024

structure Cipher (κ : Type) where
  updateData : κ → Bytes → Bytes × κ
  length_updateData : ∀ k b, (updateData k b).1.length = b.length

/-- What a kind of socket sends with: the class of its header, and its cipher. -/
structure SocketKind (κ : Type) where
  header : ℕ → ℕ → Bytes
  cipher : Cipher κ

def clientSocket {κ : Type} (cipher : Cipher κ) : SocketKind κ := ⟨Blizzard.serverPktHeader, cipher⟩
def nodeSocket {κ : Type} (cipher : Cipher κ) : SocketKind κ := ⟨Flexi.serverPktHeader, cipher⟩

/-- The sending half of a `Socket`. `failed` says that `handle_output` returned -1, so the
reactor calls it no more and closes the socket. `accepted` are the bytes that the peer took,
`sent` those of the packets for which `SendPacket` did not return -1. -/
structure Writer (κ : Type) where
  crypt : Option κ
  outBuffer : MessageBlock
  msgQueue : List MessageBlock
  closing : Bool
  failed : Bool
  accepted : Bytes
  sent : Bytes

/-- What `peer().send` does: it takes at least one byte, it would block, or it fails. -/
inductive SendResult where
  | accepted (n : ℕ)
  | wouldBlock
  | failed
  deriving DecidableEq

namespace Writer

variable {κ : Type} (kind : SocketKind κ)

def initial (outBufferSize : ℕ) : Writer κ := ⟨none, ⟨outBufferSize, []⟩, [], false, false, [], []⟩

def encryptSend (crypt : Option κ) (data : Bytes) : Bytes × Option κ :=
  match crypt with
  | some k =>
    let (data, k) := kind.cipher.updateData k data
    (data, some k)
  | none => (data, none)

def queuedBytes (q : List MessageBlock) : ℕ := (q.map MessageBlock.size).sum

def isFull (q : List MessageBlock) : Bool := decide (highWaterMark ≤ queuedBytes q)

def packetHeader (w : Writer κ) (p : WorldPacket) : Bytes × Option κ :=
  encryptSend kind w.crypt (kind.header (p.contents.length + 2) p.opcode)

def packetBytes (w : Writer κ) (p : WorldPacket) : Bytes := (w.packetHeader kind p).1 ++ p.contents

def fits (w : Writer κ) (p : WorldPacket) : Prop :=
  p.contents.length + (w.packetHeader kind p).1.length ≤ w.outBuffer.space ∧ w.msgQueue = []

instance (w : Writer κ) (p : WorldPacket) : Decidable (w.fits kind p) :=
  inferInstanceAs (Decidable (_ ∧ _))

/-- `_sendPacket`; false is the return value -1. `allocated` says that there is memory for a
block. -/
def sendPacket_ (w : Writer κ) (p : WorldPacket) (allocated : Bool) : Bool × Writer κ :=
  let header := (w.packetHeader kind p).1
  let crypt := (w.packetHeader kind p).2
  if w.fits kind p then
    (true, { w with crypt, outBuffer := (w.outBuffer.copy header).copy p.contents })
  else if allocated = false then (false, { w with crypt })
  else
    let mb : MessageBlock := ⟨p.contents.length + header.length, []⟩
    let mb := (mb.copy header).copy p.contents
    if isFull w.msgQueue then (false, { w with crypt })
    else (true, { w with crypt, msgQueue := w.msgQueue ++ [mb] })

/-- `SendPacket`; `woken` is the success of `schedule_wakeup_output`. -/
def sendPacket (w : Writer κ) (p : WorldPacket) (allocated woken : Bool) : Writer κ :=
  if w.closing then w
  else
    match w.sendPacket_ kind p allocated with
    | (false, t) => t
    | (true, t) => if woken then { t with sent := t.sent ++ w.packetBytes kind p } else t

def fail (w : Writer κ) : Writer κ := { w with failed := true }

/-- `handle_output` returns what `schedule_wakeup_output` or `cancel_wakeup_output` does. -/
def wakeup (w : Writer κ) (woken : Bool) : Writer κ := if woken then w else w.fail

def enqueueHead (w : Writer κ) (mb : MessageBlock) : Bool × Writer κ :=
  if isFull w.msgQueue then (false, w) else (true, { w with msgQueue := mb :: w.msgQueue })

def handleOutputQueue (w : Writer κ) (result : SendResult) (woken : Bool) : Writer κ :=
  match w.msgQueue with
  | [] => w.wakeup woken
  | mblk :: rest =>
    let w := { w with msgQueue := rest }
    match result with
    | .failed => w.fail
    -- the result of this `enqueue_head` is not looked at
    | .wouldBlock => (w.enqueueHead mblk).2.wakeup woken
    | .accepted n =>
      let n := min (n + 1) mblk.data.length
      let w := { w with accepted := w.accepted ++ mblk.data.take n }
      if n = 0 then w.fail
      else if n < mblk.data.length then
        match w.enqueueHead (mblk.advance n) with
        | (true, w) => w.wakeup woken
        | (false, w) => w.fail
      else if rest = [] then w.wakeup woken
      else w

/-- `handle_output`; `next` answers the second call of `send`, where there is one. -/
def handleOutput (w : Writer κ) (result next : SendResult) (woken : Bool) : Writer κ :=
  if w.closing then w.fail
  else if w.outBuffer.data = [] then w.handleOutputQueue result woken
  else
    match result with
    | .failed => w.fail
    | .wouldBlock => w.wakeup woken
    | .accepted n =>
      let n := min (n + 1) w.outBuffer.data.length
      let w' := { w with accepted := w.accepted ++ w.outBuffer.data.take n }
      if n < w.outBuffer.data.length then
        { w' with outBuffer := w.outBuffer.advance n }.wakeup woken
      else { w' with outBuffer := w.outBuffer.reset }.handleOutputQueue next woken

inductive Event (κ : Type) where
  | sendPacket (p : WorldPacket) (allocated woken : Bool)
  | handleOutput (result next : SendResult) (woken : Bool)
  | initCrypt (k : κ)
  | close

def step (w : Writer κ) : Event κ → Option (Writer κ)
  | .sendPacket p allocated woken => some (w.sendPacket kind p allocated woken)
  | .handleOutput result next woken => guarded (w.failed = false) (w.handleOutput result next woken)
  | .initCrypt k => some { w with crypt := some k }
  | .close => some { w with closing := true }

def Starts (w : Writer κ) : Prop := ∃ outBufferSize, w = initial outBufferSize

theorem initial_starts (outBufferSize : ℕ) : Starts (initial outBufferSize : Writer κ) :=
  ⟨outBufferSize, rfl⟩

/-! ### Accepted and sent bytes -/

def InStep (w : Writer κ) : Prop := w.closing = false → w.accepted <+: w.sent

def Stores (w : Writer κ) (p : WorldPacket) (allocated : Bool) : Prop :=
  w.fits kind p ∨ (allocated = true ∧ isFull w.msgQueue = false)

/-- What the peer answers for the first block of the queue, if `handle_output` gets there. -/
def queueResult (w : Writer κ) (result next : SendResult) : Option SendResult :=
  if w.outBuffer.data = [] then some result
  else
    match result with
    | .accepted n => if w.outBuffer.data.length ≤ n + 1 then some next else none
    | _ => none

/-- No block would block while the blocks behind it fill the queue, and the reactor can be
told of every packet that was stored. -/
def KeepsBytes (w : Writer κ) : Event κ → Prop
  | .sendPacket p allocated woken =>
    woken = true ∨ w.closing = true ∨ ¬ w.Stores kind p allocated
  | .handleOutput result next _ =>
    w.closing = true ∨ w.queueResult result next ≠ some .wouldBlock ∨ isFull w.msgQueue.tail = false
  | _ => True

def pending (w : Writer κ) : Bytes := w.outBuffer.data ++ w.msgQueue.flatMap MessageBlock.data

/-- What was accepted and what is pending is what was sent. After a failure the socket is
about to close, and some of the pending bytes may be gone. -/
structure StreamInv (w : Writer κ) : Prop where
  whole : w.failed = false → w.accepted ++ w.pending = w.sent
  accepted : w.accepted <+: w.sent

variable {kind}

variable {w : Writer κ} {p : WorldPacket}

theorem sendPacket_of_stores {allocated : Bool}
    (h : w.Stores kind p allocated) :
    ∃ t, w.sendPacket_ kind p allocated = (true, t) ∧ t.pending = w.pending ++ w.packetBytes kind p ∧
      t.accepted = w.accepted ∧ t.sent = w.sent ∧ t.failed = w.failed := by
  unfold sendPacket_
  by_cases hfits : w.fits kind p
  · refine ⟨_, if_pos hfits, ?_, rfl, rfl, rfl⟩
    obtain ⟨hspace, hempty⟩ := hfits
    simp [pending, packetBytes, hempty, MessageBlock.copy_copy hspace]
  · obtain ⟨halloc, hfull⟩ := h.resolve_left hfits
    have hspace : p.contents.length + (w.packetHeader kind p).1.length ≤
        (MessageBlock.mk (p.contents.length + (w.packetHeader kind p).1.length) []).space :=
      Nat.le_refl _
    dsimp only
    rw [if_neg hfits, if_neg (by simp [halloc]), hfull, if_neg (by simp)]
    refine ⟨_, rfl, ?_, rfl, rfl, rfl⟩
    simp [pending, packetBytes, MessageBlock.copy_copy hspace]

theorem sendPacket_of_not_stores {allocated : Bool}
    (h : ¬ w.Stores kind p allocated) :
    w.sendPacket_ kind p allocated = (false, { w with crypt := (w.packetHeader kind p).2 }) := by
  have hfits : ¬ w.fits kind p := fun hf => h (.inl hf)
  unfold sendPacket_
  dsimp only
  rw [if_neg hfits]
  cases halloc : allocated with
  | false => rfl
  | true =>
    have hfull : isFull w.msgQueue = true := by
      by_contra hne
      exact h (.inr ⟨halloc, Bool.eq_false_iff.mpr hne⟩)
    rw [if_neg (by decide), if_pos hfull]

theorem StreamInv.sendPacket (hw : StreamInv w)
    {allocated woken : Bool} (hok : KeepsBytes kind w (.sendPacket p allocated woken)) :
    StreamInv (w.sendPacket kind p allocated woken) := by
  unfold Writer.sendPacket
  by_cases hclosing : w.closing = true
  · rw [if_pos hclosing]
    exact hw
  · rw [if_neg hclosing]
    by_cases hstores : w.Stores kind p allocated
    · obtain ⟨t, ht, hpending, haccepted, hsent, hfailed⟩ := sendPacket_of_stores hstores
      have hwoken : woken = true := by
        rcases hok with h | h | h
        · exact h
        · exact absurd h hclosing
        · exact absurd hstores h
      rw [ht]
      dsimp only
      rw [if_pos hwoken]
      constructor
      · intro hf
        have hwhole := hw.whole (hfailed.symm.trans hf)
        show t.accepted ++ t.pending = t.sent ++ w.packetBytes kind p
        rw [hpending, haccepted, hsent, ← hwhole, List.append_assoc]
      · show t.accepted <+: t.sent ++ w.packetBytes kind p
        rw [haccepted, hsent]
        exact hw.accepted.trans (List.prefix_append ..)
    · rw [sendPacket_of_not_stores hstores]
      exact ⟨hw.whole, hw.accepted⟩

variable {w t : Writer κ}

theorem StreamInv.take (hw : StreamInv w) (hlive : w.failed = false) (taken : Bytes)
    (hsplit : ∃ rest, w.pending = taken ++ rest ∧ (t.failed = false → t.pending = rest))
    (haccepted : t.accepted = w.accepted ++ taken) (hsent : t.sent = w.sent) : StreamInv t := by
  obtain ⟨rest, hpending, hrest⟩ := hsplit
  have hwhole := hw.whole hlive
  rw [hpending] at hwhole
  constructor
  · intro hf
    rw [haccepted, hsent, hrest hf, List.append_assoc, hwhole]
  · rw [haccepted, hsent, ← hwhole, ← List.append_assoc]
    exact List.prefix_append ..

@[simp] theorem fail_failed (w : Writer κ) : w.fail.failed = true := rfl
@[simp] theorem wakeup_accepted (w : Writer κ) (b : Bool) : (w.wakeup b).accepted = w.accepted := by
  cases b <;> rfl
@[simp] theorem wakeup_sent (w : Writer κ) (b : Bool) : (w.wakeup b).sent = w.sent := by
  cases b <;> rfl
@[simp] theorem wakeup_pending (w : Writer κ) (b : Bool) : (w.wakeup b).pending = w.pending := by
  cases b <;> rfl

variable {woken : Bool}

theorem StreamInv.handleOutputQueue (hw : StreamInv w) (hlive : w.failed = false)
    (hbuffer : w.outBuffer.data = []) {result : SendResult}
    (hok : result = .wouldBlock → isFull w.msgQueue.tail = false) :
    StreamInv (w.handleOutputQueue result woken) := by
  unfold Writer.handleOutputQueue
  have hpending : w.pending = w.msgQueue.flatMap MessageBlock.data := by simp [pending, hbuffer]
  cases hq : w.msgQueue with
  | nil =>
    refine hw.take hlive [] ⟨w.pending, rfl, fun _ => wakeup_pending w woken⟩ ?_ (wakeup_sent w woken)
    rw [List.append_nil]
    exact wakeup_accepted w woken
  | cons mblk rest =>
    rw [hq, List.flatMap_cons] at hpending
    cases result with
    | failed =>
      refine hw.take hlive [] ⟨w.pending, rfl, fun hf => absurd hf (by simp)⟩ ?_ rfl
      exact (List.append_nil _).symm
    | wouldBlock =>
      have hroom : isFull rest = false := by simpa [hq] using hok rfl
      dsimp only
      simp only [enqueueHead, hroom, Bool.false_eq_true, ite_false]
      refine hw.take hlive [] ⟨w.pending, rfl, fun _ => ?_⟩ ?_ ?_
      · rw [wakeup_pending, hpending]
        simp [pending, hbuffer]
      · rw [wakeup_accepted]
        exact (List.append_nil _).symm
      · exact wakeup_sent ..
    | accepted n =>
      have hsplit : w.pending = mblk.data.take (min (n + 1) mblk.data.length) ++
          (mblk.data.drop (min (n + 1) mblk.data.length) ++ rest.flatMap MessageBlock.data) := by
        rw [hpending, ← List.append_assoc, List.take_append_drop]
      dsimp only
      split
      · exact hw.take hlive _ ⟨_, hsplit, fun hf => absurd hf (by simp)⟩ rfl rfl
      · split
        · -- a part was sent: the rest goes back to the head, or the socket fails
          unfold enqueueHead
          dsimp only
          cases hfull : isFull rest with
          | true => exact hw.take hlive _ ⟨_, hsplit, fun hf => absurd hf (by simp)⟩ rfl rfl
          | false =>
            refine hw.take hlive _ ⟨_, hsplit, fun _ => (wakeup_pending ..).trans ?_⟩
              (wakeup_accepted ..) (wakeup_sent ..)
            simp [pending, hbuffer, MessageBlock.advance]
        · rename_i hall
          have hdrop : mblk.data.drop (min (n + 1) mblk.data.length) = [] :=
            List.drop_eq_nil_of_le (Nat.le_of_not_lt hall)
          rw [hdrop, List.nil_append] at hsplit
          split
          · refine hw.take hlive _ ⟨_, hsplit, fun _ => ?_⟩ (wakeup_accepted ..) (wakeup_sent ..)
            rw [wakeup_pending]
            simp [pending, hbuffer]
          · refine hw.take hlive _ ⟨_, hsplit, fun _ => ?_⟩ rfl rfl
            simp [pending, hbuffer]

theorem StreamInv.fail (hw : StreamInv w) : StreamInv w.fail :=
  ⟨fun hf => absurd hf (by simp), hw.accepted⟩

theorem StreamInv.handleOutput (hw : StreamInv w) (hlive : w.failed = false)
    {result next : SendResult}
    (hok : KeepsBytes kind w (.handleOutput result next woken)) :
    StreamInv (w.handleOutput result next woken) := by
  unfold Writer.handleOutput
  by_cases hclosing : w.closing = true
  · rw [if_pos hclosing]
    exact hw.fail
  · have hroom := hok.resolve_left hclosing
    rw [if_neg hclosing]
    by_cases hbuffer : w.outBuffer.data = []
    · rw [if_pos hbuffer]
      refine hw.handleOutputQueue hlive hbuffer fun hblock => hroom.resolve_left ?_
      simp [queueResult, hbuffer, hblock]
    · rw [if_neg hbuffer]
      cases result with
      | failed => exact hw.fail
      | wouldBlock =>
        refine hw.take hlive [] ⟨w.pending, rfl, fun _ => wakeup_pending w woken⟩ ?_ (wakeup_sent w woken)
        rw [List.append_nil]
        exact wakeup_accepted w woken
      | accepted n =>
        have hsplit : w.pending = w.outBuffer.data.take (min (n + 1) w.outBuffer.data.length) ++
            (w.outBuffer.data.drop (min (n + 1) w.outBuffer.data.length) ++
              w.msgQueue.flatMap MessageBlock.data) := by
          rw [← List.append_assoc, List.take_append_drop, pending]
        dsimp only
        split
        · refine hw.take hlive _ ⟨_, hsplit, fun _ => ?_⟩ (wakeup_accepted ..) (wakeup_sent ..)
          rw [wakeup_pending]
          rfl
        · -- the buffer is empty now, and the queue has its turn
          rename_i hall
          have hdrop : w.outBuffer.data.drop (min (n + 1) w.outBuffer.data.length) = [] :=
            List.drop_eq_nil_of_le (Nat.le_of_not_lt hall)
          rw [hdrop, List.nil_append] at hsplit
          have hle : w.outBuffer.data.length ≤ n + 1 := by omega
          have hnext : StreamInv { w with
              accepted := w.accepted ++ w.outBuffer.data.take (min (n + 1) w.outBuffer.data.length)
              outBuffer := w.outBuffer.reset } :=
            hw.take hlive _ ⟨_, hsplit, fun _ => by simp [pending, MessageBlock.reset]⟩ rfl rfl
          refine hnext.handleOutputQueue hlive rfl fun hblock => hroom.resolve_left ?_
          simp [queueResult, hbuffer, hle, hblock]

theorem StreamInv.step {e : Event κ} (hw : StreamInv w) (hok : KeepsBytes kind w e)
    (h : w.step kind e = some t) : StreamInv t := by
  cases e with
  | sendPacket p allocated woken =>
    cases h
    exact hw.sendPacket hok
  | handleOutput result next woken =>
    obtain ⟨hlive, rfl⟩ := guarded_eq_some.mp h
    exact hw.handleOutput hlive hok
  | initCrypt k | close =>
    cases h
    exact ⟨hw.whole, hw.accepted⟩

/-- In a run that loses no block and in which the reactor learns of each packet stored, the
peer has a prefix of what was sent, in every state with the socket open. -/
theorem accepted_prefix_of_sent {w : Writer κ} (h : Reaches (step kind) (KeepsBytes kind) Starts w) :
    InStep w := by
  have hw : StreamInv w := by
    refine h.invariant ?_ fun _ _ _ hw hok ht => hw.step hok ht
    rintro w ⟨size, rfl⟩
    exact ⟨fun _ => rfl, List.prefix_rfl⟩
  exact fun _ => hw.accepted

instance (w : Writer κ) (p : WorldPacket) (allocated : Bool) : Decidable (w.Stores kind p allocated) :=
  inferInstanceAs (Decidable (_ ∨ _))

instance (w : Writer κ) (e : Event κ) : Decidable (w.KeepsBytes kind e) :=
  match e with
  | .sendPacket .. | .handleOutput .. => inferInstanceAs (Decidable (_ ∨ _ ∨ _))
  | .initCrypt _ | .close => isTrue trivial

def plain : Cipher Unit := ⟨fun k b => (b, k), fun _ _ => rfl⟩

def updateObject (n : ℕ) : WorldPacket := ⟨⟨0xA9, by decide⟩, List.replicate n 0⟩

/-- Two packets, the second of which has to wait in the queue and leaves it in two parts. -/
theorem accepted_prefix_of_sent_two :
    ∃ w, Reaches (step (clientSocket plain)) (KeepsBytes (clientSocket plain)) Starts w ∧
      w.accepted.length = 14 ∧ InStep w := by
  obtain ⟨w, hw, h⟩ := Reaches.exists_of_replay (step (clientSocket plain))
    (KeepsBytes (clientSocket plain)) (initial_starts 8)
    [.sendPacket (updateObject 3) true true, .sendPacket (updateObject 5) true true,
      .handleOutput (.accepted 4) .wouldBlock true, .handleOutput (.accepted 1) (.accepted 2) true,
      .handleOutput .wouldBlock .wouldBlock true, .handleOutput (.accepted 3) .wouldBlock true]
    (by decide) (fun w => decide (w.accepted.length = 14)) (by decide)
  exact ⟨w, hw, of_decide_eq_true h, accepted_prefix_of_sent hw⟩

theorem sendPacket_queued (hclosing : w.closing = false)
    (hfits : ¬ w.fits kind p) (hroom : isFull w.msgQueue = false) :
    w.sendPacket kind p true true =
      { w with
        crypt := (w.packetHeader kind p).2
        msgQueue := w.msgQueue ++ [⟨(w.packetBytes kind p).length, w.packetBytes kind p⟩]
        sent := w.sent ++ w.packetBytes kind p } := by
  have hspace : p.contents.length + (w.packetHeader kind p).1.length ≤
      (MessageBlock.mk (p.contents.length + (w.packetHeader kind p).1.length) []).space := Nat.le_refl _
  have hlength : p.contents.length + (w.packetHeader kind p).1.length =
      (w.packetBytes kind p).length := by
    rw [packetBytes, List.length_append, Nat.add_comm]
  have hsend : w.sendPacket_ kind p true = (true, { w with
      crypt := (w.packetHeader kind p).2
      msgQueue := w.msgQueue ++ [⟨(w.packetBytes kind p).length, w.packetBytes kind p⟩] }) := by
    unfold sendPacket_
    dsimp only
    rw [if_neg hfits, if_neg (by decide), hroom, if_neg (by decide), MessageBlock.copy_copy hspace,
      List.nil_append, hlength]
    rfl
  unfold sendPacket
  rw [if_neg (by rw [hclosing]; decide), hsend]
  rfl

theorem handleOutput_lost {m : MessageBlock} {r : List MessageBlock}
    (hclosing : w.closing = false) (hbuffer : w.outBuffer.data = []) (hq : w.msgQueue = m :: r)
    (hfull : isFull r = true) (next : SendResult) :
    w.handleOutput .wouldBlock next true = { w with msgQueue := r } := by
  unfold handleOutput handleOutputQueue
  rw [if_neg (by rw [hclosing]; decide), if_pos hbuffer, hq]
  dsimp only
  rw [enqueueHead, if_pos hfull]
  rfl

theorem handleOutput_accepted {m : MessageBlock} {r : List MessageBlock}
    (hclosing : w.closing = false) (hbuffer : w.outBuffer.data = []) (hq : w.msgQueue = m :: r)
    {b : UInt8} {tail : Bytes} (hdata : m.data = b :: tail) (next : SendResult) :
    ∃ t, w.handleOutput (.accepted 0) next true = t ∧ t.accepted = w.accepted ++ [b] ∧
      t.sent = w.sent ∧ t.closing = false := by
  have hmin : min (0 + 1) m.data.length = 1 := by
    rw [hdata, List.length_cons]
    omega
  unfold handleOutput handleOutputQueue
  rw [if_neg (by rw [hclosing]; decide), if_pos hbuffer, hq]
  dsimp only
  rw [hmin, if_neg Nat.one_ne_zero, hdata, List.take_succ_cons, List.take_zero]
  split
  · cases hfull : isFull r with
    | true =>
      rw [enqueueHead, if_pos hfull]
      exact ⟨_, rfl, rfl, rfl, hclosing⟩
    | false =>
      rw [enqueueHead, if_neg (by rw [hfull]; decide)]
      exact ⟨_, rfl, rfl, rfl, hclosing⟩
  · split
    · exact ⟨_, rfl, rfl, rfl, hclosing⟩
    · exact ⟨_, rfl, rfl, rfl, hclosing⟩

def queueing (msgQueue : List MessageBlock) (sent : Bytes) : Writer Unit :=
  ⟨none, ⟨65536, []⟩, msgQueue, false, false, [], sent⟩

def updateObjectBytes (n : ℕ) : Bytes := Blizzard.serverPktHeader (n + 2) 0xA9 ++ (updateObject n).contents

theorem updateObjectBytes_large {n : ℕ} (hn : 0x7FFF < n) (hn' : n + 2 < 2^23) :
    ∃ tail, updateObjectBytes n = UInt8.ofNat (0x80 ||| ((n + 2) / 2^16 % 2^8)) :: tail ∧
      tail.length = n + 4 := by
  have hsize : u32 (n + 2) = n + 2 := u32_of_lt (by omega)
  have hlarge : 0x7FFF < n + 2 := by omega
  have hlength : (updateObject n).contents.length = n := List.length_replicate
  unfold updateObjectBytes
  generalize (updateObject n).contents = contents at hlength ⊢
  simp only [Blizzard.serverPktHeader, hsize, if_pos hlarge, List.cons_append, List.nil_append]
  refine ⟨_, rfl, ?_⟩
  simp only [List.length_cons]
  omega

theorem queueing_sendPacket {q : List MessageBlock} {sent : Bytes} {n : ℕ} (hn : 65536 < n)
    (hn' : n + 2 < 2^23) (hroom : isFull q = false) :
    (queueing q sent).sendPacket (clientSocket plain) (updateObject n) true true =
      queueing (q ++ [⟨n + 5, updateObjectBytes n⟩]) (sent ++ updateObjectBytes n) := by
  have hlength : (updateObject n).contents.length = n := List.length_replicate
  have hfits : ¬ (queueing q sent).fits (clientSocket plain) (updateObject n) := by
    rintro ⟨hspace, -⟩
    have hspace' : n + _ ≤ 65536 - 0 := hlength ▸ hspace
    omega
  have hbytes : (queueing q sent).packetBytes (clientSocket plain) (updateObject n) =
      updateObjectBytes n := by
    unfold packetBytes packetHeader updateObjectBytes
    rw [hlength]
    rfl
  have hsize : (updateObjectBytes n).length = n + 5 := by
    obtain ⟨tail, htail, hlen⟩ := updateObjectBytes_large (by omega) hn'
    rw [htail, List.length_cons, hlen]
  rw [sendPacket_queued rfl hfits hroom, hbytes, hsize]
  rfl

theorem queueing_next {q : List MessageBlock} {sent : Bytes} (n : ℕ)
    (h : Reaches (step (clientSocket plain)) anyStep Starts (queueing q sent)) (hn : 65536 < n)
    (hn' : n + 2 < 2^23) (hroom : isFull q = false) :
    Reaches (step (clientSocket plain)) anyStep Starts
      (queueing (q ++ [⟨n + 5, updateObjectBytes n⟩]) (sent ++ updateObjectBytes n)) :=
  .next (a := .sendPacket (updateObject n) true true) h trivial
    (congrArg some (queueing_sendPacket hn hn' hroom))

theorem handleOutput_next {result next : SendResult}
    (h : Reaches (step kind) anyStep Starts w) (hlive : w.failed = false)
    (ht : w.handleOutput result next woken = t) : Reaches (step kind) anyStep Starts t :=
  .next (a := .handleOutput result next woken) h trivial (guarded_eq_some.mpr ⟨hlive, ht⟩)

/-- A block of the queue is lost when the peer takes nothing, and the next one is sent in
its place. -/
theorem accepted_gap :
    ¬ ∀ w, Reaches (step (clientSocket plain)) anyStep Starts w → InStep w := by
  intro hall
  obtain ⟨tailA, hA, -⟩ := updateObjectBytes_large (n := 70000) (by decide) (by decide)
  obtain ⟨tailB, hB, -⟩ := updateObjectBytes_large (n := 4200000) (by decide) (by decide)
  have h₀ : Reaches (step (clientSocket plain)) anyStep Starts (queueing [] []) :=
    .start (initial_starts 65536)
  have h₁ := queueing_next 70000 h₀ (by decide) (by decide) (by decide)
  have h₂ := queueing_next 4200000 h₁ (by decide) (by decide) (by decide)
  have h₃ := queueing_next 4200000 h₂ (by decide) (by decide) (by decide)
  generalize updateObjectBytes 70000 = bytesA, updateObjectBytes 4200000 = bytesB at hA hB h₃
  have hlost := handleOutput_lost (w := queueing _ (bytesA ++ bytesB ++ bytesB)) (m := ⟨70005, bytesA⟩)
    (r := [⟨4200005, bytesB⟩, ⟨4200005, bytesB⟩]) rfl rfl rfl (decide_eq_true (by decide : 8388608 ≤ 8400010)) .wouldBlock
  have h₄ := handleOutput_next h₃ rfl hlost
  obtain ⟨t, ht, haccepted, hsent, hopen⟩ := handleOutput_accepted
    (w := { queueing _ (bytesA ++ bytesB ++ bytesB) with msgQueue := _ })
    (m := ⟨4200005, bytesB⟩) (r := [⟨4200005, bytesB⟩]) rfl rfl rfl hB .wouldBlock
  have h₅ := handleOutput_next h₄ rfl ht
  have hprefix : [UInt8.ofNat (0x80 ||| 64)] <+: bytesA ++ bytesB ++ bytesB := by
    have := hall t h₅ hopen
    rwa [haccepted, hsent] at this
  rw [hA] at hprefix
  exact absurd (List.cons_prefix_cons.mp hprefix).1 (by decide)

end Writer

end HysteriaCore.Net
