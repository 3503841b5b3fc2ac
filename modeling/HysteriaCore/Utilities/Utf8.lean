import HysteriaCore.Lib.Bytes
import Mathlib.Data.Nat.Bitwise

/-!
# The UTF-8 and UTF-16 of utf8cpp

The checked functions of dep/utf8cpp. A range of octets is the list of them, an iterator is the
list from its octet on, and an exception is `none`.
-/

namespace HysteriaCore.Utilities.Utf8
open Lib

/-! ### One code point -/

inductive UtfError where
  | notEnoughRoom
  | invalidLead
  | incompleteSequence
  | overlongSequence
  | invalidCodePoint
  deriving DecidableEq, Repr

def isTrail (oc : UInt8) : Bool := oc.toNat >>> 6 = 0x2

def isLeadSurrogate (cp : ℕ) : Bool := 0xd800 ≤ cp ∧ cp ≤ 0xdbff

def isTrailSurrogate (cp : ℕ) : Bool := 0xdc00 ≤ cp ∧ cp ≤ 0xdfff

def isSurrogate (cp : ℕ) : Bool := 0xd800 ≤ cp ∧ cp ≤ 0xdfff

def isCodePointValid (cp : ℕ) : Bool := cp ≤ 0x10ffff ∧ isSurrogate cp = false

def sequenceLength (lead : UInt8) : ℕ :=
  if lead.toNat < 0x80 then 1
  else if lead.toNat >>> 5 = 0x6 then 2
  else if lead.toNat >>> 4 = 0xe then 3
  else if lead.toNat >>> 3 = 0x1e then 4
  else 0

def isOverlongSequence (cp length : ℕ) : Bool :=
  if cp < 0x80 then length ≠ 1
  else if cp < 0x800 then length ≠ 2
  else if cp < 0x10000 then length ≠ 3
  else false

def increaseSafely : Bytes → Except UtfError (UInt8 × Bytes)
  | [] => .error .notEnoughRoom
  | oc :: rest => if isTrail oc then .ok (oc, rest) else .error .incompleteSequence

def getSequence1 (lead : UInt8) (rest : Bytes) : Except UtfError (ℕ × Bytes) := .ok (lead.toNat, rest)

def getSequence2 (lead : UInt8) (rest : Bytes) : Except UtfError (ℕ × Bytes) := do
  let (oc, rest) ← increaseSafely rest
  return (((lead.toNat <<< 6) &&& 0x7ff) + (oc.toNat &&& 0x3f), rest)

def getSequence3 (lead : UInt8) (rest : Bytes) : Except UtfError (ℕ × Bytes) := do
  let (oc, rest) ← increaseSafely rest
  let codePoint := ((lead.toNat <<< 12) &&& 0xffff) + ((oc.toNat <<< 6) &&& 0xfff)
  let (oc, rest) ← increaseSafely rest
  return (codePoint + (oc.toNat &&& 0x3f), rest)

def getSequence4 (lead : UInt8) (rest : Bytes) : Except UtfError (ℕ × Bytes) := do
  let (oc, rest) ← increaseSafely rest
  let codePoint := ((lead.toNat <<< 18) &&& 0x1fffff) + ((oc.toNat <<< 12) &&& 0x3ffff)
  let (oc, rest) ← increaseSafely rest
  let codePoint := codePoint + ((oc.toNat <<< 6) &&& 0xfff)
  let (oc, rest) ← increaseSafely rest
  return (codePoint + (oc.toNat &&& 0x3f), rest)

def getSequence (lead : UInt8) (rest : Bytes) : Except UtfError (ℕ × Bytes) :=
  match sequenceLength lead with
  | 1 => getSequence1 lead rest
  | 2 => getSequence2 lead rest
  | 3 => getSequence3 lead rest
  | 4 => getSequence4 lead rest
  | _ => .error .invalidLead

def validateNext (lead : UInt8) (rest : Bytes) : Except UtfError (ℕ × Bytes) := do
  let (cp, rest) ← getSequence lead rest
  if isCodePointValid cp = false then throw .invalidCodePoint
  if isOverlongSequence cp (sequenceLength lead) then throw .overlongSequence
  return (cp, rest)

def next (lead : UInt8) (rest : Bytes) : Option (ℕ × Bytes) := (validateNext lead rest).toOption

/-! ### Ranges -/

def distanceLoop : ℕ → Bytes → ℕ → Option ℕ
  | _, [], dist => some dist
  | 0, _ :: _, _ => none
  | turns + 1, lead :: rest, dist =>
    match next lead rest with
    | none => none
    | some (_, rest) => distanceLoop turns rest (dist + 1)

def distance (range : Bytes) : Option ℕ := distanceLoop range.length range 0

def units (cp : ℕ) : List ℕ :=
  if 0xffff < cp then [((cp >>> 10) + (0xd800 - (0x10000 >>> 10))) % 2 ^ 16, ((cp &&& 0x3ff) + 0xdc00) % 2 ^ 16]
  else [cp % 2 ^ 16]

/-- The loop of `utf8to16`: what it has stored, and whether it came to its end. -/
def utf8to16Loop : ℕ → Bytes → List ℕ × Bool
  | _, [] => ([], true)
  | 0, _ :: _ => ([], false)
  | turns + 1, lead :: rest =>
    match next lead rest with
    | none => ([], false)
    | some (cp, rest) => (units cp ++ (utf8to16Loop turns rest).1, (utf8to16Loop turns rest).2)

def utf8to16 (range : Bytes) : List ℕ × Bool := utf8to16Loop range.length range

def octet (n : ℕ) : UInt8 := UInt8.ofNat n

def append (cp : ℕ) : Option Bytes :=
  if isCodePointValid cp = false then none
  else if cp < 0x80 then some [octet cp]
  else if cp < 0x800 then some [octet ((cp >>> 6) ||| 0xc0), octet ((cp &&& 0x3f) ||| 0x80)]
  else if cp < 0x10000 then
    some [octet ((cp >>> 12) ||| 0xe0), octet (((cp >>> 6) &&& 0x3f) ||| 0x80), octet ((cp &&& 0x3f) ||| 0x80)]
  else
    some [octet ((cp >>> 18) ||| 0xf0), octet (((cp >>> 12) &&& 0x3f) ||| 0x80),
      octet (((cp >>> 6) &&& 0x3f) ||| 0x80), octet ((cp &&& 0x3f) ||| 0x80)]

def utf16to8 : List ℕ → Option Bytes
  | [] => some []
  | unit :: rest =>
    let cp := unit % 2 ^ 16
    if isLeadSurrogate cp then
      match rest with
      | [] => none
      | trail :: rest =>
        let trail := trail % 2 ^ 16
        if isTrailSurrogate trail then do
          -- `SURROGATE_OFFSET` is computed in 32 bits
          let octets ← append (((cp <<< 10) + trail + (0x10000 + 2 ^ 32 - (0xd800 <<< 10) - 0xdc00)) % 2 ^ 32)
          let later ← utf16to8 rest
          return octets ++ later
        else none
    else if isTrailSurrogate cp then none
    else do
      let octets ← append cp
      let later ← utf16to8 rest
      return octets ++ later

/-! ### What a range encodes -/

/-- The range is made of well-formed sequences for the code points. -/
inductive Decodes : Bytes → List ℕ → Prop
  | nil : Decodes [] []
  | cons {lead : UInt8} {rest later : Bytes} {cp : ℕ} {cps : List ℕ} (hnext : next lead rest = some (cp, later))
      (hlater : Decodes later cps) : Decodes (lead :: rest) (cp :: cps)

variable {range : Bytes}

theorem Decodes.unique {cps cps' : List ℕ} (h : Decodes range cps) (h' : Decodes range cps') : cps = cps' := by
  induction h generalizing cps' with
  | nil =>
    cases h'
    rfl
  | cons hnext _ ih =>
    cases h' with
    | cons hnext' hlater' =>
      rw [hnext] at hnext'
      obtain ⟨rfl, rfl⟩ := Prod.mk.inj (Option.some.inj hnext')
      rw [ih hlater']

theorem bind_eq_ok {ε α β : Type} {x : Except ε α} {f : α → Except ε β} {b : β} :
    x >>= f = .ok b ↔ ∃ a, x = .ok a ∧ f a = .ok b := by
  cases x with
  | error e =>
    constructor
    · intro h
      cases h
    · rintro ⟨a, h, -⟩
      cases h
  | ok a =>
    constructor
    · exact fun h => ⟨a, rfl, h⟩
    · rintro ⟨a', h, hf⟩
      cases h
      exact hf

variable {rest later : Bytes}

theorem increaseSafely_eq_ok {oc : UInt8} :
    increaseSafely rest = .ok (oc, later) ↔ rest = oc :: later ∧ isTrail oc = true := by
  cases rest with
  | nil => simp [increaseSafely]
  | cons c rest =>
    rw [increaseSafely]
    split
    next htrail =>
      constructor
      · intro h
        cases h
        exact ⟨rfl, htrail⟩
      · rintro ⟨h, -⟩
        cases h
        rfl
    next htrail =>
      constructor
      · intro h
        cases h
      · rintro ⟨h, hoc⟩
        cases h
        exact absurd hoc htrail

variable {cp : ℕ} {lead : UInt8}

theorem getSequence2_eq_ok :
    getSequence2 lead rest = .ok (cp, later) ↔ ∃ oc, rest = oc :: later ∧ isTrail oc = true ∧
      cp = ((lead.toNat <<< 6) &&& 0x7ff) + (oc.toNat &&& 0x3f) := by
  rw [getSequence2, bind_eq_ok]
  constructor
  · rintro ⟨⟨oc, ahead⟩, hstep, hvalue⟩
    obtain ⟨rfl, htrail⟩ := increaseSafely_eq_ok.mp hstep
    dsimp only at hvalue
    cases hvalue
    exact ⟨oc, rfl, htrail, rfl⟩
  · rintro ⟨oc, rfl, htrail, rfl⟩
    exact ⟨(oc, later), increaseSafely_eq_ok.mpr ⟨rfl, htrail⟩, rfl⟩

theorem getSequence3_eq_ok :
    getSequence3 lead rest = .ok (cp, later) ↔ ∃ oc oc', rest = oc :: oc' :: later ∧ isTrail oc = true ∧
      isTrail oc' = true ∧ cp = ((lead.toNat <<< 12) &&& 0xffff) + ((oc.toNat <<< 6) &&& 0xfff) +
        (oc'.toNat &&& 0x3f) := by
  rw [getSequence3, bind_eq_ok]
  constructor
  · rintro ⟨⟨oc, ahead⟩, hstep, hvalue⟩
    obtain ⟨rfl, htrail⟩ := increaseSafely_eq_ok.mp hstep
    dsimp only at hvalue
    obtain ⟨⟨oc', ahead'⟩, hstep', hvalue'⟩ := bind_eq_ok.mp hvalue
    obtain ⟨rfl, htrail'⟩ := increaseSafely_eq_ok.mp hstep'
    dsimp only at hvalue'
    cases hvalue'
    exact ⟨oc, oc', rfl, htrail, htrail', rfl⟩
  · rintro ⟨oc, oc', rfl, htrail, htrail', rfl⟩
    exact ⟨(oc, oc' :: later), increaseSafely_eq_ok.mpr ⟨rfl, htrail⟩,
      bind_eq_ok.mpr ⟨(oc', later), increaseSafely_eq_ok.mpr ⟨rfl, htrail'⟩, rfl⟩⟩

theorem getSequence4_length (h : getSequence4 lead rest = .ok (cp, later)) : later.length ≤ rest.length := by
  rw [getSequence4, bind_eq_ok] at h
  obtain ⟨⟨oc, ahead⟩, hstep, hvalue⟩ := h
  obtain ⟨rfl, -⟩ := increaseSafely_eq_ok.mp hstep
  dsimp only at hvalue
  obtain ⟨⟨oc', ahead'⟩, hstep', hvalue'⟩ := bind_eq_ok.mp hvalue
  obtain ⟨rfl, -⟩ := increaseSafely_eq_ok.mp hstep'
  dsimp only at hvalue'
  obtain ⟨⟨last, behind⟩, hlast, hend⟩ := bind_eq_ok.mp hvalue'
  obtain ⟨rfl, -⟩ := increaseSafely_eq_ok.mp hlast
  dsimp only at hend
  cases hend
  simp only [List.length_cons]
  omega

theorem getSequence_length (h : getSequence lead rest = .ok (cp, later)) : later.length ≤ rest.length := by
  rw [getSequence] at h
  split at h
  · cases h
    exact le_rfl
  · obtain ⟨oc, rfl, -⟩ := getSequence2_eq_ok.mp h
    exact Nat.le_succ _
  · obtain ⟨oc, oc', rfl, -⟩ := getSequence3_eq_ok.mp h
    simp only [List.length_cons]
    omega
  · exact getSequence4_length h
  · cases h

theorem next_eq_some :
    next lead rest = some (cp, later) ↔ getSequence lead rest = .ok (cp, later) ∧ isCodePointValid cp = true ∧
      isOverlongSequence cp (sequenceLength lead) = false := by
  have hnext : next lead rest = some (cp, later) ↔ validateNext lead rest = .ok (cp, later) := by
    rw [next]
    cases validateNext lead rest with
    | error e => simp [Except.toOption]
    | ok r => simp [Except.toOption]
  rw [hnext, validateNext, bind_eq_ok]
  constructor
  · rintro ⟨⟨cp', later'⟩, hsequence, h⟩
    dsimp only at h
    split at h
    · cases h
    next hvalid =>
      split at h
      · cases h
      next hlong =>
        cases h
        exact ⟨hsequence, Bool.eq_true_of_not_eq_false hvalid, Bool.eq_false_of_not_eq_true hlong⟩
  · rintro ⟨hsequence, hvalid, hlong⟩
    refine ⟨(cp, later), hsequence, ?_⟩
    dsimp only
    rw [if_neg (by rw [hvalid]; exact Bool.noConfusion), if_neg (by rw [hlong]; exact Bool.noConfusion)]
    rfl

variable {cps : List ℕ}

theorem Decodes.valid (h : Decodes range cps) : ∀ cp ∈ cps, isCodePointValid cp = true := by
  induction h with
  | nil => exact fun _ h => absurd h List.not_mem_nil
  | cons hnext _ ih =>
    intro cp hcp
    rcases List.mem_cons.mp hcp with rfl | hcp
    · exact (next_eq_some.mp hnext).2.1
    · exact ih cp hcp

theorem distanceLoop_eq_some {turns : ℕ} (hturns : range.length ≤ turns) {dist n : ℕ} :
    distanceLoop turns range dist = some n ↔ ∃ cps, Decodes range cps ∧ n = dist + cps.length := by
  induction turns generalizing range dist with
  | zero =>
    obtain rfl := List.eq_nil_of_length_eq_zero (Nat.le_zero.mp hturns)
    rw [distanceLoop, Option.some_inj]
    constructor
    · rintro rfl
      exact ⟨[], .nil, rfl⟩
    · rintro ⟨cps, hcps, hn⟩
      cases hcps
      exact hn.symm
  | succ turns ih =>
    cases range with
    | nil =>
      rw [distanceLoop, Option.some_inj]
      constructor
      · rintro rfl
        exact ⟨[], .nil, rfl⟩
      · rintro ⟨cps, hcps, hn⟩
        cases hcps
        exact hn.symm
    | cons lead rest =>
      rw [distanceLoop]
      cases hnext : next lead rest with
      | none =>
        refine iff_of_false (fun h => nomatch h) ?_
        rintro ⟨cps, hcps, -⟩
        cases hcps with
        | cons hsome _ =>
          rw [hnext] at hsome
          cases hsome
      | some r =>
        obtain ⟨cp, later⟩ := r
        have hlater : later.length ≤ turns :=
          (getSequence_length (next_eq_some.mp hnext).1).trans (Nat.le_of_succ_le_succ hturns)
        dsimp only
        rw [ih hlater]
        constructor
        · rintro ⟨cps, hcps, hn⟩
          exact ⟨cp :: cps, .cons hnext hcps, by rw [List.length_cons]; omega⟩
        · rintro ⟨cps, hcps, hn⟩
          cases hcps with
          | cons hsome hcps =>
            rw [hnext] at hsome
            obtain ⟨rfl, rfl⟩ := Prod.mk.inj (Option.some.inj hsome)
            exact ⟨_, hcps, by rw [List.length_cons] at hn; omega⟩

theorem distance_eq_some {n : ℕ} : distance range = some n ↔ ∃ cps, Decodes range cps ∧ n = cps.length := by
  rw [distance, distanceLoop_eq_some le_rfl]
  simp only [Nat.zero_add]

theorem utf8to16Loop_eq (h : Decodes range cps) {turns : ℕ}
    (hturns : range.length ≤ turns) : utf8to16Loop turns range = (cps.flatMap units, true) := by
  induction h generalizing turns with
  | nil =>
    cases turns <;> rfl
  | @cons lead rest later cp cps hnext _ ih =>
    cases turns with
    | zero => exact absurd hturns (Nat.not_succ_le_zero _)
    | succ turns =>
      have hlater : later.length ≤ turns :=
        (getSequence_length (next_eq_some.mp hnext).1).trans (Nat.le_of_succ_le_succ hturns)
      rw [utf8to16Loop, hnext]
      dsimp only
      rw [ih hlater, List.flatMap_cons]

theorem utf8to16_eq (h : Decodes range cps) : utf8to16 range = (cps.flatMap units, true) := utf8to16Loop_eq h le_rfl

/-! ### From UTF-16 back to UTF-8 -/

theorem isTrail_iff {oc : UInt8} : isTrail oc = true ↔ 128 ≤ oc.toNat ∧ oc.toNat < 192 := by
  rw [isTrail, decide_eq_true_eq, Nat.shiftRight_eq_div_pow]
  omega

theorem octet_toNat {n : ℕ} (h : n < 256) : (octet n).toNat = n := by
  rw [octet, UInt8.toNat_ofNat', Nat.mod_eq_of_lt h]

theorem trail_octet {n : ℕ} (h : n < 64) : isTrail (octet (n ||| 0x80)) = true ∧ (octet (n ||| 0x80)).toNat = 128 + n := by
  have hor : n ||| 0x80 = 128 + n := by
    rw [Nat.or_comm]
    exact (Nat.two_pow_add_eq_or_of_lt (i := 7) (by omega) 1).symm
  have hvalue : (octet (n ||| 0x80)).toNat = 128 + n := by
    rw [hor, octet_toNat (by omega)]
  exact ⟨isTrail_iff.mpr (by omega), hvalue⟩

theorem low_bits (n : ℕ) : n &&& 0x3f = n % 64 := Nat.and_two_pow_sub_one_eq_mod n 6

theorem next_of_two (hlow : 0x80 ≤ cp) (hhigh : cp < 0x800) (hvalid : isCodePointValid cp = true)
    (rest : Bytes) :
    next (octet ((cp >>> 6) ||| 0xc0)) (octet ((cp &&& 0x3f) ||| 0x80) :: rest) = some (cp, rest) := by
  have hlead : (octet ((cp >>> 6) ||| 0xc0)).toNat = 192 + cp / 64 := by
    have hor : (cp >>> 6) ||| 0xc0 = 192 + cp / 64 := by
      rw [Nat.or_comm, Nat.shiftRight_eq_div_pow]
      exact (Nat.two_pow_add_eq_or_of_lt (i := 6) (by omega) 3).symm
    rw [hor, octet_toNat (by omega)]
  have hlength : sequenceLength (octet ((cp >>> 6) ||| 0xc0)) = 2 := by
    rw [sequenceLength, hlead, Nat.shiftRight_eq_div_pow, if_neg (by omega), if_pos (by omega)]
  obtain ⟨htrail, hlast⟩ := trail_octet (show cp &&& 0x3f < 64 by rw [low_bits]; omega)
  refine next_eq_some.mpr ⟨?_, hvalid, ?_⟩
  · rw [getSequence, hlength]
    refine getSequence2_eq_ok.mpr ⟨_, rfl, htrail, ?_⟩
    rw [hlead, hlast, low_bits, low_bits, Nat.and_two_pow_sub_one_eq_mod _ 11, Nat.shiftLeft_eq]
    omega
  · rw [hlength, isOverlongSequence, if_neg (by omega), if_pos hhigh]
    rfl

theorem next_of_three (hlow : 0x800 ≤ cp) (hhigh : cp < 0x10000) (hvalid : isCodePointValid cp = true)
    (rest : Bytes) :
    next (octet ((cp >>> 12) ||| 0xe0))
      (octet (((cp >>> 6) &&& 0x3f) ||| 0x80) :: octet ((cp &&& 0x3f) ||| 0x80) :: rest) = some (cp, rest) := by
  have hlead : (octet ((cp >>> 12) ||| 0xe0)).toNat = 224 + cp / 4096 := by
    have hor : (cp >>> 12) ||| 0xe0 = 224 + cp / 4096 := by
      rw [Nat.or_comm, Nat.shiftRight_eq_div_pow]
      exact (Nat.two_pow_add_eq_or_of_lt (i := 5) (by omega) 7).symm
    rw [hor, octet_toNat (by omega)]
  have hlength : sequenceLength (octet ((cp >>> 12) ||| 0xe0)) = 3 := by
    rw [sequenceLength, hlead, Nat.shiftRight_eq_div_pow, Nat.shiftRight_eq_div_pow, if_neg (by omega),
      if_neg (by omega), if_pos (by omega)]
  obtain ⟨htrail, hlast⟩ := trail_octet (show cp &&& 0x3f < 64 by rw [low_bits]; omega)
  obtain ⟨htrail', hmid⟩ := trail_octet (show (cp >>> 6) &&& 0x3f < 64 by rw [low_bits]; omega)
  refine next_eq_some.mpr ⟨?_, hvalid, ?_⟩
  · rw [getSequence, hlength]
    refine getSequence3_eq_ok.mpr ⟨_, _, rfl, htrail', htrail, ?_⟩
    rw [hlead, hmid, hlast, low_bits, low_bits, low_bits, Nat.and_two_pow_sub_one_eq_mod _ 16,
      Nat.and_two_pow_sub_one_eq_mod _ 12, Nat.shiftLeft_eq, Nat.shiftLeft_eq, Nat.shiftRight_eq_div_pow]
    omega
  · rw [hlength, isOverlongSequence, if_neg (by omega), if_neg (by omega), if_pos hhigh]
    rfl

theorem append_decodes (hvalid : isCodePointValid cp = true) (hbasic : cp ≤ 0xffff) :
    ∃ octets, append cp = some octets ∧
      ∀ {rest : Bytes} {cps : List ℕ}, Decodes rest cps → Decodes (octets ++ rest) (cp :: cps) := by
  rw [append, if_neg (by rw [hvalid]; exact Bool.noConfusion)]
  by_cases hone : cp < 0x80
  · rw [if_pos hone]
    have hlead := octet_toNat (show cp < 256 by omega)
    refine ⟨_, rfl, fun hrest => .cons (next_eq_some.mpr ⟨?_, hvalid, ?_⟩) hrest⟩
    · rw [getSequence, sequenceLength, hlead, if_pos hone, getSequence1, hlead]
      rfl
    · rw [sequenceLength, hlead, if_pos hone, isOverlongSequence, if_pos hone]
      rfl
  rw [if_neg hone]
  by_cases htwo : cp < 0x800
  · rw [if_pos htwo]
    exact ⟨_, rfl, fun hrest => .cons (next_of_two (by omega) htwo hvalid _) hrest⟩
  · rw [if_neg htwo, if_pos (by omega)]
    exact ⟨_, rfl, fun hrest => .cons (next_of_three (by omega) (by omega) hvalid _) hrest⟩

theorem utf16to8_decodes (h : ∀ cp ∈ cps, isCodePointValid cp = true ∧ cp ≤ 0xffff) :
    ∃ range, utf16to8 cps = some range ∧ Decodes range cps := by
  induction cps with
  | nil => exact ⟨[], rfl, .nil⟩
  | cons cp cps ih =>
    obtain ⟨hvalid, hbasic⟩ := h cp List.mem_cons_self
    obtain ⟨octets, happend, hdecodes⟩ := append_decodes hvalid hbasic
    obtain ⟨later, hlater, hrest⟩ := ih fun cp' hcp' => h cp' (List.mem_cons_of_mem cp hcp')
    have hsurrogate : ¬(0xd800 ≤ cp ∧ cp ≤ 0xdfff) := by
      rw [isCodePointValid, decide_eq_true_eq, isSurrogate] at hvalid
      exact of_decide_eq_false hvalid.2
    have hmask : cp % 2 ^ 16 = cp := Nat.mod_eq_of_lt (by omega)
    have hlead : ¬isLeadSurrogate cp = true := fun h => by
      have hrange := of_decide_eq_true h
      omega
    have htrail : ¬isTrailSurrogate cp = true := fun h => by
      have hrange := of_decide_eq_true h
      omega
    refine ⟨octets ++ later, ?_, hdecodes hrest⟩
    unfold utf16to8
    dsimp only
    rw [hmask, if_neg hlead, if_neg htrail, happend, hlater]
    rfl

end HysteriaCore.Utilities.Utf8
