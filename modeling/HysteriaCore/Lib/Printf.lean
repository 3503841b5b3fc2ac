import HysteriaCore.Lib.SqlText
import Mathlib.Data.List.Forall2

/-!
# A text used as the format of a printf without arguments

`%%` comes out as one `%`; any other conversion reads arguments that are not there, which is
undefined. A list of values goes through as the list of its formatted cells.
-/

namespace HysteriaCore.Lib

def format : Bytes → Option Bytes
  | [] => some []
  | [c] => if c = 37 then none else some [c]
  | c :: d :: rest =>
    if c = 37 then if d = 37 then (format rest).map (37 :: ·) else none
    else (format (d :: rest)).map (c :: ·)

theorem format_cons {c : UInt8} (h : c ≠ 37) (s : Bytes) :
    format (c :: s) = (format s).map (c :: ·) := by
  cases s with
  | nil => simp [format, h]
  | cons d rest => simp [format, h]

theorem format_append_left {a : Bytes} (h : 37 ∉ a) (b : Bytes) :
    format (a ++ b) = (format b).map (a ++ ·) := by
  induction a with
  | nil => simp
  | cons c a ih =>
    rw [List.mem_cons, not_or] at h
    rw [List.cons_append, format_cons (Ne.symm h.1), ih h.2, Option.map_map]
    rfl

theorem format_eq_self {s : Bytes} (h : 37 ∉ s) : format s = some s := by
  have happ := format_append_left h []
  simpa [format] using happ

theorem format_append (a : Bytes) {b : Bytes} (hb : b.head? ≠ some 37) :
    format (a ++ b) = (format a).bind fun a => (format b).map (a ++ ·) := by
  induction a using format.induct with
  | case1 => simp [format]
  | case2 =>
    cases b with
    | nil => simp [format]
    | cons d b =>
      have hd : d ≠ 37 := by simpa using hb
      simp [format, hd]
  | case3 c hc =>
    rw [List.singleton_append, format_cons hc]
    simp [format, hc]
  | case4 rest ih =>
    simp only [List.cons_append, format, if_true, ih]
    cases format rest <;> simp [Function.comp_def]
  | case5 d rest hd => simp [format, hd]
  | case6 c d rest hc ih =>
    rw [List.cons_append, format_cons hc, ih]
    simp only [format, hc, if_false]
    cases format (d :: rest) <;> simp [Function.comp_def]

theorem format_length {s t : Bytes} (h : format s = some t) :
    t.length ≤ s.length ∧ (t.length = s.length → 37 ∉ s) := by
  induction s using format.induct generalizing t with
  | case1 =>
    cases h
    simp
  | case2 => simp [format] at h
  | case3 c hc =>
    obtain rfl : [c] = t := by simpa [format, hc] using h
    simp [Ne.symm hc]
  | case4 rest ih =>
    simp only [format, if_true] at h
    obtain ⟨u, hu, rfl⟩ := Option.map_eq_some_iff.mp h
    obtain ⟨hle, -⟩ := ih hu
    simp only [List.length_cons]
    exact ⟨by omega, fun hlen => by omega⟩
  | case5 d rest hd => simp [format, hd] at h
  | case6 c d rest hc ih =>
    rw [format_cons hc] at h
    obtain ⟨u, hu, rfl⟩ := Option.map_eq_some_iff.mp h
    obtain ⟨hle, hno⟩ := ih hu
    simp only [List.length_cons] at hle hno ⊢
    refine ⟨by omega, fun hlen => ?_⟩
    rw [List.mem_cons, not_or]
    exact ⟨Ne.symm hc, hno (by omega)⟩

theorem format_eq_some_self {s : Bytes} : format s = some s ↔ 37 ∉ s :=
  ⟨fun h => (format_length h).2 rfl, format_eq_self⟩

theorem mapM_eq_some_iff {α β : Type*} {f : α → Option β} {xs : List α} {ys : List β} :
    xs.mapM f = some ys ↔ List.Forall₂ (fun x y => f x = some y) xs ys := by
  induction xs generalizing ys with
  | nil =>
    rw [List.mapM_nil, List.forall₂_nil_left_iff]
    exact ⟨fun h => (Option.some.inj h).symm, fun h => congrArg some h.symm⟩
  | cons x xs ih =>
    rw [List.mapM_cons, List.forall₂_cons_left_iff]
    constructor
    · intro h
      obtain ⟨y, hy, hrest⟩ := Option.bind_eq_some_iff.mp h
      obtain ⟨rest, hr, hys⟩ := Option.bind_eq_some_iff.mp hrest
      exact ⟨y, rest, hy, ih.mp hr, (Option.some.inj hys).symm⟩
    · rintro ⟨y, rest, hy, hr, rfl⟩
      rw [hy, ih.mpr hr]
      rfl

/-! ### Rows -/

namespace Sql

def formatCell : Cell → Option Cell
  | none => some none
  | some t => (format t).map some

def formatRow (row : Row) : Option Row := row.mapM formatCell

def formatRows (rows : List Row) : Option (List Row) := rows.mapM formatRow

theorem escapeByte_no_percent {c : UInt8} (h : c ≠ 37) : 37 ∉ escapeByte c := by
  unfold escapeByte
  split_ifs <;> simp [Ne.symm h]

theorem escapeByte_head {c : UInt8} (h : c ≠ 37) (s : Bytes) :
    (escapeByte c ++ s).head? ≠ some 37 := by
  unfold escapeByte
  split_ifs <;> simp [h]

theorem format_escape (s : Bytes) : format (escape s) = (format s).map escape := by
  induction s using format.induct with
  | case1 => rfl
  | case2 => rfl
  | case3 c hc =>
    have hone : escape [c] = escapeByte c := by simp [escape]
    rw [hone, format_eq_self (escapeByte_no_percent hc)]
    simp [format, hc, hone]
  | case4 rest ih =>
    have happ : escape (37 :: 37 :: rest) = 37 :: 37 :: escape rest := rfl
    rw [happ]
    simp only [format, if_true, ih, Option.map_map]
    rfl
  | case5 d rest hd =>
    have happ : escape (37 :: d :: rest) = 37 :: (escapeByte d ++ escape rest) := by
      simp [escape, escapeByte]
    have hnone : format (37 :: (escapeByte d ++ escape rest)) = none := by
      have hhead := escapeByte_head hd (escape rest)
      cases hs : escapeByte d ++ escape rest with
      | nil => rfl
      | cons x s =>
        rw [hs] at hhead
        have hx : x ≠ 37 := by simpa using hhead
        simp [format, hx]
    rw [happ, hnone]
    simp [format, hd]
  | case6 c d rest hc ih =>
    have happ : escape (c :: d :: rest) = escapeByte c ++ escape (d :: rest) := by simp [escape]
    rw [happ, format_append_left (escapeByte_no_percent hc), ih, format_cons hc, Option.map_map,
      Option.map_map]
    refine congrArg (fun f => (format (d :: rest)).map f) (funext fun t => ?_)
    simp [escape]

theorem format_literal (c : Cell) : format (literal c) = (formatCell c).map literal := by
  cases c with
  | none => rfl
  | some t =>
    have hquote : (39 : UInt8) ≠ 37 := by decide
    rw [literal, format_cons hquote, format_append _ (by decide), format_escape, formatCell]
    cases format t <;> rfl

theorem format_literals (row : Row) : format (literals row) = (formatRow row).map literals := by
  induction row with
  | nil => rfl
  | cons c row ih =>
    cases row with
    | nil =>
      rw [literals, format_literal]
      simp only [formatRow, List.mapM_cons, List.mapM_nil, Option.pure_def, Option.bind_eq_bind]
      cases formatCell c <;> rfl
    | cons d row =>
      have hsep : ∀ s, format (44 :: 32 :: s) = (format s).map fun t => 44 :: 32 :: t := by
        intro s
        exact format_append_left (a := [44, 32]) (by decide) s
      rw [literals, format_append _ (by simp), format_literal, hsep, ih]
      simp only [formatRow, List.mapM_cons, Option.pure_def, Option.bind_eq_bind]
      cases formatCell c with
      | none => rfl
      | some c' =>
        cases formatCell d with
        | none => rfl
        | some d' =>
          cases List.mapM formatCell row with
          | none => rfl
          | some row' => simp [literals]

theorem format_printRow (row : Row) : format (printRow row) = (formatRow row).map printRow := by
  have happ : printRow row = [32, 40] ++ (literals row ++ [41]) := by simp [printRow, openRow]
  rw [happ, format_append_left (by decide), format_append _ (by decide), format_literals]
  cases formatRow row with
  | none => rfl
  | some row' => simp [format, printRow, openRow]

theorem format_printTail {sep : Bytes} (hsep : 37 ∉ sep) (rows : List Row) :
    format (printTail sep rows) = (formatRows rows).map (printTail sep) := by
  induction rows with
  | nil => rfl
  | cons row rows ih =>
    have happ : printTail sep (row :: rows) =
        [44] ++ (printRow row ++ (sep ++ printTail sep rows)) := by simp [printTail]
    have hhead : (sep ++ printTail sep rows).head? ≠ some 37 := by
      cases sep with
      | nil =>
        cases rows with
        | nil => simp [printTail]
        | cons r rows => simp [printTail]
      | cons c sep =>
        rw [List.mem_cons, not_or] at hsep
        simp [Ne.symm hsep.1]
    rw [happ, format_append_left (by decide), format_append _ hhead, format_append_left hsep,
      format_printRow, ih]
    simp only [formatRows, List.mapM_cons, Option.pure_def, Option.bind_eq_bind]
    cases formatRow row with
    | none => rfl
    | some row' =>
      cases List.mapM formatRow rows with
      | none => rfl
      | some rows' => simp [printTail]

theorem format_printValues {sep : Bytes} (hsep : 37 ∉ sep) (rows : List Row) :
    format (printValues sep rows) = (formatRows rows).map (printValues sep) := by
  cases rows with
  | nil => rfl
  | cons row rows =>
    have hhead : (printTail sep rows).head? ≠ some 37 := by
      cases rows with
      | nil => simp [printTail]
      | cons r rows => simp [printTail]
    rw [printValues, format_append _ hhead, format_printRow, format_printTail hsep]
    simp only [formatRows, List.mapM_cons, Option.pure_def, Option.bind_eq_bind]
    cases formatRow row with
    | none => rfl
    | some row' =>
      cases List.mapM formatRow rows with
      | none => rfl
      | some rows' => simp [printValues]

theorem formatRows_length {rows out : List Row} (h : formatRows rows = some out) :
    out.length = rows.length :=
  (mapM_eq_some_iff.mp h).length_eq.symm

theorem formatRows_ne_nil {rows out : List Row} (hrows : ∀ row ∈ rows, row ≠ [])
    (h : formatRows rows = some out) : ∀ row ∈ out, row ≠ [] := by
  have hall := mapM_eq_some_iff.mp h
  clear h
  induction hall with
  | nil => simp
  | @cons row r rows out hr _ ih =>
    have hlen : r.length = row.length := (mapM_eq_some_iff.mp hr).length_eq.symm
    have hrow : row ≠ [] := hrows row (List.mem_cons_self ..)
    have hne : r ≠ [] := by
      intro hnil
      rw [hnil, List.length_nil] at hlen
      exact hrow (List.length_eq_zero_iff.mp hlen.symm)
    intro q hq
    rcases List.mem_cons.mp hq with rfl | hq
    · exact hne
    · exact ih (fun r hr => hrows r (List.mem_cons_of_mem _ hr)) q hq

theorem formatRows_eq_self {rows : List Row} :
    formatRows rows = some rows ↔ ∀ row ∈ rows, formatRow row = some row := by
  rw [formatRows, mapM_eq_some_iff, List.forall₂_same]

theorem formatRows_append {a b a' b' : List Row} (ha : formatRows a = some a')
    (hb : formatRows b = some b') : formatRows (a ++ b) = some (a' ++ b') :=
  mapM_eq_some_iff.mpr (List.rel_append (mapM_eq_some_iff.mp ha) (mapM_eq_some_iff.mp hb))

end Sql

end HysteriaCore.Lib
