import HysteriaCore.Lib.Bytes
import Mathlib.Data.List.Basic

/-!
# The tokenizer

`Tokenizer` copies a string and overwrites each separator in the copy with a NUL. The tokens
are the C strings at the starts that it has stored.
-/

namespace HysteriaCore.Utilities
open Lib

namespace Tokenizer

/-- The loop of the constructor. `m_str` is `passed ++ ahead` with `posnew` between them, and the
array ends behind `ahead`: `none` is a read there. -/
def loop (sep : UInt8) (posold : ℕ) (passed : Bytes) (storage : List ℕ) : Bytes → Option (Bytes × List ℕ)
  | [] => none
  | c :: ahead =>
    if c = sep then loop sep (passed.length + 1) (passed ++ [0]) (storage ++ [posold]) ahead
    else if c = 0 then
      some (passed ++ c :: ahead, if posold ≠ passed.length then storage ++ [posold] else storage)
    else loop sep posold (passed ++ [c]) storage ahead

def tokens (src : Bytes) (sep : UInt8) : Option (List Bytes) :=
  (loop sep 0 [] [] (src ++ [0])).map fun (str, storage) => storage.map fun start => cstr (str.drop start)

def cut (sep : UInt8) (src : Bytes) : Bytes := src.map fun c => if c = sep then 0 else c

def parts (sep : UInt8) (src : Bytes) : List Bytes :=
  if (src.splitOn sep).getLast? = some [] then (src.splitOn sep).dropLast else src.splitOn sep

variable {word : Bytes}

theorem cstr_word (h : 0 ∉ word) (rest : Bytes) : cstr (word ++ 0 :: rest) = word := by
  have hword : ∀ c ∈ word, decide (c ≠ 0) = true := by
    intro c hc
    have hne : c ≠ 0 := fun h0 => h (h0 ▸ hc)
    exact decide_eq_true hne
  rw [cstr, List.takeWhile_append_of_pos hword]
  simp

variable {sep : UInt8}

theorem parts_word (h : sep ∉ word) : parts sep word = if word = [] then [] else [word] := by
  rw [parts, List.splitOn_eq_singleton h]
  simp

theorem parts_sep (h : sep ∉ word) (rest : Bytes) : parts sep (word ++ sep :: rest) = word :: parts sep rest := by
  obtain ⟨part, later, hsplit⟩ := List.exists_cons_of_ne_nil (List.splitOn_ne_nil sep rest)
  rw [parts, List.splitOn_append_cons_self_of_not_mem h, parts, hsplit, List.getLast?_cons_cons]
  split
  · rfl
  · rfl

theorem loop_spec (hsep : sep ≠ 0) (rest : Bytes) (hrest : 0 ∉ rest) (done word : Bytes)
    (hword : 0 ∉ word) (hpart : sep ∉ word) (storage : List ℕ) :
    ∃ str starts, loop sep done.length (done ++ word) storage (rest ++ [0]) = some (str, storage ++ starts) ∧
      str = done ++ word ++ cut sep rest ++ [0] ∧
      starts.map (fun start => cstr (str.drop start)) = parts sep (word ++ rest) := by
  induction rest generalizing done word storage with
  | nil =>
    have hstop : loop sep done.length (done ++ word) storage ([] ++ [0]) = some (done ++ word ++ [0],
        if done.length ≠ (done ++ word).length then storage ++ [done.length] else storage) := by
      rw [List.nil_append, loop, if_neg hsep.symm, if_pos rfl]
    rw [List.append_nil, parts_word hpart]
    by_cases hempty : word = []
    · refine ⟨_, [], ?_, by rw [cut, List.map_nil, List.append_nil], by rw [if_pos hempty, List.map_nil]⟩
      rw [hstop, hempty, List.append_nil, if_neg (not_not.mpr rfl), List.append_nil]
    · have hlong : done.length ≠ (done ++ word).length := by
        have hpos := List.length_pos_iff.mpr hempty
        rw [List.length_append]
        omega
      refine ⟨_, [done.length], by rw [hstop, if_pos hlong], by rw [cut, List.map_nil, List.append_nil], ?_⟩
      rw [if_neg hempty, List.map_singleton, List.append_assoc, List.drop_left, cstr_word hword]
  | cons c rest ih =>
    rw [List.mem_cons, not_or] at hrest
    by_cases hc : c = sep
    · subst hc
      obtain ⟨str, starts, hloop, hstr, hstarts⟩ := ih hrest.2 (done ++ word ++ [0]) [] List.not_mem_nil
        List.not_mem_nil (storage ++ [done.length])
      rw [List.append_nil] at hloop hstr
      rw [List.nil_append] at hstarts
      have hcut : str = done ++ word ++ cut c (c :: rest) ++ [0] := by
        rw [hstr, cut, cut, List.map_cons, if_pos rfl, List.append_assoc (done ++ word) [0], List.singleton_append]
      have hfirst : cstr (str.drop done.length) = word := by
        rw [hstr, List.append_assoc, List.append_assoc, List.append_assoc, List.drop_left, List.singleton_append,
          cstr_word hword]
      refine ⟨str, done.length :: starts, ?_, hcut, ?_⟩
      · have hlen : (done ++ word).length + 1 = (done ++ word ++ [0]).length := by
          rw [@List.length_append _ (done ++ word), List.length_singleton]
        rw [List.cons_append, loop, if_pos rfl, hlen, hloop, List.append_assoc, List.singleton_append]
      · rw [List.map_cons, hfirst, hstarts, parts_sep hpart]
    · have hword' : 0 ∉ word ++ [c] := by
        rw [List.mem_append, List.mem_singleton, not_or]
        exact ⟨hword, hrest.1⟩
      have hpart' : sep ∉ word ++ [c] := by
        rw [List.mem_append, List.mem_singleton, not_or]
        exact ⟨hpart, Ne.symm hc⟩
      obtain ⟨str, starts, hloop, hstr, hstarts⟩ := ih hrest.2 done (word ++ [c]) hword' hpart' storage
      refine ⟨str, starts, ?_, ?_, by rw [hstarts, List.append_assoc, List.singleton_append]⟩
      · rw [List.cons_append, loop, if_neg hc, if_neg (Ne.symm hrest.1), ← hloop, List.append_assoc]
      · rw [hstr, cut, cut, List.map_cons, if_neg hc, ← List.append_assoc, List.append_assoc (done ++ word) [c],
          List.singleton_append]

theorem tokens_eq {src : Bytes} (hsrc : 0 ∉ src) (hsep : sep ≠ 0) : tokens src sep = some (parts sep src) := by
  obtain ⟨str, starts, hloop, -, hstarts⟩ := loop_spec hsep src hsrc [] [] List.not_mem_nil List.not_mem_nil []
  rw [List.length_nil, List.append_nil, List.nil_append] at hloop
  rw [tokens, hloop, Option.map_some]
  exact congrArg some hstarts

theorem not_mem_splitOn (sep : UInt8) (src : Bytes) : ∀ part ∈ src.splitOn sep, sep ∉ part := by
  induction src with
  | nil =>
    intro part hpart
    rw [List.splitOn_nil, List.mem_singleton] at hpart
    rw [hpart]
    exact List.not_mem_nil
  | cons c rest ih =>
    intro part hpart
    rw [List.splitOn_cons_eq_if_modifyHead] at hpart
    by_cases hc : c = sep
    · rw [if_pos (beq_iff_eq.mpr hc), List.mem_cons] at hpart
      rcases hpart with rfl | hlater
      · exact List.not_mem_nil
      · exact ih part hlater
    · rw [if_neg (fun h => hc (beq_iff_eq.mp h))] at hpart
      obtain ⟨first, later, hsplit⟩ := List.exists_cons_of_ne_nil (List.splitOn_ne_nil sep rest)
      rw [hsplit, List.modifyHead_cons, List.mem_cons] at hpart
      rw [hsplit] at ih
      rcases hpart with rfl | hlater
      · rw [List.mem_cons, not_or]
        exact ⟨Ne.symm hc, ih first List.mem_cons_self⟩
      · exact ih part (List.mem_cons_of_mem _ hlater)

theorem intercalate_snoc (sep : UInt8) (first : Bytes) (ls : List Bytes) (last : Bytes) :
    [sep].intercalate (first :: ls ++ [last]) = [sep].intercalate (first :: ls) ++ sep :: last := by
  induction ls generalizing first with
  | nil => simp
  | cons next ls ih =>
    have hnext := ih next
    simp only [List.cons_append, List.intercalate_cons_cons] at hnext ⊢
    simp only [hnext, List.append_assoc]

theorem getLast?_of_empty_part {src : Bytes} (hne : src ≠ [])
    (h : (src.splitOn sep).getLast? = some []) : src.getLast? = some sep := by
  have hjoin : [sep].intercalate (src.splitOn sep) = src := List.intercalate_splitOn sep
  obtain ⟨ls, hls⟩ := List.getLast?_eq_some_iff.mp h
  rw [hls] at hjoin
  cases ls with
  | nil =>
    rw [List.nil_append, List.intercalate_singleton] at hjoin
    exact absurd hjoin.symm hne
  | cons first ls =>
    rw [intercalate_snoc] at hjoin
    rw [← hjoin, List.getLast?_concat]

theorem intercalate_parts (sep : UInt8) (src : Bytes) :
    [sep].intercalate (parts sep src) = if src.getLast? = some sep then src.dropLast else src := by
  by_cases hend : src.getLast? = some sep
  · obtain ⟨init, rfl⟩ := List.getLast?_eq_some_iff.mp hend
    rw [if_pos hend, List.dropLast_concat, parts, List.splitOn_append_cons_self, List.splitOn_nil,
      List.getLast?_concat, if_pos rfl, List.dropLast_concat, List.intercalate_splitOn]
  · rw [if_neg hend, parts]
    split
    next hempty =>
      by_cases hne : src = []
      · rw [hne]
        rfl
      · exact absurd (getLast?_of_empty_part hne hempty) hend
    · exact List.intercalate_splitOn sep

theorem not_mem_parts {src part : Bytes} (h : part ∈ parts sep src) : sep ∉ part := by
  rw [parts] at h
  split at h
  · exact not_mem_splitOn sep src part (List.dropLast_subset _ h)
  · exact not_mem_splitOn sep src part h

end Tokenizer

/-- No token has the separator, and joined with it the tokens are the string, less a separator at its end. -/
theorem tokenizer_splits (src : Bytes) (sep : UInt8) (hsrc : 0 ∉ src) (hsep : sep ≠ 0) :
    ∃ tokens, Tokenizer.tokens src sep = some tokens ∧ (∀ token ∈ tokens, sep ∉ token) ∧
      [sep].intercalate tokens = (if src.getLast? = some sep then src.dropLast else src) ∧
      (src = [] → tokens = []) := by
  refine ⟨Tokenizer.parts sep src, Tokenizer.tokens_eq hsrc hsep, fun _ h => Tokenizer.not_mem_parts h,
    Tokenizer.intercalate_parts sep src, ?_⟩
  rintro rfl
  rfl

theorem tokenizer_splits_fields : ∃ tokens, Tokenizer.tokens (ascii "a,,bc,") 44 = some tokens ∧
    [44].intercalate tokens = ascii "a,,bc" := by
  obtain ⟨tokens, htokens, -, hjoin, -⟩ := tokenizer_splits (ascii "a,,bc,") 44 (by decide) (by decide)
  exact ⟨tokens, htokens, hjoin.trans (by decide)⟩

end HysteriaCore.Utilities
