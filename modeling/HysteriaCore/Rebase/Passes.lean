import HysteriaCore.Rebase.Tables

/-!
# What the passes of the rebase write

A pass writes a list of rows, cut into batches. A batch sent with `DirectExecute` arrives;
one sent with `PExecute` arrives as its formatted rows where these fit into the buffer, and
with fewer rows where they do not.
-/

namespace HysteriaCore.Rebase
open Lib Sql

/-! ### The columns -/

inductive Column where
  | item
  | bag
  | other
  deriving DecidableEq

def Table.offset : Table → ℕ
  | .auctionhouse => 2
  | .characterGifts => 1
  | .characterInventory => 3
  | .guildBankItem => 3
  | .itemInstance => 0
  | .itemRefundInstance => 0
  | .itemSoulboundTradeData => 0
  | .mailItems => 1
  | .petition => 1
  | .petitionSign => 1

def Table.column (t : Table) (i : ℕ) : Column :=
  if i = t.offset then .item
  else if t = .characterInventory ∧ i = 1 then .bag
  else .other

def Table.printf : Table → Bool
  | .characterInventory => false
  | .itemInstance => false
  | _ => true

def Table.wraps : Table → ℕ
  | .auctionhouse => WRAPS / 4
  | .characterGifts => WRAPS / 2
  | .characterInventory => 1000
  | .guildBankItem => WRAPS / 2
  | .itemInstance => 5000
  | .itemRefundInstance => WRAPS / 10
  | .itemSoulboundTradeData => WRAPS / 10
  | .mailItems => WRAPS / 2
  | .petition => WRAPS
  | .petitionSign => WRAPS

def Table.sep : Table → Bytes
  | .characterInventory => []
  | _ => ascii "\n"

theorem Table.sep_blank (t : Table) : ∀ c ∈ t.sep, blank c = true := by
  have hsep : t.sep = [] ∨ t.sep = [10] := by
    cases t <;> decide
  intro c hc
  rcases hsep with hnone | hline
  · rw [hnone] at hc
    cases hc
  · rw [hline, List.mem_singleton] at hc
    rw [hc]
    rfl

theorem Table.intro_length (t : Table) : (intro t).length < MAX_QUERY_LEN - 1 := by
  cases t <;> decide

theorem Table.intro_no_percent (t : Table) : 37 ∉ intro t := by
  cases t <;> decide

/-! ### The text of a row -/

def copied (numeric : Bool) (c : Cell) : Cell :=
  if getString c = [] then if numeric then none else some [] else some (getString c)

section Written
variable (S : Schema) (v : ℕ → ℕ) (t : Table)

def writtenCell (i : ℕ) (c : Cell) : Cell :=
  match t.column i with
  | .item => some (decimal (v (getUInt32 c)))
  | .bag =>
    if getUInt32 c = 0 then copied (S.numeric t i) c else some (decimal (v (getUInt32 c)))
  | .other => copied (S.numeric t i) c

def written (row : Row) : Row := row.mapIdx (writtenCell S v t)

end Written

theorem printField_eq (numeric : Bool) (c : Cell) :
    printField numeric c = literal (copied numeric c) := by
  unfold printField copied
  by_cases hs : getString c = []
  · rw [hs]
    cases numeric <;> rfl
  · have hesc : escape (getString c) ≠ [] := fun h => hs (escape_eq_nil.mp h)
    simp only [hesc, hs, if_false, literal]
    rw [List.append_assoc]
    rfl

theorem printValue_eq (value : ℕ) : printValue value = literal (some (decimal value)) := by
  have hesc : escape (decimal value) = decimal value := by
    refine escape_eq_self fun c hc => ?_
    obtain ⟨hlow, hhigh⟩ := mem_decimal hc
    have hplain : ∀ d : UInt8, d.toNat < 48 ∨ 57 < d.toNat → c ≠ d := by
      rintro d hd rfl
      omega
    simp [escapeByte, hplain 0 (by decide), hplain 10 (by decide), hplain 13 (by decide),
      hplain 26 (by decide), hplain 34 (by decide), hplain 39 (by decide), hplain 92 (by decide)]
  rw [literal, hesc]
  rfl

variable {print : ℕ → Cell → Bytes} {g : ℕ → Cell → Cell}

theorem printFields_eq
    (h : ∀ i c, print i c = literal (g i c)) (k : ℕ) (row : Row) :
    printFields print k row = literals (row.mapIdx fun i c => g (k + i) c) := by
  induction row generalizing k with
  | nil => rfl
  | cons c row ih =>
    cases row with
    | nil => simp [printFields, literals, h]
    | cons d row =>
      have hsep : ascii ", " = [44, 32] := by decide
      have hshift : ((d :: row).mapIdx fun i c => g (k + 1 + i) c) =
          (d :: row).mapIdx fun i c => g (k + (i + 1)) c := by
        congr 1
        funext i c
        rw [Nat.add_assoc, Nat.add_comm 1 i]
      rw [printFields, ih, hsep, hshift, h, List.mapIdx_cons]
      simp [literals]

theorem printRow_mapIdx
    (h : ∀ i c, print i c = literal (g i c)) (row : Row) :
    ascii " (" ++ printFields print 0 row ++ ascii ")" = printRow (row.mapIdx g) := by
  have hopen : ascii " (" = [32, 40] := by decide
  have hclose : ascii ")" = [41] := by decide
  rw [printFields_eq h, hopen, hclose]
  simp [printRow, openRow]

theorem singleGUID_eq (numeric : ℕ → Bool) (offset value : ℕ) (row : Row) :
    singleGUID numeric offset value row = printRow (row.mapIdx fun i c =>
      if i = offset then some (decimal value) else copied (numeric i) c) := by
  apply printRow_mapIdx
  intro i c
  split_ifs
  · exact printValue_eq value
  · exact printField_eq (numeric i) c

theorem doubleGUID_eq (numeric : ℕ → Bool) (offset value offsetb valueb : ℕ) (row : Row) :
    doubleGUID numeric offset value offsetb valueb row = printRow (row.mapIdx fun i c =>
      if i = offset then some (decimal value)
      else if i = offsetb then some (decimal valueb)
      else copied (numeric i) c) := by
  apply printRow_mapIdx
  intro i c
  split_ifs
  · exact printValue_eq value
  · exact printValue_eq valueb
  · exact printField_eq (numeric i) c

variable {row : Row}

theorem field_eq_getElem {i : ℕ} (hi : i < row.length) : field row i = row[i] := by
  simp [field, hi]

theorem length_of_field {i : ℕ} (h : (field row i).isSome = true) : i < row.length := by
  by_contra hlong
  simp [field, hlong] at h

theorem mapIdx_congr_field {f g : ℕ → Cell → Cell}
    (h : ∀ i, i < row.length → f i (field row i) = g i (field row i)) :
    row.mapIdx f = row.mapIdx g := by
  rw [List.mapIdx_eq_mapIdx_iff]
  intro i hi
  rw [← field_eq_getElem hi]
  exact h i hi

def rowText (S : Schema) (m : ItemMap) (t : Table) (row : Row) : Option Bytes :=
  if t = .characterInventory then inventoryText S m row else singleText S m t t.offset row

/-- The map knows the guids of the row, and numbers them by `v`. -/
structure Numbers (m : ItemMap) (v : ℕ → ℕ) (t : Table) (row : Row) : Prop where
  item : m (getUInt32 (field row t.offset)) = some (v (getUInt32 (field row t.offset)))
  bag : t = .characterInventory → getUInt32 (field row 1) ≠ 0 →
    m (getUInt32 (field row 1)) = some (v (getUInt32 (field row 1)))

theorem rowText_eq {S : Schema} {m : ItemMap} {v : ℕ → ℕ} {t : Table}
    (h : Numbers m v t row) : rowText S m t row = some (printRow (written S v t row)) := by
  unfold rowText
  split_ifs with ht
  · subst ht
    have hitem := h.item
    simp only [Table.offset] at hitem
    unfold inventoryText
    split_ifs with hbag
    · rw [singleText, hitem, Option.map_some, singleGUID_eq, written]
      congr 2
      apply mapIdx_congr_field
      intro i _
      by_cases h3 : i = 3
      · subst h3
        rfl
      · by_cases h1 : i = 1
        · subst h1
          simp [writtenCell, Table.column, Table.offset, hbag]
        · simp [writtenCell, Table.column, Table.offset, h3, h1]
    · rw [hitem, h.bag rfl hbag]
      simp only
      rw [doubleGUID_eq, written]
      congr 2
      apply mapIdx_congr_field
      intro i _
      by_cases h1 : i = 1
      · subst h1
        simp [writtenCell, Table.column, Table.offset, hbag]
      · by_cases h3 : i = 3
        · subst h3
          rfl
        · simp [writtenCell, Table.column, Table.offset, h3, h1]
  · rw [singleText, h.item, Option.map_some, singleGUID_eq, written]
    congr 2
    apply mapIdx_congr_field
    intro i _
    by_cases hi : i = t.offset
    · subst hi
      simp [writtenCell, Table.column]
    · simp [writtenCell, Table.column, hi, ht]

/-! ### Batches -/

def batches (wraps : ℕ) : List Row → List Row → List (List Row) × List Row
  | cur, [] => ([], cur)
  | cur, row :: rows =>
    if (cur ++ [row]).length = wraps then
      let r := batches wraps [] rows
      ((cur ++ [row]) :: r.1, r.2)
    else batches wraps (cur ++ [row]) rows

def batchList (wraps : ℕ) (rows : List Row) : List (List Row) :=
  (batches wraps [] rows).1 ++ [(batches wraps [] rows).2]

theorem batches_flatten (wraps : ℕ) (cur rows : List Row) :
    (batches wraps cur rows).1.flatten ++ (batches wraps cur rows).2 = cur ++ rows := by
  induction rows generalizing cur with
  | nil => simp [batches]
  | cons row rows ih =>
    simp only [batches]
    split_ifs with hfull
    · have hrest := ih []
      simp only [List.nil_append] at hrest
      simp [hrest]
    · rw [ih]
      simp

theorem batchList_flatten (wraps : ℕ) (rows : List Row) : (batchList wraps rows).flatten = rows := by
  have hflat := batches_flatten wraps [] rows
  rw [batchList, List.flatten_append, List.flatten_singleton, hflat, List.nil_append]

def batchText (t : Table) (rows : List Row) : Bytes :=
  if rows = [] then [] else intro t ++ printValues t.sep rows

theorem batchText_snoc (t : Table) (cur : List Row) (row : Row) :
    (if cur.length = 0 then batchText t cur ++ intro t ++ printRow row
      else batchText t cur ++ ascii "," ++ printRow row ++ t.sep) = batchText t (cur ++ [row]) := by
  have hcomma : ascii "," = [44] := by decide
  cases cur with
  | nil => simp [batchText, printValues, printTail]
  | cons r cur => simp [batchText, printValues, printTail, hcomma]

theorem wrapLoop_eq (t : Table) (cur rows : List Row) :
    wrapLoop (intro t) t.sep t.wraps cur.length (batchText t cur) (rows.map printRow) =
      ((batches t.wraps cur rows).1.map (batchText t), (batches t.wraps cur rows).2.length,
        batchText t (batches t.wraps cur rows).2) := by
  induction rows generalizing cur with
  | nil => rfl
  | cons row rows ih =>
    simp only [List.map_cons, wrapLoop, batches, batchText_snoc, List.length_append,
      List.length_singleton]
    split_ifs with hfull
    · have hrest := ih []
      simp only [batchText, if_true, List.length_nil] at hrest
      simp [hrest, batchText]
    · have hrest := ih (cur ++ [row])
      rw [List.length_append, List.length_singleton] at hrest
      exact hrest

/-! ### Sending -/

def needed (t : Table) (rows : List Row) : ℕ :=
  (printValues t.sep rows).length - if rows.length ≤ 1 then 0 else t.sep.length

def fits (t : Table) (rows : List Row) : Prop :=
  (intro t).length + needed t rows ≤ MAX_QUERY_LEN - 1

section Sending
variable {t : Table}

theorem needed_snoc (init : List Row) (row : Row) :
    needed t (init ++ [row]) = (openText t.sep init row).length + 1 := by
  unfold needed
  rw [printValues_snoc]
  cases init with
  | nil => simp
  | cons r init =>
    simp only [List.length_append, List.length_cons, reduceCtorEq, if_false]
    rw [if_neg (by omega)]
    omega

theorem fits_nil : fits t [] := by
  have hlen := t.intro_length
  simp only [fits, needed, printValues, List.length_nil]
  omega

theorem statementRows_nil : statementRows t [] = [] := by
  have hne : intro t ≠ [] := by cases t <;> decide
  simp [statementRows, hne]

theorem statementRows_intro (text : Bytes) :
    statementRows t (intro t ++ text) = (readRows text).getD [] := by
  simp [statementRows]

variable {b : List Row}

theorem statementRows_batchText (hrows : ∀ row ∈ b, row ≠ []) : statementRows t (batchText t b) = b := by
  rcases List.eq_nil_or_concat' b with rfl | ⟨init, row, rfl⟩
  · exact statementRows_nil
  · have hlt : (openText t.sep init row).length < (printValues t.sep (init ++ [row])).length := by
      simp [printValues_snoc]
    have hread := readRows_take_of_lt t.sep_blank (fun r hr => hrows r (by simp [hr]))
      (hrows row (by simp)) hlt
    rw [List.take_length] at hread
    rw [batchText, if_neg (by simp), statementRows_intro, hread]
    rfl

theorem pExecute_batchText (hb : b ≠ []) :
    pExecute (batchText t b) = (formatRows b).map fun out =>
      intro t ++ (printValues t.sep out).take (MAX_QUERY_LEN - 1 - (intro t).length) := by
  have hsep : 37 ∉ t.sep := by cases t <;> decide
  rw [batchText, if_neg hb, pExecute, format_append_left t.intro_no_percent,
    format_printValues hsep, Option.map_map, Option.map_map]
  congr 1
  funext out
  have hle : (intro t).length ≤ MAX_QUERY_LEN - 1 := le_of_lt t.intro_length
  simp [List.take_append, List.take_of_length_le hle]

theorem sent_of_fits (hrows : ∀ row ∈ b, row ≠ []) (hfmt : formatRows b = some b)
    (hfit : fits t b) : ∃ sql, pExecute (batchText t b) = some sql ∧ statementRows t sql = b := by
  rcases List.eq_nil_or_concat' b with rfl | ⟨init, row, rfl⟩
  · exact ⟨[], rfl, statementRows_nil⟩
  · have hk : (openText t.sep init row).length < MAX_QUERY_LEN - 1 - (intro t).length := by
      have hlen := t.intro_length
      simp only [fits, needed_snoc] at hfit
      omega
    have hread := readRows_take_of_lt t.sep_blank (fun r hr => hrows r (by simp [hr]))
      (hrows row (by simp)) hk
    refine ⟨intro t ++ (printValues t.sep (init ++ [row])).take
      (MAX_QUERY_LEN - 1 - (intro t).length), ?_, ?_⟩
    · rw [pExecute_batchText (by simp), hfmt, Option.map_some]
    · rw [statementRows_intro, hread]
      rfl

theorem sent_le {sql : Bytes} (hrows : ∀ row ∈ b, row ≠ [])
    (h : pExecute (batchText t b) = some sql) :
    (statementRows t sql).length ≤ b.length ∧ ((statementRows t sql).length = b.length →
      formatRows b = some (statementRows t sql) ∧ fits t (statementRows t sql)) := by
  by_cases hb : b = []
  · subst hb
    obtain rfl : [] = sql := Option.some.inj h
    rw [statementRows_nil]
    exact ⟨Nat.le_refl 0, fun _ => ⟨rfl, fits_nil⟩⟩
  rw [pExecute_batchText hb] at h
  obtain ⟨out, hout, rfl⟩ := Option.map_eq_some_iff.mp h
  have hlen := formatRows_length hout
  have hne := formatRows_ne_nil hrows hout
  rw [statementRows_intro]
  rcases List.eq_nil_or_concat' out with rfl | ⟨init, row, rfl⟩
  · exact absurd (List.length_eq_zero_iff.mp hlen.symm) hb
  have hinit : ∀ r ∈ init, r ≠ [] := fun r hr => hne r (by simp [hr])
  have hrow : row ≠ [] := hne row (by simp)
  have hshort : init.length < b.length := by
    rw [← hlen]
    simp
  rcases Nat.lt_or_ge (openText t.sep init row).length
      (MAX_QUERY_LEN - 1 - (intro t).length) with hk | hk
  · have hread := readRows_take_of_lt t.sep_blank hinit hrow hk
    rw [hread, Option.getD_some]
    refine ⟨le_of_eq hlen, fun _ => ⟨hout, ?_⟩⟩
    rw [fits, needed_snoc]
    omega
  · cases hread : readRows ((printValues t.sep (init ++ [row])).take
        (MAX_QUERY_LEN - 1 - (intro t).length)) with
    | none =>
      rw [Option.getD_none, List.length_nil]
      exact ⟨Nat.zero_le _, fun hzero => by omega⟩
    | some rows =>
      have hle := (readRows_take_of_le t.sep_blank hinit hrow hk hread).length_le
      rw [Option.getD_some]
      exact ⟨by omega, fun heq => by omega⟩

theorem sent_all_of_fits {bs : List (List Row)} (hrows : ∀ b ∈ bs, ∀ row ∈ b, row ≠ [])
    (hfmt : ∀ b ∈ bs, formatRows b = some b) (hfit : ∀ b ∈ bs, fits t b) :
    ∃ sqls, (bs.map (batchText t)).mapM pExecute = some sqls ∧
      sqls.flatMap (statementRows t) = bs.flatten := by
  induction bs with
  | nil => exact ⟨[], rfl, rfl⟩
  | cons b bs ih =>
    obtain ⟨sql, hsql, hb⟩ := sent_of_fits (hrows b (List.mem_cons_self ..))
      (hfmt b (List.mem_cons_self ..)) (hfit b (List.mem_cons_self ..))
    obtain ⟨sqls, hsqls, hbs⟩ := ih (fun c hc => hrows c (List.mem_cons_of_mem _ hc))
      (fun c hc => hfmt c (List.mem_cons_of_mem _ hc))
      (fun c hc => hfit c (List.mem_cons_of_mem _ hc))
    refine ⟨sql :: sqls, ?_, ?_⟩
    · rw [List.map_cons, List.mapM_cons, hsql, hsqls]
      rfl
    · rw [List.flatMap_cons, List.flatten_cons, hb, hbs]

theorem sent_all_le {bs : List (List Row)} {sqls : List Bytes}
    (hrows : ∀ b ∈ bs, ∀ row ∈ b, row ≠ [])
    (h : (bs.map (batchText t)).mapM pExecute = some sqls) :
    (sqls.flatMap (statementRows t)).length ≤ bs.flatten.length ∧
      ((sqls.flatMap (statementRows t)).length = bs.flatten.length →
        formatRows bs.flatten = some (sqls.flatMap (statementRows t)) ∧
          ∀ b ∈ bs, ∀ out, formatRows b = some out → fits t out) := by
  induction bs generalizing sqls with
  | nil =>
    obtain rfl : [] = sqls := Option.some.inj h
    exact ⟨Nat.le_refl 0, fun _ => ⟨rfl, by simp⟩⟩
  | cons b bs ih =>
    rw [List.map_cons, List.mapM_cons] at h
    obtain ⟨sql, hsql, hrest⟩ := Option.bind_eq_some_iff.mp h
    obtain ⟨rest, hr, hsqls⟩ := Option.bind_eq_some_iff.mp hrest
    obtain rfl : sql :: rest = sqls := Option.some.inj hsqls
    obtain ⟨hle, hall⟩ := sent_le (hrows b (List.mem_cons_self ..)) hsql
    obtain ⟨hles, halls⟩ := ih (fun c hc => hrows c (List.mem_cons_of_mem _ hc)) hr
    simp only [List.flatMap_cons, List.flatten_cons, List.length_append]
    refine ⟨by omega, fun heq => ?_⟩
    obtain ⟨hb, hfit⟩ := hall (by omega)
    obtain ⟨hbs, hfits⟩ := halls (by omega)
    refine ⟨formatRows_append hb hbs, ?_⟩
    intro c hc out hout
    rcases List.mem_cons.mp hc with rfl | hc
    · rw [hb] at hout
      exact Option.some.inj hout ▸ hfit
    · exact hfits c hc out hout

end Sending

/-! ### The passes -/

theorem foldl_execute (S : Schema) (t : Table) (rows : List Row) (sqls : List Bytes) :
    sqls.foldl (execute S t) rows =
      insertIgnore (S.keys t) rows (sqls.flatMap (statementRows t)) := by
  induction sqls generalizing rows with
  | nil => rfl
  | cons sql sqls ih =>
    rw [List.foldl_cons, ih, List.flatMap_cons, insertIgnore_append]
    rfl

def maxRows : ℕ := 500000 * 8589

theorem limitChunks_flatten {fuel min : ℕ} {rows : List Row} {chunks : List (List Row)}
    (h : limitChunks fuel min rows = some chunks) : chunks.flatten = rows.drop min := by
  induction fuel generalizing min chunks with
  | zero => simp [limitChunks] at h
  | succ fuel ih =>
    simp only [limitChunks] at h
    by_cases hmin : min < rows.length
    · by_cases hover : 2 ^ 32 ≤ min + 500000
      · rw [if_pos hmin, if_pos hover] at h
        cases h
      rw [if_pos hmin, if_neg hover] at h
      obtain ⟨rest, hrest, rfl⟩ := Option.map_eq_some_iff.mp h
      rw [List.flatten_cons, ih hrest]
      split_ifs with hlast
      · rw [← List.drop_drop, List.take_append_drop]
      · rw [List.drop_of_length_le (i := min + 500000) (by omega), List.append_nil]
    · rw [if_neg hmin] at h
      obtain rfl : [] = chunks := Option.some.inj h
      rw [List.drop_of_length_le (by omega)]
      rfl

theorem limitChunks_isSome {fuel k : ℕ} (hk : k ≤ 8589) (hfuel : 8590 ≤ k + fuel)
    (rows : List Row) :
    (limitChunks fuel (500000 * k) rows).isSome = true ↔ rows.length ≤ maxRows := by
  induction fuel generalizing k with
  | zero => omega
  | succ fuel ih =>
    simp only [limitChunks]
    by_cases hmin : 500000 * k < rows.length
    · by_cases hover : 2 ^ 32 ≤ 500000 * k + 500000
      · rw [if_pos hmin, if_pos hover]
        simp only [Option.isSome_none, Bool.false_eq_true, false_iff, maxRows]
        omega
      · have hnext := ih (k := k + 1) (by omega) (by omega)
        rw [Nat.mul_add] at hnext
        rw [if_pos hmin, if_neg hover, Option.isSome_map]
        exact hnext
    · rw [if_neg hmin]
      simp only [Option.isSome_some, true_iff, maxRows]
      omega

theorem chunkStatements_rows {t : Table} {text : Row → Option Bytes} {w : Row → Row}
    {chunk : List Row} (htext : ∀ row ∈ chunk, text row = some (printRow (w row)))
    (hrows : ∀ row ∈ chunk, w row ≠ []) :
    (chunkStatements t text t.sep t.wraps chunk).flatMap (statementRows t) = chunk.map w := by
  have htexts : chunk.filterMap text = (chunk.map w).map printRow := by
    rw [List.map_map, ← List.filterMap_eq_map]
    exact List.filterMap_congr htext
  have hloop := wrapLoop_eq t [] (chunk.map w)
  have hflat := batches_flatten t.wraps [] (chunk.map w)
  rw [List.length_nil] at hloop
  have hne : ∀ row ∈ chunk.map w, row ≠ [] := by
    intro row hrow
    obtain ⟨r, hr, rfl⟩ := List.mem_map.mp hrow
    exact hrows r hr
  rw [List.nil_append] at hflat
  have hfull : ∀ b ∈ (batches t.wraps [] (chunk.map w)).1, ∀ row ∈ b, row ≠ [] := by
    intro b hb row hrow
    apply hne
    rw [← hflat]
    exact List.mem_append_left _ (List.mem_flatten_of_mem hb hrow)
  have hlast : ∀ row ∈ (batches t.wraps [] (chunk.map w)).2, row ≠ [] := by
    intro row hrow
    apply hne
    rw [← hflat]
    exact List.mem_append_right _ hrow
  have hsent : ((batches t.wraps [] (chunk.map w)).1.map (batchText t)).flatMap
      (statementRows t) = (batches t.wraps [] (chunk.map w)).1.flatten := by
    rw [List.flatMap_map, List.flatten_eq_flatMap]
    exact List.flatMap_congr fun b hb => statementRows_batchText (hfull b hb)
  have hnil : batchText t [] = [] := rfl
  rw [hnil] at hloop
  unfold chunkStatements
  rw [htexts, hloop]
  by_cases hend : (batches t.wraps [] (chunk.map w)).2 = []
  · rw [hend, List.append_nil] at hflat
    simp [hend, hsent, hflat]
  · simp [hend, hsent, statementRows_batchText hlast, hflat]

def Table.formatted (t : Table) (rows : List Row) : Option (List Row) :=
  if t.printf then formatRows rows else some rows

def Sendable (t : Table) (rows : List Row) : Prop :=
  if t.printf then ∀ b ∈ batchList t.wraps rows, fits t b else rows.length ≤ maxRows

theorem sendable_nil (t : Table) : Sendable t [] := by
  unfold Sendable
  split_ifs
  · intro b hb
    obtain rfl := List.mem_singleton.mp hb
    exact fits_nil
  · exact Nat.zero_le _

section Pass
variable {S : Schema} {m : ItemMap} {db : Database} {v : ℕ → ℕ} {t : Table} {src : List Row}

theorem rebaseTable_printf (ht : t.printf = true) (hsrc : db.temp t = some src)
    (hnum : ∀ row ∈ src, Numbers m v t row) :
    rebaseTable S m db t =
      (((batchList t.wraps (src.map (written S v t))).map (batchText t)).mapM pExecute).map
        fun sqls => insertIgnore (S.keys t) (db.rows t) (sqls.flatMap (statementRows t)) := by
  have hpass : rebaseTable S m db t = wrapPass S m db t t.offset t.wraps := by
    cases t <;> first | rfl | cases ht
  have hinv : t ≠ .characterInventory := by
    rintro rfl
    cases ht
  have hsep : ascii "\n" = t.sep := by
    cases t <;> first | rfl | cases ht
  have htexts : src.filterMap (singleText S m t t.offset) =
      (src.map (written S v t)).map printRow := by
    rw [List.map_map, ← List.filterMap_eq_map]
    refine List.filterMap_congr fun row hrow => ?_
    have htext := rowText_eq (S := S) (hnum row hrow)
    rwa [rowText, if_neg hinv] at htext
  have hloop := wrapLoop_eq t [] (src.map (written S v t))
  have hnil : batchText t [] = [] := rfl
  rw [List.length_nil, hnil] at hloop
  rw [hpass, wrapPass, hsrc, Option.getD_some, htexts, hsep, hloop, batchList]
  simp only [foldl_execute, List.map_append, List.map_singleton]

theorem rebaseTable_chunk (ht : t.printf = false) (hsrc : db.temp t = some src)
    (hnum : ∀ row ∈ src, Numbers m v t row) (hrows : ∀ row ∈ src, row ≠ []) :
    rebaseTable S m db t = if src.length ≤ maxRows then
      some (insertIgnore (S.keys t) (db.rows t) (src.map (written S v t))) else none := by
  have hpass : rebaseTable S m db t = chunkPass S db t (rowText S m t) t.sep t.wraps := by
    cases t <;> first | rfl | cases ht
  have hsome : (limitChunks 8590 (500000 * 0) src).isSome = true ↔ src.length ≤ maxRows :=
    limitChunks_isSome (by omega) (by omega) src
  rw [hpass, chunkPass, hsrc, Option.getD_some]
  rw [Nat.mul_zero] at hsome
  cases hchunks : limitChunks 8590 0 src with
  | none =>
    rw [hchunks] at hsome
    have hmany : ¬ src.length ≤ maxRows := by
      intro hle
      cases hsome.mpr hle
    rw [if_neg hmany]
    rfl
  | some chunks =>
    rw [hchunks] at hsome
    have hflat := limitChunks_flatten hchunks
    rw [List.drop_zero] at hflat
    have hsent : (chunks.flatMap (chunkStatements t (rowText S m t) t.sep t.wraps)).flatMap
        (statementRows t) = src.map (written S v t) := by
      rw [List.flatMap_assoc, ← hflat, List.map_flatten, List.flatten_eq_flatMap,
        List.flatMap_map]
      refine List.flatMap_congr fun chunk hchunk => ?_
      have hmem : ∀ row ∈ chunk, row ∈ src := by
        intro row hrow
        rw [← hflat]
        exact List.mem_flatten_of_mem hchunk hrow
      apply chunkStatements_rows
      · intro row hrow
        exact rowText_eq (hnum row (hmem row hrow))
      · intro row hrow
        simpa [written] using hrows row (hmem row hrow)
    rw [if_pos (hsome.mp rfl), Option.map_some, foldl_execute, hsent]

theorem batchList_rows {wraps : ℕ} {rows b : List Row} (hb : b ∈ batchList wraps rows)
    (hrow : row ∈ b) : row ∈ rows := by
  rw [← batchList_flatten wraps rows]
  exact List.mem_flatten_of_mem hb hrow

theorem written_ne_nil (hrows : ∀ row ∈ src, row ≠ []) :
    ∀ row ∈ src.map (written S v t), row ≠ [] := by
  intro row hrow
  obtain ⟨r, hr, rfl⟩ := List.mem_map.mp hrow
  simpa [written] using hrows r hr

theorem rebaseTable_of_sendable (hempty : db.rows t = []) (hsrc : db.temp t = some src)
    (hnum : ∀ row ∈ src, Numbers m v t row) (hrows : ∀ row ∈ src, row ≠ [])
    (hfmt : t.formatted (src.map (written S v t)) = some (src.map (written S v t)))
    (hsend : Sendable t (src.map (written S v t)))
    (hkeys : (src.map (written S v t)).Pairwise fun r q => conflict (S.keys t) r q = false) :
    rebaseTable S m db t = some (src.map (written S v t)) := by
  have hinsert : insertIgnore (S.keys t) [] (src.map (written S v t)) = src.map (written S v t) :=
    insertIgnore_eq_append hkeys
  cases ht : t.printf with
  | false =>
    simp only [Sendable, ht, Bool.false_eq_true, if_false, List.length_map] at hsend
    rw [rebaseTable_chunk ht hsrc hnum hrows, if_pos hsend, hempty, hinsert]
  | true =>
    simp only [Table.formatted, Sendable, ht, if_true] at hfmt hsend
    rw [formatRows_eq_self] at hfmt
    obtain ⟨sqls, hsqls, hsent⟩ := sent_all_of_fits (t := t)
      (fun b hb row hrow => written_ne_nil hrows row (batchList_rows hb hrow))
      (fun b hb => formatRows_eq_self.mpr fun row hrow => hfmt row (batchList_rows hb hrow)) hsend
    rw [rebaseTable_printf ht hsrc hnum, hsqls, Option.map_some, hsent, batchList_flatten, hempty,
      hinsert]

theorem rebaseTable_le {out : List Row} (hempty : db.rows t = []) (hsrc : db.temp t = some src)
    (hnum : ∀ row ∈ src, Numbers m v t row) (hrows : ∀ row ∈ src, row ≠ [])
    (h : rebaseTable S m db t = some out) :
    out.length ≤ src.length ∧ (out.length = src.length →
      t.formatted (src.map (written S v t)) = some out ∧
        (out = src.map (written S v t) → Sendable t out)) := by
  cases ht : t.printf with
  | false =>
    rw [rebaseTable_chunk ht hsrc hnum hrows, hempty] at h
    split_ifs at h with hmany
    obtain ⟨kept, hkept, hsub⟩ := insertIgnore_sublist (S.keys t) [] (src.map (written S v t))
    rw [List.nil_append] at hkept
    rw [hkept] at h
    obtain rfl : kept = out := Option.some.inj h
    have hle := hsub.length_le
    rw [List.length_map] at hle
    refine ⟨hle, fun hlen => ?_⟩
    have heq := hsub.eq_of_length (by rw [hlen, List.length_map])
    simp only [Table.formatted, Sendable, ht, Bool.false_eq_true, if_false]
    exact ⟨by rw [heq], fun _ => by omega⟩
  | true =>
    rw [rebaseTable_printf ht hsrc hnum, hempty] at h
    obtain ⟨sqls, hsqls, hout⟩ := Option.map_eq_some_iff.mp h
    obtain ⟨hle, hall⟩ := sent_all_le
      (fun b hb row hrow => written_ne_nil hrows row (batchList_rows hb hrow)) hsqls
    rw [batchList_flatten, List.length_map] at hle hall
    obtain ⟨kept, hkept, hsub⟩ :=
      insertIgnore_sublist (S.keys t) [] (sqls.flatMap (statementRows t))
    rw [List.nil_append] at hkept
    rw [hkept] at hout
    subst hout
    have hkle := hsub.length_le
    refine ⟨by omega, fun hlen => ?_⟩
    have heq := hsub.eq_of_length (by omega)
    obtain ⟨hfmt, hfits⟩ := hall (by omega)
    simp only [Table.formatted, Sendable, ht, if_true]
    rw [heq]
    refine ⟨hfmt, ?_⟩
    intro hself b hb
    rw [hself] at hfmt hb
    rw [formatRows_eq_self] at hfmt
    apply hfits b hb b
    exact formatRows_eq_self.mpr fun row hrow => hfmt row (batchList_rows hb hrow)

end Pass

end HysteriaCore.Rebase
