import HysteriaCore.Lib.Bytes

/-!
# Rows of a table as the text of an INSERT

How rows are written behind `VALUES`, how a server reads them back, and what happens to a
text that is cut off. The reader takes the spellings the writer uses: string literals with
backslash escapes and `null`, with blanks between the tokens.
-/

namespace HysteriaCore.Lib.Sql

abbrev Cell := Option Bytes

abbrev Row := List Cell

/-! ### Writing -/

def escapeByte (c : UInt8) : Bytes :=
  if c = 0 then [92, 48]
  else if c = 10 then [92, 110]
  else if c = 13 then [92, 114]
  else if c = 26 then [92, 90]
  else if c = 34 ∨ c = 39 ∨ c = 92 then [92, c]
  else [c]

def escape (t : Bytes) : Bytes := t.flatMap escapeByte

theorem escape_eq_nil {s : Bytes} : escape s = [] ↔ s = [] := by
  cases s with
  | nil => simp [escape]
  | cons c s =>
    have hone : escapeByte c ≠ [] := by
      unfold escapeByte
      split_ifs <;> simp
    simp [escape, hone]

theorem escape_eq_self {s : Bytes} (h : ∀ c ∈ s, escapeByte c = [c]) : escape s = s := by
  induction s with
  | nil => rfl
  | cons c s ih =>
    have hc := h c (List.mem_cons_self ..)
    have hs := ih fun d hd => h d (List.mem_cons_of_mem _ hd)
    simp only [escape, List.flatMap_cons] at hs ⊢
    rw [hc, hs]
    rfl

def literal : Cell → Bytes
  | none => [110, 117, 108, 108]
  | some t => 39 :: (escape t ++ [39])

def literals : Row → Bytes
  | [] => []
  | [c] => literal c
  | c :: d :: row => literal c ++ (44 :: 32 :: literals (d :: row))

def openRow (row : Row) : Bytes := 32 :: 40 :: literals row

def printRow (row : Row) : Bytes := openRow row ++ [41]

def printTail (sep : Bytes) (rows : List Row) : Bytes :=
  rows.flatMap fun row => 44 :: (printRow row ++ sep)

def printValues (sep : Bytes) : List Row → Bytes
  | [] => []
  | row :: rows => printRow row ++ printTail sep rows

/-! ### Reading -/

def blank (c : UInt8) : Bool := decide (c = 32 ∨ c = 10)

def unescape (c : UInt8) : UInt8 :=
  if c = 48 then 0 else if c = 110 then 10 else if c = 114 then 13 else if c = 90 then 26 else c

/-- Before a row, before a value, inside a string literal, behind a backslash in one, inside
`null`, behind a value, and behind a row. -/
inductive Mode where
  | row
  | value
  | text (t : Bytes)
  | escaped (t : Bytes)
  | null (seen : ℕ)
  | valueEnd
  | rowEnd
  deriving DecidableEq

/-- The reader: the values of the row it is in, and the rows it has completed. -/
structure Reader where
  mode : Mode
  cells : Row
  rows : List Row
  deriving DecidableEq

variable {row : Row}

namespace Reader

def start : Reader := ⟨.row, [], []⟩

def next (r : Reader) (c : UInt8) : Option Reader :=
  match r.mode with
  | .row =>
    if blank c then some r else if c = 40 then some { r with mode := .value, cells := [] } else none
  | .value =>
    if blank c then some r
    else if c = 39 then some { r with mode := .text [] }
    else if c = 110 then some { r with mode := .null 1 }
    else none
  | .text t =>
    if c = 92 then some { r with mode := .escaped t }
    else if c = 39 then some { r with mode := .valueEnd, cells := r.cells ++ [some t] }
    else some { r with mode := .text (t ++ [c]) }
  | .escaped t => some { r with mode := .text (t ++ [unescape c]) }
  | .null seen =>
    if (seen = 1 ∧ c = 117) ∨ (seen = 2 ∧ c = 108) then some { r with mode := .null (seen + 1) }
    else if seen = 3 ∧ c = 108 then some { r with mode := .valueEnd, cells := r.cells ++ [none] }
    else none
  | .valueEnd =>
    if blank c then some r
    else if c = 44 then some { r with mode := .value }
    else if c = 41 then some { r with mode := .rowEnd, rows := r.rows ++ [r.cells] }
    else none
  | .rowEnd => if blank c then some r else if c = 44 then some { r with mode := .row } else none

def run : Reader → Bytes → Option Reader
  | r, [] => some r
  | r, c :: text => (r.next c).bind fun r => r.run text

theorem run_append (r : Reader) (a b : Bytes) :
    r.run (a ++ b) = (r.run a).bind fun r => r.run b := by
  induction a generalizing r with
  | nil => rfl
  | cons c a ih =>
    simp only [List.cons_append, run]
    cases r.next c with
    | none => rfl
    | some r' => exact ih r'

variable {r q : Reader}

theorem next_rows {c : UInt8} (h : r.next c = some q) : r.rows <+: q.rows := by
  unfold next at h
  repeat' split at h
  all_goals cases h <;> simp

theorem run_rows {text : Bytes} (h : r.run text = some q) : r.rows <+: q.rows := by
  induction text generalizing r with
  | nil =>
    cases h
    exact List.prefix_refl _
  | cons c text ih =>
    obtain ⟨r', hnext, hrun⟩ := Option.bind_eq_some_iff.mp h
    exact (next_rows hnext).trans (ih hrun)

theorem run_take {text : Bytes} (h : r.run text = some q) (k : ℕ) :
    ∃ q', r.run (text.take k) = some q' ∧ q'.rows <+: q.rows := by
  rw [← List.take_append_drop k text, run_append] at h
  obtain ⟨q', hq', hrest⟩ := Option.bind_eq_some_iff.mp h
  exact ⟨q', hq', run_rows hrest⟩

section
variable (cells : Row) (rows : List Row)

theorem run_escapeByte (t : Bytes) (c : UInt8) (text : Bytes) :
    run ⟨.text t, cells, rows⟩ (escapeByte c ++ text) = run ⟨.text (t ++ [c]), cells, rows⟩ text := by
  unfold escapeByte
  split_ifs with h0 h10 h13 h26 hq
  · subst h0
    rfl
  · subst h10
    rfl
  · subst h13
    rfl
  · subst h26
    rfl
  · have hun : unescape c = c := by
      rcases hq with rfl | rfl | rfl <;> rfl
    simp [run, next, hun]
  · obtain ⟨-, h39, h92⟩ : c ≠ 34 ∧ c ≠ 39 ∧ c ≠ 92 := by simpa [not_or] using hq
    simp [run, next, h39, h92]

theorem run_escape (t s text : Bytes) :
    run ⟨.text t, cells, rows⟩ (escape s ++ text) = run ⟨.text (t ++ s), cells, rows⟩ text := by
  induction s generalizing t with
  | nil => simp [escape]
  | cons c s ih =>
    have happ : escape (c :: s) ++ text = escapeByte c ++ (escape s ++ text) := by simp [escape]
    rw [happ, run_escapeByte, ih]
    simp

theorem run_literal (c : Cell) (text : Bytes) :
    run ⟨.value, cells, rows⟩ (literal c ++ text) =
      run ⟨.valueEnd, cells ++ [c], rows⟩ text := by
  cases c with
  | none => rfl
  | some t =>
    have happ : literal (some t) ++ text = 39 :: (escape t ++ (39 :: text)) := by simp [literal]
    have hquote : run ⟨.value, cells, rows⟩ (39 :: (escape t ++ (39 :: text))) =
      run ⟨.text [], cells, rows⟩ (escape t ++ (39 :: text)) := rfl
    rw [happ, hquote, run_escape]
    rfl

theorem run_literals (h : row ≠ []) (text : Bytes) :
    run ⟨.value, cells, rows⟩ (literals row ++ text) =
      run ⟨.valueEnd, cells ++ row, rows⟩ text := by
  induction row generalizing cells with
  | nil => exact absurd rfl h
  | cons c row ih =>
    cases row with
    | nil => exact run_literal cells rows c text
    | cons d row =>
      have happ : literals (c :: d :: row) ++ text =
          literal c ++ (44 :: 32 :: (literals (d :: row) ++ text)) := by simp [literals]
      have hsep : run ⟨.valueEnd, cells ++ [c], rows⟩ (44 :: 32 :: (literals (d :: row) ++ text)) =
        run ⟨.value, cells ++ [c], rows⟩ (literals (d :: row) ++ text) := rfl
      rw [happ, run_literal, hsep, ih _ (List.cons_ne_nil d row)]
      simp

theorem run_openRow (h : row ≠ []) (text : Bytes) :
    run ⟨.row, cells, rows⟩ (openRow row ++ text) = run ⟨.valueEnd, row, rows⟩ text := by
  have hparen : run ⟨.row, cells, rows⟩ (openRow row ++ text) =
    run ⟨.value, [], rows⟩ (literals row ++ text) := rfl
  rw [hparen, run_literals [] rows h]
  rfl

theorem run_printRow (h : row ≠ []) (text : Bytes) :
    run ⟨.row, cells, rows⟩ (printRow row ++ text) = run ⟨.rowEnd, row, rows ++ [row]⟩ text := by
  have happ : printRow row ++ text = openRow row ++ (41 :: text) := by simp [printRow]
  rw [happ, run_openRow cells rows h]
  rfl

theorem run_blanks {sep : Bytes} (h : ∀ c ∈ sep, blank c = true) (text : Bytes) :
    run ⟨.rowEnd, cells, rows⟩ (sep ++ text) = run ⟨.rowEnd, cells, rows⟩ text := by
  induction sep with
  | nil => rfl
  | cons c sep ih =>
    have hc : blank c = true := h c (List.mem_cons_self ..)
    have hnext : next ⟨.rowEnd, cells, rows⟩ c = some ⟨.rowEnd, cells, rows⟩ := by
      simp [next, hc]
    rw [List.cons_append, run, hnext]
    exact ih fun c hc => h c (List.mem_cons_of_mem _ hc)

end

end Reader

/-- The rows of a complete list of values; `none` is a text the server refuses. -/
def readRows (text : Bytes) : Option (List Row) :=
  (Reader.start.run text).bind fun r => if r.mode = .rowEnd then some r.rows else none

/-! ### A list of values that may be cut off -/

section Values
variable {sep : Bytes}

def leadText (sep : Bytes) : List Row → Bytes
  | [] => []
  | row :: rows => printRow row ++ (printTail sep rows ++ [44])

def openText (sep : Bytes) (init : List Row) (row : Row) : Bytes := leadText sep init ++ openRow row

theorem printValues_snoc (init : List Row) (row : Row) :
    printValues sep (init ++ [row]) =
      openText sep init row ++ (41 :: if init = [] then [] else sep) := by
  cases init with
  | nil => simp [printValues, printTail, openText, leadText, printRow]
  | cons r init => simp [printValues, printTail, openText, leadText, printRow]

theorem Reader.run_printTail (hsep : ∀ c ∈ sep, blank c = true) {rows : List Row}
    (h : ∀ row ∈ rows, row ≠ []) (cells : Row) (acc : List Row) (text : Bytes) :
    ∃ cells', run ⟨.rowEnd, cells, acc⟩ (printTail sep rows ++ text) =
      run ⟨.rowEnd, cells', acc ++ rows⟩ text := by
  induction rows generalizing cells acc with
  | nil => exact ⟨cells, by simp [printTail]⟩
  | cons row rows ih =>
    obtain ⟨cells', ih⟩ := ih (fun r hr => h r (List.mem_cons_of_mem _ hr)) row (acc ++ [row])
    refine ⟨cells', ?_⟩
    have happ : printTail sep (row :: rows) ++ text =
        44 :: (printRow row ++ (sep ++ (printTail sep rows ++ text))) := by simp [printTail]
    have hcomma : run ⟨.rowEnd, cells, acc⟩
          (44 :: (printRow row ++ (sep ++ (printTail sep rows ++ text)))) =
        run ⟨.row, cells, acc⟩ (printRow row ++ (sep ++ (printTail sep rows ++ text))) := rfl
    rw [happ, hcomma, run_printRow _ _ (h row (List.mem_cons_self ..)), run_blanks _ _ hsep, ih]
    simp

variable {init : List Row}

theorem Reader.run_leadText (hsep : ∀ c ∈ sep, blank c = true)
    (h : ∀ row ∈ init, row ≠ []) (text : Bytes) :
    ∃ cells, start.run (leadText sep init ++ text) = run ⟨.row, cells, init⟩ text := by
  cases init with
  | nil => exact ⟨[], rfl⟩
  | cons row init =>
    obtain ⟨cells, htail⟩ := run_printTail hsep
      (fun r hr => h r (List.mem_cons_of_mem row hr)) row [row] (44 :: text)
    refine ⟨cells, ?_⟩
    have happ : leadText sep (row :: init) ++ text =
        printRow row ++ (printTail sep init ++ (44 :: text)) := by simp [leadText]
    rw [happ, start, run_printRow _ _ (h row (List.mem_cons_self ..))]
    exact htail

theorem Reader.run_openText (hsep : ∀ c ∈ sep, blank c = true)
    (h : ∀ r ∈ init, r ≠ []) (hrow : row ≠ []) (text : Bytes) :
    start.run (openText sep init row ++ text) = run ⟨.valueEnd, row, init⟩ text := by
  obtain ⟨cells, hlead⟩ := run_leadText hsep h (openRow row ++ text)
  rw [openText, List.append_assoc, hlead, run_openRow _ _ hrow]

theorem readRows_take_of_lt (hsep : ∀ c ∈ sep, blank c = true)
    (h : ∀ r ∈ init, r ≠ []) (hrow : row ≠ []) {k : ℕ} (hk : (openText sep init row).length < k) :
    readRows ((printValues sep (init ++ [row])).take k) = some (init ++ [row]) := by
  obtain ⟨j, rfl⟩ := Nat.exists_eq_add_of_lt hk
  have htake : (printValues sep (init ++ [row])).take ((openText sep init row).length + j + 1) =
      openText sep init row ++ (41 :: (if init = [] then [] else sep).take j) := by
    rw [printValues_snoc, Nat.add_assoc, List.take_append, List.take_of_length_le (by omega)]
    simp
  have hblank : ∀ c ∈ (if init = [] then [] else sep).take j, blank c = true := by
    intro c hc
    have hmem := List.mem_of_mem_take hc
    split_ifs at hmem
    · cases hmem
    · exact hsep c hmem
  have hend := Reader.run_blanks row (init ++ [row]) hblank []
  rw [List.append_nil] at hend
  have hrun : Reader.start.run
      (openText sep init row ++ (41 :: (if init = [] then [] else sep).take j)) =
        some ⟨.rowEnd, row, init ++ [row]⟩ := by
    rw [Reader.run_openText hsep h hrow]
    exact hend
  rw [readRows, htake, hrun]
  rfl

theorem readRows_take_of_le (hsep : ∀ c ∈ sep, blank c = true)
    (h : ∀ r ∈ init, r ≠ []) (hrow : row ≠ []) {k : ℕ} (hk : k ≤ (openText sep init row).length)
    {rows : List Row} (hr : readRows ((printValues sep (init ++ [row])).take k) = some rows) :
    rows <+: init := by
  have hrun : Reader.start.run (openText sep init row) = some ⟨.valueEnd, row, init⟩ := by
    have hopen := Reader.run_openText hsep h hrow []
    rwa [List.append_nil] at hopen
  obtain ⟨q, hq, hrows⟩ := Reader.run_take hrun k
  rw [printValues_snoc, List.take_append_of_le_length hk, readRows, hq] at hr
  obtain ⟨-, rfl⟩ : q.mode = .rowEnd ∧ q.rows = rows := by simpa using hr
  exact hrows

end Values

/-! ### INSERT IGNORE -/

def conflict (keys : List (List ℕ)) (r q : Row) : Bool :=
  keys.any fun key => key.all fun i => (r.getD i none).isSome && decide (r.getD i none = q.getD i none)

theorem conflict_eq_false {keys : List (List ℕ)} {r q r' q' : Row}
    (h : ∀ i, (r'.getD i none).isSome = true → r'.getD i none = q'.getD i none →
      (r.getD i none).isSome = true ∧ r.getD i none = q.getD i none)
    (hfree : conflict keys r q = false) : conflict keys r' q' = false := by
  rw [Bool.eq_false_iff]
  intro hused
  obtain ⟨key, hkey, hall⟩ := List.any_eq_true.mp hused
  have hold : conflict keys r q = true := by
    refine List.any_eq_true.mpr ⟨key, hkey, List.all_eq_true.mpr fun i hi => ?_⟩
    have hi' := List.all_eq_true.mp hall i hi
    rw [Bool.and_eq_true, decide_eq_true_eq] at hi' ⊢
    exact h i hi'.1 hi'.2
  rw [hold] at hfree
  cases hfree

def insertIgnore (keys : List (List ℕ)) (table new : List Row) : List Row :=
  new.foldl (fun table r => if table.any (conflict keys · r) then table else table ++ [r]) table

theorem insertIgnore_append (keys : List (List ℕ)) (table a b : List Row) :
    insertIgnore keys table (a ++ b) = insertIgnore keys (insertIgnore keys table a) b :=
  List.foldl_append

theorem insertIgnore_sublist (keys : List (List ℕ)) (table new : List Row) :
    ∃ kept, insertIgnore keys table new = table ++ kept ∧ kept.Sublist new := by
  induction new generalizing table with
  | nil => exact ⟨[], by simp [insertIgnore]⟩
  | cons r new ih =>
    simp only [insertIgnore, List.foldl_cons] at ih ⊢
    split_ifs with hused
    · obtain ⟨kept, hkept, hsub⟩ := ih table
      exact ⟨kept, hkept, hsub.trans (List.sublist_cons_self r new)⟩
    · obtain ⟨kept, hkept, hsub⟩ := ih (table ++ [r])
      exact ⟨r :: kept, by rw [hkept]; simp, hsub.cons_cons r⟩

theorem insertIgnore_eq_append {keys : List (List ℕ)} {table new : List Row}
    (h : (table ++ new).Pairwise fun r q => conflict keys r q = false) :
    insertIgnore keys table new = table ++ new := by
  induction new generalizing table with
  | nil => simp [insertIgnore]
  | cons r new ih =>
    have hfree : table.any (conflict keys · r) = false := by
      rw [List.any_eq_false]
      intro q hq
      have hqr := (List.pairwise_append.mp h).2.2 q hq r (List.mem_cons_self ..)
      simp [hqr]
    have happ : table ++ r :: new = (table ++ [r]) ++ new := by simp
    rw [happ] at h ⊢
    rw [← ih h]
    simp only [insertIgnore, List.foldl_cons, hfree, Bool.false_eq_true, if_false]

end HysteriaCore.Lib.Sql
