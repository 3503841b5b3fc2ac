import HysteriaCore.Lib.Printf
import HysteriaCore.Lib.Words

/-!
# The rebase of the item guids (shade/Database/DatabaseRoutines.cpp)

`Begin` copies ten tables, empties them and writes their rows back as INSERT texts with the
item guids numbered anew. A refused statement has no effect. The statements given to
`PExecute` and those of the two threads touch one table each, so that they are taken here
table by table.
-/

namespace HysteriaCore.Rebase
open Lib Sql

inductive Table where
  | auctionhouse
  | characterGifts
  | characterInventory
  | guildBankItem
  | itemInstance
  | itemRefundInstance
  | itemSoulboundTradeData
  | mailItems
  | petition
  | petitionSign
  deriving DecidableEq, Repr

def Table.all : List Table :=
  [.auctionhouse, .characterGifts, .characterInventory, .guildBankItem, .itemInstance,
    .itemRefundInstance, .itemSoulboundTradeData, .mailItems, .petition, .petitionSign]

def Table.name : Table → String
  | .auctionhouse => "auctionhouse"
  | .characterGifts => "character_gifts"
  | .characterInventory => "character_inventory"
  | .guildBankItem => "guild_bank_item"
  | .itemInstance => "item_instance"
  | .itemRefundInstance => "item_refund_instance"
  | .itemSoulboundTradeData => "item_soulbound_trade_data"
  | .mailItems => "mail_items"
  | .petition => "petition"
  | .petitionSign => "petition_sign"

/-- The definitions of the tables: which columns have a type that `_IsNumeric` knows, and
the columns of each unique key. -/
structure Schema where
  numeric : Table → ℕ → Bool
  keys : Table → List (List ℕ)

/-- The character database. `others` are the tables with item guids that the rebase does not
know, such as `item_loot_storage` (`containerGUID`) and `character_equipmentsets`: the
columns with item guids, and the rows. -/
structure Database where
  rows : Table → List Row
  temp : Table → Option (List Row)
  others : List (List ℕ × List Row)

/-! ### Fields -/

def getUInt32 (c : Cell) : ℕ := u32 (digits (c.getD []) 0)

def getString (c : Cell) : Bytes := cstr (c.getD [])

def field (row : Row) (i : ℕ) : Cell := row.getD i none

def printField (numeric : Bool) (c : Cell) : Bytes :=
  let s := escape (getString c)
  if s = [] then if numeric then ascii "null" else ascii "''"
  else ascii "'" ++ s ++ ascii "'"

def printValue (value : ℕ) : Bytes := ascii "'" ++ decimal value ++ ascii "'"

def printFields (print : ℕ → Cell → Bytes) : ℕ → Row → Bytes
  | _, [] => []
  | i, [c] => print i c
  | i, c :: d :: row => print i c ++ ascii ", " ++ printFields print (i + 1) (d :: row)

def singleGUID (numeric : ℕ → Bool) (offset value : ℕ) (row : Row) : Bytes :=
  let print := fun i c => if i = offset then printValue value else printField (numeric i) c
  ascii " (" ++ printFields print 0 row ++ ascii ")"

def doubleGUID (numeric : ℕ → Bool) (offset value offsetb valueb : ℕ) (row : Row) : Bytes :=
  let print := fun i c =>
    if i = offset then printValue value
    else if i = offsetb then printValue valueb
    else printField (numeric i) c
  ascii " (" ++ printFields print 0 row ++ ascii ")"

/-! ### Statements -/

def MAX_QUERY_LEN : ℕ := 32 * 1024
def WRAPS : ℕ := 1000

def intro (t : Table) : Bytes := ascii "INSERT IGNORE INTO " ++ ascii t.name ++ ascii " VALUES"

/-- `PExecute` without arguments: the text is the format, and the buffer keeps one byte for
the end of the string. `none` is undefined behaviour. -/
def pExecute (sql : Bytes) : Option Bytes := (format sql).map (·.take (MAX_QUERY_LEN - 1))

def statementRows (t : Table) (sql : Bytes) : List Row :=
  if intro t <+: sql then (readRows (sql.drop (intro t).length)).getD [] else []

def execute (S : Schema) (t : Table) (rows : List Row) (sql : Bytes) : List Row :=
  insertIgnore (S.keys t) rows (statementRows t sql)

/-- The loop over the row texts: the statements sent, `counter` and the text at the end. -/
def wrapLoop (head sep : Bytes) (wraps : ℕ) :
    ℕ → Bytes → List Bytes → List Bytes × ℕ × Bytes
  | counter, ss, [] => ([], counter, ss)
  | counter, ss, text :: texts =>
    let ss := if counter = 0 then ss ++ head ++ text else ss ++ ascii "," ++ text ++ sep
    let counter := counter + 1
    if counter = wraps then
      let r := wrapLoop head sep wraps 0 [] texts
      (ss :: r.1, r.2)
    else wrapLoop head sep wraps counter ss texts

abbrev ItemMap := ℕ → Option ℕ

/-- The loop of `Begin` over the guids; entries of an earlier run stay in the map. -/
def collectGUIDs : ItemMap → ℕ → List Row → ItemMap
  | m, _, [] => m
  | m, count, row :: rows =>
    let count := u32 (count + 1)
    collectGUIDs (Function.update m (getUInt32 (field row 0)) (some count)) count rows

def singleText (S : Schema) (m : ItemMap) (t : Table) (offset : ℕ) (row : Row) : Option Bytes :=
  (m (getUInt32 (field row offset))).map fun value => singleGUID (S.numeric t) offset value row

def inventoryText (S : Schema) (m : ItemMap) (row : Row) : Option Bytes :=
  if getUInt32 (field row 1) = 0 then singleText S m .characterInventory 3 row
  else
    match m (getUInt32 (field row 3)), m (getUInt32 (field row 1)) with
    | some item, some bag => some (doubleGUID (S.numeric .characterInventory) 1 bag 3 item row)
    | _, _ => none

section Passes
variable (S : Schema) (m : ItemMap) (db : Database)

/-- The passes that send their texts through `PExecute`, the last one even when empty. -/
def wrapPass (t : Table) (offset wraps : ℕ) : Option (List Row) :=
  let texts := ((db.temp t).getD []).filterMap (singleText S m t offset)
  let r := wrapLoop (intro t) (ascii "\n") wraps 0 [] texts
  ((r.1 ++ [r.2.2]).mapM pExecute).map fun sqls => sqls.foldl (execute S t) (db.rows t)

def auctionhouse : Option (List Row) := wrapPass S m db .auctionhouse 2 (WRAPS / 4)
def characterGifts : Option (List Row) := wrapPass S m db .characterGifts 1 (WRAPS / 2)
def guildBankItem : Option (List Row) := wrapPass S m db .guildBankItem 3 (WRAPS / 2)
def itemRefundInstance : Option (List Row) := wrapPass S m db .itemRefundInstance 0 (WRAPS / 10)
def itemSoulboundTradeData : Option (List Row) :=
  wrapPass S m db .itemSoulboundTradeData 0 (WRAPS / 10)
def mailItems : Option (List Row) := wrapPass S m db .mailItems 1 (WRAPS / 2)
def petition : Option (List Row) := wrapPass S m db .petition 1 WRAPS
def petitionSign : Option (List Row) := wrapPass S m db .petitionSign 1 WRAPS

/-- `for (min_loops = 0; min_loops < max_loops; min_loops += 500000)`: the rows of each
`LIMIT`. `none`: the sum leaves `uint32`, and the rows would be read from the front again. -/
def limitChunks : ℕ → ℕ → List Row → Option (List (List Row))
  | 0, _, _ => none
  | fuel + 1, min, rows =>
    if min < rows.length then
      if 2 ^ 32 ≤ min + 500000 then none
      else
        let chunk :=
          if min + 500000 < rows.length then (rows.drop min).take 500000 else rows.drop min
        (limitChunks fuel (min + 500000) rows).map (chunk :: ·)
    else some []

def chunkStatements (t : Table) (text : Row → Option Bytes) (sep : Bytes) (wraps : ℕ)
    (chunk : List Row) : List Bytes :=
  let r := wrapLoop (intro t) sep wraps 0 [] (chunk.filterMap text)
  r.1 ++ if r.2.1 ≠ 0 then [r.2.2] else []

/-- The passes that run in threads of their own. The counter cannot pass the last multiple
of 500000 below `2^32`, which is number 8589. -/
def chunkPass (t : Table) (text : Row → Option Bytes) (sep : Bytes) (wraps : ℕ) :
    Option (List Row) :=
  (limitChunks 8590 0 ((db.temp t).getD [])).map fun chunks =>
    (chunks.flatMap (chunkStatements t text sep wraps)).foldl (execute S t) (db.rows t)

def characterInventory : Option (List Row) :=
  chunkPass S db .characterInventory (inventoryText S m) [] 1000

def itemInstance : Option (List Row) :=
  chunkPass S db .itemInstance (singleText S m .itemInstance 0) (ascii "\n") 5000

def rebaseTable : Table → Option (List Row)
  | .auctionhouse => auctionhouse S m db
  | .characterGifts => characterGifts S m db
  | .characterInventory => characterInventory S m db
  | .guildBankItem => guildBankItem S m db
  | .itemInstance => itemInstance S m db
  | .itemRefundInstance => itemRefundInstance S m db
  | .itemSoulboundTradeData => itemSoulboundTradeData S m db
  | .mailItems => mailItems S m db
  | .petition => petition S m db
  | .petitionSign => petitionSign S m db

end Passes

/-! ### Begin -/

/-- `Init`: a copy that is there already is not made again; the tables are emptied. -/
def init (db : Database) : Database :=
  { db with
    temp := fun t => some ((db.temp t).getD (db.rows t))
    rows := fun _ => [] }

def hiItemGuid (items : List Row) : ℕ :=
  u32 (items.foldl (fun hi row => max hi (getUInt32 (field row 0))) 0 + 1)

def Table.cleanupColumn : Table → Option ℕ
  | .characterInventory => some 3
  | .mailItems => some 1
  | .auctionhouse => some 2
  | .guildBankItem => some 3
  | _ => none

def deleteFrom (hi : ℕ) (t : Table) (rows : List Row) : List Row :=
  match t.cleanupColumn with
  | none => rows
  | some i => rows.filter fun row => decide (field row i = none ∨ getUInt32 (field row i) < hi)

/-- `Begin`, with the map left by earlier runs. Without items it returns early and leaves the
copies in place. `none` is undefined behaviour or a loop that starts over. -/
def begin (S : Schema) (m : ItemMap) (db : Database) : Option Database :=
  let db := init db
  let items := (db.temp .itemInstance).getD []
  if items = [] then some db
  else
    let m := collectGUIDs m 0 items
    if Table.all.all fun t => (rebaseTable S m db t).isSome then
      let rows := fun t => (rebaseTable S m db t).getD []
      some
        { db with
          rows := fun t => deleteFrom (hiItemGuid (rows .itemInstance)) t (rows t)
          temp := fun _ => none }
    else none

end HysteriaCore.Rebase
