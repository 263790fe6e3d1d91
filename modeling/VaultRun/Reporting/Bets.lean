import VaultRun.Data.Keyset
import VaultRun.Reporting.Totals
import VaultRun.Reporting.TransactionQuery

/-!
The list of an operator's bets, which is read page by page while the game changes the table.
-/

namespace VaultRun.Reporting

open VaultRun.Game VaultRun.Data Numeral Keyset

structure BetRecord extends BetRow where
  roundId : String
  panel : Panel
  cashoutMult : Option ℕ
  settledAt : Option ℤ

structure BetsQuery extends ReportQuery where
  cursor : Option Uuid
  limit : ℕ

structure RawBetsQuery where
  cursor : Option Param
  limit : Option Param

def parseCursor (p : Option Param) : Except String (Option Uuid) :=
  match trimmed p with
  | none => .ok none
  | some c => if h : uuidRe c = true then .ok (some ⟨c, h⟩) else .error "invalid cursor"

/-- Fifty where none is asked for, two hundred at most. -/
def parseLimit (p : Option Param) : Except String ℕ :=
  match asString p with
  | none => .ok 50
  | some lr =>
      match toNumber lr with
      | .finite n => if n.den ≠ 1 ∨ n < 1 then .error "invalid limit" else .ok (min n.num.toNat 200)
      | _ => .error "invalid limit"

def parseBetsQuery (base : Except String ReportQuery) (q : RawBetsQuery) : Except String BetsQuery := do
  let b ← base
  let cursor ← parseCursor q.cursor
  let limit ← parseLimit q.limit
  return { b with cursor, limit }

structure GameSession where
  walletId : String
  playerId : String

/-- A bet as an answer has it, its player under the operator's own id. -/
structure BetView where
  id : String
  roundId : String
  playerId : Option String
  currency : CurrencyCode
  decimals : ℕ
  panel : Panel
  amount : String
  status : BetStatus
  cashoutMult : Option String
  payout : String
  demo : Bool
  createdAt : List Char
  settledAt : Option (List Char)

structure BetsResponse where
  operatorId : String
  start : List Char
  finish : List Char
  includeDemo : Bool
  bets : List BetView
  nextCursor : Option String

def BetRow.key (b : BetRow) : ℤ ×ₗ String := toLex (b.createdAt, b.id)

/-- What the database answers where the row of a cursor is not there: rows that meet the filter, no more is known. -/
structure Missing where
  answer : List BetRecord → List BetRecord
  subset : ∀ rows, answer rows ⊆ rows

section Service

variable (missing : Missing) (db : Arrangement) (decimals : String → ℕ) (decimalText : ℕ → String)

/-- `findMany` with a cursor and `skip: 1`: the rows strictly after the cursor's. -/
def findMany (rows : List BetRecord) (filter : BetRecord → Bool) (cursor : Option Uuid) (take : ℕ) : List BetRecord :=
  match cursor with
  | none => page (·.key) take none (rows.filter filter)
  | some c =>
      match rows.find? (·.id = c.val) with
      | some b => page (·.key) take (some b.key) (rows.filter filter)
      | none => (missing.answer (rows.filter filter)).take take

/-- The first of the sessions of a wallet names its player. -/
def playerByWallet (sessions : List GameSession) (page : List BetRecord) (walletId : String) : Option String :=
  ((db.arrange (sessions.filter fun s => s.walletId ∈ page.map (·.walletId))).find? (·.walletId = walletId)).map
    GameSession.playerId

def view (playerId : Option String) (r : BetRecord) : BetView where
  id := r.id
  roundId := r.roundId
  playerId := playerId
  currency := r.currency
  decimals := decimals r.currency.val
  panel := r.panel
  amount := toString r.amount
  status := r.status
  cashoutMult := r.cashoutMult.map decimalText
  payout := toString r.payout
  demo := r.demo
  createdAt := toISOString r.createdAt
  settledAt := r.settledAt.map toISOString

def checkCursor (rows : List BetRecord) (operatorId : String) (cursor : Option Uuid) : Except String Unit :=
  match cursor with
  | none => .ok ()
  | some c =>
      match rows.find? (·.id = c.val) with
      | none => .error "invalid cursor"
      | some b => if b.operatorId ≠ some operatorId then .error "invalid cursor" else .ok ()

def answer (sessions : List GameSession) (operatorId : String) (q : BetsQuery) (rows : List BetRecord) : BetsResponse :=
  let hasMore : Bool := q.limit < rows.length
  let page := if hasMore then rows.take q.limit else rows
  { operatorId := operatorId
    start := toISOString q.start
    finish := toISOString q.finish
    includeDemo := q.includeDemo
    bets := page.map fun r => view decimals decimalText (playerByWallet db sessions page r.walletId) r
    nextCursor := if hasMore then page.getLast?.map (·.id) else none }

/-- The cursor is looked up in the rows `before`, the page is read from the rows `after`. -/
def bets (before after : List BetRecord) (sessions : List GameSession) (operatorId : String) (q : BetsQuery) :
    Except String BetsResponse := do
  checkCursor before operatorId q.cursor
  return answer db decimals decimalText sessions operatorId q
    (findMany missing after (fun b => inScope operatorId q.toReportQuery b.toBetRow) q.cursor (q.limit + 1))

end Service

/-- The table of the bets: an id is one bet's, and no other's later. -/
structure Bets where
  rows : List BetRecord
  given : List String
  valid : ∀ b ∈ rows, uuidRe b.id = true
  nodup : (rows.map (·.id)).Nodup
  known : ∀ b ∈ rows, b.id ∈ given

/-- What the game does to the table: a bet enters it, changes its status, or leaves it. -/
inductive Change
  | place (b : BetRecord)
  | update (id : String) (status : BetStatus) (cashoutMult : Option ℕ) (payout : ℤ) (settledAt : Option ℤ)
  | delete (id : String)

def BetRecord.update (b : BetRecord) (id : String) (status : BetStatus) (cashoutMult : Option ℕ) (payout : ℤ)
    (settledAt : Option ℤ) : BetRecord :=
  if b.id = id then { b with status, cashoutMult, payout, settledAt } else b

def BetRecord.fixed (b : BetRecord) : String × Option String × CurrencyCode × Bool × ℤ :=
  (b.id, b.operatorId, b.currency, b.demo, b.createdAt)

lemma BetRecord.fixed_update {b : BetRecord} {id : String} {status : BetStatus} {cashoutMult : Option ℕ} {payout : ℤ}
    {settledAt : Option ℤ} : (b.update id status cashoutMult payout settledAt).fixed = b.fixed := by
  rw [BetRecord.update]
  split_ifs <;> rfl

lemma BetRecord.id_update {b : BetRecord} {id : String} {status : BetStatus} {cashoutMult : Option ℕ} {payout : ℤ}
    {settledAt : Option ℤ} : (b.update id status cashoutMult payout settledAt).id = b.id :=
  congrArg Prod.fst BetRecord.fixed_update

def Bets.apply (t : Bets) : Change → Bets
  | .place b =>
      if h : uuidRe b.id = true ∧ b.id ∉ t.given then
        { rows := b :: t.rows
          given := b.id :: t.given
          valid := List.forall_mem_cons.2 ⟨h.1, t.valid⟩
          nodup := by
            refine List.nodup_cons.2 ⟨fun hmem => ?_, t.nodup⟩
            obtain ⟨b', hb', hid⟩ := List.mem_map.1 hmem
            exact h.2 ((congrArg (· ∈ t.given) hid).mp (t.known b' hb'))
          known := List.forall_mem_cons.2
            ⟨List.mem_cons_self, fun b' hb' => List.mem_cons_of_mem _ (t.known b' hb')⟩ }
      else t
  | .update id status cashoutMult payout settledAt =>
      { rows := t.rows.map fun b => b.update id status cashoutMult payout settledAt
        given := t.given
        valid := by
          refine List.forall_mem_map.2 fun b hb => ?_
          rw [BetRecord.id_update]
          exact t.valid b hb
        nodup := by
          rw [List.map_map]
          simpa only [Function.comp_def, BetRecord.id_update] using t.nodup
        known := by
          refine List.forall_mem_map.2 fun b hb => ?_
          rw [BetRecord.id_update]
          exact t.known b hb }
  | .delete id =>
      { rows := t.rows.filter (·.id ≠ id)
        given := t.given
        valid := fun b hb => t.valid b (List.mem_of_mem_filter hb)
        nodup := t.nodup.sublist ((List.filter_sublist (l := t.rows)).map _)
        known := fun b hb => t.known b (List.mem_of_mem_filter hb) }

def history (start : Bets) (changes : ℕ → Change) : ℕ → Bets
  | 0 => start
  | n + 1 => (history start changes n).apply (changes n)

section History

variable {t : Bets} {c : Change} {b b' : BetRecord} {start : Bets} {changes : ℕ → Change} {i j : ℕ}

lemma given_apply : t.given ⊆ (t.apply c).given := by
  cases c with
  | place b =>
      rw [Bets.apply]
      split_ifs with h
      · exact List.subset_cons_self _ _
      · exact List.Subset.refl _
  | update => exact List.Subset.refl _
  | delete => exact List.Subset.refl _

lemma exists_fixed_of_apply (hb : b ∈ (t.apply c).rows) (hgiven : b.id ∈ t.given) :
    ∃ b' ∈ t.rows, b'.fixed = b.fixed := by
  cases c with
  | place new =>
      rw [Bets.apply] at hb
      split_ifs at hb with h
      · rcases List.mem_cons.1 hb with rfl | hb
        · exact absurd hgiven h.2
        · exact ⟨b, hb, rfl⟩
      · exact ⟨b, hb, rfl⟩
  | update id status cashoutMult payout settledAt =>
      obtain ⟨b', hb', rfl⟩ := List.mem_map.1 hb
      exact ⟨b', hb', BetRecord.fixed_update.symm⟩
  | delete id => exact ⟨b, List.mem_of_mem_filter hb, rfl⟩

lemma given_mono (h : i ≤ j) : (history start changes i).given ⊆ (history start changes j).given := by
  induction j, h using Nat.le_induction with
  | base => exact List.Subset.refl _
  | succ j _ ih => exact List.Subset.trans ih given_apply

lemma exists_fixed_of_le (h : i ≤ j) (hb : b ∈ (history start changes j).rows)
    (hgiven : b.id ∈ (history start changes i).given) : ∃ b' ∈ (history start changes i).rows, b'.fixed = b.fixed := by
  induction j, h using Nat.le_induction generalizing b with
  | base => exact ⟨b, hb, rfl⟩
  | succ j hij ih =>
      obtain ⟨b', hb', hfixed⟩ := exists_fixed_of_apply hb (given_mono hij hgiven)
      have hid : b'.id = b.id := congrArg Prod.fst hfixed
      rw [← hid] at hgiven
      obtain ⟨b'', hb'', hfixed'⟩ := ih hb' hgiven
      exact ⟨b'', hb'', hfixed'.trans hfixed⟩

lemma eq_of_id_eq (hb : b ∈ t.rows) (hb' : b' ∈ t.rows) (h : b.id = b'.id) : b = b' :=
  List.inj_on_of_nodup_map t.nodup hb hb' h

lemma fixed_eq (hb : b ∈ (history start changes i).rows) (hb' : b' ∈ (history start changes j).rows)
    (h : b.id = b'.id) : b.fixed = b'.fixed := by
  have hle {i j : ℕ} {b b' : BetRecord} (hij : i ≤ j) (hb : b ∈ (history start changes i).rows)
      (hb' : b' ∈ (history start changes j).rows) (h : b.id = b'.id) : b.fixed = b'.fixed := by
    have hgiven := (history start changes i).known b hb
    rw [h] at hgiven
    obtain ⟨b'', hb'', hfixed⟩ := exists_fixed_of_le hij hb' hgiven
    rw [eq_of_id_eq hb hb'' (h.trans (congrArg Prod.fst hfixed).symm), hfixed]
  rcases le_total i j with hij | hij
  · exact hle hij hb hb' h
  · exact (hle hij hb' hb h.symm).symm

lemma key_of_fixed (h : b.fixed = b'.fixed) : b.key = b'.key := by
  simp only [BetRecord.fixed, Prod.mk.injEq] at h
  rw [BetRow.key, BetRow.key, h.1, h.2.2.2.2]

lemma inScope_of_fixed {operatorId : String} {q : ReportQuery} (h : b.fixed = b'.fixed) :
    inScope operatorId q b.toBetRow = inScope operatorId q b'.toBetRow := by
  simp only [BetRecord.fixed, Prod.mk.injEq] at h
  rw [inScope, inScope, h.2.1, h.2.2.1, h.2.2.2.1, h.2.2.2.2]

lemma operatorId_of_inScope {operatorId : String} {q : ReportQuery} (h : inScope operatorId q b.toBetRow = true) :
    b.operatorId = some operatorId := by
  simp only [inScope, Bool.and_eq_true, decide_eq_true_eq] at h
  exact h.1.1.1

lemma find_of_mem (hb : b ∈ t.rows) : t.rows.find? (·.id = b.id) = some b := by
  cases hfind : t.rows.find? (·.id = b.id) with
  | none => exact absurd (decide_eq_true rfl) (List.find?_eq_none.1 hfind b hb)
  | some b' =>
      have hid := List.find?_some hfind
      rw [decide_eq_true_eq] at hid
      rw [eq_of_id_eq (List.mem_of_find?_eq_some hfind) hb hid]

lemma keys_nodup (p : BetRecord → Bool) : ((t.rows.filter p).map (·.key)).Nodup := by
  have hids : ((t.rows.filter p).map (·.id)).Nodup := t.nodup.sublist ((List.filter_sublist (l := t.rows)).map _)
  have hkeys : ((t.rows.filter p).map (·.id)) = ((t.rows.filter p).map (·.key)).map fun k => (ofLex k).2 := by
    rw [List.map_map]
    rfl
  rw [hkeys] at hids
  exact hids.of_map _

end History

section Traversal

inductive Next
  | first
  | after (cursor : String)
  | finished
  | failed (message : String)
  deriving DecidableEq

structure Progress where
  yielded : List BetView
  next : Next

def Progress.take (p : Progress) : Except String BetsResponse → Progress
  | .error message => { p with next := .failed message }
  | .ok r => ⟨p.yielded ++ r.bets, r.nextCursor.elim .finished .after⟩

/-- The client follows `nextCursor` until it is `null`. -/
def Progress.step (p : Progress) (ask : Option String → Except String BetsResponse) : Progress :=
  match p.next with
  | .first => p.take (ask none)
  | .after cursor => p.take (ask (some cursor))
  | .finished | .failed _ => p

section Step

variable {p : Progress} {ask : Option String → Except String BetsResponse} {cursor message : String}

lemma Progress.step_first (h : p.next = .first) : p.step ask = p.take (ask none) := by
  rw [Progress.step, h]

lemma Progress.step_after (h : p.next = .after cursor) : p.step ask = p.take (ask (some cursor)) := by
  rw [Progress.step, h]

lemma Progress.step_finished (h : p.next = .finished) : p.step ask = p := by
  rw [Progress.step, h]

lemma Progress.step_failed (h : p.next = .failed message) : p.step ask = p := by
  rw [Progress.step, h]

end Step

/-- A traversal of the list while the table changes: the same query each time, whose cursor is looked up at one
time and whose page is read at another. -/
structure Walk where
  start : Bets
  changes : ℕ → Change
  operatorId : String
  query : ReportQuery
  limitParam : Option Param
  limit : ℕ
  accepted : parseLimit limitParam = .ok limit
  check : ℕ → ℕ
  read : ℕ → ℕ
  checked : ∀ n, check n ≤ read n
  ordered : ∀ n, read n ≤ check (n + 1)
  sessions : ℕ → List GameSession

variable (missing : Missing) (db : Arrangement) (decimals : String → ℕ) (decimalText : ℕ → String) (w : Walk)

namespace Walk

def table (i : ℕ) : Bets := history w.start w.changes i

def inScope (b : BetRecord) : Bool := Reporting.inScope w.operatorId w.query b.toBetRow

def rows (n : ℕ) : List BetRecord := (w.table (w.read n)).rows

def ask (n : ℕ) (cursor : Option String) : Except String BetsResponse := do
  let q ← parseBetsQuery (.ok w.query) ⟨cursor.map .string, w.limitParam⟩
  bets missing db decimals decimalText (w.table (w.check n)).rows (w.rows n) (w.sessions n) w.operatorId q

def progress : ℕ → Progress
  | 0 => ⟨[], .first⟩
  | n + 1 => (progress n).step (w.ask missing db decimals decimalText n)

end Walk

section Answers

variable {missing db decimals decimalText} {w} {n : ℕ} {c : String} {cursor : Option (ℤ ×ₗ String)}
  {found : List BetRecord} {sessions : List GameSession} {operatorId : String} {q : BetsQuery}

lemma parseCursor_of_uuidRe (h : uuidRe c = true) : parseCursor (some (.string c)) = .ok (some ⟨c, h⟩) := by
  have htrimmed : trimmed (some (.string c)) = some c := by
    have hne : c.toList ≠ [] := by
      intro hnil
      rw [uuidRe, hnil] at h
      exact absurd h (by decide)
    simp [trimmed, asString, trim_of_uuidRe h, hne]
  rw [parseCursor, htrimmed]
  exact dif_pos h

lemma limit_pos {p : Option Param} {limit : ℕ} (h : parseLimit p = .ok limit) : 0 < limit := by
  rw [parseLimit] at h
  split at h
  · obtain rfl := Except.ok.inj h
    decide
  · split at h
    · split_ifs at h with hn
      obtain rfl := Except.ok.inj h
      have hnum : 0 < (_ : ℚ).num := Rat.num_pos.2 (lt_of_lt_of_le one_pos (not_lt.1 (not_or.1 hn).2))
      omega
    · cases h

lemma ask_none : w.ask missing db decimals decimalText n none = .ok (answer db decimals decimalText (w.sessions n)
    w.operatorId ⟨w.query, none, w.limit⟩ (page (·.key) (w.limit + 1) none ((w.rows n).filter w.inScope))) := by
  rw [Walk.ask, parseBetsQuery, w.accepted]
  rfl

lemma ask_some (h : uuidRe c = true) : w.ask missing db decimals decimalText n (some c) =
    (checkCursor (w.table (w.check n)).rows w.operatorId (some ⟨c, h⟩)).map fun _ =>
      answer db decimals decimalText (w.sessions n) w.operatorId ⟨w.query, some ⟨c, h⟩, w.limit⟩
        (findMany missing (w.rows n) w.inScope (some ⟨c, h⟩) (w.limit + 1)) := by
  rw [Walk.ask, parseBetsQuery, w.accepted, Option.map_some, parseCursor_of_uuidRe h]
  show bets _ _ _ _ _ _ _ _ _ = _
  rw [bets]
  cases checkCursor (w.table (w.check n)).rows w.operatorId (some ⟨c, h⟩) <;> rfl

lemma length_found {rows : List BetRecord} {limit : ℕ} :
    limit < (page (·.key) (limit + 1) cursor rows).length ↔ limit < (remaining (·.key) cursor rows).length := by
  rw [page, List.length_take]
  omega

lemma take_found {rows : List BetRecord} {limit : ℕ} : (if limit < (page (·.key) (limit + 1) cursor rows).length then
    (page (·.key) (limit + 1) cursor rows).take limit else page (·.key) (limit + 1) cursor rows) =
      page (·.key) limit cursor rows := by
  simp only [length_found]
  split_ifs with hmore
  · rw [page, page, List.take_take, min_eq_left (Nat.le_succ limit)]
  · rw [page, page, List.take_of_length_le (by omega), List.take_of_length_le (by omega)]

lemma bets_answer {rows : List BetRecord} :
    (answer db decimals decimalText sessions operatorId q (page (·.key) (q.limit + 1) cursor rows)).bets =
      (page (·.key) q.limit cursor rows).map fun r =>
        view decimals decimalText (playerByWallet db sessions (page (·.key) q.limit cursor rows) r.walletId) r := by
  simp only [answer, decide_eq_true_eq, take_found]

lemma nextCursor_answer {rows : List BetRecord} :
    (answer db decimals decimalText sessions operatorId q (page (·.key) (q.limit + 1) cursor rows)).nextCursor =
      if q.limit < (remaining (·.key) cursor rows).length then
        (page (·.key) q.limit cursor rows).getLast?.map (·.id) else none := by
  simp only [answer, decide_eq_true_eq, take_found]
  simp only [length_found]

lemma checkCursor_of_mem {k i : ℕ} {b b' : BetRecord} (h : uuidRe c = true) (hb : b ∈ w.rows k) (hc : b.id = c)
    (hscope : w.inScope b = true) (hb' : b' ∈ (w.table i).rows) (hc' : b'.id = c) :
    checkCursor (w.table i).rows w.operatorId (some ⟨c, h⟩) = .ok () := by
  subst hc'
  have hoperator : b'.operatorId = some w.operatorId :=
    operatorId_of_inScope ((inScope_of_fixed (fixed_eq hb hb' hc)).symm.trans hscope)
  rw [checkCursor]
  dsimp only
  rw [find_of_mem hb']
  exact if_neg (not_not.2 hoperator)

lemma checkCursor_of_not_mem {rows : List BetRecord} (h : uuidRe c = true) (hgone : ∀ b ∈ rows, b.id ≠ c) :
    checkCursor rows operatorId (some ⟨c, h⟩) = .error "invalid cursor" := by
  have hfind : rows.find? (·.id = c) = none := List.find?_eq_none.2 fun b hb => by simpa using hgone b hb
  rw [checkCursor]
  dsimp only
  rw [hfind]

lemma findMany_of_mem {k : ℕ} {b b' : BetRecord} (h : uuidRe c = true) (hb : b ∈ w.rows k) (hc : b.id = c)
    (hb' : b' ∈ w.rows n) (hc' : b'.id = c) : findMany missing (w.rows n) w.inScope (some ⟨c, h⟩) (w.limit + 1) =
      page (·.key) (w.limit + 1) (some b.key) ((w.rows n).filter w.inScope) := by
  subst hc'
  rw [findMany]
  dsimp only
  rw [Walk.rows, find_of_mem hb', key_of_fixed (fixed_eq hb hb' hc)]

lemma Walk.valid {k : ℕ} {b : BetRecord} (hb : b ∈ w.rows k) : uuidRe b.id = true := (w.table (w.read k)).valid b hb

end Answers

section Invariant

def Agrees (rs : List BetRecord) : Next → Place (ℤ ×ₗ String) → Prop
  | .first, p => p = .after none
  | .after c, p => ∃ l ∈ rs, l.id = c ∧ p = .after (some l.key)
  | .finished, p => p = .finished
  | .failed _, _ => False

/-- The cursors of the first pages are in the table when they are looked up and when their pages are read. -/
def Walk.Kept (n : ℕ) : Prop :=
  ∀ k < n, ∀ c, (w.progress missing db decimals decimalText k).next = .after c →
    (∃ b ∈ (w.table (w.check k)).rows, b.id = c) ∧ ∃ b ∈ w.rows k, b.id = c

structure Reached (n : ℕ) (p : Progress) (rs : List BetRecord) (reads : List (List BetRecord))
    (place : Place (ℤ ×ₗ String)) : Prop where
  views : List.Forall₂ (fun v b => ∃ playerId, v = view decimals decimalText playerId b) p.yielded rs
  origin : ∀ rows ∈ reads, ∃ k < n, rows = (w.rows k).filter w.inScope
  covers : Covers (·.key) reads rs place
  agrees : Agrees rs p.next place

variable {missing db decimals decimalText} {w} {n : ℕ} {p : Progress} {rs : List BetRecord}
  {reads : List (List BetRecord)} {at' : Place (ℤ ×ₗ String)} {cursor : Option (ℤ ×ₗ String)}

lemma Reached.mem (h : Reached decimals decimalText w n p rs reads at') {b : BetRecord} (hb : b ∈ rs) :
    (∃ k < n, b ∈ w.rows k) ∧ w.inScope b = true := by
  obtain ⟨rows, hrows, hmem⟩ := h.covers.found b hb
  obtain ⟨k, hk, rfl⟩ := h.origin rows hrows
  exact ⟨⟨k, hk, List.mem_of_mem_filter hmem⟩, (List.mem_filter.1 hmem).2⟩

lemma Reached.mono {m : ℕ} (h : Reached decimals decimalText w n p rs reads at') (hm : n ≤ m) :
    Reached decimals decimalText w m p rs reads at' :=
  { h with origin := fun rows hrows => (h.origin rows hrows).imp fun _ hk => ⟨hk.1.trans_le hm, hk.2⟩ }

lemma Reached.take (h : Reached decimals decimalText w n p rs reads (.after cursor)) {q : BetsQuery}
    (hlimit : q.limit = w.limit) : Reached decimals decimalText w (n + 1)
      (p.take (.ok (answer db decimals decimalText (w.sessions n) w.operatorId q
        (page (·.key) (w.limit + 1) cursor ((w.rows n).filter w.inScope)))))
      (rs ++ page (·.key) w.limit cursor ((w.rows n).filter w.inScope))
      ((w.rows n).filter w.inScope :: reads) (place (·.key) w.limit cursor ((w.rows n).filter w.inScope)) where
  views := by
    rw [Progress.take, ← hlimit, bets_answer]
    refine List.rel_append h.views ?_
    rw [List.forall₂_map_left_iff]
    exact List.forall₂_same.2 fun r _ => ⟨_, rfl⟩
  origin rows hrows := by
    rcases List.mem_cons.1 hrows with rfl | hrows
    · exact ⟨n, Nat.lt_succ_self n, rfl⟩
    · obtain ⟨k, hk, heq⟩ := h.origin rows hrows
      exact ⟨k, hk.trans (Nat.lt_succ_self n), heq⟩
  covers := h.covers.read (limit_pos w.accepted) (keys_nodup _)
  agrees := by
    rw [Progress.take, ← hlimit, nextCursor_answer, place]
    split_ifs with hmore
    · cases hlast : (page (·.key) q.limit cursor ((w.rows n).filter w.inScope)).getLast? with
      | none =>
          have hpos := limit_pos w.accepted
          rw [List.getLast?_eq_none_iff, page, List.take_eq_nil_iff] at hlast
          rcases hlast with hzero | hnil
          · omega
          · rw [hnil] at hmore
            exact absurd hmore (Nat.not_lt_zero _)
      | some l => exact ⟨l, List.mem_append_right _ (List.mem_of_getLast? hlast), rfl, rfl⟩
    · rfl

lemma Walk.Kept.reached (h : w.Kept missing db decimals decimalText n) : ∃ rs reads at',
    Reached decimals decimalText w n (w.progress missing db decimals decimalText n) rs reads at' := by
  induction n with
  | zero => exact ⟨[], [], .after none, List.Forall₂.nil, fun _ hrows => (by cases hrows), covers_start, rfl⟩
  | succ n ih =>
      obtain ⟨rs, reads, at', hreached⟩ := ih fun k hk => h k (hk.trans (Nat.lt_succ_self n))
      have hagrees := hreached.agrees
      rw [Walk.progress]
      cases hnext : (w.progress missing db decimals decimalText n).next with
      | first =>
          rw [hnext] at hagrees
          obtain rfl : at' = .after none := hagrees
          rw [Progress.step_first hnext, ask_none]
          exact ⟨_, _, _, hreached.take rfl⟩
      | after c =>
          rw [hnext] at hagrees
          obtain ⟨l, hl, hc, rfl⟩ := hagrees
          obtain ⟨⟨k, -, hk⟩, hscope⟩ := hreached.mem hl
          obtain ⟨⟨b, hb, hid⟩, b', hb', hid'⟩ := h n (Nat.lt_succ_self n) c hnext
          have hvalid : uuidRe c = true := hc ▸ Walk.valid hk
          rw [Progress.step_after hnext, ask_some hvalid, checkCursor_of_mem hvalid hk hc hscope hb hid,
            findMany_of_mem hvalid hk hc hb' hid']
          exact ⟨_, _, _, hreached.take rfl⟩
      | finished =>
          rw [Progress.step_finished hnext]
          exact ⟨rs, reads, at', hreached.mono (Nat.le_succ n)⟩
      | failed message =>
          rw [hnext] at hagrees
          exact hagrees.elim

lemma exists_of_next_take {c : String} {q : BetsQuery} {found : List BetRecord}
    (hsub : found ⊆ (w.rows n).filter w.inScope)
    (h : (p.take (.ok (answer db decimals decimalText (w.sessions n) w.operatorId q found))).next = .after c) :
    ∃ k < n + 1, ∃ b ∈ w.rows k, b.id = c ∧ w.inScope b = true := by
  rw [Progress.take, answer] at h
  dsimp only at h
  split_ifs at h with hmore
  · cases hget : (found.take q.limit).getLast? with
    | none =>
        rw [hget] at h
        cases h
    | some l =>
        rw [hget] at h
        have hl := hsub (List.mem_of_mem_take (List.mem_of_getLast? hget))
        exact ⟨n, Nat.lt_succ_self n, l, List.mem_of_mem_filter hl, Next.after.inj h, (List.mem_filter.1 hl).2⟩
  · cases h

lemma exists_of_next {c : String} (h : (w.progress missing db decimals decimalText n).next = .after c) :
    ∃ k < n, ∃ b ∈ w.rows k, b.id = c ∧ w.inScope b = true := by
  have hpage {rows : List BetRecord} {limit : ℕ} {cursor : Option (ℤ ×ₗ String)} :
      page (·.key) limit cursor rows ⊆ rows := fun b hb => (mem_remaining.1 (mem_of_mem_page hb)).1
  induction n generalizing c with
  | zero => cases h
  | succ n ih =>
      rw [Walk.progress] at h
      cases hnext : (w.progress missing db decimals decimalText n).next with
      | first =>
          rw [Progress.step_first hnext, ask_none] at h
          exact exists_of_next_take hpage h
      | after c' =>
          obtain ⟨k, -, b, hb, rfl, -⟩ := ih hnext
          rw [Progress.step_after hnext, ask_some (Walk.valid hb)] at h
          cases hcheck : checkCursor (w.table (w.check n)).rows w.operatorId (some ⟨b.id, Walk.valid hb⟩) with
          | error message =>
              rw [hcheck] at h
              cases h
          | ok =>
              rw [hcheck] at h
              refine exists_of_next_take ?_ h
              rw [findMany]
              dsimp only
              split
              · exact hpage
              · exact List.Subset.trans (List.take_subset _ _) (missing.subset _)
      | finished =>
          rw [Progress.step_finished hnext, hnext] at h
          cases h
      | failed message =>
          rw [Progress.step_failed hnext, hnext] at h
          cases h

lemma next_take_ok {r : BetsResponse} {message : String} : (p.take (.ok r)).next ≠ .failed message := by
  intro h
  rw [Progress.take] at h
  cases hcursor : r.nextCursor <;> rw [hcursor] at h <;> cases h

lemma failed_step {c message : String} (h : (w.progress missing db decimals decimalText n).next = .after c) :
    (w.progress missing db decimals decimalText (n + 1)).next = .failed message ↔
      message = "invalid cursor" ∧ ∀ b ∈ (w.table (w.check n)).rows, b.id ≠ c := by
  obtain ⟨k, -, b, hb, rfl, hscope⟩ := exists_of_next h
  rw [Walk.progress, Progress.step_after h, ask_some (Walk.valid hb)]
  by_cases hgone : ∀ b' ∈ (w.table (w.check n)).rows, b'.id ≠ b.id
  · rw [checkCursor_of_not_mem (Walk.valid hb) hgone]
    exact ⟨fun h => ⟨(Next.failed.inj h).symm, hgone⟩, fun h => congrArg Next.failed h.1.symm⟩
  · have hthere : ∃ b' ∈ (w.table (w.check n)).rows, b'.id = b.id := by simpa using hgone
    obtain ⟨b', hb', hid⟩ := hthere
    rw [checkCursor_of_mem (Walk.valid hb) hb rfl hscope hb' hid]
    exact ⟨fun h => absurd h next_take_ok, fun h => absurd hid (h.2 b' hb')⟩

lemma failed_iff {message : String} : (w.progress missing db decimals decimalText n).next = .failed message ↔
    message = "invalid cursor" ∧ ∃ k < n, ∃ c, (w.progress missing db decimals decimalText k).next = .after c ∧
      ∀ b ∈ (w.table (w.check k)).rows, b.id ≠ c := by
  induction n with
  | zero =>
      constructor
      · intro h
        cases h
      · rintro ⟨-, k, hk, -⟩
        exact absurd hk (Nat.not_lt_zero k)
  | succ n ih =>
      -- a refusal now, or one before
      have hsplit : (message = "invalid cursor" ∧ ∃ k < n + 1, ∃ c,
          (w.progress missing db decimals decimalText k).next = .after c ∧
            ∀ b ∈ (w.table (w.check k)).rows, b.id ≠ c) ↔
          (w.progress missing db decimals decimalText n).next = .failed message ∨
            (message = "invalid cursor" ∧ ∃ c, (w.progress missing db decimals decimalText n).next = .after c ∧
              ∀ b ∈ (w.table (w.check n)).rows, b.id ≠ c) := by
        rw [ih, ← and_or_left, Nat.exists_lt_succ_right]
      rw [hsplit]
      cases hnext : (w.progress missing db decimals decimalText n).next with
      | first =>
          rw [Walk.progress, Progress.step_first hnext, ask_none]
          simp [next_take_ok]
      | after c =>
          rw [failed_step hnext]
          simp
      | finished =>
          rw [Walk.progress, Progress.step_finished hnext, hnext]
          simp
      | failed message =>
          rw [Walk.progress, Progress.step_failed hnext, hnext]
          simp

lemma Reached.ids (h : Reached decimals decimalText w n p rs reads at') :
    p.yielded.map (·.id) = rs.map (·.id) := by
  have hviews := h.views
  clear h
  generalize p.yielded = views at hviews
  induction hviews with
  | nil => rfl
  | cons hview _ ih =>
      obtain ⟨playerId, rfl⟩ := hview
      rw [List.map_cons, List.map_cons, ih, view]

lemma Reached.nodup (h : Reached decimals decimalText w n p rs reads at') : (rs.map (·.id)).Nodup := by
  refine List.pairwise_map.2 (h.covers.descending.imp_of_mem fun {a b} ha hb hlt hid => ?_)
  obtain ⟨⟨k, -, hk⟩, -⟩ := h.mem ha
  obtain ⟨⟨k', -, hk'⟩, -⟩ := h.mem hb
  rw [key_of_fixed (fixed_eq hk hk' hid)] at hlt
  exact lt_irrefl _ hlt

lemma Reached.complete (h : Reached decimals decimalText w n p rs reads at') (hn : 0 < n) (hdone : p.next = .finished)
    {id : String} (hthere : ∀ k < n, ∃ b ∈ w.rows k, b.id = id ∧ w.inScope b = true) : id ∈ rs.map (·.id) := by
  have hagrees := h.agrees
  rw [hdone] at hagrees
  obtain rfl : at' = .finished := hagrees
  obtain ⟨b, hb, hid, -⟩ := hthere 0 hn
  have hreads : ∀ rows ∈ reads, ∃ r ∈ rows, r.key = b.key := by
    intro rows hrows
    obtain ⟨k, hk, rfl⟩ := h.origin rows hrows
    obtain ⟨b', hb', hid', hscope⟩ := hthere k hk
    exact ⟨b', List.mem_filter.2 ⟨hb', hscope⟩, key_of_fixed (fixed_eq hb' hb (hid'.trans hid.symm))⟩
  obtain ⟨r, hr, hkey⟩ := h.covers.complete b.key trivial hreads
  have hsame : r.id = b.id := congrArg (fun k => (ofLex k).2) hkey
  exact List.mem_map.2 ⟨r, hr, hsame.trans hid⟩

end Invariant

/-- A traversal fails at a page whose cursor's bet has been deleted when the page is asked for, and nowhere else.
Where the cursors' bets are there, it yields bets of the operator that the query asks for, in the order of the
list and none twice, and at its end every one that has been there throughout. -/
theorem bets_traversed (n : ℕ) :
    (∀ message, (w.progress missing db decimals decimalText n).next = .failed message ↔
      message = "invalid cursor" ∧ ∃ k < n, ∃ c, (w.progress missing db decimals decimalText k).next = .after c ∧
        ∀ b ∈ (w.table (w.check k)).rows, b.id ≠ c) ∧
    (w.Kept missing db decimals decimalText n → ∃ rs : List BetRecord,
      List.Forall₂ (fun v b => ∃ playerId, v = view decimals decimalText playerId b)
        (w.progress missing db decimals decimalText n).yielded rs ∧
      rs.Pairwise (fun a b => b.key < a.key) ∧ (rs.map (·.id)).Nodup ∧
      (∀ b ∈ rs, (∃ k < n, b ∈ w.rows k) ∧ w.inScope b = true ∧ b.operatorId = some w.operatorId) ∧
      ((w.progress missing db decimals decimalText n).next = .finished →
        ∀ id, (∀ k < n, ∃ b ∈ w.rows k, b.id = id ∧ w.inScope b = true) →
          id ∈ (w.progress missing db decimals decimalText n).yielded.map (·.id))) := by
  refine ⟨fun message => failed_iff, fun hkept => ?_⟩
  obtain ⟨rs, reads, at', h⟩ := hkept.reached
  refine ⟨rs, h.views, h.covers.descending, h.nodup, fun b hb => ?_, fun hdone id hthere => ?_⟩
  · obtain ⟨hrows, hscope⟩ := h.mem hb
    exact ⟨hrows, hscope, operatorId_of_inScope hscope⟩
  · rw [h.ids]
    refine h.complete (Nat.pos_of_ne_zero fun hzero => ?_) hdone hthere
    subst hzero
    cases hdone

end Traversal

namespace Released

def pound : CurrencyCode := ⟨"GBP", by decide⟩

def reserving : BetRecord where
  id := "00000000-0000-4000-8000-000000000002"
  operatorId := some "operator"
  walletId := "wallet"
  currency := pound
  status := .reserving
  amount := 100
  payout := 0
  demo := false
  createdAt := 2000
  roundId := "round"
  panel := .B
  cashoutMult := none
  settledAt := none

def older : BetRecord :=
  { reserving with id := "00000000-0000-4000-8000-000000000001", status := .active, createdAt := 1000, panel := .A }

def table : Bets where
  rows := [reserving, older]
  given := [reserving.id, older.id]
  valid := by decide +kernel
  nodup := by decide +kernel
  known := by simp

/-- The first page is read, the debit fails and the slot is dropped, and the second page is asked for. -/
def walk : Walk where
  start := table
  changes _ := .delete reserving.id
  operatorId := "operator"
  query := ⟨0, 3000, none, false⟩
  limitParam := some (.string "1")
  limit := 1
  accepted := by decide +kernel
  check n := n
  read n := n
  checked _ := le_refl _
  ordered n := Nat.le_succ n
  sessions _ := []

def asStored : Arrangement := ⟨fun l => l, fun l => .refl l⟩

def progress : ℕ → Progress :=
  walk.progress ⟨fun rows => rows, fun _ => List.Subset.refl _⟩ asStored (fun _ => 2) toString

/-- The other bet is there throughout, and the client never gets it. -/
theorem traversal_refused : (progress 1).next = .after reserving.id ∧ (progress 2).next = .failed "invalid cursor" ∧
    (∀ n, older.id ∉ (progress n).yielded.map (·.id)) ∧ (∀ i, older ∈ (walk.table i).rows) ∧
    walk.inScope older = true := by
  have hfailed : (progress 2).next = .failed "invalid cursor" := by decide +kernel
  have hstays : ∀ n, progress (n + 2) = progress 2 := by
    intro n
    induction n with
    | zero => rfl
    | succ n ih =>
        rw [← ih] at hfailed
        exact (Progress.step_failed hfailed).trans ih
  refine ⟨by decide +kernel, hfailed, fun n => ?_, fun i => ?_, by decide +kernel⟩
  · rcases n with _ | _ | n
    · decide +kernel
    · decide +kernel
    · rw [hstays]
      decide +kernel
  · induction i with
    | zero => exact List.mem_cons_of_mem _ List.mem_cons_self
    | succ i ih => exact List.mem_filter.2 ⟨ih, by decide +kernel⟩

end Released

end VaultRun.Reporting
