import Mathlib
import VaultRun.Data.Grouping
import VaultRun.Game.Rows

/-!
The totals of an operator's bets: the summary by currency, the daily series, and the accounting of a session.
-/

namespace VaultRun.Reporting

open VaultRun.Game VaultRun.Data Grouping

structure CurrencyCode where
  val : String
  ne_empty : val ≠ ""

instance : DecidableEq CurrencyCode := fun a b =>
  decidable_of_iff (a.val = b.val) ⟨fun h => by cases a; cases b; congr, congrArg _⟩

structure BetRow where
  id : String
  operatorId : Option String
  walletId : String
  currency : CurrencyCode
  status : BetStatus
  amount : ℤ
  payout : ℤ
  demo : Bool
  createdAt : ℤ

structure ReportQuery where
  start : ℤ
  finish : ℤ
  currency : Option String
  includeDemo : Bool

def inScope (operatorId : String) (q : ReportQuery) (b : BetRow) : Bool :=
  b.operatorId = some operatorId && (q.start ≤ b.createdAt && b.createdAt ≤ q.finish) &&
    (match q.currency with
      | some c => c = "" || b.currency.val = c
      | none => true) &&
    (q.includeDemo || !b.demo)

section Dates

def padStart (n : ℕ) (v : ℕ) : List Char :=
  let digits := (toString v).toList
  List.replicate (n - digits.length) '0' ++ digits

/-- The year, the month and the day of a day counted from the first of January 1970. -/
def civil (day : ℤ) : ℤ × ℕ × ℕ :=
  let z := day + 719468
  let era := z / 146097
  let dayOfEra := z % 146097
  let yearOfEra := (dayOfEra - dayOfEra / 1460 + dayOfEra / 36524 - dayOfEra / 146096) / 365
  let dayOfYear := dayOfEra - (365 * yearOfEra + yearOfEra / 4 - yearOfEra / 100)
  let month := (5 * dayOfYear + 2) / 153
  let dayOfMonth := dayOfYear - (153 * month + 2) / 5 + 1
  let month := if month < 10 then month + 3 else month - 9
  (yearOfEra + 400 * era + if month ≤ 2 then 1 else 0, month.toNat, dayOfMonth.toNat)

def isoYear (year : ℤ) : List Char :=
  if year < 0 then '-' :: padStart 6 year.natAbs
  else if year ≤ 9999 then padStart 4 year.natAbs
  else '+' :: padStart 6 year.natAbs

def toISOString (ms : ℤ) : List Char :=
  let (year, month, day) := civil (ms / 86400000)
  let rest := (ms % 86400000).toNat
  isoYear year ++ '-' :: (padStart 2 month ++ '-' :: (padStart 2 day ++ 'T' :: (padStart 2 (rest / 3600000) ++
    ':' :: (padStart 2 (rest / 60000 % 60) ++ ':' :: (padStart 2 (rest / 1000 % 60) ++
    '.' :: (padStart 3 (rest % 1000) ++ ['Z']))))))

def isoDate (ms : ℤ) : List Char := (toISOString ms).take 10

example : isoDate 1709251199999 = "2024-02-29".toList := by decide +kernel
example : toISOString (-1) = "1969-12-31T23:59:59.999Z".toList := by decide +kernel
example : isoDate 253402300800000 = "+010000-01".toList := by decide +kernel

lemma le_length_padStart (n v : ℕ) : n ≤ (padStart n v).length := by
  rw [padStart]
  simp only [List.length_append, List.length_replicate]
  omega

lemma length_isoDate (ms : ℤ) : (isoDate ms).length = 10 := by
  obtain ⟨⟨year, month, day⟩, hcivil⟩ : ∃ d, civil (ms / 86400000) = d := ⟨_, rfl⟩
  have hyear : 4 ≤ (isoYear year).length := by
    rw [isoYear]
    split_ifs
    · exact (by decide : 4 ≤ 6).trans ((le_length_padStart 6 _).trans (Nat.le_succ _))
    · exact le_length_padStart 4 _
    · exact (by decide : 4 ≤ 6).trans ((le_length_padStart 6 _).trans (Nat.le_succ _))
  have hmonth := le_length_padStart 2 month
  have hday := le_length_padStart 2 day
  rw [isoDate, List.length_take, toISOString, hcivil]
  simp only [List.length_append, List.length_cons]
  omega

end Dates

/-- How the database orders the rows of an answer that asks for no order. -/
structure Arrangement where
  arrange : {α : Type} → List α → List α
  perm : ∀ {α : Type} (l : List α), (arrange l).Perm l

/-- A group of the rows of a currency and a status: a sum is `null` where nothing is summed. -/
structure StatusGroup where
  currency : CurrencyCode
  status : BetStatus
  amount : Option ℤ
  payout : Option ℤ
  count : ℕ

def StatusGroup.add (g : StatusGroup) (b : BetRow) : StatusGroup :=
  { g with amount := some (g.amount.getD 0 + b.amount), payout := some (g.payout.getD 0 + b.payout), count := g.count + 1 }

def groupByStatus (bets : List BetRow) : List StatusGroup :=
  (group (fun b => (b.currency, b.status)) (fun b => ⟨b.currency, b.status, none, none, 0⟩) StatusGroup.add bets).map
    Prod.snd

/-- `groupBy` the currency and the wallet, of the bets whose stake has been taken. -/
def groupByWallet (bets : List BetRow) : List (CurrencyCode × String) :=
  ((bets.filter (isWageredStatus ·.status)).map fun b => (b.currency, b.walletId)).dedup

structure Accum where
  betCount : ℕ
  wagered : ℤ
  won : ℤ

def Accum.addGroup (e : Accum) (g : StatusGroup) : Accum :=
  let e := if isWageredStatus g.status then
    { e with wagered := e.wagered + g.amount.getD 0, betCount := e.betCount + g.count } else e
  if isWonStatus g.status then { e with won := e.won + g.payout.getD 0 } else e

structure CurrencyStat where
  currency : String
  decimals : ℕ
  betCount : ℕ
  wagered : ℤ
  won : ℤ
  ggr : ℤ
  uniquePlayers : ℕ
  rtp : String

/-- `won / wagered` with four decimals, rounded down. -/
def rtpRatioString (won wagered : ℤ) : String :=
  if wagered ≤ 0 then "0"
  else
    let scaled := (won * 10000).tdiv wagered
    toString (scaled.tdiv 10000) ++ "." ++
      String.ofList (List.replicate (4 - (toString (scaled.tmod 10000)).length) '0') ++ toString (scaled.tmod 10000)

variable (decimals : String → ℕ) (localeCompare : String → String → Ordering)

def toCurrencyStat (currency : String) (betCount : ℕ) (wagered won : ℤ) (uniquePlayers : ℕ) : CurrencyStat :=
  ⟨currency, decimals currency, betCount, wagered, won, wagered - won, uniquePlayers, rtpRatioString won wagered⟩

/-- A row without a currency is passed by. -/
def foldCurrencies (grouped : List StatusGroup) (playerRows : List (CurrencyCode × String)) : List CurrencyStat :=
  let acc := group (·.currency.val) (fun _ => ⟨0, 0, 0⟩) Accum.addGroup (grouped.filter (·.currency.val ≠ ""))
  let playerCounts := group (·.1.val) (fun _ => 0) (fun n _ => n + 1) (playerRows.filter (·.1.val ≠ ""))
  let stats := (acc.filter (0 < ·.2.betCount)).map fun e =>
    toCurrencyStat decimals e.1 e.2.betCount e.2.wagered e.2.won ((playerCounts.lookup e.1).getD 0)
  stats.mergeSort fun a b => (localeCompare a.currency b.currency).isLE

def summary (db : Arrangement) (bets : List BetRow) (operatorId : String) (q : ReportQuery) : List CurrencyStat :=
  let rows := bets.filter (inScope operatorId q)
  foldCurrencies decimals localeCompare (db.arrange (groupByStatus rows)) (db.arrange (groupByWallet rows))

structure Bucket where
  date : List Char
  currency : CurrencyCode
  betCount : ℕ
  wagered : ℤ
  won : ℤ
  players : List String

def Bucket.add (b : Bucket) (r : BetRow) : Bucket :=
  let b := if isWageredStatus r.status then
    { b with wagered := b.wagered + r.amount, betCount := b.betCount + 1, players := b.players.insert r.walletId } else b
  if isWonStatus r.status then { b with won := b.won + r.payout } else b

def bucketKey (date : List Char) (currency : CurrencyCode) : List Char := date ++ ' ' :: currency.val.toList

def buckets (rows : List BetRow) : List Bucket :=
  ((group (fun r : BetRow => bucketKey (isoDate r.createdAt) r.currency)
    (fun r => ⟨isoDate r.createdAt, r.currency, 0, 0, 0, []⟩) Bucket.add (rows.filter (·.currency.val ≠ ""))).map
      Prod.snd).filter (0 < ·.betCount)

structure DailyBucket extends CurrencyStat where
  date : List Char

def daily (db : Arrangement) (bets : List BetRow) (operatorId : String) (q : ReportQuery) : List DailyBucket :=
  let days := (buckets (db.arrange (bets.filter (inScope operatorId q)))).map fun b =>
    { date := b.date
      toCurrencyStat := toCurrencyStat decimals b.currency.val b.betCount b.wagered b.won b.players.length }
  days.mergeSort fun a b => decide (a.date < b.date) ||
    (!decide (b.date < a.date) && (localeCompare a.currency b.currency).isLE)

structure Accounting where
  wagered : ℤ
  won : ℤ

def Accounting.net (t : Accounting) : ℤ := t.wagered - t.won

def Accounting.add (t : Accounting) (b : BetRow) : Accounting :=
  let t := if isWageredStatus b.status then { t with wagered := t.wagered + b.amount } else t
  if isWonStatus b.status then { t with won := t.won + b.payout } else t

def sessionAccounting (bets : List BetRow) (walletId : String) (since : ℤ) : Accounting :=
  (bets.filter fun b => b.walletId = walletId && since ≤ b.createdAt).foldl Accounting.add ⟨0, 0⟩

inductive Figure
  | betCount
  | wagered
  | won

def BetRow.figure (r : BetRow) : Figure → ℤ
  | .betCount => if isWageredStatus r.status then 1 else 0
  | .wagered => if isWageredStatus r.status then r.amount else 0
  | .won => if isWonStatus r.status then r.payout else 0

def StatusGroup.figure (g : StatusGroup) : Figure → ℤ
  | .betCount => if isWageredStatus g.status then g.count else 0
  | .wagered => if isWageredStatus g.status then g.amount.getD 0 else 0
  | .won => if isWonStatus g.status then g.payout.getD 0 else 0

def Accum.figure (e : Accum) : Figure → ℤ
  | .betCount => e.betCount
  | .wagered => e.wagered
  | .won => e.won

def Bucket.figure (b : Bucket) : Figure → ℤ
  | .betCount => b.betCount
  | .wagered => b.wagered
  | .won => b.won

def CurrencyStat.figure (t : CurrencyStat) : Figure → ℤ
  | .betCount => t.betCount
  | .wagered => t.wagered
  | .won => t.won

section Figures

variable {g : StatusGroup} {r : BetRow} {e : Accum} {b : Bucket} {f : Figure}

lemma isWagered_of_isWon {s : BetStatus} (h : isWonStatus s = true) : isWageredStatus s = true := by
  cases s <;> first | rfl | cases h

lemma figure_group_add (h : r.status = g.status) : (g.add r).figure f = g.figure f + r.figure f := by
  cases f <;> cases hw : isWageredStatus g.status <;> cases hn : isWonStatus g.status <;>
    simp [StatusGroup.figure, StatusGroup.add, BetRow.figure, h, hw, hn]

lemma figure_addGroup : (e.addGroup g).figure f = e.figure f + g.figure f := by
  rw [Accum.addGroup]
  cases f <;> cases hw : isWageredStatus g.status <;> cases hn : isWonStatus g.status <;>
    simp [Accum.figure, StatusGroup.figure, hw, hn]

lemma figure_bucket_add : (b.add r).figure f = b.figure f + r.figure f := by
  rw [Bucket.add]
  cases f <;> cases hw : isWageredStatus r.status <;> cases hn : isWonStatus r.status <;>
    simp [Bucket.figure, BetRow.figure, hw, hn]

structure Accum.Idle (e : Accum) : Prop where
  wagered : e.wagered = 0
  won : e.won = 0

lemma Accum.Idle.figure (h : e.Idle) (hcount : e.betCount = 0) : e.figure f = 0 := by
  cases f with
  | betCount => exact congrArg Nat.cast hcount
  | wagered => exact h.wagered
  | won => exact h.won

lemma idle_addGroup (hg : 0 < g.count) (h : e.betCount = 0 → e.Idle) :
    (e.addGroup g).betCount = 0 → (e.addGroup g).Idle := by
  intro hcount
  cases hw : isWageredStatus g.status with
  | true =>
      rw [Accum.addGroup] at hcount
      cases hn : isWonStatus g.status <;> simp [hw, hn] at hcount <;> omega
  | false =>
      have hn : isWonStatus g.status = false := by
        by_contra hne
        rw [isWagered_of_isWon (by simpa using hne)] at hw
        cases hw
      have heq : e.addGroup g = e := by simp [Accum.addGroup, hw, hn]
      rw [heq] at hcount ⊢
      exact h hcount

structure Bucket.Idle (b : Bucket) : Prop where
  wagered : b.wagered = 0
  won : b.won = 0
  players : b.players = []

lemma Bucket.Idle.figure (h : b.Idle) (hcount : b.betCount = 0) : b.figure f = 0 := by
  cases f with
  | betCount => exact congrArg Nat.cast hcount
  | wagered => exact h.wagered
  | won => exact h.won

lemma idle_bucket_add (h : b.betCount = 0 → b.Idle) : (b.add r).betCount = 0 → (b.add r).Idle := by
  intro hcount
  cases hw : isWageredStatus r.status with
  | true =>
      rw [Bucket.add] at hcount
      cases hn : isWonStatus r.status <;> simp [hw, hn] at hcount
  | false =>
      have hn : isWonStatus r.status = false := by
        by_contra hne
        rw [isWagered_of_isWon (by simpa using hne)] at hw
        cases hw
      have heq : b.add r = b := by simp [Bucket.add, hw, hn]
      rw [heq] at hcount ⊢
      exact h hcount

end Figures

section Totals

variable {rows : List BetRow} {p : String → Bool} {f : Figure}

def figureOf (rows : List BetRow) (p : String → Bool) (f : Figure) : ℤ :=
  (rows.map fun r => if p r.currency.val then r.figure f else 0).sum

lemma filter_currency (rows : List BetRow) : rows.filter (·.currency.val ≠ "") = rows :=
  List.filter_eq_self.2 fun r _ => decide_eq_true r.currency.ne_empty

lemma statusGroup_kept : Kept (fun b : BetRow => (b.currency, b.status))
    (fun b => (⟨b.currency, b.status, none, none, 0⟩ : StatusGroup)) StatusGroup.add (fun _ => True)
    fun k g => g.currency = k.1 ∧ g.status = k.2 ∧ 0 < g.count where
  start _ _ := ⟨rfl, rfl, Nat.succ_pos _⟩
  add _ _ _ h := ⟨h.1, h.2.1, Nat.succ_pos _⟩

lemma statusGroup_total :
    ((groupByStatus rows).map fun g => if p g.currency.val then g.figure f else 0).sum = figureOf rows p f := by
  have hmeasure : Measure (fun b : BetRow => (b.currency, b.status))
      (fun b => (⟨b.currency, b.status, none, none, 0⟩ : StatusGroup)) StatusGroup.add
      (fun k g => g.currency = k.1 ∧ g.status = k.2 ∧ 0 < g.count)
      (fun _ g => if p g.currency.val then g.figure f else 0) fun r => if p r.currency.val then r.figure f else 0 := by
    refine ⟨fun r => ?_, fun g r h => ?_⟩
    · have hfresh : (⟨r.currency, r.status, none, none, 0⟩ : StatusGroup).figure f = 0 := by
        cases f <;> simp [StatusGroup.figure]
      rw [figure_group_add rfl, hfresh, zero_add]
      rfl
    · obtain ⟨hcurrency, hstatus, -⟩ := h
      have hsame : g.currency = r.currency := hcurrency
      rw [figure_group_add hstatus.symm, ← hsame]
      by_cases hp : p g.currency.val = true
      · rw [if_pos hp, if_pos hp, if_pos (show p (g.add r).currency.val = true from hp)]
      · rw [if_neg hp, if_neg hp, if_neg (show ¬ p (g.add r).currency.val = true from hp), add_zero]
  have htotal := total_group rows statusGroup_kept hmeasure fun _ _ => trivial
  rw [groupByStatus, List.map_map]
  exact htotal

def accumulated (db : Arrangement) (rows : List BetRow) : List (String × Accum) :=
  group (·.currency.val) (fun _ => ⟨0, 0, 0⟩) Accum.addGroup (db.arrange (groupByStatus rows))

lemma accum_kept : Kept (fun g : StatusGroup => g.currency.val) (fun _ => (⟨0, 0, 0⟩ : Accum)) Accum.addGroup
    (fun g => 0 < g.count) fun _ e => e.betCount = 0 → e.Idle where
  start _ hg := idle_addGroup hg fun _ => ⟨rfl, rfl⟩
  add _ _ hg h := idle_addGroup hg h

lemma mem_groupByStatus {g : StatusGroup} (h : g ∈ groupByStatus rows) : 0 < g.count := by
  obtain ⟨e, he, rfl⟩ := List.mem_map.1 h
  exact (kept_group statusGroup_kept (fun _ _ => trivial) e he).2.2

lemma accumulated_idle (db : Arrangement) : ∀ e ∈ accumulated db rows, e.2.betCount = 0 → e.2.Idle :=
  kept_group accum_kept fun _ hg => mem_groupByStatus ((db.perm _).mem_iff.1 hg)

lemma accumulated_nodup (db : Arrangement) : ((accumulated db rows).map Prod.fst).Nodup := nodup_group

lemma accumulated_total (db : Arrangement) :
    total (fun c e => if p c then e.figure f else 0) (accumulated db rows) = figureOf rows p f := by
  have hmeasure : Measure (fun g : StatusGroup => g.currency.val) (fun _ => (⟨0, 0, 0⟩ : Accum)) Accum.addGroup
      (fun _ e => e.betCount = 0 → e.Idle) (fun c e => if p c then e.figure f else 0)
      fun g => if p g.currency.val then g.figure f else 0 := by
    refine ⟨fun _ => ?_, fun _ _ _ => ?_⟩
    · have hfresh : (⟨0, 0, 0⟩ : Accum).figure f = 0 := by cases f <;> rfl
      rw [figure_addGroup, hfresh, zero_add]
    · rw [figure_addGroup]
      split_ifs
      · rfl
      · rfl
  rw [accumulated, total_group _ accum_kept hmeasure fun _ hg => mem_groupByStatus ((db.perm _).mem_iff.1 hg),
    ← statusGroup_total]
  exact ((db.perm _).map _).sum_eq

def playerCounts (db : Arrangement) (rows : List BetRow) : List (String × ℕ) :=
  group (·.1.val) (fun _ => 0) (fun n _ => n + 1) (db.arrange (groupByWallet rows))

def statOf (db : Arrangement) (rows : List BetRow) (e : String × Accum) : CurrencyStat :=
  toCurrencyStat decimals e.1 e.2.betCount e.2.wagered e.2.won (((playerCounts db rows).lookup e.1).getD 0)

lemma summary_perm (db : Arrangement) (bets : List BetRow) (operatorId : String) (q : ReportQuery) :
    (summary decimals localeCompare db bets operatorId q).Perm
      (((accumulated db (bets.filter (inScope operatorId q))).filter (0 < ·.2.betCount)).map
        (statOf decimals db (bets.filter (inScope operatorId q)))) := by
  rw [summary, foldCurrencies]
  have hgroups (l : List StatusGroup) : l.filter (·.currency.val ≠ "") = l :=
    List.filter_eq_self.2 fun g _ => decide_eq_true g.currency.ne_empty
  have hwallets (l : List (CurrencyCode × String)) : l.filter (·.1.val ≠ "") = l :=
    List.filter_eq_self.2 fun w _ => decide_eq_true w.1.ne_empty
  rw [hgroups, hwallets]
  exact List.mergeSort_perm _ _

lemma sum_filter {α : Type} (l : List α) (q : α → Bool) (w : α → ℤ) :
    ((l.filter q).map w).sum = (l.map fun x => if q x then w x else 0).sum := by
  induction l with
  | nil => rfl
  | cons x l ih =>
      rw [List.filter_cons, List.map_cons, List.sum_cons, ← ih]
      split <;> simp

lemma summary_total (db : Arrangement) (bets : List BetRow) (operatorId : String) (q : ReportQuery) (p : String → Bool)
    (f : Figure) :
    (((summary decimals localeCompare db bets operatorId q).filter (p ·.currency)).map (·.figure f)).sum =
      figureOf (bets.filter (inScope operatorId q)) p f := by
  rw [(((summary_perm decimals localeCompare db bets operatorId q).filter _).map _).sum_eq, sum_filter, List.map_map,
    sum_filter, ← accumulated_total db, total]
  refine congrArg List.sum (List.map_congr_left fun e he => ?_)
  by_cases hcount : e.2.betCount = 0
  · rw [if_neg (by simp [hcount]), (accumulated_idle db e he hcount).figure hcount, ite_self]
  · rw [if_pos (by simpa using Nat.pos_of_ne_zero hcount)]
    cases f <;> rfl

def bucketMap (rows : List BetRow) : List (List Char × Bucket) :=
  group (fun r : BetRow => bucketKey (isoDate r.createdAt) r.currency)
    (fun r => ⟨isoDate r.createdAt, r.currency, 0, 0, 0, []⟩) Bucket.add rows

lemma buckets_eq (rows : List BetRow) : buckets rows = ((bucketMap rows).map Prod.snd).filter (0 < ·.betCount) := by
  rw [buckets, filter_currency, bucketMap]

@[simp] lemma bucket_add_date (b : Bucket) (r : BetRow) : (b.add r).date = b.date := by
  rw [Bucket.add]
  cases isWageredStatus r.status <;> cases isWonStatus r.status <;> rfl

@[simp] lemma bucket_add_currency (b : Bucket) (r : BetRow) : (b.add r).currency = b.currency := by
  rw [Bucket.add]
  cases isWageredStatus r.status <;> cases isWonStatus r.status <;> rfl

lemma bucketKey_inj {date date' : List Char} {c c' : CurrencyCode} (hlen : date.length = 10) (hlen' : date'.length = 10)
    (h : bucketKey date c = bucketKey date' c') : date = date' ∧ c = c' := by
  obtain ⟨hdate, hrest⟩ := List.append_inj h (hlen.trans hlen'.symm)
  have hval : c.val = c'.val := String.toList_injective (List.cons.inj hrest).2
  refine ⟨hdate, ?_⟩
  cases c
  cases c'
  simpa using hval

structure Bucket.Keyed (k : List Char) (b : Bucket) : Prop where
  key : k = bucketKey b.date b.currency
  length : b.date.length = 10
  idle : b.betCount = 0 → b.Idle

lemma bucket_kept : Kept (fun r : BetRow => bucketKey (isoDate r.createdAt) r.currency)
    (fun r => ⟨isoDate r.createdAt, r.currency, 0, 0, 0, []⟩) Bucket.add (fun _ => True) Bucket.Keyed where
  start r _ := ⟨by simp, by simp [length_isoDate], idle_bucket_add fun _ => ⟨rfl, rfl, rfl⟩⟩
  add b r _ h := ⟨by simpa using h.key, by simpa using h.length, idle_bucket_add h.idle⟩

lemma bucketMap_keyed : ∀ e ∈ bucketMap rows, e.2.Keyed e.1 := kept_group bucket_kept fun _ _ => trivial

lemma Bucket.Keyed.same {b : Bucket} {r : BetRow} (h : b.Keyed (bucketKey (isoDate r.createdAt) r.currency)) :
    b.date = isoDate r.createdAt ∧ b.currency = r.currency :=
  bucketKey_inj h.length (length_isoDate _) h.key.symm

def figureAt (rows : List BetRow) (p : List Char → CurrencyCode → Bool) (f : Figure) : ℤ :=
  (rows.map fun r => if p (isoDate r.createdAt) r.currency then r.figure f else 0).sum

lemma bucketMap_total {p : List Char → CurrencyCode → Bool} :
    total (fun _ b => if p b.date b.currency then b.figure f else 0) (bucketMap rows) = figureAt rows p f := by
  have hmeasure : Measure (fun r : BetRow => bucketKey (isoDate r.createdAt) r.currency)
      (fun r => (⟨isoDate r.createdAt, r.currency, 0, 0, 0, []⟩ : Bucket)) Bucket.add Bucket.Keyed
      (fun _ b => if p b.date b.currency then b.figure f else 0)
      fun r => if p (isoDate r.createdAt) r.currency then r.figure f else 0 := by
    refine ⟨fun r => ?_, fun b r h => ?_⟩
    · have hfresh : (⟨isoDate r.createdAt, r.currency, 0, 0, 0, []⟩ : Bucket).figure f = 0 := by cases f <;> rfl
      rw [bucket_add_date, bucket_add_currency, figure_bucket_add, hfresh, zero_add]
    · obtain ⟨hdate, hcurrency⟩ := h.same
      rw [bucket_add_date, bucket_add_currency, figure_bucket_add, hdate, hcurrency]
      split_ifs
      · rfl
      · rfl
  rw [bucketMap, total_group _ bucket_kept hmeasure fun _ _ => trivial]
  rfl

lemma buckets_total {p : List Char → CurrencyCode → Bool} :
    (((buckets rows).filter fun b => p b.date b.currency).map (·.figure f)).sum = figureAt rows p f := by
  rw [buckets_eq, List.filter_filter, sum_filter, List.map_map, ← bucketMap_total, total]
  refine congrArg List.sum (List.map_congr_left fun e he => ?_)
  by_cases hcount : e.2.betCount = 0
  · have hzero := ((bucketMap_keyed e he).idle hcount).figure hcount (f := f)
    simp [hcount, hzero]
  · have hpos : 0 < e.2.betCount := Nat.pos_of_ne_zero hcount
    simp [hpos]

lemma buckets_nodup : ((buckets rows).map fun b => (b.date, b.currency)).Nodup := by
  have hkeys : ((bucketMap rows).map Prod.fst).Nodup := nodup_group
  have hmap : (bucketMap rows).map Prod.fst =
      (((bucketMap rows).map Prod.snd).map fun b => (b.date, b.currency)).map fun d => bucketKey d.1 d.2 := by
    rw [List.map_map, List.map_map]
    exact List.map_congr_left fun e he => (bucketMap_keyed e he).key
  rw [hmap] at hkeys
  rw [buckets_eq]
  exact (hkeys.of_map _).sublist (List.filter_sublist.map _)

lemma filter_key {α κ : Type} [DecidableEq κ] {l : List α} {key : α → κ} (h : (l.map key).Nodup) {x : α} (hx : x ∈ l) :
    l.filter (fun y => key y = key x) = [x] := by
  induction l with
  | nil => cases hx
  | cons y l ih =>
      obtain ⟨hhead, htail⟩ := List.nodup_cons.1 h
      rcases List.mem_cons.1 hx with rfl | hx
      · rw [List.filter_cons_of_pos (by simp), List.filter_eq_nil_iff.2]
        intro z hz
        have hne : key z ≠ key x := fun heq => hhead (List.mem_map.2 ⟨z, hz, heq⟩)
        simpa using hne
      · have hne : key y ≠ key x := fun heq => hhead (List.mem_map.2 ⟨x, hx, heq.symm⟩)
        rw [List.filter_cons_of_neg (by simpa using hne)]
        exact ih htail hx

lemma figure_of_mem_buckets {b : Bucket} (hb : b ∈ buckets rows) :
    b.figure f = figureAt rows (fun d c => (d, c) = (b.date, b.currency)) f := by
  rw [← buckets_total, filter_key buckets_nodup hb, List.map_singleton, List.sum_singleton]

lemma exists_iff_sum_pos {α : Type} {l : List α} {w : α → ℤ} (h : ∀ x ∈ l, 0 < w x) :
    (∃ x, x ∈ l) ↔ 0 < (l.map w).sum := by
  induction l with
  | nil => simp
  | cons x l ih =>
      have hrest : 0 ≤ (l.map w).sum := List.sum_nonneg fun v hv => by
        obtain ⟨y, hy, rfl⟩ := List.mem_map.1 hv
        exact (h y (.tail _ hy)).le
      have hx := h x (.head _)
      rw [List.map_cons, List.sum_cons]
      exact ⟨fun _ => by omega, fun _ => ⟨x, .head _⟩⟩

lemma figure_nonneg (r : BetRow) : 0 ≤ r.figure .betCount := by
  rw [BetRow.figure]
  split <;> decide

lemma figureAt_pos {p : List Char → CurrencyCode → Bool} : 0 < figureAt rows p .betCount ↔
    ∃ r ∈ rows, p (isoDate r.createdAt) r.currency = true ∧ isWageredStatus r.status = true := by
  induction rows with
  | nil => simp [figureAt]
  | cons r rows ih =>
      have hrest : 0 ≤ figureAt rows p .betCount := List.sum_nonneg fun v hv => by
        obtain ⟨y, -, rfl⟩ := List.mem_map.1 hv
        split
        · exact figure_nonneg y
        · exact le_rfl
      rw [List.exists_mem_cons_iff, ← ih, figureAt, List.map_cons, List.sum_cons, ← figureAt]
      rw [BetRow.figure]
      split_ifs with hp hw
      all_goals simp_all
      omega

lemma figureOf_eq_figureAt : figureOf rows p f = figureAt rows (fun _ c => p c.val) f := rfl

def Plays (rows : List BetRow) (c : String) (w : String) : Prop :=
  ∃ r ∈ rows, r.currency.val = c ∧ isWageredStatus r.status = true ∧ r.walletId = w

lemma mem_players_add {b : Bucket} {r : BetRow} {w : String} :
    w ∈ (b.add r).players ↔ w ∈ b.players ∨ isWageredStatus r.status = true ∧ r.walletId = w := by
  rw [Bucket.add]
  cases hw : isWageredStatus r.status <;> cases hn : isWonStatus r.status <;> simp [or_comm, eq_comm]

lemma mem_players {c w : String} : (∃ b ∈ buckets rows, b.currency.val = c ∧ w ∈ b.players) ↔ Plays rows c w := by
  have hmark : Mark (fun r : BetRow => bucketKey (isoDate r.createdAt) r.currency)
      (fun r => (⟨isoDate r.createdAt, r.currency, 0, 0, 0, []⟩ : Bucket)) Bucket.add Bucket.Keyed
      (fun _ b => b.currency.val = c ∧ w ∈ b.players)
      fun r => r.currency.val = c ∧ isWageredStatus r.status = true ∧ r.walletId = w := by
    refine ⟨fun r => ?_, fun b r h => ?_⟩
    · rw [bucket_add_currency, mem_players_add]
      simp
    · rw [bucket_add_currency, mem_players_add, h.same.2]
      tauto
  rw [Plays, ← marked_group bucket_kept hmark fun _ _ => trivial, buckets_eq]
  constructor
  · rintro ⟨b, hb, hc⟩
    obtain ⟨e, he, rfl⟩ := List.mem_map.1 (List.mem_filter.1 hb).1
    exact ⟨e, he, hc⟩
  · rintro ⟨e, he, hc, hw⟩
    refine ⟨e.2, List.mem_filter.2 ⟨List.mem_map_of_mem he, ?_⟩, hc, hw⟩
    have hcount : e.2.betCount ≠ 0 := by
      intro hzero
      rw [((bucketMap_keyed e he).idle hzero).players] at hw
      cases hw
    exact decide_eq_true (Nat.pos_of_ne_zero hcount)

lemma mem_groupByWallet {c : CurrencyCode} {w : String} : (c, w) ∈ groupByWallet rows ↔
    ∃ r ∈ rows, isWageredStatus r.status = true ∧ r.currency = c ∧ r.walletId = w := by
  rw [groupByWallet, List.mem_dedup, List.mem_map]
  constructor
  · rintro ⟨r, hr, heq⟩
    obtain ⟨rfl, rfl⟩ := Prod.mk.inj heq
    exact ⟨r, (List.mem_filter.1 hr).1, (List.mem_filter.1 hr).2, rfl, rfl⟩
  · rintro ⟨r, hr, hstatus, rfl, rfl⟩
    exact ⟨r, List.mem_filter.2 ⟨hr, hstatus⟩, rfl⟩

lemma groupByWallet_wallets {c : String} :
    (((groupByWallet rows).filter (·.1.val = c)).map Prod.snd).Nodup ∧
      ∀ w, w ∈ ((groupByWallet rows).filter (·.1.val = c)).map Prod.snd ↔ Plays rows c w := by
  have hval {x y : CurrencyCode} (h : x.val = y.val) : x = y := by
    cases x
    cases y
    simpa using h
  constructor
  · refine ((List.nodup_dedup _).filter _).map_on fun x hx y hy heq => ?_
    have hx' : x.1.val = c := by simpa using (List.mem_filter.1 hx).2
    have hy' : y.1.val = c := by simpa using (List.mem_filter.1 hy).2
    exact Prod.ext (hval (hx'.trans hy'.symm)) heq
  · intro w
    rw [List.mem_map]
    constructor
    · rintro ⟨⟨c', w'⟩, hmem, rfl⟩
      obtain ⟨hrow, hc⟩ := List.mem_filter.1 hmem
      obtain ⟨r, hr, hstatus, rfl, hw⟩ := mem_groupByWallet.1 hrow
      exact ⟨r, hr, by simpa using hc, hstatus, hw⟩
    · rintro ⟨r, hr, hc, hstatus, hw⟩
      exact ⟨(r.currency, w), List.mem_filter.2 ⟨mem_groupByWallet.2 ⟨r, hr, hstatus, rfl, hw⟩, by simpa using hc⟩, rfl⟩

lemma playerCounts_lookup (db : Arrangement) (c : String) : ((playerCounts db rows).lookup c).getD 0 =
    ((groupByWallet rows).filter (·.1.val = c)).length := by
  have hmeasure : Measure (fun x : CurrencyCode × String => x.1.val) (fun _ => (0 : ℕ)) (fun n _ => n + 1)
      (fun _ _ => True) (fun k n => if k = c then (n : ℤ) else 0) fun x => if x.1.val = c then 1 else 0 := by
    refine ⟨fun x => ?_, fun n x _ => ?_⟩
    · simp
    · split_ifs <;> simp
  have hkept : Kept (fun x : CurrencyCode × String => x.1.val) (fun _ => (0 : ℕ)) (fun n _ => n + 1)
      (fun _ => True) fun _ _ => True := ⟨fun _ _ => trivial, fun _ _ _ _ => trivial⟩
  have htotal := total_group (db.arrange (groupByWallet rows)) hkept hmeasure fun _ _ => trivial
  rw [total_at nodup_group, ((db.perm _).map _).sum_eq] at htotal
  have hlength : ((groupByWallet rows).map fun x => if x.1.val = c then (1 : ℤ) else 0).sum =
      ((groupByWallet rows).filter (·.1.val = c)).length := by
    simpa using (sum_filter (groupByWallet rows) (fun x => decide (x.1.val = c)) fun _ => 1).symm
  rw [hlength] at htotal
  apply Int.ofNat_inj.1
  rw [← htotal, playerCounts]
  cases List.lookup c _ <;> rfl

lemma players_eq (db : Arrangement) (c : String) : ((playerCounts db rows).lookup c).getD 0 =
    (((buckets rows).filter (·.currency.val = c)).flatMap (·.players)).dedup.length := by
  obtain ⟨hnodup, hmem⟩ := @groupByWallet_wallets rows c
  rw [playerCounts_lookup, ← List.length_map Prod.snd]
  refine ((List.perm_ext_iff_of_nodup hnodup (List.nodup_dedup _)).2 fun w => ?_).length_eq
  rw [hmem, ← mem_players, List.mem_dedup, List.mem_flatMap]
  constructor
  · rintro ⟨b, hb, hc, hw⟩
    exact ⟨b, List.mem_filter.2 ⟨hb, by simpa using hc⟩, hw⟩
  · rintro ⟨b, hb, hw⟩
    exact ⟨b, (List.mem_filter.1 hb).1, by simpa using (List.mem_filter.1 hb).2, hw⟩

lemma accounting_eq (rows : List BetRow) : rows.foldl Accounting.add ⟨0, 0⟩ =
    ⟨figureOf rows (fun _ => true) .wagered, figureOf rows (fun _ => true) .won⟩ := by
  have hstep (t : Accounting) (rows : List BetRow) : rows.foldl Accounting.add t =
      ⟨t.wagered + figureOf rows (fun _ => true) .wagered, t.won + figureOf rows (fun _ => true) .won⟩ := by
    induction rows generalizing t with
    | nil => simp [figureOf]
    | cons r rows ih =>
        rw [List.foldl_cons, ih, Accounting.add, figureOf, figureOf, figureOf, figureOf]
        cases hw : isWageredStatus r.status <;> cases hn : isWonStatus r.status <;>
          simp [BetRow.figure, hw, hn, add_assoc]
  rw [hstep]
  simp

def dayOf (b : Bucket) : DailyBucket where
  date := b.date
  toCurrencyStat := toCurrencyStat decimals b.currency.val b.betCount b.wagered b.won b.players.length

lemma daily_perm (db : Arrangement) (bets : List BetRow) (operatorId : String) (q : ReportQuery) :
    (daily decimals localeCompare db bets operatorId q).Perm
      ((buckets (db.arrange (bets.filter (inScope operatorId q)))).map (dayOf decimals)) :=
  List.mergeSort_perm _ _

lemma figureAt_arrange (db : Arrangement) {p : List Char → CurrencyCode → Bool} :
    figureAt (db.arrange rows) p f = figureAt rows p f := ((db.perm rows).map _).sum_eq

lemma figure_dayOf (b : Bucket) : (dayOf decimals b).figure f = b.figure f := by
  cases f <;> rfl

lemma daily_total (db : Arrangement) (bets : List BetRow) (operatorId : String) (q : ReportQuery) (p : String → Bool)
    (f : Figure) :
    (((daily decimals localeCompare db bets operatorId q).filter (p ·.currency)).map (·.figure f)).sum =
      figureOf (bets.filter (inScope operatorId q)) p f := by
  rw [(((daily_perm decimals localeCompare db bets operatorId q).filter _).map _).sum_eq, List.filter_map, List.map_map,
    figureOf_eq_figureAt, ← figureAt_arrange db, ← buckets_total]
  exact congrArg List.sum (List.map_congr_left fun b _ => figure_dayOf decimals b)

end Totals

structure ReportsAgree (rows : List BetRow) (stats : List CurrencyStat) (days : List DailyBucket) (bs : List Bucket) :
    Prop where
  once : (stats.map (·.currency)).Nodup
  sums : ∀ s ∈ stats, ∀ f, ((days.filter (·.currency = s.currency)).map (·.figure f)).sum = s.figure f
  appears : ∀ c, (∃ s ∈ stats, s.currency = c) ↔ ∃ d ∈ days, d.currency = c
  players : ∀ s ∈ stats,
    s.uniquePlayers = ((bs.filter (·.currency.val = s.currency)).flatMap (·.players)).dedup.length
  apart : (days.map fun d => (d.date, d.currency)).Nodup
  counted : ∀ r ∈ rows, isWageredStatus r.status = true →
    ∃ d ∈ days, d.date = isoDate r.createdAt ∧ d.currency = r.currency.val
  held : ∀ d ∈ days, ∀ f, d.figure f = figureAt rows (fun day c => day = d.date && c.val = d.currency) f

section Agreement

variable {rows : List BetRow} {f : Figure} {c : String} {db : Arrangement} {bets : List BetRow} {operatorId : String}
  {q : ReportQuery}

lemma currencyCode_inj {c c' : CurrencyCode} : c = c' ↔ c.val = c'.val := by
  cases c
  cases c'
  simp

lemma summary_nodup : ((summary decimals localeCompare db bets operatorId q).map (·.currency)).Nodup := by
  refine (((summary_perm decimals localeCompare db bets operatorId q).map _).nodup_iff).2 ?_
  rw [List.map_map]
  exact (accumulated_nodup db).sublist (List.filter_sublist.map Prod.fst)

lemma summary_betCount : ∀ s ∈ summary decimals localeCompare db bets operatorId q, 0 < s.figure .betCount := by
  intro s hs
  obtain ⟨e, he, rfl⟩ := List.mem_map.1 ((summary_perm decimals localeCompare db bets operatorId q).mem_iff.1 hs)
  have hcount : 0 < e.2.betCount := by simpa using (List.mem_filter.1 he).2
  exact Int.natCast_pos.2 hcount

lemma mem_daily {d : DailyBucket} : d ∈ daily decimals localeCompare db bets operatorId q ↔
    ∃ b ∈ buckets (db.arrange (bets.filter (inScope operatorId q))), dayOf decimals b = d :=
  (daily_perm decimals localeCompare db bets operatorId q).mem_iff.trans List.mem_map

lemma daily_betCount : ∀ d ∈ daily decimals localeCompare db bets operatorId q, 0 < d.figure .betCount := by
  intro d hd
  obtain ⟨b, hb, rfl⟩ := (mem_daily decimals localeCompare).1 hd
  rw [buckets_eq] at hb
  have hcount : 0 < b.betCount := by simpa using (List.mem_filter.1 hb).2
  exact Int.natCast_pos.2 hcount

lemma exists_iff_figureOf {α : Type} {l : List α} {currency : α → String} {w : α → ℤ} (hpos : ∀ x ∈ l, 0 < w x)
    (htotal : ((l.filter fun x => currency x = c).map w).sum = figureOf rows (fun x => x = c) .betCount) :
    (∃ x ∈ l, currency x = c) ↔ 0 < figureOf rows (fun x => x = c) .betCount := by
  rw [← htotal, ← exists_iff_sum_pos fun x hx => hpos x (List.mem_filter.1 hx).1]
  simp

lemma figureAt_currency (b : Bucket) : figureAt rows (fun d c => (d, c) = (b.date, b.currency)) f =
    figureAt rows (fun day c => day = b.date && c.val = b.currency.val) f := by
  refine congrArg List.sum (List.map_congr_left fun r _ => ?_)
  simp [currencyCode_inj]

lemma daily_nodup : ((daily decimals localeCompare db bets operatorId q).map fun d => (d.date, d.currency)).Nodup := by
  have hval : Function.Injective fun d : List Char × CurrencyCode => (d.1, d.2.val) := by
    rintro ⟨d, c⟩ ⟨d', c'⟩ h
    obtain ⟨rfl, hc⟩ := Prod.mk.inj h
    exact Prod.ext rfl (currencyCode_inj.2 hc)
  refine (((daily_perm decimals localeCompare db bets operatorId q).map _).nodup_iff).2 ?_
  have hnodup := @buckets_nodup (db.arrange (bets.filter (inScope operatorId q)))
  simpa [List.map_map, Function.comp_def, dayOf, toCurrencyStat] using hnodup.map hval

lemma exists_day {r : BetRow} (hr : r ∈ bets.filter (inScope operatorId q)) (hstatus : isWageredStatus r.status = true) :
    ∃ d ∈ daily decimals localeCompare db bets operatorId q, d.date = isoDate r.createdAt ∧ d.currency = r.currency.val := by
  have hpos : 0 < figureAt (db.arrange (bets.filter (inScope operatorId q)))
      (fun day c => (day, c) = (isoDate r.createdAt, r.currency)) .betCount := by
    rw [figureAt_arrange]
    exact figureAt_pos.2 ⟨r, hr, by simp, hstatus⟩
  rw [← buckets_total] at hpos
  obtain ⟨b, hb⟩ : ∃ b, b ∈ (buckets (db.arrange (bets.filter (inScope operatorId q)))).filter
      fun b => (b.date, b.currency) = (isoDate r.createdAt, r.currency) := by
    by_contra hnone
    rw [List.eq_nil_iff_forall_not_mem.2 (not_exists.1 hnone)] at hpos
    exact absurd hpos (by simp)
  obtain ⟨hmem, hkey⟩ := List.mem_filter.1 hb
  obtain ⟨hdate, hcurrency⟩ := Prod.mk.inj (of_decide_eq_true hkey)
  exact ⟨dayOf decimals b, (mem_daily decimals localeCompare).2 ⟨b, hmem, rfl⟩, hdate, congrArg CurrencyCode.val hcurrency⟩

lemma plays_perm {rows' : List BetRow} {w : String} (h : rows'.Perm rows) : Plays rows' c w ↔ Plays rows c w := by
  simp only [Plays, h.mem_iff]

lemma uniquePlayers_eq {s : CurrencyStat} (db' : Arrangement) (hs : s ∈ summary decimals localeCompare db bets operatorId q) :
    s.uniquePlayers = (((buckets (db'.arrange (bets.filter (inScope operatorId q)))).filter
      (·.currency.val = s.currency)).flatMap (·.players)).dedup.length := by
  obtain ⟨e, he, rfl⟩ := List.mem_map.1 ((summary_perm decimals localeCompare db bets operatorId q).mem_iff.1 hs)
  have hcount := @players_eq (db'.arrange (bets.filter (inScope operatorId q))) db e.1
  have hwallets (rows : List BetRow) := @groupByWallet_wallets rows e.1
  rw [playerCounts_lookup] at hcount
  refine Eq.trans ?_ hcount
  change ((playerCounts db (bets.filter (inScope operatorId q))).lookup e.1).getD 0 = _
  rw [playerCounts_lookup, ← List.length_map Prod.snd, ← List.length_map Prod.snd]
  refine ((List.perm_ext_iff_of_nodup (hwallets _).1 (hwallets _).1).2 fun w => ?_).length_eq
  rw [(hwallets _).2, (hwallets _).2, plays_perm (db'.perm _)]

lemma accounting_of_wallet (walletId : String) :
    sessionAccounting ((bets.filter (·.walletId = walletId)).filter (inScope operatorId q)) walletId q.start =
      ⟨figureOf ((bets.filter (·.walletId = walletId)).filter (inScope operatorId q)) (fun _ => true) .wagered,
        figureOf ((bets.filter (·.walletId = walletId)).filter (inScope operatorId q)) (fun _ => true) .won⟩ := by
  have hall : ((bets.filter (·.walletId = walletId)).filter (inScope operatorId q)).filter
      (fun b => b.walletId = walletId && q.start ≤ b.createdAt) =
        (bets.filter (·.walletId = walletId)).filter (inScope operatorId q) := by
    refine List.filter_eq_self.2 fun b hb => ?_
    obtain ⟨hwallet, hscope⟩ := List.mem_filter.1 hb
    have hid : b.walletId = walletId := by simpa using (List.mem_filter.1 hwallet).2
    simp only [inScope, Bool.and_eq_true, decide_eq_true_eq] at hscope
    simp [hid, hscope.1.1.2.1]
  rw [sessionAccounting, hall, accounting_eq]

end Agreement

/-- The summary and the daily series of a query agree with each other, and over the bets of one wallet with the
accounting of its session. -/
theorem reports_agree (db db' : Arrangement) (bets : List BetRow) (operatorId : String) (q : ReportQuery) :
    ReportsAgree (bets.filter (inScope operatorId q)) (summary decimals localeCompare db bets operatorId q)
        (daily decimals localeCompare db' bets operatorId q)
        (buckets (db'.arrange (bets.filter (inScope operatorId q)))) ∧
      ∀ walletId,
        let mine := bets.filter (·.walletId = walletId)
        let t := sessionAccounting (mine.filter (inScope operatorId q)) walletId q.start
        ((summary decimals localeCompare db mine operatorId q).map (·.wagered)).sum = t.wagered ∧
          ((summary decimals localeCompare db mine operatorId q).map (·.won)).sum = t.won ∧
          ((daily decimals localeCompare db' mine operatorId q).map (·.wagered)).sum = t.wagered ∧
          ((daily decimals localeCompare db' mine operatorId q).map (·.won)).sum = t.won := by
  have hall {α : Type} (l : List α) : l.filter (fun _ => true) = l := List.filter_eq_self.2 fun _ _ => rfl
  refine ⟨⟨summary_nodup decimals localeCompare, ?_, ?_, ?_, daily_nodup decimals localeCompare, ?_, ?_⟩, ?_⟩
  · intro s hs f
    have hone := summary_total decimals localeCompare db bets operatorId q (fun x => x = s.currency) f
    have hdays := daily_total decimals localeCompare db' bets operatorId q (fun x => x = s.currency) f
    rw [filter_key (summary_nodup decimals localeCompare) hs, List.map_singleton, List.sum_singleton] at hone
    exact hdays.trans hone.symm
  · intro c
    rw [exists_iff_figureOf (summary_betCount decimals localeCompare)
        (summary_total decimals localeCompare db bets operatorId q (fun x => x = c) .betCount),
      exists_iff_figureOf (daily_betCount decimals localeCompare)
        (daily_total decimals localeCompare db' bets operatorId q (fun x => x = c) .betCount)]
  · intro s hs
    exact uniquePlayers_eq decimals localeCompare db' hs
  · intro r hr hstatus
    exact exists_day decimals localeCompare hr hstatus
  · intro d hd f
    obtain ⟨b, hb, rfl⟩ := (mem_daily decimals localeCompare).1 hd
    rw [figure_dayOf, figure_of_mem_buckets hb, figureAt_currency, figureAt_arrange]
    rfl
  · intro walletId
    have hsummary := summary_total decimals localeCompare db (bets.filter (·.walletId = walletId)) operatorId q fun _ => true
    have hdaily := daily_total decimals localeCompare db' (bets.filter (·.walletId = walletId)) operatorId q fun _ => true
    simp only [hall] at hsummary hdaily
    dsimp only
    rw [accounting_of_wallet]
    exact ⟨hsummary .wagered, hsummary .won, hdaily .wagered, hdaily .won⟩

end VaultRun.Reporting
