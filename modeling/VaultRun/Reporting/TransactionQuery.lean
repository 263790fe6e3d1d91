import VaultRun.Data.Delimited
import VaultRun.Data.Numeral
import VaultRun.Game.Rows

/-!
Transaction ids: the idempotency keys under which a bet moves money, and the query that the transaction-status
lookup of an operator makes of them.
-/

namespace VaultRun.Reporting

open VaultRun.Data.Delimited VaultRun.Data.Numeral VaultRun.Game

def isHex (c : Char) : Bool := ('0' ≤ c && c ≤ '9') || ('a' ≤ c && c ≤ 'f') || ('A' ≤ c && c ≤ 'F')

abbrev uuidRe (s : String) : Bool := uuidShape isHex s.toList

abbrev Uuid := UuidOf isHex

def panelName : Panel → String
  | .A => "A"
  | .B => "B"

inductive TransactionId
  | debit (roundId userId : Uuid) (panel : Panel)
  | payout (betId : Uuid)
  | refund (betId : Uuid)
  | restartRefund (betId : Uuid)
  deriving DecidableEq

def debitKey (roundId userId : String) (panel : Panel) : String :=
  "bet:" ++ roundId ++ ":" ++ userId ++ ":" ++ panelName panel ++ ":debit"

def payoutKey (betId : String) : String := "bet:" ++ betId ++ ":payout"

def refundKey (betId : String) : String := "bet:" ++ betId ++ ":refund"

def restartRefundKey (betId : String) : String := "bet:" ++ betId ++ ":restart_refund"

def TransactionId.text : TransactionId → String
  | .debit roundId userId panel => debitKey roundId.val userId.val panel
  | .payout betId => payoutKey betId.val
  | .refund betId => refundKey betId.val
  | .restartRefund betId => restartRefundKey betId.val

inductive Param
  | string (s : String)
  | other

structure RawQuery where
  transactionId : Option Param
  betId : Option Param

inductive TransactionQuery
  | betId (betId : String)
  | debit (roundId userId : String) (panel : Panel) (transactionId : String)
  | payout (betId transactionId : String)
  | refund (betId transactionId : String)
  deriving DecidableEq

def asString : Option Param → Option String
  | some (.string s) => some s
  | _ => none

def trimmed (p : Option Param) : Option String :=
  (asString p).bind fun s => if trim s.toList = [] then none else some (String.ofList (trim s.toList))

def parsePanel (panel : String) : Option Panel :=
  if panel = "A" then some .A else if panel = "B" then some .B else none

def unrecognized : Except String TransactionQuery := .error "unrecognized transactionId"

def parseTransactionId (transactionId : String) : Except String TransactionQuery :=
  match (transactionId.toList.splitOn ':').map String.ofList with
  | [head, betId, kind] =>
      if head ≠ "bet" then unrecognized
      else if kind = "payout" ∨ kind = "refund" ∨ kind = "restart_refund" then
        if uuidRe betId then
          .ok (if kind = "payout" then .payout betId transactionId else .refund betId transactionId)
        else unrecognized
      else unrecognized
  | [head, roundId, userId, panel, kind] =>
      if head ≠ "bet" then unrecognized
      else if kind = "debit" then
        match uuidRe roundId && uuidRe userId, parsePanel panel with
        | true, some panel => .ok (.debit roundId userId panel transactionId)
        | _, _ => unrecognized
      else unrecognized
  | _ => unrecognized

def parseTransactionQuery (q : RawQuery) : Except String TransactionQuery :=
  match trimmed q.transactionId, trimmed q.betId with
  | some _, some _ => .error "provide exactly one of transactionId or betId"
  | none, none => .error "missing transactionId or betId"
  | none, some betId => if uuidRe betId then .ok (.betId betId) else .error "invalid betId"
  | some transactionId, none => parseTransactionId transactionId

section Parts

variable {s : String} {p : Panel}

lemma blank_of_isHex {c : Char} (h : isHex c = true) : blank c = false := by
  simp only [isHex, Bool.or_eq_true, Bool.and_eq_true, decide_eq_true_eq, Char.le_def, UInt32.le_iff_toNat_le] at h
  have hzero : '0'.val.toNat = 0x30 := rfl
  have hnine : '9'.val.toNat = 0x39 := rfl
  have ha : 'a'.val.toNat = 0x61 := rfl
  have hf : 'f'.val.toNat = 0x66 := rfl
  have hA : 'A'.val.toNat = 0x41 := rfl
  have hF : 'F'.val.toNat = 0x46 := rfl
  have hval : c.val.toNat = c.toNat := rfl
  simp only [blank, Bool.or_eq_false_iff, Bool.and_eq_false_iff, decide_eq_false_iff_not, List.mem_cons,
    List.not_mem_nil, not_or, not_false_eq_true, and_true]
  omega

lemma trim_of_uuidRe (h : uuidRe s) : trim s.toList = s.toList := by
  have hblank : ∀ c ∈ s.toList, blank c = false := by
    intro c hc
    by_contra hne
    refine not_mem_of_uuidShape (fun hdash => ?_) (Bool.eq_false_iff.2 fun hhex => hne (blank_of_isHex hhex)) h hc
    rw [hdash] at hne
    exact hne (by decide)
  have hlength := length_of_uuidShape h
  have hne : s.toList ≠ [] := List.ne_nil_of_length_pos (by omega)
  exact trim_of_ends (List.head?_eq_some_head hne)
    (List.head?_eq_some_head (List.reverse_ne_nil_iff.2 hne)) (hblank _ (List.head_mem hne))
    (hblank _ (List.mem_reverse.1 (List.head_mem _)))

lemma colon_not_mem_of_uuidRe (h : uuidRe s) : ':' ∉ s.toList := not_mem_of_uuidShape (by decide) (by decide) h

lemma Uuid.colon_not_mem (u : Uuid) : ':' ∉ u.val.toList := colon_not_mem_of_uuidRe u.valid

lemma colon_not_mem_panelName : ':' ∉ (panelName p).toList := by
  cases p <;> decide

@[simp] lemma parsePanel_panelName : parsePanel (panelName p) = some p := by
  cases p <;> decide

lemma panelName_injective : Function.Injective panelName := by
  intro p p' h
  cases p <;> cases p' <;> simp [panelName] at h ⊢

lemma panelName_of_parsePanel (h : parsePanel s = some p) : s = panelName p := by
  unfold parsePanel at h
  split_ifs at h with hA hB <;> obtain rfl := Option.some.inj h
  · exact hA
  · exact hB

end Parts

namespace TransactionId

def parts : TransactionId → List String
  | .debit roundId userId panel => ["bet", roundId.val, userId.val, panelName panel, "debit"]
  | .payout betId => ["bet", betId.val, "payout"]
  | .refund betId => ["bet", betId.val, "refund"]
  | .restartRefund betId => ["bet", betId.val, "restart_refund"]

variable {t t' : TransactionId}

lemma toList_text : t.text.toList = [':'].intercalate (t.parts.map String.toList) := by
  cases t <;> simp [text, parts, debitKey, payoutKey, refundKey, restartRefundKey, List.intercalate]

lemma splitOn_text : (t.text.toList.splitOn ':').map String.ofList = t.parts := by
  have hparts : ∀ l ∈ t.parts.map String.toList, ':' ∉ l := by
    intro l hl
    obtain ⟨x, hx, rfl⟩ := List.mem_map.1 hl
    cases t <;> simp only [parts, List.mem_cons, List.not_mem_nil, or_false] at hx
    · rcases hx with rfl | rfl | rfl | rfl | rfl
      · decide
      · exact Uuid.colon_not_mem _
      · exact Uuid.colon_not_mem _
      · exact colon_not_mem_panelName
      · decide
    all_goals
      rcases hx with rfl | rfl | rfl
      · decide
      · exact Uuid.colon_not_mem _
      · decide
  have hne : t.parts.map String.toList ≠ [] := by
    cases t <;> simp [parts]
  rw [toList_text, List.splitOn_intercalate ':' hparts hne]
  simp [Function.comp_def]

lemma eq_text_of_splitOn {s : String} (h : (s.toList.splitOn ':').map String.ofList = t.parts) : s = t.text := by
  have hsplit : s.toList.splitOn ':' = t.parts.map String.toList := by
    rw [← h]
    simp [Function.comp_def]
  have hlist : s.toList = t.text.toList := by
    rw [toList_text, ← hsplit, List.intercalate_splitOn]
  exact String.toList_injective hlist

lemma text_injective : Function.Injective text := by
  intro t t' h
  have hparts : t.parts = t'.parts := by rw [← splitOn_text, ← splitOn_text, h]
  have hval {u v : Uuid} (h : u.val = v.val) : u = v := by
    cases u
    cases v
    congr
  cases t <;> cases t' <;> simp [parts] at hparts
  · obtain ⟨hr, hu, hp⟩ := hparts
    rw [hval hr, hval hu, panelName_injective hp]
  all_goals rw [hval hparts]

lemma trim_text : trim t.text.toList = t.text.toList := by
  have hhead : t.text.toList.head? = some 'b' := by
    cases t <;> simp [text, debitKey, payoutKey, refundKey, restartRefundKey]
  have hlast : ∃ d, t.text.toList.reverse.head? = some d ∧ blank d = false := by
    cases t
    case debit | payout => exact ⟨'t', by simp [text, debitKey, payoutKey], by decide⟩
    case refund | restartRefund => exact ⟨'d', by simp [text, refundKey, restartRefundKey], by decide⟩
  obtain ⟨d, hlast, hd⟩ := hlast
  exact trim_of_ends hhead hlast (by decide) hd

def query (t : TransactionId) : TransactionQuery :=
  match t with
  | .debit roundId userId panel => .debit roundId.val userId.val panel t.text
  | .payout betId => .payout betId.val t.text
  | .refund betId | .restartRefund betId => .refund betId.val t.text

/-- The bet whose money an id moves, by its slot or by its own id. -/
def bet : TransactionId → (Uuid × Uuid × Panel) ⊕ Uuid
  | .debit roundId userId panel => .inl (roundId, userId, panel)
  | .payout betId | .refund betId | .restartRefund betId => .inr betId

lemma parse_text : parseTransactionId t.text = .ok t.query := by
  unfold parseTransactionId
  rw [splitOn_text]
  cases t with
  | debit roundId userId panel => simp [parts, query, roundId.valid, userId.valid]
  | payout betId => simp [parts, query, betId.valid]
  | refund betId => simp [parts, query, betId.valid]
  | restartRefund betId => simp [parts, query, betId.valid]

end TransactionId

lemma exists_of_parseTransactionId {s : String} {q : TransactionQuery} (h : parseTransactionId s = .ok q) :
    ∃ t : TransactionId, s = t.text ∧ q = t.query := by
  have hspelt {t : TransactionId} (hparts : (s.toList.splitOn ':').map String.ofList = t.parts) :
      ∃ t : TransactionId, s = t.text ∧ q = t.query := by
    obtain rfl := TransactionId.eq_text_of_splitOn hparts
    exact ⟨t, rfl, Except.ok.inj (h.symm.trans TransactionId.parse_text)⟩
  have h' := h
  unfold parseTransactionId unrecognized at h'
  split at h'
  · rename_i head betId kind hparts
    have hread : head = "bet" ∧ (kind = "payout" ∨ kind = "refund" ∨ kind = "restart_refund") ∧ uuidRe betId := by
      by_contra hno
      split_ifs at h' with hhead hkind hid <;> exact hno ⟨not_ne_iff.1 hhead, hkind, hid⟩
    obtain ⟨rfl, hkind, hid⟩ := hread
    rcases hkind with rfl | rfl | rfl
    · exact hspelt (t := .payout ⟨betId, hid⟩) hparts
    · exact hspelt (t := .refund ⟨betId, hid⟩) hparts
    · exact hspelt (t := .restartRefund ⟨betId, hid⟩) hparts
  · rename_i head roundId userId panel kind hparts
    split_ifs at h' with hhead hkind
    obtain rfl := not_ne_iff.1 hhead
    subst hkind
    split at h'
    · rename_i p hids hpanel
      obtain ⟨hround, huser⟩ := (Bool.and_eq_true _ _).mp hids
      obtain rfl := panelName_of_parsePanel hpanel
      exact hspelt (t := .debit ⟨roundId, hround⟩ ⟨userId, huser⟩ p) hparts
    · cases h'
  · cases h'

/-- The id that the fields of a query give back, a refund's the one of its class that a player's cancel has. -/
def TransactionQuery.rebuilt : TransactionQuery → String
  | .betId id => id
  | .debit roundId userId panel _ => debitKey roundId userId panel
  | .payout id _ => payoutKey id
  | .refund id _ => refundKey id

lemma exists_rebuilt (t : TransactionId) : ∃ t' : TransactionId, t.query.rebuilt = t'.text ∧ t'.bet = t.bet ∧
    ((∀ id, t ≠ .restartRefund id) → t' = t) := by
  cases t with
  | debit roundId userId panel => exact ⟨.debit roundId userId panel, rfl, rfl, fun _ => rfl⟩
  | payout id => exact ⟨.payout id, rfl, rfl, fun _ => rfl⟩
  | refund id => exact ⟨.refund id, rfl, rfl, fun _ => rfl⟩
  | restartRefund id => exact ⟨.refund id, rfl, rfl, fun h => absurd rfl (h id)⟩

lemma parseTransactionQuery_eq {s : String} : parseTransactionQuery ⟨some (.string s), none⟩ =
    if trim s.toList = [] then .error "missing transactionId or betId"
    else parseTransactionId (String.ofList (trim s.toList)) := by
  by_cases hs : trim s.toList = [] <;> simp [parseTransactionQuery, trimmed, asString, hs]

/-- Every id is parsed to its query; what is not turned down is an id, blanks around it apart, and its query gives
back an id of the same bet; and no two ids are the same text. -/
theorem transaction_ids :
    (∀ t : TransactionId, parseTransactionQuery ⟨some (.string t.text), none⟩ = .ok t.query) ∧
    (∀ s : String, (∃ message, parseTransactionQuery ⟨some (.string s), none⟩ = .error message) ∨
      ∃ t : TransactionId, String.ofList (trim s.toList) = t.text ∧
        parseTransactionQuery ⟨some (.string s), none⟩ = .ok t.query ∧
        ∃ t' : TransactionId, t.query.rebuilt = t'.text ∧ t'.bet = t.bet ∧
          ((∀ id, t ≠ .restartRefund id) → t' = t)) ∧
    Function.Injective TransactionId.text := by
  refine ⟨fun t => ?_, fun s => ?_, TransactionId.text_injective⟩
  · have hne : trim t.text.toList ≠ [] := by
      rw [TransactionId.trim_text]
      cases t <;> simp [TransactionId.text, debitKey, payoutKey, refundKey, restartRefundKey]
    rw [parseTransactionQuery_eq, if_neg hne, TransactionId.trim_text, String.ofList_toList]
    exact TransactionId.parse_text
  · rw [parseTransactionQuery_eq]
    split_ifs with hs
    · exact .inl ⟨_, rfl⟩
    · cases hp : parseTransactionId (String.ofList (trim s.toList)) with
      | error message => exact .inl ⟨message, rfl⟩
      | ok q =>
          obtain ⟨t, htext, rfl⟩ := exists_of_parseTransactionId hp
          exact .inr ⟨t, htext, rfl, exists_rebuilt t⟩

/-- The keys of the game's moves as ids. -/
def transactionId (round user bet : ℕ → Uuid) : Key → Option TransactionId
  | .debit slot => some (.debit (round slot.roundId) (user slot.userId) slot.panel)
  | .payout b => some (.payout (bet b))
  | .refund b => some (.refund (bet b))
  | .restartRefund b => some (.restartRefund (bet b))
  | .voidReclaim _ | .voidRefund _ | .other _ => none

lemma key_eq_of_text {round user bet : ℕ → Uuid} (hround : round.Injective) (huser : user.Injective)
    (hbet : bet.Injective) {k k' : Key} {t t' : TransactionId} (h : transactionId round user bet k = some t)
    (h' : transactionId round user bet k' = some t') (htext : t.text = t'.text) : k = k' := by
  obtain rfl := TransactionId.text_injective htext
  cases k <;> cases h <;> cases k' <;>
    simp only [transactionId, Option.some.injEq, TransactionId.debit.injEq, TransactionId.payout.injEq,
      TransactionId.refund.injEq, TransactionId.restartRefund.injEq, reduceCtorEq] at h'
  case debit.refl.debit slot slot' =>
      obtain ⟨r, u, p⟩ := slot
      obtain ⟨r', u', p'⟩ := slot'
      obtain ⟨hr, hu, rfl⟩ := h'
      obtain rfl := hround hr
      obtain rfl := huser hu
      rfl
  all_goals
    obtain rfl := hbet h'
    rfl

end VaultRun.Reporting
