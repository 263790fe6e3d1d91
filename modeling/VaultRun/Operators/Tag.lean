import Mathlib
import VaultRun.Data.Delimited

/-!
The tag of an operator's player: the user name under which the wallet of a player in a currency is kept, and how
the wallets of a player are told from it.
-/

namespace VaultRun.Operators

open VaultRun.Data.Delimited

def isLowerHex (c : Char) : Bool := ('0' ≤ c && c ≤ '9') || ('a' ≤ c && c ≤ 'f')

abbrev isUuid (cs : List Char) : Bool := uuidShape isLowerHex cs

abbrev Uuid := UuidOf isLowerHex

/-- `toUpperCase` maps each character on its own. -/
structure UpperCase where
  char : Char → List Char
  ne_nil : ∀ c, char c ≠ []
  not_lower : ∀ c, ∀ d ∈ char c, d.isLower = false
  colon : ∀ c, ':' ∈ char c → c = ':'

def UpperCase.toUpperCase (U : UpperCase) (s : String) : String := String.ofList (s.toList.flatMap U.char)

/-- A currency code as an operator offers it. -/
structure Code where
  val : String
  ne_empty : val ≠ ""
  plain : ':' ∉ val.toList

/-- A code in upper case. -/
structure Currency extends Code where
  upper : ∀ c ∈ val.toList, c.isLower = false

deriving instance DecidableEq for Code, Currency

lemma Currency.ext_val {c d : Currency} (h : c.val = d.val) : c = d := by
  obtain ⟨⟨v, h₁, h₂⟩, h₃⟩ := c
  obtain ⟨⟨w, k₁, k₂⟩, k₃⟩ := d
  obtain rfl : v = w := h
  rfl

namespace UpperCase

variable {U : UpperCase} {s : String} {c d : Char}

lemma mem_toUpperCase : d ∈ (U.toUpperCase s).toList ↔ ∃ c ∈ s.toList, d ∈ U.char c := by
  simp [toUpperCase]

lemma toUpperCase_ne_empty (hs : s ≠ "") : U.toUpperCase s ≠ "" := by
  obtain ⟨c, hc⟩ := List.exists_mem_of_ne_nil s.toList (by simpa using hs)
  obtain ⟨d, hd⟩ := List.exists_mem_of_ne_nil _ (U.ne_nil c)
  intro h
  have hmem : d ∈ (U.toUpperCase s).toList := mem_toUpperCase.2 ⟨c, hc, hd⟩
  rw [h] at hmem
  simp at hmem

lemma not_lower_toUpperCase (h : d ∈ (U.toUpperCase s).toList) : d.isLower = false := by
  obtain ⟨c, -, hd⟩ := mem_toUpperCase.1 h
  exact U.not_lower c d hd

variable (U) in
def currency (c : Code) : Currency where
  val := U.toUpperCase c.val
  ne_empty := toUpperCase_ne_empty c.ne_empty
  plain h := by
    obtain ⟨d, hd, hcolon⟩ := mem_toUpperCase.1 h
    exact c.plain (U.colon d hcolon ▸ hd)
  upper d := not_lower_toUpperCase

end UpperCase

structure Identity where
  operatorId : Uuid
  playerId : String
  currency : Currency
  demo : Bool
  deriving DecidableEq

def base (operatorId : Uuid) (playerId : String) : String := "op:" ++ operatorId.val ++ ":" ++ playerId ++ ":"

def Identity.tag (x : Identity) : String :=
  if x.demo then base x.operatorId x.playerId ++ x.currency.val ++ ":demo"
  else base x.operatorId x.playerId ++ x.currency.val

def startsWith (s t : String) : Bool := t.toList.isPrefixOf s.toList

def endsWith (s t : String) : Bool := t.toList.isSuffixOf s.toList

/-- How `isDemoWallet` takes the name of a wallet that has no session. -/
def isRealOperatorWallet (name : String) : Bool := startsWith name "op:" && !endsWith name ":demo"

def suffixRe (cs : List Char) : Bool :=
  cs.takeWhile (· ≠ ':') ≠ [] && (cs.dropWhile (· ≠ ':') = [] || cs.dropWhile (· ≠ ':') = ":demo".toList)

/-- The currency of a request, where it has one that is not empty. -/
def asked (currency : Option String) : Option String := currency.filter (· ≠ "")

/-- The names that `revokeForOperatorPlayer` asks the database for. -/
def candidate (U : UpperCase) (operatorId : Uuid) (playerId : String) (currency : Option String)
    (name : String) : Bool :=
  match asked currency with
  | some c =>
      name = base operatorId playerId ++ U.toUpperCase c ||
        name = base operatorId playerId ++ U.toUpperCase c ++ ":demo"
  | none => startsWith name (base operatorId playerId)

def selects (U : UpperCase) (operatorId : Uuid) (playerId : String) (currency : Option String)
    (name : String) : Bool :=
  candidate U operatorId playerId currency name &&
    suffixRe (name.toList.drop (base operatorId playerId).toList.length)

/-- Whose wallets a request means. -/
def Identity.Meant (U : UpperCase) (o : Uuid) (p : String) (currency : Option String) (x : Identity) : Prop :=
  x.operatorId = o ∧ x.playerId = p ∧ ∀ c, asked currency = some c → x.currency.val = U.toUpperCase c

/-- The player of a demo wallet whose id, with its currency, reads as the id of another player. -/
def Identity.Confused (o : Uuid) (p : String) (x : Identity) : Prop :=
  x.operatorId = o ∧ x.demo = true ∧ p = x.playerId ++ ":" ++ x.currency.val

section Tags

variable {x y : Identity} {o : Uuid} {p : String} {cs : List Char} {U : UpperCase} {cur : Option String}

lemma Uuid.plain (o : Uuid) : ':' ∉ o.val.toList := not_mem_of_uuidShape (by decide) (by decide) o.valid

lemma base_toList : (base o p).toList = 'o' :: 'p' :: ':' :: (o.val.toList ++ ':' :: (p.toList ++ [':'])) := by
  simp [base]

lemma base_append (cs : List Char) :
    (base o p).toList ++ cs = 'o' :: 'p' :: ':' :: (o.val.toList ++ ':' :: (p.toList ++ ':' :: cs)) := by
  simp [base_toList]

def Identity.rest (x : Identity) : List Char :=
  x.currency.val.toList ++ if x.demo then ":demo".toList else []

lemma tag_toList : x.tag.toList = (base x.operatorId x.playerId).toList ++ x.rest := by
  unfold Identity.tag Identity.rest
  split <;> simp

lemma rest_demo (hd : x.demo = true) : x.rest = x.currency.val.toList ++ ':' :: "demo".toList := by
  simp [Identity.rest, hd]

lemma rest_real (hd : x.demo = false) : x.rest = x.currency.val.toList := by
  simp [Identity.rest, hd]

lemma Currency.ne_demo (c : Currency) : c.val.toList ≠ "demo".toList := by
  intro h
  have hd := c.upper 'd' (by rw [h]; decide)
  exact absurd hd (by decide)

lemma demo_plain : ':' ∉ "demo".toList := by decide

lemma base_inj {o' : Uuid} {p' : String} {as bs : List Char}
    (h : (base o p).toList ++ as = (base o' p').toList ++ bs) :
    o = o' ∧ p.toList ++ ':' :: as = p'.toList ++ ':' :: bs := by
  simp only [base_append, List.cons.injEq, true_and] at h
  obtain ⟨ho, hp⟩ := first_eq o.plain o'.plain h
  refine ⟨?_, hp⟩
  cases o
  cases o'
  obtain rfl := String.toList_inj.1 ho
  rfl

theorem tag_injective (h : x.tag = y.tag) : x = y := by
  have hlist : (base x.operatorId x.playerId).toList ++ x.rest =
      (base y.operatorId y.playerId).toList ++ y.rest := by
    rw [← tag_toList, ← tag_toList, h]
  obtain ⟨ho, hrest⟩ := base_inj hlist
  have hext (hp : x.playerId.toList = y.playerId.toList) (hc : x.currency.val.toList = y.currency.val.toList)
      (hd : x.demo = y.demo) : x = y := by
    cases x
    cases y
    obtain rfl := ho
    obtain rfl := String.toList_inj.1 hp
    obtain rfl := Currency.ext_val (String.toList_inj.1 hc)
    obtain rfl := hd
    rfl
  cases hx : x.demo with
  | true =>
      rw [rest_demo hx, ← List.cons_append, ← List.append_assoc] at hrest
      cases hy : y.demo with
      | true =>
          rw [rest_demo hy, ← List.cons_append, ← List.append_assoc] at hrest
          obtain ⟨hinner, -⟩ := last_eq demo_plain demo_plain hrest
          obtain ⟨hp, hc⟩ := last_eq x.currency.plain y.currency.plain hinner
          exact hext hp hc (hx.trans hy.symm)
      | false =>
          rw [rest_real hy] at hrest
          exact absurd (last_eq demo_plain y.currency.plain hrest).2.symm y.currency.ne_demo
  | false =>
      rw [rest_real hx] at hrest
      cases hy : y.demo with
      | true =>
          rw [rest_demo hy, ← List.cons_append, ← List.append_assoc] at hrest
          exact absurd (last_eq x.currency.plain demo_plain hrest).2 x.currency.ne_demo
      | false =>
          rw [rest_real hy] at hrest
          obtain ⟨hp, hc⟩ := last_eq x.currency.plain y.currency.plain hrest
          exact hext hp hc (hx.trans hy.symm)

lemma isReal_tag : isRealOperatorWallet x.tag = !x.demo := by
  have hstart : startsWith x.tag "op:" = true := by
    rw [startsWith, List.isPrefixOf_iff_prefix, tag_toList, base_append]
    exact ⟨_, rfl⟩
  rw [isRealOperatorWallet, hstart, Bool.true_and]
  congr 1
  cases hx : x.demo with
  | true =>
      rw [endsWith, List.isSuffixOf_iff_suffix, tag_toList, rest_demo hx, ← List.append_assoc]
      exact ⟨_, rfl⟩
  | false =>
      rw [← Bool.not_eq_true, endsWith, List.isSuffixOf_iff_suffix, tag_toList, base_append, rest_real hx]
      rintro ⟨as, has⟩
      have hlast : as ++ ':' :: "demo".toList =
          ('o' :: 'p' :: ':' :: (x.operatorId.val.toList ++ ':' :: x.playerId.toList)) ++
            ':' :: x.currency.val.toList := by
        simpa using has
      exact absurd (last_eq demo_plain x.currency.plain hlast).2.symm x.currency.ne_demo

lemma suffixRe_iff : suffixRe cs = true ↔ ∃ a, a ≠ [] ∧ ':' ∉ a ∧ (cs = a ∨ cs = a ++ ':' :: "demo".toList) := by
  constructor
  · intro h
    simp only [suffixRe, Bool.and_eq_true, Bool.or_eq_true, decide_eq_true_eq] at h
    refine ⟨cs.takeWhile (· ≠ ':'), h.1, fun hm => by simpa using List.mem_takeWhile_imp hm, ?_⟩
    have hsplit : cs.takeWhile (· ≠ ':') ++ cs.dropWhile (· ≠ ':') = cs := List.takeWhile_append_dropWhile
    rcases h.2 with hrest | hrest
    · left
      rw [hrest, List.append_nil] at hsplit
      exact hsplit.symm
    · right
      rw [hrest] at hsplit
      exact hsplit.symm
  · rintro ⟨a, hne, hplain, rfl | rfl⟩
    · have hall : ∀ c ∈ cs, (decide (c ≠ ':')) = true := fun c hc => by
        rw [decide_eq_true_eq]
        rintro rfl
        exact hplain hc
      rw [suffixRe, List.takeWhile_eq_self_iff.2 hall, List.dropWhile_eq_nil_iff.2 hall]
      simp [hne]
    · have hall : ∀ c ∈ a, (decide (c ≠ ':')) = true := fun c hc => by
        rw [decide_eq_true_eq]
        rintro rfl
        exact hplain hc
      rw [suffixRe, List.takeWhile_append_of_pos hall, List.dropWhile_append_of_pos hall]
      simp [hne]

lemma selects_iff {name : String} : selects U o p cur name = true ↔
    ∃ t, name.toList = (base o p).toList ++ t ∧ suffixRe t = true ∧
      ∀ c, asked cur = some c → t = (U.toUpperCase c).toList ∨ t = (U.toUpperCase c).toList ++ ':' :: "demo".toList := by
  unfold selects candidate
  constructor
  · intro h
    rw [Bool.and_eq_true] at h
    obtain ⟨hcand, hsuffix⟩ := h
    cases hasked : asked cur with
    | none =>
        rw [hasked] at hcand
        obtain ⟨t, ht⟩ := List.isPrefixOf_iff_prefix.1 hcand
        rw [← ht, List.drop_left] at hsuffix
        exact ⟨t, ht.symm, hsuffix, nofun⟩
    | some c =>
        rw [hasked] at hcand
        simp only [Bool.or_eq_true, decide_eq_true_eq] at hcand
        rcases hcand with rfl | rfl
        · rw [String.toList_append, List.drop_left] at hsuffix
          refine ⟨_, String.toList_append, hsuffix, fun c' hc' => .inl ?_⟩
          obtain rfl := Option.some.inj hc'
          rfl
        · rw [String.toList_append, String.toList_append, List.append_assoc, List.drop_left] at hsuffix
          refine ⟨_, by rw [String.toList_append, String.toList_append, List.append_assoc], hsuffix, fun c' hc' => ?_⟩
          obtain rfl := Option.some.inj hc'
          exact .inr rfl
  · rintro ⟨t, hname, hsuffix, hcur⟩
    rw [Bool.and_eq_true, hname, List.drop_left]
    refine ⟨?_, hsuffix⟩
    cases hasked : asked cur with
    | none =>
        rw [startsWith, List.isPrefixOf_iff_prefix, hname]
        exact ⟨t, rfl⟩
    | some c =>
        simp only [Bool.or_eq_true, decide_eq_true_eq, ← String.toList_inj, hname, String.toList_append,
          List.append_assoc, List.append_cancel_left_eq]
        exact hcur c hasked

lemma toUpperCase_ne_demo (c : String) (a : List Char) : (U.toUpperCase c).toList ≠ a ++ "demo".toList := by
  intro h
  have hd : 'd' ∈ (U.toUpperCase c).toList := by
    rw [h]
    simp
  exact absurd (UpperCase.not_lower_toUpperCase hd) (by decide)

lemma base_tag (ho : x.operatorId = o) (hp : x.playerId = p) : x.tag.toList = (base o p).toList ++ x.rest := by
  rw [tag_toList, ho, hp]

lemma suffixRe_rest : suffixRe x.rest = true := by
  refine suffixRe_iff.2 ⟨x.currency.val.toList, by simpa using x.currency.ne_empty, x.currency.plain, ?_⟩
  cases hx : x.demo with
  | true => exact .inr (rest_demo hx)
  | false => exact .inl (rest_real hx)

theorem selects_tag : selects U o p cur x.tag = true ↔
    x.Meant U o p cur ∨ (asked cur = none ∧ x.Confused o p) := by
  rw [selects_iff]
  constructor
  · rintro ⟨t, ht, hsuffix, hcur⟩
    rw [tag_toList] at ht
    obtain ⟨ho, hrest⟩ := base_inj ht
    obtain ⟨a, -, hplain, hta⟩ := suffixRe_iff.1 hsuffix
    cases hx : x.demo with
    | false =>
        rw [rest_real hx] at hrest
        rcases hta with rfl | rfl
        · obtain ⟨hp, hc⟩ := last_eq x.currency.plain hplain hrest
          refine .inl ⟨ho, String.toList_inj.1 hp, fun c hasked => String.toList_inj.1 ?_⟩
          rcases hcur c hasked with h | h
          · exact hc.trans h
          · rw [h] at hplain
            simp at hplain
        · rw [← List.cons_append, ← List.append_assoc] at hrest
          exact absurd (last_eq x.currency.plain demo_plain hrest).2 x.currency.ne_demo
    | true =>
        rw [rest_demo hx, ← List.cons_append, ← List.append_assoc] at hrest
        rcases hta with rfl | rfl
        · obtain ⟨hp, rfl⟩ := last_eq demo_plain hplain hrest
          right
          constructor
          · cases hasked : asked cur with
            | none => rfl
            | some c =>
                rcases hcur c hasked with h | h
                · exact absurd h.symm (toUpperCase_ne_demo c [])
                · rw [h] at hplain
                  simp at hplain
          · refine ⟨ho, hx, String.toList_inj.1 ?_⟩
            simpa using hp.symm
        · rw [← List.cons_append, ← List.append_assoc] at hrest
          obtain ⟨hinner, -⟩ := last_eq demo_plain demo_plain hrest
          obtain ⟨hp, hc⟩ := last_eq x.currency.plain hplain hinner
          refine .inl ⟨ho, String.toList_inj.1 hp, fun c hasked => String.toList_inj.1 ?_⟩
          rcases hcur c hasked with h | h
          · rw [List.append_cons] at h
            exact absurd h.symm (toUpperCase_ne_demo c _)
          · exact hc.trans (List.append_cancel_right h)
  · rintro (⟨ho, hp, hc⟩ | ⟨hasked, ho, hx, hp⟩)
    · refine ⟨x.rest, base_tag ho hp, suffixRe_rest, fun c hasked => ?_⟩
      have hval : x.currency.val = U.toUpperCase c := hc c hasked
      cases hx : x.demo with
      | true => exact .inr (by rw [rest_demo hx, hval])
      | false => exact .inl (by rw [rest_real hx, hval])
    · refine ⟨"demo".toList, ?_, by decide, fun c h => ?_⟩
      · rw [tag_toList, rest_demo hx, base_append, base_append, ho, hp]
        simp
      · rw [hasked] at h
        cases h

lemma not_meant_of_confused (h : x.Confused o p) : ¬ x.Meant U o p cur := by
  rintro ⟨-, hp, -⟩
  have hlength : x.playerId.toList.length = p.toList.length := by rw [hp]
  rw [h.2.2] at hlength
  simp at hlength

end Tags

end VaultRun.Operators
