import VaultRun.Data.Schema

/-!
The limits of a session: per-bet limits and responsible gambling controls, as an operator configures them, as they
are resolved for a currency, and as the play token carries them.
-/

namespace VaultRun.Operators

open VaultRun.Data Numeral Json

abbrev SafeParse := Schema → Value → Option Value

/-- The string that an array or an object turns into, if it turns into one. -/
abbrev ToPrimitive := Value → Option String

def bigInt (toPrimitive : ToPrimitive) : Option Value → Except Unit ℤ
  | none | some .null => .error ()
  | some (.bool b) => .ok (if b then 1 else 0)
  | some (.num x) => x.toBigInt
  | some (.str s) => stringToBigInt s
  | some v => (toPrimitive v).elim (.error ()) stringToBigInt

def number (toPrimitive : ToPrimitive) : Option Value → Except Unit Number
  | none => .ok .nan
  | some .null => .ok (.finite 0)
  | some (.bool b) => .ok (.finite (if b then 1 else 0))
  | some (.num x) => .ok x
  | some (.str s) => .ok (toNumber s)
  | some v => (toPrimitive v).elim (.error ()) fun s => .ok (toNumber s)

def isObject : Value → Bool
  | .arr .. | .obj .. => true
  | .null | .bool _ | .num _ | .str _ => false

/-- The first entry whose key is the currency, in whatever case. -/
def entryFor (toUpperCase : String → String) (currency : String) : Value → Option Value
  | .obj _ entries => (entries.find? fun e => toUpperCase e.1 = toUpperCase currency).map Prod.snd
  | _ => none

def atLeast (a b : String) (v : Value) : Bool :=
  match v.get a, v.get b with
  | some (.num x), some (.num y) => y.le x
  | _, _ => false

def PerCurrencyLimitSchema : Schema :=
  .refine
    (.refine
      (.object
        [("minBet", false, .number [.int, .nonnegative]),
         ("maxBet", false, .number [.int, .positive]),
         ("maxWinPerBet", false, .number [.int, .positive])] false)
      (atLeast "maxBet" "minBet"))
    (atLeast "maxWinPerBet" "maxBet")

def BetLimitsSchema : Schema := .record 1 PerCurrencyLimitSchema

structure EffectiveBetLimits where
  minBet : ℤ
  maxBet : ℤ
  maxWinPerBet : ℤ
  deriving DecidableEq

variable (safeParse : SafeParse) (toUpperCase : String → String) (toPrimitive : ToPrimitive)

/-- A configuration under its schema, `null` where it is absent or no such configuration. -/
def parseConfig (schema : Schema) : Option Value → Option Value
  | none | some .null => none
  | some json => safeParse schema json

def parseBetLimits : Option Value → Option Value := parseConfig safeParse BetLimitsSchema

def effectiveLimitsFor (json : Option Value) (currency : String) : Except Unit (Option EffectiveBetLimits) :=
  match (parseBetLimits safeParse json).bind (entryFor toUpperCase currency) with
  | none => .ok none
  | some l => do
      let minBet ← bigInt toPrimitive (l.get "minBet")
      let maxBet ← bigInt toPrimitive (l.get "maxBet")
      let maxWinPerBet ← bigInt toPrimitive (l.get "maxWinPerBet")
      pure (some { minBet, maxBet, maxWinPerBet })

def serializeBetLimits (l : EffectiveBetLimits) : Value :=
  .obj () [("minBet", .str (toString l.minBet)), ("maxBet", .str (toString l.maxBet)),
    ("maxWinPerBet", .str (toString l.maxWinPerBet))]

/-- What throws is caught, and answers `null` as well. -/
def deserializeBetLimits (json : Option Value) : Option EffectiveBetLimits := do
  let o ← json.filter isObject
  let minBet ← (bigInt toPrimitive (o.get "minBet")).toOption
  let maxBet ← (bigInt toPrimitive (o.get "maxBet")).toOption
  let maxWinPerBet ← (bigInt toPrimitive (o.get "maxWinPerBet")).toOption
  if minBet < 0 ∨ maxBet < minBet ∨ maxWinPerBet < maxBet then none
  else some { minBet, maxBet, maxWinPerBet }

def Bound.minTimeSec : ℤ := 60

def Bound.maxRealityCheckIntervalSec : ℤ := 86400

def Bound.maxSessionSec : ℤ := 2592000

def PerCurrencyRgLimitSchema : Schema :=
  .object
    [("maxSessionLoss", true, .number [.int, .positive]),
     ("maxSessionWager", true, .number [.int, .positive])] false

def RgConfigSchema : Schema :=
  .object
    [("realityCheckIntervalSec", true, .number [.int, .min Bound.minTimeSec, .max Bound.maxRealityCheckIntervalSec]),
     ("maxSessionSec", true, .number [.int, .min Bound.minTimeSec, .max Bound.maxSessionSec]),
     ("enforceRealityCheck", true, .boolean),
     ("limits", true, .record 1 PerCurrencyRgLimitSchema)] true

/-- The controls of a session, its money in minor units and its times in seconds. -/
structure EffectiveRg where
  realityCheckIntervalSec : Option Number
  maxSessionSec : Option Number
  enforceRealityCheck : Bool
  maxSessionLoss : Option ℤ
  maxSessionWager : Option ℤ
  deriving DecidableEq

def EffectiveRg.orNull (eff : EffectiveRg) : Option EffectiveRg :=
  if eff.realityCheckIntervalSec = none ∧ eff.maxSessionSec = none ∧ eff.maxSessionLoss = none ∧
      eff.maxSessionWager = none then
    none
  else some eff

def parseRgConfig : Option Value → Option Value := parseConfig safeParse RgConfigSchema

def numField (key : String) (v : Value) : Option Number :=
  match v.get key with
  | some (.num x) => some x
  | _ => none

def flag (key : String) (v : Value) : Bool :=
  match v.get key with
  | some (.bool b) => b
  | _ => true

def EffectiveRg.ofConfig (cfg : Value) (maxSessionLoss maxSessionWager : Option ℤ) : EffectiveRg where
  realityCheckIntervalSec := numField "realityCheckIntervalSec" cfg
  maxSessionSec := numField "maxSessionSec" cfg
  enforceRealityCheck := flag "enforceRealityCheck" cfg
  maxSessionLoss := maxSessionLoss
  maxSessionWager := maxSessionWager

def moneyCap (key : String) (l : Option Value) : Except Unit (Option ℤ) :=
  match l.bind (Json.get key) with
  | none => .ok none
  | some v => (bigInt toPrimitive (some v)).map some

def effectiveRgFor (json : Option Value) (currency : String) : Except Unit (Option EffectiveRg) :=
  match parseRgConfig safeParse json with
  | none => .ok none
  | some cfg => do
      let l := (cfg.get "limits").bind (entryFor toUpperCase currency)
      let loss ← moneyCap toPrimitive "maxSessionLoss" l
      let wager ← moneyCap toPrimitive "maxSessionWager" l
      pure (EffectiveRg.ofConfig cfg loss wager).orNull

def serializeRg (e : EffectiveRg) : Value :=
  .obj () (("enforceRealityCheck", .bool e.enforceRealityCheck) ::
    ((e.realityCheckIntervalSec.map fun n => ("realityCheckIntervalSec", .num n)).toList ++
      (e.maxSessionSec.map fun n => ("maxSessionSec", .num n)).toList ++
      (e.maxSessionLoss.map fun b => ("maxSessionLoss", .str (toString b))).toList ++
      (e.maxSessionWager.map fun b => ("maxSessionWager", .str (toString b))).toList))

/-- A time that a claim carries: refused unless it is an integer, positive and no more than `max`. -/
def timeClaim (max : ℤ) : Option Value → Option (Option Number)
  | none => some none
  | some v => do
      let n ← (number toPrimitive (some v)).toOption
      if !n.isInteger || n.le (.finite 0) || !n.le (.finite max) then none else some (some n)

def moneyClaim : Option Value → Option (Option ℤ)
  | none => some none
  | some v => do
      let b ← (bigInt toPrimitive (some v)).toOption
      if b ≤ 0 then none else some (some b)

def deserializeRg (json : Option Value) : Option EffectiveRg := do
  let o ← json.filter isObject
  let realityCheckIntervalSec ← timeClaim toPrimitive Bound.maxRealityCheckIntervalSec (o.get "realityCheckIntervalSec")
  let maxSessionSec ← timeClaim toPrimitive Bound.maxSessionSec (o.get "maxSessionSec")
  let maxSessionLoss ← moneyClaim toPrimitive (o.get "maxSessionLoss")
  let maxSessionWager ← moneyClaim toPrimitive (o.get "maxSessionWager")
  EffectiveRg.orNull
    { realityCheckIntervalSec, maxSessionSec, maxSessionLoss, maxSessionWager
      enforceRealityCheck := flag "enforceRealityCheck" o }

/-- The claims that `openFromToken` puts on a play token. -/
def limitClaims (limits : Option EffectiveBetLimits) (rg : Option EffectiveRg) : Value :=
  .obj () ((limits.map fun l => ("limits", serializeBetLimits l)).toList ++
    (rg.map fun e => ("rg", serializeRg e)).toList)

section Entry

variable {toUpperCase} {safeParse} {currency : String} {json data entry : Value} {values : Schema}

def EntryOf (toUpperCase : String → String) (currency : String) (json entry : Value) : Prop :=
  ∃ entries key, json = .obj () entries ∧ (key, entry) ∈ entries ∧ toUpperCase key = toUpperCase currency

lemma entryOf_of_record (h : Schema.Infers (.record 1 values) json data)
    (hfound : entryFor toUpperCase currency data = some entry) :
    ∃ w, EntryOf toUpperCase currency json w ∧ values.Infers w entry := by
  obtain ⟨entries, kept, rfl, rfl, hkept⟩ := h
  obtain ⟨e, hfind, rfl⟩ := Option.map_eq_some_iff.1 hfound
  obtain ⟨-, w, hmem, hinfers⟩ := hkept e (List.mem_of_find?_eq_some hfind)
  have hkey : toUpperCase e.1 = toUpperCase currency := by simpa using List.find?_some hfind
  exact ⟨w, ⟨entries, e.1, rfl, hmem, hkey⟩, hinfers⟩

lemma infers_of_parseConfig {schema : Schema} {json : Option Value} (hsafe : Schema.Sound safeParse)
    (h : parseConfig safeParse schema json = some data) : ∃ config, json = some config ∧ schema.Infers config data := by
  cases json with
  | none => cases h
  | some config =>
      refine ⟨config, rfl, hsafe.infers ?_⟩
      cases config with
      | null => cases h
      | _ => exact h

lemma bigInt_int (toPrimitive : ToPrimitive) (z : ℤ) : bigInt toPrimitive (some (.num (.finite z))) = .ok z :=
  toBigInt_eq_ok.2 rfl

lemma bigInt_toString (toPrimitive : ToPrimitive) {z : ℤ} (h : 0 ≤ z) :
    bigInt toPrimitive (some (.str (toString z))) = .ok z :=
  stringToBigInt_toString h

end Entry

section BetLimits

variable {toUpperCase} {safeParse} {toPrimitive} {currency : String} {w d : Value} {l : EffectiveBetLimits}

structure EffectiveBetLimits.Ordered (l : EffectiveBetLimits) : Prop where
  minBet : 0 ≤ l.minBet
  maxBet : l.minBet ≤ l.maxBet
  maxWinPerBet : l.maxBet ≤ l.maxWinPerBet

structure EffectiveBetLimits.ReadFrom (l : EffectiveBetLimits) (entry : Value) : Prop where
  minBet : entry.get "minBet" = some (.num (.finite l.minBet))
  maxBet : entry.get "maxBet" = some (.num (.finite l.maxBet))
  maxWinPerBet : entry.get "maxWinPerBet" = some (.num (.finite l.maxWinPerBet))

lemma le_of_atLeast {a b : String} {y x : ℤ} (h : atLeast a b d = true) (ha : d.get a = some (.num (.finite x)))
    (hb : d.get b = some (.num (.finite y))) : y ≤ x := by
  rw [atLeast, ha, hb] at h
  simpa [Number.le] using h

lemma exists_int_of_required {fields : List (String × Bool × Schema)} (key : String) (check : Check)
    (h : Schema.InfersFields fields w d) (hmem : (key, false, .number [.int, check]) ∈ fields) :
    ∃ z : ℤ, w.get key = some (.num (.finite z)) ∧ d.get key = some (.num (.finite z)) ∧ check.admits (.finite z) := by
  obtain ⟨x, hw, hd, hchecks⟩ := Schema.exists_num_of_field (Schema.field_of_infersFields h hmem)
  obtain ⟨z, rfl⟩ := Schema.exists_int (hchecks .int (by simp))
  exact ⟨z, hw, hd, hchecks check (by simp)⟩

lemma readFrom_of_schema (h : PerCurrencyLimitSchema.Infers w d) :
    ∃ l : EffectiveBetLimits, l.Ordered ∧ l.ReadFrom w ∧ l.ReadFrom d := by
  obtain ⟨⟨⟨entries, -, hfields, -⟩, hmax⟩, hwin⟩ := h
  obtain ⟨x, hx, hx', hnonnegative⟩ := exists_int_of_required "minBet" .nonnegative hfields (by simp)
  obtain ⟨y, hy, hy', -⟩ := exists_int_of_required "maxBet" .positive hfields (by simp)
  obtain ⟨z, hz, hz', -⟩ := exists_int_of_required "maxWinPerBet" .positive hfields (by simp)
  refine ⟨⟨x, y, z⟩, ⟨?_, le_of_atLeast hmax hy' hx', le_of_atLeast hwin hz' hy'⟩, ⟨hx, hy, hz⟩, ⟨hx', hy', hz'⟩⟩
  simpa [Check.admits, Number.le] using hnonnegative

lemma deserializeBetLimits_serializeBetLimits (h : l.Ordered) :
    deserializeBetLimits toPrimitive (some (serializeBetLimits l)) = some l := by
  obtain ⟨hmin, hmax, hwin⟩ := h
  have hminRead := bigInt_toString toPrimitive hmin
  have hmaxRead := bigInt_toString toPrimitive (hmin.trans hmax)
  have hwinRead := bigInt_toString toPrimitive ((hmin.trans hmax).trans hwin)
  have hkept : ¬ (l.minBet < 0 ∨ l.maxBet < l.minBet ∨ l.maxWinPerBet < l.maxBet) := by omega
  calc deserializeBetLimits toPrimitive (some (serializeBetLimits l))
      = ((bigInt toPrimitive (some (.str (toString l.minBet)))).toOption.bind fun minBet =>
          (bigInt toPrimitive (some (.str (toString l.maxBet)))).toOption.bind fun maxBet =>
            (bigInt toPrimitive (some (.str (toString l.maxWinPerBet)))).toOption.bind fun maxWinPerBet =>
              if minBet < 0 ∨ maxBet < minBet ∨ maxWinPerBet < maxBet then none
              else some ⟨minBet, maxBet, maxWinPerBet⟩) := rfl
    _ = some l := by
      rw [hminRead, hmaxRead, hwinRead]
      exact if_neg hkept

variable (toUpperCase) (toPrimitive) (currency) in
lemma effectiveLimitsFor_cases (hsafe : Schema.Sound safeParse) (json : Option Value) :
    effectiveLimitsFor safeParse toUpperCase toPrimitive json currency = .ok none ∨
      ∃ l config entry, effectiveLimitsFor safeParse toUpperCase toPrimitive json currency = .ok (some l) ∧
        json = some config ∧ EntryOf toUpperCase currency config entry ∧ l.ReadFrom entry ∧ l.Ordered := by
  rw [effectiveLimitsFor]
  cases hparsed : (parseBetLimits safeParse json).bind (entryFor toUpperCase currency) with
  | none => exact .inl rfl
  | some d =>
      obtain ⟨data, hdata, hfound⟩ := Option.bind_eq_some_iff.1 hparsed
      obtain ⟨config, rfl, hinfers⟩ := infers_of_parseConfig hsafe hdata
      obtain ⟨entry, hentry, hlimit⟩ := entryOf_of_record hinfers hfound
      obtain ⟨l, hordered, hread, hread'⟩ := readFrom_of_schema hlimit
      refine .inr ⟨l, config, entry, ?_, rfl, hentry, hread, hordered⟩
      dsimp only
      rw [hread'.minBet, hread'.maxBet, hread'.maxWinPerBet, bigInt_int, bigInt_int, bigInt_int]
      rfl

end BetLimits

section Rg

variable {toUpperCase} {safeParse} {toPrimitive} {currency key : String} {w d : Value} {e : EffectiveRg} {max : ℤ}

structure EffectiveRg.Bounded (e : EffectiveRg) : Prop where
  interval : ∀ x ∈ e.realityCheckIntervalSec, ∃ z : ℤ, x = .finite z ∧ 0 < z ∧ z ≤ Bound.maxRealityCheckIntervalSec
  session : ∀ x ∈ e.maxSessionSec, ∃ z : ℤ, x = .finite z ∧ 0 < z ∧ z ≤ Bound.maxSessionSec
  loss : ∀ b ∈ e.maxSessionLoss, 0 < b
  wager : ∀ b ∈ e.maxSessionWager, 0 < b

lemma serializeRg_get (e : EffectiveRg) :
    (serializeRg e).get "realityCheckIntervalSec" = e.realityCheckIntervalSec.map .num ∧
      (serializeRg e).get "maxSessionSec" = e.maxSessionSec.map .num ∧
      (serializeRg e).get "maxSessionLoss" = e.maxSessionLoss.map (.str ∘ toString) ∧
      (serializeRg e).get "maxSessionWager" = e.maxSessionWager.map (.str ∘ toString) := by
  obtain ⟨interval, session, enforce, loss, wager⟩ := e
  cases interval <;> cases session <;> cases loss <;> cases wager <;> exact ⟨rfl, rfl, rfl, rfl⟩

lemma timeClaim_map {v : Option Number} (h : ∀ x ∈ v, ∃ z : ℤ, x = .finite z ∧ 0 < z ∧ z ≤ max) :
    timeClaim toPrimitive max (v.map .num) = some v := by
  cases v with
  | none => rfl
  | some x =>
      obtain ⟨z, rfl, hpos, hmax⟩ := h x rfl
      have hzero : Number.le (.finite z) (.finite 0) = false := by simpa [Number.le] using hpos
      have hle : Number.le (.finite z) (.finite max) = true := by simpa [Number.le] using hmax
      change (if !Number.isInteger (.finite z) || Number.le (.finite z) (.finite 0) ||
        !Number.le (.finite z) (.finite max) then none else some (some (Number.finite z))) = _
      rw [hzero, hle]
      exact if_neg (by simp [Number.isInteger])

lemma moneyClaim_map {v : Option ℤ} (h : ∀ b ∈ v, 0 < b) :
    moneyClaim toPrimitive (v.map (.str ∘ toString)) = some v := by
  cases v with
  | none => rfl
  | some b =>
      have hb : 0 < b := h b rfl
      change ((bigInt toPrimitive (some (.str (toString b)))).toOption.bind fun b =>
        if b ≤ 0 then none else some (some b)) = _
      rw [bigInt_toString toPrimitive hb.le]
      exact if_neg (by omega)

lemma deserializeRg_serializeRg (h : e.Bounded) : deserializeRg toPrimitive (some (serializeRg e)) = e.orNull := by
  obtain ⟨hinterval, hsession, hloss, hwager⟩ := serializeRg_get e
  calc deserializeRg toPrimitive (some (serializeRg e))
      = ((timeClaim toPrimitive Bound.maxRealityCheckIntervalSec ((serializeRg e).get "realityCheckIntervalSec")).bind fun i =>
          (timeClaim toPrimitive Bound.maxSessionSec ((serializeRg e).get "maxSessionSec")).bind fun s =>
            (moneyClaim toPrimitive ((serializeRg e).get "maxSessionLoss")).bind fun l =>
              (moneyClaim toPrimitive ((serializeRg e).get "maxSessionWager")).bind fun w =>
                EffectiveRg.orNull ⟨i, s, e.enforceRealityCheck, l, w⟩) := rfl
    _ = e.orNull := by
      rw [hinterval, hsession, hloss, hwager, timeClaim_map h.interval, timeClaim_map h.session,
        moneyClaim_map h.loss, moneyClaim_map h.wager]
      rfl

lemma numField_bounds {fields : List (String × Bool × Schema)} (key : String) {optional : Bool} {lo hi : ℤ}
    (h : Schema.InfersFields fields w d) (hmem : (key, optional, .number [.int, .min lo, .max hi]) ∈ fields) :
    ∀ x ∈ numField key d, ∃ z : ℤ, x = .finite z ∧ lo ≤ z ∧ z ≤ hi := by
  have hfield := Schema.field_of_infersFields h hmem
  intro x hx
  rw [numField] at hx
  generalize w.get key = v, d.get key = v' at *
  cases hfield with
  | absent => cases hx
  | present hinfers =>
      obtain ⟨n, rfl, rfl, hchecks⟩ := hinfers
      obtain rfl : n = x := by simpa using hx
      obtain ⟨z, rfl⟩ := Schema.exists_int (hchecks .int (by simp))
      have hlo := hchecks (.min lo) (by simp)
      have hhi := hchecks (.max hi) (by simp)
      exact ⟨z, rfl, by simpa [Check.admits, Number.le] using hlo, by simpa [Check.admits, Number.le] using hhi⟩

structure CapOf (key : String) (entry : Value) (cap : Option ℤ) : Prop where
  pos : ∀ b ∈ cap, 0 < b
  read : entry.get key = cap.map fun b => .num (.finite b)

lemma moneyCap_of_limit (key : String) {fields : List (String × Bool × Schema)} (h : Schema.InfersFields fields w d)
    (hmem : (key, true, .number [.int, .positive]) ∈ fields) :
    ∃ cap, moneyCap toPrimitive key (some d) = .ok cap ∧ CapOf key w cap := by
  have hfield := Schema.field_of_infersFields h hmem
  rw [moneyCap, Option.bind_some]
  cases hw : w.get key with
  | none =>
      rw [hw] at hfield
      generalize d.get key = v' at *
      cases hfield
      exact ⟨none, rfl, by simp, hw⟩
  | some v =>
      rw [hw] at hfield
      generalize d.get key = v' at *
      cases hfield with
      | present hinfers =>
          obtain ⟨n, rfl, rfl, hchecks⟩ := hinfers
          obtain ⟨z, rfl⟩ := Schema.exists_int (hchecks .int (by simp))
          have hpos := hchecks .positive (by simp)
          refine ⟨some z, ?_, ?_, hw⟩
          · dsimp only
            rw [bigInt_int]
            rfl
          · simpa [Check.admits, Number.positive] using hpos

inductive CapsFrom (toUpperCase : String → String) (currency : String) (limits : Option Value) (e : EffectiveRg) : Prop
  | none (loss : e.maxSessionLoss = none) (wager : e.maxSessionWager = none)
  | entry {config entry : Value} (eq : limits = some config) (of : EntryOf toUpperCase currency config entry)
      (loss : CapOf "maxSessionLoss" entry e.maxSessionLoss) (wager : CapOf "maxSessionWager" entry e.maxSessionWager)

lemma CapsFrom.pos {limits : Option Value} (h : CapsFrom toUpperCase currency limits e) :
    (∀ b ∈ e.maxSessionLoss, 0 < b) ∧ ∀ b ∈ e.maxSessionWager, 0 < b := by
  cases h with
  | none hloss hwager =>
      rw [hloss, hwager]
      simp
  | entry heq hof hloss hwager => exact ⟨hloss.pos, hwager.pos⟩

variable (toUpperCase) (toPrimitive) (currency)

lemma caps_cases (cfg : Value)
    (h : Schema.Field (.record 1 PerCurrencyRgLimitSchema) true (w.get "limits") (cfg.get "limits")) :
    ∃ loss wager,
      moneyCap toPrimitive "maxSessionLoss" ((cfg.get "limits").bind (entryFor toUpperCase currency)) = .ok loss ∧
        moneyCap toPrimitive "maxSessionWager" ((cfg.get "limits").bind (entryFor toUpperCase currency)) = .ok wager ∧
          ∀ e : EffectiveRg, e.maxSessionLoss = loss → e.maxSessionWager = wager →
            CapsFrom toUpperCase currency (w.get "limits") e := by
  generalize w.get "limits" = limits, cfg.get "limits" = limits' at *
  cases hentry : limits'.bind (entryFor toUpperCase currency) with
  | none => exact ⟨none, none, rfl, rfl, fun e => .none⟩
  | some d =>
      cases h with
      | absent => cases hentry
      | present hinfers =>
          obtain ⟨entry, hfrom, entries, -, hfields, -⟩ := entryOf_of_record hinfers hentry
          obtain ⟨loss, hloss, hlossFrom⟩ := moneyCap_of_limit "maxSessionLoss" hfields (by simp)
          obtain ⟨wager, hwager, hwagerFrom⟩ := moneyCap_of_limit "maxSessionWager" hfields (by simp)
          refine ⟨loss, wager, hloss, hwager, ?_⟩
          rintro e rfl rfl
          exact .entry rfl hfrom hlossFrom hwagerFrom

lemma effectiveRgFor_cases (hsafe : Schema.Sound safeParse) (json : Option Value) :
    effectiveRgFor safeParse toUpperCase toPrimitive json currency = .ok none ∨
      ∃ e config, effectiveRgFor safeParse toUpperCase toPrimitive json currency = .ok e.orNull ∧ json = some config ∧
        e.Bounded ∧ CapsFrom toUpperCase currency (config.get "limits") e := by
  rw [effectiveRgFor]
  cases hparsed : parseRgConfig safeParse json with
  | none => exact .inl rfl
  | some cfg =>
      obtain ⟨config, rfl, entries, -, hfields, -⟩ := infers_of_parseConfig hsafe hparsed
      obtain ⟨loss, wager, hloss, hwager, hfrom⟩ := caps_cases toUpperCase toPrimitive currency cfg
        (Schema.field_of_infersFields hfields (by simp))
      have hinterval := numField_bounds "realityCheckIntervalSec" hfields (List.mem_cons_self ..)
      have hsession := numField_bounds "maxSessionSec" hfields (List.mem_cons_of_mem _ (List.mem_cons_self ..))
      have hcaps := hfrom (EffectiveRg.ofConfig cfg loss wager) rfl rfl
      refine .inr ⟨EffectiveRg.ofConfig cfg loss wager, config, ?_, rfl, ⟨?_, ?_, hcaps.pos.1, hcaps.pos.2⟩, hcaps⟩
      · dsimp only
        rw [hloss, hwager]
        rfl
      · intro x hx
        obtain ⟨z, rfl, hlo, hhi⟩ := hinterval x hx
        exact ⟨z, rfl, by simp only [Bound.minTimeSec] at hlo; omega, hhi⟩
      · intro x hx
        obtain ⟨z, rfl, hlo, hhi⟩ := hsession x hx
        exact ⟨z, rfl, by simp only [Bound.minTimeSec] at hlo; omega, hhi⟩

end Rg

section Claims

variable {toUpperCase} {safeParse} {toPrimitive} {json : Option Value} {currency : String}
  {limits : Option EffectiveBetLimits} {rg : Option EffectiveRg} {e e' : EffectiveRg}

lemma limitClaims_get (limits : Option EffectiveBetLimits) (rg : Option EffectiveRg) :
    (limitClaims limits rg).get "limits" = limits.map serializeBetLimits ∧
      (limitClaims limits rg).get "rg" = rg.map serializeRg := by
  cases limits <;> cases rg <;> exact ⟨rfl, rfl⟩

lemma eq_of_orNull (h : e.orNull = some e') : e = e' := by
  rw [EffectiveRg.orNull] at h
  split at h
  · cases h
  · exact Option.some.inj h

theorem limitClaims_read (hsafe : Schema.Sound safeParse)
    (hlimits : effectiveLimitsFor safeParse toUpperCase toPrimitive json currency = .ok limits) {json' : Option Value}
    (hrg : effectiveRgFor safeParse toUpperCase toPrimitive json' currency = .ok rg) :
    deserializeBetLimits toPrimitive ((limitClaims limits rg).get "limits") = limits ∧
      deserializeRg toPrimitive ((limitClaims limits rg).get "rg") = rg := by
  obtain ⟨hl, hr⟩ := limitClaims_get limits rg
  rw [hl, hr]
  constructor
  · rcases effectiveLimitsFor_cases toUpperCase toPrimitive currency hsafe json with h | h
    · obtain rfl : none = limits := Except.ok.inj (h.symm.trans hlimits)
      rfl
    · obtain ⟨l, -, -, heq, -, -, -, hordered⟩ := h
      obtain rfl : some l = limits := Except.ok.inj (heq.symm.trans hlimits)
      exact deserializeBetLimits_serializeBetLimits hordered
  · rcases effectiveRgFor_cases toUpperCase toPrimitive currency hsafe json' with h | h
    · obtain rfl : none = rg := Except.ok.inj (h.symm.trans hrg)
      rfl
    · obtain ⟨e, -, heq, -, hbounded, -⟩ := h
      obtain rfl : e.orNull = rg := Except.ok.inj (heq.symm.trans hrg)
      cases hnull : e.orNull with
      | none => rfl
      | some e' =>
          obtain rfl := eq_of_orNull hnull
          exact (deserializeRg_serializeRg hbounded).trans hnull

end Claims

variable {safeParse} in
/-- What is resolved for a session is what a play token gives back, and is what an entry under the session's
currency says. -/
theorem limits_survive_token (hsafe : Schema.Sound safeParse) (json : Option Value) (currency : String) :
    (∃ limits, effectiveLimitsFor safeParse toUpperCase toPrimitive json currency = .ok limits ∧
      ∀ l, limits = some l →
        deserializeBetLimits toPrimitive (some (serializeBetLimits l)) = some l ∧
          ∃ config entry, json = some config ∧ EntryOf toUpperCase currency config entry ∧ l.ReadFrom entry) ∧
      (∃ rg, effectiveRgFor safeParse toUpperCase toPrimitive json currency = .ok rg ∧
        ∀ e, rg = some e →
          deserializeRg toPrimitive (some (serializeRg e)) = some e ∧
            ∃ config, json = some config ∧ CapsFrom toUpperCase currency (config.get "limits") e) := by
  constructor
  · rcases effectiveLimitsFor_cases toUpperCase toPrimitive currency hsafe json with h | h
    · exact ⟨none, h, by simp⟩
    · obtain ⟨l, config, entry, heq, hjson, hentry, hread, hordered⟩ := h
      refine ⟨some l, heq, ?_⟩
      rintro l' ⟨⟩
      exact ⟨deserializeBetLimits_serializeBetLimits hordered, config, entry, hjson, hentry, hread⟩
  · rcases effectiveRgFor_cases toUpperCase toPrimitive currency hsafe json with h | h
    · exact ⟨none, h, by simp⟩
    · obtain ⟨e, config, heq, hjson, hbounded, hcaps⟩ := h
      refine ⟨e.orNull, heq, ?_⟩
      intro e' he'
      obtain rfl := eq_of_orNull he'
      exact ⟨(deserializeRg_serializeRg hbounded).trans he', config, hjson, hcaps⟩

namespace Scenario

def amount (n : ℤ) : Value := .num (.finite n)

def euroLimits : Value :=
  .obj () [("eur", .obj () [("minBet", amount 10), ("maxBet", amount 10000), ("maxWinPerBet", amount 1000000)])]

def upper (s : String) : String := String.ofList (s.toList.map Char.toUpper)

theorem euro_limits_survive :
    effectiveLimitsFor Schema.validate upper (fun _ => none) (some euroLimits) "EUR" =
        .ok (some ⟨10, 10000, 1000000⟩) ∧
      deserializeBetLimits (fun _ => none) (some (serializeBetLimits ⟨10, 10000, 1000000⟩)) =
        some ⟨10, 10000, 1000000⟩ := by
  have heval : effectiveLimitsFor Schema.validate upper (fun _ => none) (some euroLimits) "EUR" =
      .ok (some ⟨10, 10000, 1000000⟩) := by decide +kernel
  obtain ⟨limits, hlimits, hread⟩ :=
    (limits_survive_token upper (fun _ => none) Schema.validate_sound (some euroLimits) "EUR").1
  obtain rfl : limits = some _ := Except.ok.inj (hlimits.symm.trans heval)
  exact ⟨heval, (hread _ rfl).1⟩

end Scenario

end VaultRun.Operators
