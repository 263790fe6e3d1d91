import VaultRun.Operators.Service
import VaultRun.Reporting.TransactionQuery

/-!
The API keys of an operator: how they are minted, what is stored of them, and the guard of the operator's routes.
-/

namespace VaultRun.Operators.ApiKey

open VaultRun.Data VaultRun.Data.Numeral VaultRun.Data.Delimited
open VaultRun.Reporting (uuidRe isHex)

/-- The digests in hexadecimal, taken to be injective, the keyed one in its key too. -/
structure Digests where
  sha256 : String → String
  hmac256 : String → String → String
  sha256_injective : Function.Injective sha256
  hmac256_injective : ∀ {s s' p p'}, hmac256 s p = hmac256 s' p' → s = s' ∧ p = p'
  sha256_ne_empty : ∀ s, sha256 s ≠ ""
  hmac256_ne_empty : ∀ s p, hmac256 s p ≠ ""

inductive Scope
  | read
  | write
  deriving DecidableEq

def tokenPrefix : Scope → String
  | .read => "vrk_"
  | .write => "vrw_"

/-- 32 random bytes in hexadecimal. -/
structure Secret where
  val : String
  length : val.toList.length = 64
  hex : val.toList.all isHex = true

/-- A variable of the environment that is empty counts as one that is not set. -/
def isSet (pepper : Option String) : Option String := pepper.filter (· ≠ "")

variable (D : Digests)

def hashSecret (pepper : Option String) (secret : String) : String :=
  match isSet pepper with
  | some p => "hmac-sha256:" ++ D.hmac256 secret p
  | none => "sha256:" ++ D.sha256 secret

def generateKey (scope : Scope) (pepper : Option String) (operatorId : Uuid) (secret : Secret) : String × String :=
  (tokenPrefix scope ++ operatorId.val ++ "." ++ secret.val, hashSecret D pepper secret.val)

def stripPrefix (t : List Char) : Option (List Char) :=
  if (tokenPrefix .read).toList.isPrefixOf t then some (t.drop 4)
  else if (tokenPrefix .write).toList.isPrefixOf t then some (t.drop 4)
  else none

def parseReportingToken (token : Option String) : Option (String × String) := do
  let t ← token
  if 512 < Json.length t.toList then none
  else
    let body ← stripPrefix t.toList
    let operatorId := body.takeWhile (· ≠ '.')
    -- the dot and the secret, nothing where there is no dot
    let rest := body.dropWhile (· ≠ '.')
    if operatorId = [] ∨ rest.length ≤ 1 then none
    else if !uuidRe (String.ofList operatorId) then none
    else some (String.ofList operatorId, String.ofList rest.tail)

def safeTokenEqual (provided expected : String) : Bool := provided ≠ "" && expected ≠ "" && provided = expected

def verifyReportingSecret (pepper : Option String) (secret : String) (storedHash : Option String) : Bool :=
  match storedHash with
  | none => false
  | some stored =>
      let algo := String.ofList (stored.toList.takeWhile (· ≠ ':'))
      -- `digest` is empty where there is no colon
      let digest := String.ofList (stored.toList.dropWhile (· ≠ ':')).tail
      if algo = "hmac-sha256" then
        match isSet pepper with
        | none => false
        | some p => safeTokenEqual (D.hmac256 secret p) digest
      else if algo = "sha256" then safeTokenEqual (D.sha256 secret) digest
      else false

inductive Header
  | absent
  | one (s : String)
  | many (l : List String)

def Header.first : Header → Option String
  | .absent => none
  | .one s => some s
  | .many l => l.head?

structure Request where
  authorization : Header
  cfConnectingIp : Header
  xForwardedFor : Header
  ip : Option String
  remoteAddress : Option String

def notBlank (s : String) : Bool := trim s.toList ≠ []

def trimmed (s : List Char) : String := String.ofList (trim s)

def extractClientIp (req : Request) : String :=
  match req.cfConnectingIp with
  | .one s => if notBlank s then trimmed s.toList else forwarded
  | _ => forwarded
where
  forwarded : String :=
    match req.xForwardedFor.first with
    | some s =>
        if notBlank s then trimmed (s.toList.takeWhile (· ≠ ',')) else req.ip.getD (req.remoteAddress.getD "unknown")
    | none => req.ip.getD (req.remoteAddress.getD "unknown")

def bearerToken : Header → Option String
  | .one s => if "Bearer ".toList.isPrefixOf s.toList then some (String.ofList (s.toList.drop 7)) else none
  | _ => none

structure Operator where
  enabled : Bool
  ipWhitelist : List String
  reportingApiKeyHash : Option String
  writeApiKeyHash : Option String

def Operator.hash (op : Operator) : Scope → Option String
  | .read => op.reportingApiKeyHash
  | .write => op.writeApiKeyHash

/-- The operators by their ids, and the pepper in the environment. -/
structure State where
  operators : Uuid → Option Operator
  pepper : Option String

/-- An id is compared as a UUID, whatever the case of its letters. -/
def State.findUnique (s : State) (id : String) : Option (Uuid × Operator) :=
  if h : isUuid (String.ofList (id.toList.map Char.toLower)).toList = true then (s.operators ⟨_, h⟩).map (⟨_, h⟩, ·) else none

/-- What the metadata of a route says of the write scope, at the handler and at its controller. -/
structure Route where
  handler : Option Bool
  controller : Option Bool

def Route.scope (r : Route) : Scope := if (r.handler <|> r.controller) = some true then .write else .read

def canActivate (s : State) (r : Route) (req : Request) : Except String Uuid :=
  match parseReportingToken (bearerToken req.authorization) with
  | none => .error "invalid_api_key"
  | some (operatorId, secret) =>
      match s.findUnique operatorId with
      | none => .error "invalid_api_key"
      | some (id, op) =>
          if !verifyReportingSecret D s.pepper secret (op.hash r.scope) then .error "invalid_api_key"
          else if !op.enabled then .error "operator_disabled"
          else if 0 < op.ipWhitelist.length ∧ extractClientIp req ∉ op.ipWhitelist then .error "ip_not_allowed"
          else .ok id

inductive Event
  | provision (id : Uuid) (enabled : Bool) (ipWhitelist : List String)
  | mint (scope : Scope) (id : Uuid) (secret : Secret)
  | setPepper (pepper : Option String)

def Operator.store (op : Operator) (scope : Scope) (hash : String) : Operator :=
  match scope with
  | .read => { op with reportingApiKeyHash := some hash }
  | .write => { op with writeApiKeyHash := some hash }

/-- A key is minted for an operator that there is; what it was before is stored no more. -/
def State.step (s : State) : Event → State
  | .provision id enabled ipWhitelist =>
      let op : Operator :=
        match s.operators id with
        | some op => { op with enabled, ipWhitelist }
        | none => ⟨enabled, ipWhitelist, none, none⟩
      { s with operators := Function.update s.operators id (some op) }
  | .mint scope id secret =>
      let hash := (generateKey D scope s.pepper id secret).2
      { s with operators := Function.update s.operators id ((s.operators id).map (·.store scope hash)) }
  | .setPepper pepper => { s with pepper }

def State.run (s : State) (history : List Event) : State := history.foldl (State.step D) s

def State.empty : State := ⟨fun _ => none, none⟩

lemma isSet_isSet (pepper : Option String) : isSet (isSet pepper) = isSet pepper := by
  cases pepper with
  | none => rfl
  | some p =>
      by_cases hp : p = ""
      · simp [isSet, hp]
      · simp [isSet]

/-- A key as it was minted: its secret, and the pepper that was set then. -/
structure Key where
  secret : Secret
  pepper : Option String
  set : isSet pepper = pepper

/-- A key works without a pepper, or under the pepper it was minted with. -/
def Key.Opens (k : Key) (pepper : Option String) : Prop := k.pepper = none ∨ k.pepper = isSet pepper

structure Holder where
  enabled : Bool
  ipWhitelist : List String
  key : Scope → Option Key

/-- The operators with the latest key of each scope: what the rows stand for. -/
structure Registry where
  holders : Uuid → Option Holder
  pepper : Option String

def Registry.step (r : Registry) : Event → Registry
  | .provision id enabled ipWhitelist =>
      let h : Holder := ⟨enabled, ipWhitelist, ((r.holders id).map Holder.key).getD fun _ => none⟩
      { r with holders := Function.update r.holders id (some h) }
  | .mint scope id secret =>
      let key : Key := ⟨secret, isSet r.pepper, isSet_isSet r.pepper⟩
      { r with
        holders := Function.update r.holders id
          ((r.holders id).map fun h => { h with key := Function.update h.key scope (some key) }) }
  | .setPepper pepper => { r with pepper }

def Registry.run (r : Registry) (history : List Event) : Registry := history.foldl Registry.step r

def Registry.empty : Registry := ⟨fun _ => none, none⟩

def Key.stored (k : Key) : String := hashSecret D k.pepper k.secret.val

def Holder.row (h : Holder) : Operator :=
  ⟨h.enabled, h.ipWhitelist, (h.key .read).map (Key.stored D), (h.key .write).map (Key.stored D)⟩

def Registry.rows (r : Registry) : State := ⟨fun id => (r.holders id).map (Holder.row D), r.pepper⟩

section Refinement

variable {D} {r : Registry} {e : Event} {history : List Event}

lemma hashSecret_isSet (pepper : Option String) (secret : String) :
    hashSecret D (isSet pepper) secret = hashSecret D pepper secret := by
  rw [hashSecret, isSet_isSet, hashSecret]

lemma map_update {α β γ : Type} [DecidableEq α] (f : β → γ) (g : α → Option β) (a : α) (b : Option β) :
    (fun x => (Function.update g a b x).map f) = Function.update (fun x => (g x).map f) a (b.map f) := by
  funext x
  by_cases hx : x = a
  · subst hx
    simp
  · simp [Function.update_of_ne hx]

lemma rows_step (r : Registry) (e : Event) : (r.rows D).step D e = (r.step e).rows D := by
  cases e with
  | provision id enabled ipWhitelist =>
      rw [State.step, Registry.step, Registry.rows, Registry.rows]
      dsimp only
      rw [map_update]
      congr 2
      cases r.holders id <;> rfl
  | mint scope id secret =>
      rw [State.step, Registry.step, Registry.rows, Registry.rows]
      dsimp only
      rw [map_update]
      congr 2
      cases r.holders id with
      | none => rfl
      | some h =>
          cases scope <;>
            simp [Holder.row, Operator.store, generateKey, Key.stored, hashSecret_isSet, Function.update]
  | setPepper pepper => rfl

lemma rows_run (r : Registry) (history : List Event) : (r.rows D).run D history = (r.run history).rows D := by
  induction history generalizing r with
  | nil => rfl
  | cons e history ih =>
      rw [State.run, Registry.run, List.foldl_cons, List.foldl_cons, rows_step]
      exact ih (r.step e)

end Refinement

section Ids

lemma toNat_toLower (c : Char) :
    c.toLower.toNat = if 0x41 ≤ c.toNat ∧ c.toNat ≤ 0x5A then c.toNat + 0x20 else c.toNat := by
  unfold Char.toLower
  split
  · rename_i h
    have hlow := UInt32.le_iff_toNat_le.1 h.1
    have hhigh := UInt32.le_iff_toNat_le.1 h.2
    rw [if_pos ⟨hlow, hhigh⟩]
    change (c.val + 32).toNat = c.val.toNat + 32
    change c.val.toNat ≤ 90 at hhigh
    rw [UInt32.toNat_add, Nat.mod_eq_of_lt]
    · rfl
    · change c.val.toNat + 32 < 2 ^ 32
      omega
  · rename_i h
    rw [if_neg]
    intro hc
    exact h ⟨UInt32.le_iff_toNat_le.2 hc.1, UInt32.le_iff_toNat_le.2 hc.2⟩

lemma le_iff_toNat (c d : Char) : c ≤ d ↔ c.toNat ≤ d.toNat := UInt32.le_iff_toNat_le

lemma isHex_iff (c : Char) : isLowerHex c.toLower = isHex c := by
  have h := toNat_toLower c
  rw [Bool.eq_iff_iff]
  simp only [isLowerHex, isHex, Bool.or_eq_true, Bool.and_eq_true, decide_eq_true_eq, le_iff_toNat]
  simp only [show '0'.toNat = 48 from rfl, show '9'.toNat = 57 from rfl, show 'a'.toNat = 97 from rfl,
    show 'f'.toNat = 102 from rfl, show 'A'.toNat = 65 from rfl, show 'F'.toNat = 70 from rfl]
  split at h <;> omega

lemma dash_iff (c : Char) : c.toLower = '-' ↔ c = '-' := by
  have h := toNat_toLower c
  have heq : ∀ d : Char, d = '-' ↔ d.toNat = 45 := fun d => ⟨fun h => by rw [h]; rfl, fun h => Char.toNat_inj.1 h⟩
  rw [heq, heq]
  split at h <;> omega

lemma isUuid_lower (s : String) : isUuid (s.toList.map Char.toLower) = uuidRe s := uuidShape_map dash_iff isHex_iff

end Ids

section Token

variable {D} {t id secret stored : String} {body : List Char} {pepper : Option String} {k : Key}

lemma stripPrefix_eq_some {t : List Char} : stripPrefix t = some body ↔ ∃ scope, t = (tokenPrefix scope).toList ++ body := by
  constructor
  · intro h
    rw [stripPrefix] at h
    split_ifs at h with hread hwrite
    · obtain ⟨rest, rfl⟩ := List.isPrefixOf_iff_prefix.1 hread
      obtain rfl : rest = body := Option.some.inj h
      exact ⟨.read, rfl⟩
    · obtain ⟨rest, rfl⟩ := List.isPrefixOf_iff_prefix.1 hwrite
      obtain rfl : rest = body := Option.some.inj h
      exact ⟨.write, rfl⟩
  · rintro ⟨scope, rfl⟩
    cases scope <;> simp [stripPrefix, tokenPrefix]

lemma dot_not_mem (h : uuidRe id) : '.' ∉ id.toList := not_mem_of_uuidShape (by decide) (by decide) h

lemma parseReportingToken_eq_some : parseReportingToken (some t) = some (id, secret) ↔
    Json.length t.toList ≤ 512 ∧ (∃ scope, t = tokenPrefix scope ++ id ++ "." ++ secret) ∧ uuidRe id ∧ secret ≠ "" := by
  constructor
  · intro h
    rw [parseReportingToken, Option.bind_eq_bind, Option.bind_some] at h
    split at h
    · cases h
    · rename_i hlen
      obtain ⟨body, hbody, hparts⟩ := Option.bind_eq_some_iff.1 h
      obtain ⟨scope, hscope⟩ := stripPrefix_eq_some.1 hbody
      dsimp only at hparts
      split_ifs at hparts with hshort huuid
      obtain ⟨rfl, rfl⟩ := Prod.mk.inj (Option.some.inj hparts)
      cases hrest : body.dropWhile (· ≠ '.') with
      | nil => exact absurd (.inr (by rw [hrest]; exact Nat.zero_le 1)) hshort
      | cons x rest =>
          have hsplit := eq_of_dropWhile hrest
          refine ⟨not_lt.1 hlen, ⟨scope, ?_⟩, by simpa using huuid, ?_⟩
          · apply String.toList_injective
            rw [hscope, List.tail_cons]
            nth_rewrite 1 [hsplit]
            simp
          · intro hempty
            have hnil : rest = [] := by simpa using hempty
            exact hshort (.inr (by rw [hrest, hnil]; exact le_refl 1))
  · rintro ⟨hlen, ⟨scope, rfl⟩, huuid, hsecret⟩
    have hdot := dot_not_mem huuid
    have hbody : stripPrefix (tokenPrefix scope ++ id ++ "." ++ secret).toList = some (id.toList ++ '.' :: secret.toList) := by
      refine stripPrefix_eq_some.2 ⟨scope, ?_⟩
      simp
    have hid : id.toList ≠ [] := by
      intro hnil
      rw [uuidRe, hnil] at huuid
      cases huuid
    have hne : secret.toList ≠ [] := by simpa using hsecret
    rw [parseReportingToken, Option.bind_eq_bind, Option.bind_some, if_neg (not_lt.2 hlen), hbody]
    dsimp only [Option.bind_eq_bind, Option.bind_some]
    rw [takeWhile_ne hdot, dropWhile_ne hdot, if_neg, if_neg]
    · simp
    · simpa using huuid
    · rintro (h | h)
      · exact hid h
      · rw [List.length_cons] at h
        exact hne (List.length_eq_zero_iff.1 (by omega))

lemma takeWhile_colon (algo digest : String) (h : ':' ∉ algo.toList) :
    String.ofList ((algo ++ ":" ++ digest).toList.takeWhile (· ≠ ':')) = algo ∧
      String.ofList ((algo ++ ":" ++ digest).toList.dropWhile (· ≠ ':')).tail = digest := by
  have hlist : (algo ++ ":" ++ digest).toList = algo.toList ++ ':' :: digest.toList := by simp
  rw [hlist, takeWhile_ne h, dropWhile_ne h]
  simp

lemma safeTokenEqual_iff {a b : String} (hb : b ≠ "") : safeTokenEqual a b = true ↔ a = b := by
  simp only [safeTokenEqual, Bool.and_eq_true, decide_eq_true_eq]
  constructor
  · exact fun h => h.2
  · rintro rfl
    exact ⟨⟨hb, hb⟩, rfl⟩

lemma verify_stored :
    verifyReportingSecret D pepper secret (some (k.stored D)) = true ↔ secret = k.secret.val ∧ k.Opens pepper := by
  rw [Key.stored, hashSecret, Key.Opens, k.set]
  cases hp : k.pepper with
  | none =>
      obtain ⟨halgo, hdigest⟩ := takeWhile_colon "sha256" (D.sha256 k.secret.val) (by decide)
      have hverify : verifyReportingSecret D pepper secret (some ("sha256" ++ ":" ++ D.sha256 k.secret.val)) =
          safeTokenEqual (D.sha256 secret) (D.sha256 k.secret.val) := by
        rw [verifyReportingSecret, halgo, hdigest]
        rfl
      change verifyReportingSecret D pepper secret (some ("sha256" ++ ":" ++ D.sha256 k.secret.val)) = true ↔ _
      rw [hverify, safeTokenEqual_iff (D.sha256_ne_empty _), D.sha256_injective.eq_iff]
      simp
  | some p =>
      obtain ⟨halgo, hdigest⟩ := takeWhile_colon "hmac-sha256" (D.hmac256 k.secret.val p) (by decide)
      have hverify : verifyReportingSecret D pepper secret (some ("hmac-sha256" ++ ":" ++ D.hmac256 k.secret.val p)) =
          (isSet pepper).any fun q => safeTokenEqual (D.hmac256 secret q) (D.hmac256 k.secret.val p) := by
        rw [verifyReportingSecret, halgo, hdigest, if_pos rfl]
        cases isSet pepper <;> rfl
      change verifyReportingSecret D pepper secret (some ("hmac-sha256" ++ ":" ++ D.hmac256 k.secret.val p)) = true ↔ _
      rw [hverify]
      cases hq : isSet pepper with
      | none => simp
      | some q =>
          simp only [Option.any_some, reduceCtorEq, false_or, Option.some.injEq]
          rw [safeTokenEqual_iff (D.hmac256_ne_empty _ _)]
          constructor
          · intro h
            obtain ⟨hs, hqp⟩ := D.hmac256_injective h
            exact ⟨hs, hqp.symm⟩
          · rintro ⟨rfl, rfl⟩
            rfl

lemma bearerToken_eq_some {h : Header} : bearerToken h = some t ↔ h = .one ("Bearer " ++ t) := by
  constructor
  · intro ht
    cases h with
    | absent => cases ht
    | many l => cases ht
    | one s =>
        rw [bearerToken] at ht
        split at ht
        · rename_i hprefix
          obtain ⟨rest, hrest⟩ := List.isPrefixOf_iff_prefix.1 hprefix
          obtain rfl := Option.some.inj ht
          refine congrArg Header.one (String.toList_injective ?_)
          rw [← hrest]
          simp
        · cases ht
  · rintro rfl
    have hlist : ("Bearer " ++ t).toList = "Bearer ".toList ++ t.toList := by simp
    rw [bearerToken, hlist, if_pos (List.isPrefixOf_iff_prefix.2 ⟨_, rfl⟩)]
    simp

lemma findUnique_eq_some {s : State} {x : Uuid} {op : Operator} : s.findUnique id = some (x, op) ↔
    String.ofList (id.toList.map Char.toLower) = x.val ∧ s.operators x = some op := by
  rw [State.findUnique]
  constructor
  · intro h
    split at h
    · obtain ⟨op', hop, heq⟩ := Option.map_eq_some_iff.1 h
      obtain ⟨rfl, rfl⟩ := Prod.mk.inj heq
      exact ⟨rfl, hop⟩
    · cases h
  · rintro ⟨hid, hop⟩
    have hvalid : isUuid (String.ofList (id.toList.map Char.toLower)).toList = true := hid ▸ x.valid
    obtain rfl : x = ⟨_, hvalid⟩ := by
      cases x
      simp only [UuidOf.mk.injEq]
      exact hid.symm
    rw [dif_pos hvalid, hop]
    rfl

lemma length_le (s : String) : Json.length s.toList ≤ 2 * s.toList.length := by
  rw [Json.length]
  generalize s.toList = l
  induction l with
  | nil => simp
  | cons c l ih =>
      rw [List.map_cons, List.sum_cons, List.length_cons]
      split <;> omega

lemma length_token (scope : Scope) (hid : uuidRe id) (k : Secret) :
    Json.length (tokenPrefix scope ++ id ++ "." ++ k.val).toList ≤ 512 := by
  have hlen : id.toList.length = 36 := length_of_uuidShape hid
  have hk := k.length
  have hprefix : (tokenPrefix scope).toList.length = 4 := by cases scope <;> rfl
  refine (length_le _).trans ?_
  simp only [String.toList_append, List.length_append, hlen, hk, hprefix]
  decide

end Token

section Guard

variable {D} {s : State} {r : Registry} {route : Route} {req : Request} {x : Uuid}

structure Registry.Admits (r : Registry) (route : Route) (req : Request) (x : Uuid) (h : Holder) (k : Key) : Prop where
  holder : r.holders x = some h
  key : h.key route.scope = some k
  token : ∃ scope id, req.authorization = .one ("Bearer " ++ (tokenPrefix scope ++ id ++ "." ++ k.secret.val)) ∧
    String.ofList (id.toList.map Char.toLower) = x.val
  enabled : h.enabled = true
  caller : h.ipWhitelist = [] ∨ extractClientIp req ∈ h.ipWhitelist
  opens : k.Opens r.pepper

lemma canActivate_eq_ok : canActivate D s route req = .ok x ↔ ∃ id secret op,
    parseReportingToken (bearerToken req.authorization) = some (id, secret) ∧ s.findUnique id = some (x, op) ∧
      verifyReportingSecret D s.pepper secret (op.hash route.scope) = true ∧ op.enabled = true ∧
        (op.ipWhitelist = [] ∨ extractClientIp req ∈ op.ipWhitelist) := by
  rw [canActivate]
  cases hparse : parseReportingToken (bearerToken req.authorization) with
  | none => simp
  | some parsed =>
      obtain ⟨id, secret⟩ := parsed
      dsimp only
      cases hfind : s.findUnique id with
      | none => simp [hfind]
      | some found =>
          obtain ⟨y, op⟩ := found
          constructor
          · intro h
            dsimp only at h
            split_ifs at h with hverify henabled hip
            obtain rfl := Except.ok.inj h
            refine ⟨id, secret, op, rfl, hfind, by simpa using hverify, by simpa using henabled, ?_⟩
            rw [not_and_or, List.length_pos_iff] at hip
            exact hip.imp not_not.1 not_not.1
          · rintro ⟨id', secret', op', hparsed, hfound, hverify, henabled, hip⟩
            obtain ⟨rfl, rfl⟩ := Prod.mk.inj (Option.some.inj hparsed)
            obtain ⟨rfl, rfl⟩ := Prod.mk.inj (Option.some.inj (hfind.symm.trans hfound))
            dsimp only
            rw [if_neg (by simp [hverify]), if_neg (by simp [henabled]), if_neg]
            rw [not_and_or, List.length_pos_iff]
            exact hip.imp not_not.2 not_not.2

lemma rows_operators (x : Uuid) : (r.rows D).operators x = (r.holders x).map (Holder.row D) := rfl

lemma row_hash (h : Holder) (scope : Scope) : (h.row D).hash scope = (h.key scope).map (Key.stored D) := by
  cases scope <;> rfl

lemma canActivate_rows : canActivate D (r.rows D) route req = .ok x ↔ ∃ h k, r.Admits route req x h k := by
  rw [canActivate_eq_ok]
  constructor
  · rintro ⟨id, secret, op, hparse, hfind, hverify, henabled, hip⟩
    obtain ⟨hid, hop⟩ := findUnique_eq_some.1 hfind
    obtain ⟨h, hholder, rfl⟩ := Option.map_eq_some_iff.1 hop
    rw [row_hash] at hverify
    cases hkey : h.key route.scope with
    | none =>
        rw [hkey] at hverify
        cases hverify
    | some k =>
        rw [hkey] at hverify
        obtain ⟨rfl, hopens⟩ := verify_stored.1 hverify
        cases hbearer : bearerToken req.authorization with
        | none =>
            rw [hbearer] at hparse
            cases hparse
        | some t =>
            rw [hbearer] at hparse
            obtain ⟨-, ⟨scope, rfl⟩, -, -⟩ := parseReportingToken_eq_some.1 hparse
            exact ⟨h, k, hholder, hkey, ⟨scope, id, bearerToken_eq_some.1 hbearer, hid⟩, henabled, hip, hopens⟩
  · rintro ⟨h, k, hholder, hkey, ⟨scope, id, htoken, hid⟩, henabled, hip, hopens⟩
    have huuid : uuidRe id = true := by
      have hvalid := x.valid
      rw [← hid, String.toList_ofList] at hvalid
      exact (isUuid_lower id).symm.trans hvalid
    have hne : k.secret.val ≠ "" := by
      intro hempty
      have hlen := k.secret.length
      rw [hempty] at hlen
      cases hlen
    refine ⟨id, k.secret.val, h.row D, ?_, ?_, ?_, henabled, hip⟩
    · rw [bearerToken_eq_some.2 htoken]
      exact parseReportingToken_eq_some.2 ⟨length_token scope huuid k.secret, ⟨scope, rfl⟩, huuid, hne⟩
    · refine findUnique_eq_some.2 ⟨hid, ?_⟩
      rw [rows_operators, hholder]
      rfl
    · rw [row_hash, hkey]
      exact verify_stored.2 ⟨rfl, hopens⟩

end Guard

section History

variable {history : List Event} {r : Registry} {x : Uuid} {h : Holder} {k : Key} {scope : Scope}

def Event.secret : Event → Option String
  | .mint _ _ secret => some secret.val
  | .provision .. | .setPepper _ => none

def SecretsDistinct (history : List Event) : Prop :=
  history.Pairwise fun e e' => ∀ secret, e.secret = some secret → e'.secret ≠ some secret

def Registry.Holds (r : Registry) (P : Scope → Uuid → Secret → Prop) : Prop :=
  ∀ x h scope k, r.holders x = some h → h.key scope = some k → P scope x k.secret

lemma holders_provision (id : Uuid) (enabled : Bool) (ipWhitelist : List String) :
    (r.step (.provision id enabled ipWhitelist)).holders = Function.update r.holders id
      (some ⟨enabled, ipWhitelist, ((r.holders id).map Holder.key).getD fun _ => none⟩) := rfl

lemma holders_mint (scope : Scope) (id : Uuid) (secret : Secret) :
    (r.step (.mint scope id secret)).holders = Function.update r.holders id ((r.holders id).map fun h =>
      { h with key := Function.update h.key scope (some ⟨secret, isSet r.pepper, isSet_isSet r.pepper⟩) }) := rfl

lemma holds_step {P : Scope → Uuid → Secret → Prop} {e : Event} (hr : r.Holds P)
    (he : ∀ scope x secret, e = .mint scope x secret → P scope x secret) : (r.step e).Holds P := by
  intro x h scope k hholder hkey
  cases e with
  | provision id enabled ipWhitelist =>
      by_cases hx : x = id
      · subst hx
        rw [holders_provision, Function.update_self] at hholder
        obtain rfl := Option.some.inj hholder
        cases hold : r.holders x with
        | none =>
            rw [hold] at hkey
            cases hkey
        | some old =>
            rw [hold] at hkey
            exact hr x old scope k hold hkey
      · rw [holders_provision, Function.update_of_ne hx] at hholder
        exact hr x h scope k hholder hkey
  | mint scope' id secret =>
      by_cases hx : x = id
      · subst hx
        rw [holders_mint, Function.update_self] at hholder
        obtain ⟨old, hold, rfl⟩ := Option.map_eq_some_iff.1 hholder
        by_cases hscope : scope = scope'
        · subst hscope
          dsimp only at hkey
          rw [Function.update_self] at hkey
          obtain rfl := Option.some.inj hkey
          exact he scope x secret rfl
        · dsimp only at hkey
          rw [Function.update_of_ne hscope] at hkey
          exact hr x old scope k hold hkey
      · rw [holders_mint, Function.update_of_ne hx] at hholder
        exact hr x h scope k hholder hkey
  | setPepper pepper => exact hr x h scope k hholder hkey

lemma holds_run {P : Scope → Uuid → Secret → Prop} (hr : r.Holds P)
    (hall : ∀ scope x secret, Event.mint scope x secret ∈ history → P scope x secret) : (r.run history).Holds P := by
  induction history generalizing r with
  | nil => exact hr
  | cons e history ih =>
      refine ih (holds_step hr ?_) fun scope x secret hmem => hall scope x secret (.tail _ hmem)
      rintro scope x secret rfl
      exact hall scope x secret (.head _)

lemma minted_of_held (hholder : (Registry.empty.run history).holders x = some h) (hkey : h.key scope = some k) :
    Event.mint scope x k.secret ∈ history :=
  holds_run (P := fun scope x secret => Event.mint scope x secret ∈ history) (by
    intro x h scope k hholder
    cases hholder) (fun _ _ _ hmem => hmem) x h scope k hholder hkey

lemma mint_unique (hdistinct : SecretsDistinct history) {scope scope' : Scope} {x x' : Uuid} {secret secret' : Secret}
    (hmem : Event.mint scope x secret ∈ history) (hmem' : Event.mint scope' x' secret' ∈ history)
    (heq : secret.val = secret'.val) : scope = scope' ∧ x = x' := by
  by_cases hevent : Event.mint scope x secret = Event.mint scope' x' secret'
  · obtain ⟨rfl, rfl, -⟩ := Event.mint.inj hevent
    exact ⟨rfl, rfl⟩
  · have hsymm : Std.Symm fun e e' : Event => ∀ secret, e.secret = some secret → e'.secret ≠ some secret :=
      ⟨fun e e' h secret he' he => h secret he he'⟩
    exact absurd (congrArg some heq.symm) (hdistinct.forall hmem hmem' hevent _ rfl)

lemma Registry.Admits.opens_of_none {route : Route} {req : Request} (hadmits : r.Admits route req x h k)
    (hnone : k.pepper = none) (pepper : Option String) : ({ r with pepper } : Registry).Admits route req x h k :=
  ⟨hadmits.holder, hadmits.key, hadmits.token, hadmits.enabled, hadmits.caller, .inl hnone⟩

end History

lemma Secret.dot_not_mem (secret : Secret) : '.' ∉ secret.val.toList := by
  intro hmem
  exact absurd (List.all_eq_true.1 secret.hex '.' hmem) (by decide)

lemma secret_eq {secret secret' : Secret} {sc sc' : Scope} {id id' : String}
    (h : "Bearer " ++ (tokenPrefix sc ++ id ++ "." ++ secret.val) =
      "Bearer " ++ (tokenPrefix sc' ++ id' ++ "." ++ secret'.val)) :
    secret.val = secret'.val := by
  have hlist (sc : Scope) (id : String) (secret : Secret) :
      ("Bearer " ++ (tokenPrefix sc ++ id ++ "." ++ secret.val)).toList =
        ("Bearer " ++ tokenPrefix sc ++ id).toList ++ '.' :: secret.val.toList := by
    simp
  have hparts := congrArg String.toList h
  rw [hlist, hlist] at hparts
  exact String.toList_injective (last_eq secret.dot_not_mem secret'.dot_not_mem hparts).2

/-- The guard lets a request through as an operator just when its token is made up of the operator's id and the secret
of the latest key it holds of the route's scope, the operator is enabled, its list admits the caller, and the key
opens under the pepper now set. Then a secret minted for another scope or another operator never gets through, and a
key minted without a pepper works whatever the pepper is set to. -/
theorem guard_admits_iff (history : List Event) (route : Route) (req : Request) (x : Uuid) :
    (canActivate D (State.empty.run D history) route req = .ok x ↔
      ∃ h k, (Registry.empty.run history).Admits route req x h k) ∧
    (SecretsDistinct history → ∀ scope y secret, Event.mint scope y secret ∈ history → ∀ sc id,
      req.authorization = .one ("Bearer " ++ (tokenPrefix sc ++ id ++ "." ++ secret.val)) →
        canActivate D (State.empty.run D history) route req = .ok x → scope = route.scope ∧ y = x) ∧
    (∀ h k, (Registry.empty.run history).Admits route req x h k → k.pepper = none → ∀ pepper,
      canActivate D (State.empty.run D (history ++ [.setPepper pepper])) route req = .ok x) := by
  have hrows (history : List Event) : State.empty.run D history = (Registry.empty.run history).rows D :=
    rows_run Registry.empty history
  refine ⟨?_, ?_, ?_⟩
  · rw [hrows]
    exact canActivate_rows
  · intro hdistinct scope y secret hmint sc id htoken hok
    rw [hrows] at hok
    obtain ⟨h, k, hholder, hkey, ⟨sc', id', htoken', -⟩, -⟩ := canActivate_rows.1 hok
    have hsecret : secret.val = k.secret.val := secret_eq (Header.one.inj (htoken.symm.trans htoken'))
    exact mint_unique hdistinct hmint (minted_of_held hholder hkey) hsecret
  · intro h k hadmits hnone pepper
    rw [hrows, Registry.run, List.foldl_append]
    exact canActivate_rows.2 ⟨h, k, hadmits.opens_of_none hnone pepper⟩

namespace Scenario

/-- Digests that can be told apart: the pepper is written before the secret with its length. -/
def digests : Digests where
  sha256 s := "0" ++ s
  hmac256 s p := String.ofList (List.replicate p.toList.length '1' ++ '0' :: (p.toList ++ s.toList))
  sha256_injective s s' h := by
    have hlist := congrArg String.toList h
    simp only [String.toList_append, List.append_cancel_left_eq] at hlist
    exact String.toList_injective hlist
  hmac256_injective {s s' p p'} h := by
    have hlist := String.ofList_injective h
    have hone (n : ℕ) : '0' ∉ List.replicate n '1' := by simp
    obtain ⟨hlength, hrest⟩ := first_eq (hone _) (hone _) hlist
    have hlen : p.toList.length = p'.toList.length := by simpa using congrArg List.length hlength
    obtain ⟨hp, hs⟩ := List.append_inj hrest hlen
    exact ⟨String.toList_injective hs, String.toList_injective hp⟩
  sha256_ne_empty s h := by
    have hlist := congrArg String.toList h
    simp at hlist
  hmac256_ne_empty s p h := by
    have hlist := congrArg String.toList h
    simp at hlist

def operatorId : Uuid := ⟨"00000000-0000-4000-8000-00000000000a", by decide⟩

def secret (c : Char) (h : isHex c = true) : Secret where
  val := String.ofList (List.replicate 64 c)
  length := by simp
  hex := by simp [h]

/-- A read key minted before a pepper is set, and a write key minted after. -/
def keys : List Event :=
  [.provision operatorId true [], .mint .read operatorId (secret 'a' (by decide)), .setPepper (some "pepper"),
    .mint .write operatorId (secret 'b' (by decide))]

def request (token : String) : Request := ⟨.one ("Bearer " ++ token), .absent, .absent, none, none⟩

def readRoute : Route := ⟨none, none⟩

def writeRoute : Route := ⟨some true, none⟩

/-- The read key under the other prefix, its id in capitals. -/
def readToken : String :=
  "vrw_00000000-0000-4000-8000-00000000000A." ++ String.ofList (List.replicate 64 'a')

example :
    (canActivate digests (State.empty.run digests keys) readRoute (request readToken)).toOption = some operatorId ∧
      (canActivate digests (State.empty.run digests keys) writeRoute (request readToken)).toOption = none := by
  decide +kernel

end Scenario

end VaultRun.Operators.ApiKey
