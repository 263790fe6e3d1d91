import VaultRun.Data.Json
import VaultRun.Operators.Store

/-!
The launch of a session from an operator's token, the routing of a money move, and the revocation of a player's
sessions, as calls over one database.
-/

namespace VaultRun.Operators

open VaultRun.Concurrency VaultRun.Data Program

/-- A launch token whose signature holds and that has not expired. -/
structure LaunchToken where
  operatorId : Uuid
  playerId : Option String
  currency : Option String
  demo : Bool
  jti : Option String

def maxPlayerIdLen : ℕ := 200

structure Launched where
  walletId : ℕ
  sessionId : ℕ
  identity : Identity

namespace LaunchTokenService

variable (U : UpperCase)

/-- The currency comes in upper case, as `openFromToken` takes it. -/
def verify (t : LaunchToken) : Program operators (Identity × String) := do
  match ← await (.findOperator t.operatorId) with
  | none => raise (.unauthorized "unknown_operator")
  | some op =>
      if !op.enabled then raise (.unauthorized "unknown_operator")
      else
        let ccy := U.toUpperCase (t.currency.getD "")
        match op.currencies.find? fun c => U.toUpperCase c.val = ccy with
        | none => raise (.unauthorized "currency_not_allowed")
        | some c =>
            if t.demo && !op.demoEnabled then raise (.unauthorized "demo_not_allowed")
            else
              match t.playerId, t.jti with
              | some playerId, some jti =>
                  if Json.length playerId.toList < 1 ∨ maxPlayerIdLen < Json.length playerId.toList ∨ jti = "" then
                    raise (.unauthorized "invalid_launch_token")
                  else
                    match ← await (.findByJti jti) with
                    | some _ => raise (.unauthorized "launch_token_already_used")
                    | none => pure (⟨t.operatorId, playerId, U.currency c, t.demo⟩, jti)
              | _, _ => raise (.unauthorized "invalid_launch_token")

end LaunchTokenService

namespace GameSessionService

variable (U : UpperCase)

/-- The wallet of an identity, made at its first launch; of two first launches at a time the second finds
the one that the first has made. -/
def walletOf (x : Identity) : Program operators ℕ := do
  match ← await (.findWallet x.currency.val x.tag) with
  | some w => pure w
  | none =>
      catching (await (.createUser x.tag x.currency.val)) fun e =>
        if e = .p2002 then await (.findWalletOrThrow x.currency.val x.tag) else raise e

def openFromToken (t : LaunchToken) : Program operators Launched := do
  let (x, jti) ← LaunchTokenService.verify U t
  let _ ← await (.findOperator x.operatorId)
  let walletId ← walletOf x
  let sessionId ← catching (await (.createSession { x with walletId, launchJti := jti, revoked := false })) fun e =>
    if e = .p2002 then raise (.unauthorized "launch_token_already_used") else raise e
  if x.demo then
    await (.resetTo walletId sessionId)
    pure ⟨walletId, sessionId, x⟩
  else pure ⟨walletId, sessionId, x⟩

def revokeForWallet (walletId : ℕ) : Program operators ℕ := do
  let _ ← await (.findLive walletId)
  await (.revokeSessions walletId)

/-- The wallets whose name has the right suffix, of those that the database returns. -/
def chosen (operatorId : Uuid) (playerId : String) (candidates : List (ℕ × String)) : List (ℕ × String) :=
  candidates.filter fun w => suffixRe (w.2.toList.drop (base operatorId playerId).toList.length)

def revokeForOperatorPlayer (operatorId : Uuid) (playerId : String) (currency : Option String) :
    Program operators (ℕ × ℕ) := do
  let candidates ← await (.findWallets (candidate U operatorId playerId currency))
  let wallets := chosen operatorId playerId candidates
  let revoked ← loop (fun revoked w => (revoked + ·) <$> revokeForWallet w.1) 0 wallets
  pure (revoked, wallets.length)

def isDemoWallet (walletId : ℕ) : Program operators Bool := do
  match ← await (.findSession walletId) with
  | some s => pure s.demo
  | none =>
      let name ← await (.findUsername walletId)
      pure !(isRealOperatorWallet (name.getD ""))

def resolver (walletId : ℕ) : Program operators OperatorSession := do
  let session ← await (.findLatestSession walletId)
  pure session.toIdentity.session

end GameSessionService

namespace WalletRouter

/-- A money move through the router: to the ledger, or to the operator's wallet, which resolves the session. -/
def route (m : Move) (walletId : ℕ) : Program operators Unit := do
  if ← GameSessionService.isDemoWallet walletId then await (.ledger m walletId)
  else
    let s ← GameSessionService.resolver walletId
    await (.operator m walletId s)

def debit (walletId amount : ℕ) (idempotencyKey : String) : Program operators Unit :=
  route (.debit amount idempotencyKey) walletId

def credit (walletId amount : ℕ) (idempotencyKey : String) : Program operators Unit :=
  route (.credit amount idempotencyKey) walletId

def rollback (walletId : ℕ) (idempotencyKey : String) : Program operators Unit :=
  route (.rollback idempotencyKey) walletId

def reverse (walletId : ℕ) (originalKey reverseKey : String) (amount : ℕ) : Program operators Unit :=
  route (.reverse originalKey reverseKey amount) walletId

def getBalance (walletId : ℕ) : Program operators Unit := route .getBalance walletId

end WalletRouter

inductive Call
  | openFromToken (t : LaunchToken)
  | revokeForWallet (walletId : ℕ)
  | revokeForOperatorPlayer (operatorId : Uuid) (playerId : String) (currency : Option String)
  | debit (walletId amount : ℕ) (idempotencyKey : String)
  | credit (walletId amount : ℕ) (idempotencyKey : String)
  | rollback (walletId : ℕ) (idempotencyKey : String)
  | reverse (walletId : ℕ) (originalKey reverseKey : String) (amount : ℕ)
  | getBalance (walletId : ℕ)

inductive Outcome
  | launched (l : Launched)
  | revoked (sessions wallets : ℕ)
  | moved

def Call.move : Call → Option (Move × ℕ)
  | debit w amount key => some (.debit amount key, w)
  | credit w amount key => some (.credit amount key, w)
  | rollback w key => some (.rollback key, w)
  | reverse w original key amount => some (.reverse original key amount, w)
  | getBalance w => some (.getBalance, w)
  | _ => none

def Call.prog (U : UpperCase) : Call → Program operators Outcome
  | openFromToken t => Outcome.launched <$> GameSessionService.openFromToken U t
  | revokeForWallet w => (Outcome.revoked · 1) <$> GameSessionService.revokeForWallet w
  | revokeForOperatorPlayer o p currency =>
      (fun r => Outcome.revoked r.1 r.2) <$> GameSessionService.revokeForOperatorPlayer U o p currency
  | debit w amount key => (fun _ => Outcome.moved) <$> WalletRouter.debit w amount key
  | credit w amount key => (fun _ => Outcome.moved) <$> WalletRouter.credit w amount key
  | rollback w key => (fun _ => Outcome.moved) <$> WalletRouter.rollback w key
  | reverse w original key amount => (fun _ => Outcome.moved) <$> WalletRouter.reverse w original key amount
  | getBalance w => (fun _ => Outcome.moved) <$> WalletRouter.getBalance w

/-- An operator is provisioned anew, a guest gets a wallet, a session row is deleted, or a call arrives; the
wallet of a money move exists. -/
inductive Event
  | provision (id : Uuid) (op : Operator)
  | guest (name currency : String)
  | deleteSession (id : ℕ)
  | call (c : Call)

instance : Inhabited Event := ⟨.deleteSession 0⟩

def guestName (id : String) : String := "Thief_" ++ id

def environment (U : UpperCase) (e : Event) (σ : State) : Option (State × Option (Program operators Outcome)) :=
  match e with
  | .provision id op => some ({ σ with operators := σ.operators.insert id op }, none)
  | .guest id currency => some ((σ.createUser (guestName id) currency).2, none)
  | .deleteSession id => some ({ σ with sessions := σ.sessions.erase id }, none)
  | .call c =>
      if c.move.all fun m => (σ.wallets.row m.2).isSome then some (σ, some (c.prog U)) else none

def system (U : UpperCase) : Machine operators Outcome State Event Oracle where
  exec o _ s σ := some (exec o s σ)
  env e _ := environment U e
  abort _ := id

abbrev OperatorsConfig := Config operators Outcome State Event

abbrev OperatorsWorld := World operators State Event

abbrev OperatorsEntry := Entry operators State Event

def State.empty : State := ⟨∅, ∅, ∅, ∅⟩

end VaultRun.Operators
