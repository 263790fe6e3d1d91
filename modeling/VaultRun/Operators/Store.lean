import VaultRun.Concurrency.Discipline
import VaultRun.Data.Table
import VaultRun.Operators.Tag

/-!
The users, wallets and launch sessions of the operators, and what each statement over them does.
-/

namespace VaultRun.Operators

open VaultRun.Concurrency VaultRun.Data

structure Operator where
  enabled : Bool
  demoEnabled : Bool
  currencies : List Code

structure User where
  username : String

structure Wallet where
  userId : ℕ
  currency : String

structure Session extends Identity where
  walletId : ℕ
  launchJti : String
  revoked : Bool

structure State where
  operators : Table Uuid Operator
  users : Records User User.username
  wallets : Records Wallet fun w => (w.userId, w.currency)
  sessions : Records Session Session.launchJti

structure OperatorSession where
  operatorId : Uuid
  playerId : String
  currency : Currency
  deriving DecidableEq

def Identity.session (x : Identity) : OperatorSession := ⟨x.operatorId, x.playerId, x.currency⟩

inductive Move
  | debit (amount : ℕ) (idempotencyKey : String)
  | credit (amount : ℕ) (idempotencyKey : String)
  | rollback (idempotencyKey : String)
  | reverse (originalKey reverseKey : String) (amount : ℕ)
  | getBalance

inductive Err
  | unavailable
  | p2002
  | notFound
  | unauthorized (reason : String)
  deriving DecidableEq

/-- `ledger` and `operator` are the two providers of a money move. -/
inductive Stmt
  | findOperator (id : Uuid)
  | findByJti (jti : String)
  | findWallet (currency username : String)
  | findWalletOrThrow (currency username : String)
  | createUser (username currency : String)
  | createSession (row : Session)
  | resetTo (walletId sessionId : ℕ)
  | findSession (walletId : ℕ)
  | findLatestSession (walletId : ℕ)
  | findUsername (walletId : ℕ)
  | findWallets (named : String → Bool)
  | findLive (walletId : ℕ)
  | revokeSessions (walletId : ℕ)
  | ledger (m : Move) (walletId : ℕ)
  | operator (m : Move) (walletId : ℕ) (s : OperatorSession)

@[reducible] def Stmt.Result : Stmt → Type
  | findOperator _ => Option Operator
  | findByJti _ | findSession _ => Option Session
  | findWallet _ _ => Option ℕ
  | findWalletOrThrow _ _ | createUser _ _ | createSession _ | revokeSessions _ => ℕ
  | findLatestSession _ => Session
  | findUsername _ => Option String
  | findWallets _ => List (ℕ × String)
  | findLive _ => List ℕ
  | _ => Unit

abbrev operators : Interface := ⟨Stmt, Stmt.Result, Err⟩

abbrev await (s : Stmt) : Program operators s.Result := @Program.await operators s

namespace State

variable (σ : State)

def usernameOf (walletId : ℕ) : Option String :=
  (σ.wallets.row walletId).bind fun w => (σ.users.row w.userId).map (·.username)

def findWallet (currency username : String) : Option ℕ :=
  ((σ.wallets.findMany fun k w => w.currency = currency && σ.usernameOf k = some username).head?).map (·.1)

def createUser (username currency : String) : Except Err ℕ × State :=
  if hu : σ.users.findUnique username = none then
    let wallet : Wallet := ⟨σ.users.next, currency⟩
    if hw : σ.wallets.findUnique (wallet.userId, wallet.currency) = none then
      (.ok σ.wallets.next, { σ with users := σ.users.create ⟨username⟩ hu, wallets := σ.wallets.create wallet hw })
    else (.error .p2002, σ)
  else (.error .p2002, σ)

def createSession (row : Session) : Except Err ℕ × State :=
  if h : σ.sessions.findUnique row.launchJti = none then
    (.ok σ.sessions.next, { σ with sessions := σ.sessions.create row h })
  else (.error .p2002, σ)

def sessionsOf (walletId : ℕ) : List (ℕ × Session) := σ.sessions.findMany fun _ s => s.walletId = walletId

def findLive (walletId : ℕ) : List ℕ :=
  (σ.sessions.findMany fun _ s => s.walletId = walletId && !s.revoked).map (·.1)

def revokeSessions (walletId : ℕ) : State :=
  { σ with
    sessions := σ.sessions.updateMany (fun _ s => s.walletId = walletId && !s.revoked)
      ({ · with revoked := true }) fun _ => rfl }

def findWallets (named : String → Bool) : List (ℕ × String) :=
  (σ.wallets.findMany fun k _ => (σ.usernameOf k).any named).map fun w => (w.1, (σ.usernameOf w.1).getD "")

end State

def perform (s : Stmt) (σ : State) : operators.Reply s × State :=
  match s with
  | .findOperator id => (.ok (σ.operators.row id), σ)
  | .findByJti jti => (.ok ((σ.sessions.findUnique jti).map (·.2)), σ)
  | .findWallet currency username => (.ok (σ.findWallet currency username), σ)
  | .findWalletOrThrow currency username =>
      match σ.findWallet currency username with
      | some w => (.ok w, σ)
      | none => (.error .notFound, σ)
  | .createUser username currency => σ.createUser username currency
  | .createSession row => σ.createSession row
  | .resetTo _ _ => (.ok (), σ)
  | .findSession walletId => (.ok ((σ.sessionsOf walletId).head?.map (·.2)), σ)
  | .findLatestSession walletId =>
      match (σ.sessionsOf walletId).getLast? with
      | some s => (.ok s.2, σ)
      | none => (.error .notFound, σ)
  | .findUsername walletId => (.ok (σ.usernameOf walletId), σ)
  | .findWallets named => (.ok (σ.findWallets named), σ)
  | .findLive walletId => (.ok (σ.findLive walletId), σ)
  | .revokeSessions walletId => (.ok (σ.findLive walletId).length, σ.revokeSessions walletId)
  | .ledger _ _ => (.ok (), σ)
  | .operator _ _ _ => (.ok (), σ)

/-- How a statement fares: `lost` fails before it takes effect and `unacked` after. -/
inductive Oracle
  | ok
  | lost
  | unacked
  deriving DecidableEq

def exec (o : Oracle) (s : Stmt) (σ : State) : operators.Reply s × State :=
  match o with
  | .ok => perform s σ
  | .lost => (.error .unavailable, σ)
  | .unacked => (.error .unavailable, (perform s σ).2)

variable {o : Oracle} {s : Stmt} {σ σ' : State} {r : operators.Reply s} {a : s.Result} {w k : ℕ} {n : String}

lemma exec_state (h : exec o s σ = (r, σ')) : σ' = σ ∨ σ' = (perform s σ).2 := by
  cases o with
  | ok => exact .inr (congrArg Prod.snd h).symm
  | lost => exact .inl (Prod.mk.inj h).2.symm
  | unacked => exact .inr (Prod.mk.inj h).2.symm

lemma perform_of_ok (h : exec o s σ = (.ok a, σ')) : perform s σ = (.ok a, σ') := by
  cases o with
  | ok => exact h
  | lost => cases (Prod.mk.inj h).1
  | unacked => cases (Prod.mk.inj h).1

end VaultRun.Operators
