import Mathlib.Data.List.Sort
import VaultRun.Concurrency.History
import VaultRun.Data.Table
import VaultRun.Fairness.SeedChain

/-!
The tables of the fairness service, and what each statement its functions wait for does to them.
-/

namespace VaultRun.Fairness

open VaultRun.Concurrency VaultRun.Data

inductive ChainStatus
  | pending
  | armed
  | active
  | exhausted
  deriving DecidableEq, Repr

inductive SaltSource
  | random
  | ethBlock
  deriving DecidableEq, Repr

structure Chain where
  epoch : ℕ
  commitHash : String
  length : ℕ
  saltSource : SaltSource
  targetBlock : Option ℕ
  salt : Option String
  status : ChainStatus
  deriving DecidableEq, Repr

structure Seed where
  seed : String
  revealed : Bool
  deriving DecidableEq, Repr

/-- A round as the fairness service sees it. A seed is named by its chain and its index. -/
structure Round where
  seedId : ℕ × ℕ
  crashPoint : ℕ
  deriving DecidableEq, Repr

/-- `maintaining` is a flag in the memory of each node. -/
structure State where
  chains : Records Chain Chain.epoch
  seeds : Table (ℕ × ℕ) Seed
  rounds : Records Round Round.seedId
  maintaining : ℕ → Bool

structure SaltCommitment where
  source : SaltSource
  salt : Option String
  targetBlock : Option ℕ
  deriving DecidableEq, Repr

structure AllocatedSeed where
  seedId : ℕ × ℕ
  seed : String
  salt : Option String
  deriving DecidableEq, Repr

structure ChainData where
  status : Option ChainStatus := none
  salt : Option String := none
  deriving DecidableEq

def ChainData.apply (d : ChainData) (c : Chain) : Chain :=
  { c with status := d.status.getD c.status, salt := d.salt.or c.salt }

@[simp] lemma ChainData.apply_epoch (d : ChainData) (c : Chain) : (d.apply c).epoch = c.epoch := rfl

inductive Err
  | unavailable
  | p2002
  | notFound
  | chainTooShort
  | chainExhausted
  | saltMissing
  deriving DecidableEq, Repr

/-- The last group asks the Ethereum nodes and the random source. -/
inductive Stmt
  | beginMaintain (node : ℕ)
  | endMaintain (node : ℕ)
  | findActive
  | findFirst (status : ChainStatus)
  | findPendings
  | maxEpoch
  | countQueued
  | updateChain (id : ℕ) (data : ChainData)
  | createChain (row : Chain)
  | createSeeds (chainId : ℕ) (seeds : List String)
  | nextUnusedSeed (chainId : ℕ)
  | countRevealed (chainId : ℕ)
  | findNext
  | createRound (seedId : ℕ × ℕ) (crashPoint : ℕ)
  | revealSeed (seedId : ℕ × ℕ)
  | latestBlockNumber
  | finalizedBlockHash (target : ℕ)
  | randomBytes

@[reducible] def Stmt.Result : Stmt → Type
  | beginMaintain _ => Bool
  | findActive | findFirst _ | findNext => Option (ℕ × Chain)
  | findPendings => List (ℕ × Chain)
  | maxEpoch => Option ℕ
  | countQueued | countRevealed _ => ℕ
  | updateChain _ _ | createChain _ => ℕ × Chain
  | nextUnusedSeed _ => Option AllocatedSeed
  | createRound _ _ => ℕ
  | latestBlockNumber => ℕ
  | finalizedBlockHash _ => Option String
  | randomBytes => String
  | _ => Unit

abbrev fairness : Interface := ⟨Stmt, Stmt.Result, Err⟩

abbrev await (s : Stmt) : Program fairness s.Result := @Program.await fairness s

def Stmt.neverFails : Stmt → Bool
  | beginMaintain _ | endMaintain _ | randomBytes => true
  | _ => false

def Stmt.asks : Stmt → Bool
  | latestBlockNumber | finalizedBlockHash _ | randomBytes => true
  | _ => false

namespace State

variable (σ : State)

/-- `findFirst({ where: { status: { in } }, orderBy: { epoch } })`. -/
def byEpoch (p : Chain → Bool) : List (ℕ × Chain) :=
  (σ.chains.findMany fun _ c => p c).insertionSort fun a b => a.2.epoch ≤ b.2.epoch

def findActive : Option (ℕ × Chain) := (σ.byEpoch (·.status = .active)).getLast?

def findFirst (status : ChainStatus) : Option (ℕ × Chain) := (σ.byEpoch (·.status = status)).head?

def queued (c : Chain) : Bool := c.status = .pending || c.status = .armed

def maxEpoch : Option ℕ := ((σ.byEpoch fun _ => true).getLast?).map (·.2.epoch)

def updateChain (id : ℕ) (d : ChainData) : State :=
  { σ with chains := σ.chains.updateMany (fun k _ => k = id) d.apply d.apply_epoch }

def used (seedId : ℕ × ℕ) : Bool := (σ.rounds.findUnique seedId).isSome

def unusedSeeds (chainId : ℕ) : List ((ℕ × ℕ) × Seed) :=
  (σ.seeds.findMany fun k _ => k.1 = chainId && 1 ≤ k.2 && !σ.used k).insertionSort fun a b => a.1.2 ≤ b.1.2

def nextUnusedSeed (chainId : ℕ) : Option AllocatedSeed :=
  (σ.unusedSeeds chainId).head?.map fun s => ⟨s.1, s.2.seed, (σ.chains.row chainId).bind (·.salt)⟩

/-- `createMany`, all rows or none; the seed of index 0 is public from the start. -/
def createSeeds (chainId : ℕ) (seeds : List String) : Except Err Unit × State :=
  if seeds.zipIdx.any fun s => (σ.seeds.row (chainId, s.2)).isSome then (.error .p2002, σ)
  else
    (.ok (), { σ with
      seeds := seeds.zipIdx.foldl (fun t s => t.insert (chainId, s.2) ⟨s.1, s.2 = 0⟩) σ.seeds })

def createChain (row : Chain) : Except Err (ℕ × Chain) × State :=
  if h : σ.chains.findUnique row.epoch = none then
    (.ok (σ.chains.next, row), { σ with chains := σ.chains.create row h })
  else (.error .p2002, σ)

def createRound (seedId : ℕ × ℕ) (crashPoint : ℕ) : Except Err ℕ × State :=
  let row : Round := ⟨seedId, crashPoint⟩
  if h : σ.rounds.findUnique row.seedId = none then
    (.ok σ.rounds.next, { σ with rounds := σ.rounds.create row h })
  else (.error .p2002, σ)

def revealSeed (seedId : ℕ × ℕ) : State :=
  { σ with seeds := σ.seeds.updateMany (fun k _ => k = seedId) ({ · with revealed := true }) }

def setMaintaining (node : ℕ) (b : Bool) : State :=
  { σ with maintaining := fun m => if m = node then b else σ.maintaining m }

end State

def perform (s : Stmt) (σ : State) : Option (fairness.Reply s × State) :=
  match s with
  | .beginMaintain n => some (.ok (!σ.maintaining n), σ.setMaintaining n true)
  | .endMaintain n => some (.ok (), σ.setMaintaining n false)
  | .findActive => some (.ok σ.findActive, σ)
  | .findFirst status => some (.ok (σ.findFirst status), σ)
  | .findPendings => some (.ok (σ.byEpoch (·.status = .pending)), σ)
  | .maxEpoch => some (.ok σ.maxEpoch, σ)
  | .countQueued => some (.ok (σ.byEpoch State.queued).length, σ)
  | .updateChain id data =>
      match σ.chains.row id with
      | some c => some (.ok (id, data.apply c), σ.updateChain id data)
      | none => some (.error .notFound, σ)
  | .createChain row => some (σ.createChain row)
  | .createSeeds chainId seeds => some (σ.createSeeds chainId seeds)
  | .nextUnusedSeed chainId => some (.ok (σ.nextUnusedSeed chainId), σ)
  | .countRevealed chainId =>
      some (.ok (σ.seeds.count fun k s => k.1 = chainId && s.revealed), σ)
  | .findNext => some (.ok (σ.byEpoch State.queued).head?, σ)
  | .createRound seedId crashPoint => some (σ.createRound seedId crashPoint)
  | .revealSeed seedId =>
      if (σ.seeds.row seedId).isSome then some (.ok (), σ.revealSeed seedId)
      else some (.error .notFound, σ)
  | .latestBlockNumber | .finalizedBlockHash _ | .randomBytes => none

/-- How a statement fares: `lost` fails before it takes effect and `unacked` after; the rest answers what
is asked of the outside. -/
inductive Oracle
  | ok
  | lost
  | unacked
  | head (block : ℕ)
  | hash (h : Option String)
  | bytes (s : String)
  deriving DecidableEq

def exec (o : Oracle) (s : Stmt) (σ : State) : Option (fairness.Reply s × State) :=
  match o with
  | .ok => perform s σ
  | .lost => if s.neverFails then none else some (.error .unavailable, σ)
  | .unacked =>
      if s.neverFails then none
      else (perform s σ).map fun a => (.error .unavailable, a.2)
  | .head n =>
      match s with
      | .latestBlockNumber => some (.ok n, σ)
      | _ => none
  | .hash h =>
      match s with
      | .finalizedBlockHash _ => some (.ok h, σ)
      | _ => none
  | .bytes b =>
      match s with
      | .randomBytes => some (.ok b, σ)
      | _ => none

lemma exec_cases {o : Oracle} {s : Stmt} {σ σ' : State} {r : fairness.Reply s}
    (h : exec o s σ = some (r, σ')) :
    perform s σ = some (r, σ') ∨ ((∃ e, r = .error e) ∧ (σ' = σ ∨ ∃ r', perform s σ = some (r', σ'))) ∨
      (s.asks ∧ σ' = σ) := by
  cases o with
  | ok => exact .inl h
  | lost =>
      simp only [exec] at h
      split_ifs at h
      obtain ⟨rfl, rfl⟩ := Prod.mk.inj (Option.some.inj h)
      exact .inr (.inl ⟨⟨_, rfl⟩, .inl rfl⟩)
  | unacked =>
      simp only [exec] at h
      split_ifs at h
      obtain ⟨⟨r', σ₁⟩, hp, ha⟩ := Option.map_eq_some_iff.1 h
      obtain ⟨rfl, rfl⟩ := Prod.mk.inj ha
      exact .inr (.inl ⟨⟨_, rfl⟩, .inr ⟨r', hp⟩⟩)
  | head n | hash n | bytes n =>
      cases s <;> simp only [exec, reduceCtorEq] at h
      obtain ⟨rfl, rfl⟩ := Prod.mk.inj (Option.some.inj h)
      exact .inr (.inr ⟨rfl, rfl⟩)

lemma perform_of_ok {o : Oracle} {s : Stmt} {σ σ' : State} {a : s.Result}
    (h : exec o s σ = some (.ok a, σ')) (hs : s.asks = false) : perform s σ = some (.ok a, σ') := by
  rcases exec_cases h with hp | ⟨⟨e, he⟩, -⟩ | ⟨ha, -⟩
  · exact hp
  · cases he
  · rw [hs] at ha
    cases ha

end VaultRun.Fairness
