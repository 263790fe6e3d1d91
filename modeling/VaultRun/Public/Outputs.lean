import VaultRun.Concurrency.Alone
import VaultRun.Fairness.Service
import VaultRun.Game.System

/-!
What anyone can read: the public state of a round, on the leader and on its followers, and the answers of the
fairness endpoints.
-/

namespace VaultRun.Public

open VaultRun.Concurrency VaultRun.Data VaultRun.Game

structure PublicRoundState where
  roundId : ℕ
  phase : Phase
  phaseEndsAt : ℕ
  multiplier : ℕ
  serverTime : ℕ
  deriving DecidableEq

structure PublishedRoundState extends PublicRoundState where
  startedAt : Option ℕ
  seedId : ℕ
  deriving DecidableEq

structure PublicRoundView where
  roundId : ℕ
  phase : Phase
  phaseEndsAt : ℕ
  startedAt : Option ℕ
  seedId : Option ℕ
  multiplier : ℕ
  serverTime : ℕ
  deriving DecidableEq

/-- `Partial<PublishedRoundState>`: a message as it is parsed, its fields absent or of the wrong type. -/
structure Message where
  roundId : Option ℕ
  phase : Option Phase
  phaseEndsAt : Option ℕ
  startedAt : Option ℕ
  seedId : Option ℕ
  multiplier : Option ℕ
  serverTime : Option ℕ

def PublishedRoundState.message (p : PublishedRoundState) : Message where
  roundId := some p.roundId
  phase := some p.phase
  phaseEndsAt := some p.phaseEndsAt
  startedAt := p.startedAt
  seedId := some p.seedId
  multiplier := some p.multiplier
  serverTime := some p.serverTime

namespace PublicRoundCache

variable (P : Params) (now : ℕ)

/-- `raw` is `none` where the message does not parse. -/
def ingest (view : Option PublicRoundView) (raw : Option Message) : Option PublicRoundView :=
  match raw with
  | none => view
  | some p =>
      match p.roundId, p.phase with
      | some roundId, some phase =>
          some ⟨roundId, phase, p.phaseEndsAt.getD 0, p.startedAt, p.seedId, p.multiplier.getD 100,
            p.serverTime.getD now⟩
      | _, _ => view

def currentMultiplier (view : Option PublicRoundView) : ℕ :=
  match view with
  | none => 100
  | some v =>
      match v.phase with
      | .crashed | .settling | .completed => v.multiplier
      | .running => (v.startedAt.map fun t => max 100 (P.curve (now - t))).getD 100
      | _ => 100

def getPublicState (view : Option PublicRoundView) : Option PublicRoundState :=
  view.map fun v => ⟨v.roundId, v.phase, v.phaseEndsAt, currentMultiplier P now view, now⟩

end PublicRoundCache

/-- Columns that the runs of the fairness service do without; those of an epoch are under its number. -/
structure Columns where
  targetChain : ℕ → Option String
  createdAt : ℕ → ℕ
  armedAt : ℕ → Option ℕ
  revealedAt : ℕ × ℕ → ℕ

/-- The tables, the engine and the cache of every node, and who leads. `seedOf` tells which row of the seeds
a round refers to. -/
structure Deployment where
  game : Game.State
  fair : Fairness.State
  seedOf : ℕ → ℕ × ℕ
  columns : Columns
  isLeader : ℕ → Bool
  cache : ℕ → Option PublicRoundView

namespace GameEngineService

variable (P : Params) (D : Deployment) (n : ℕ)

/-- Also what the phase events carry. -/
def getPublicState : Option PublicRoundState :=
  if D.isLeader n then
    (D.game.nodes n).state.map fun s => ⟨s.roundId, s.phase, s.phaseEndsAt, s.multiplier P D.game.now, D.game.now⟩
  else PublicRoundCache.getPublicState P D.game.now (D.cache n)

def mirrored : Option PublishedRoundState := do
  let s ← (D.game.nodes n).state
  let base ← getPublicState P D n
  some ⟨base, s.startedAt, s.seedId⟩

def followed (m : ℕ) : Option PublicRoundView :=
  match mirrored P D n with
  | none => D.cache m
  | some p => PublicRoundCache.ingest D.game.now (D.cache m) (some p.message)

end GameEngineService

structure NextEpoch where
  epoch : ℕ
  commitHash : String
  saltSource : Fairness.SaltSource
  targetChain : Option String
  targetBlock : Option ℕ
  status : Fairness.ChainStatus
  deriving DecidableEq

structure CommitInfo where
  epoch : ℕ
  commitHash : String
  saltSource : Fairness.SaltSource
  saltHash : Option String
  targetChain : Option String
  targetBlock : Option ℕ
  chainLength : ℕ
  roundsRevealed : ℕ
  nextEpoch : Option NextEpoch
  deriving DecidableEq

structure EpochInfo where
  epoch : ℕ
  commitHash : String
  saltSource : Fairness.SaltSource
  salt : Option String
  saltHash : Option String
  targetChain : Option String
  targetBlock : Option ℕ
  length : ℕ
  status : Fairness.ChainStatus
  roundsRevealed : ℕ
  createdAt : ℕ
  armedAt : Option ℕ
  deriving DecidableEq

structure RevealedSeed where
  chainIndex : ℕ
  seed : String
  seedHash : String
  revealedAt : ℕ
  deriving DecidableEq

structure EpochSeeds where
  epoch : ℕ
  commitHash : String
  saltSource : Fairness.SaltSource
  salt : Option String
  targetChain : Option String
  targetBlock : Option ℕ
  status : Fairness.ChainStatus
  length : ℕ
  revealedCount : ℕ
  seeds : List RevealedSeed
  deriving DecidableEq

structure RoundReveal where
  roundId : ℕ
  status : Phase
  epoch : ℕ
  commitHash : String
  saltSource : Fairness.SaltSource
  targetChain : Option String
  targetBlock : Option ℕ
  seed : String
  salt : String
  seedHash : String
  chainIndex : ℕ
  prevSeed : Option String
  crashPoint : ℕ
  recomputedCrash : ℕ
  crashMatches : Bool
  linkVerified : Option Bool
  deriving DecidableEq

/-- `failed` where a relation is missing, or the salt. -/
inductive RoundAnswer
  | notFound
  | failed
  | hidden (roundId : ℕ) (status : Phase)
  | revealed (r : RoundReveal)
  deriving DecidableEq

namespace FairnessService

variable (F : Fairness.Params) (sha256OfUtf8 : String → String) (D : Deployment)

def truthy (s : Option String) : Option String := s.filter (· ≠ "")

def saltPublic (c : Fairness.Chain) : Option String :=
  if c.status = .active ∨ c.status = .exhausted then c.salt else none

def countRevealed (chainId : ℕ) : ℕ := D.fair.seeds.count fun k s => k.1 = chainId && s.revealed

def commitInfo (found : Fairness.Chain × ℕ × Option Fairness.Chain) : CommitInfo where
  epoch := found.1.epoch
  commitHash := found.1.commitHash
  saltSource := found.1.saltSource
  saltHash := (truthy found.1.salt).map sha256OfUtf8
  targetChain := D.columns.targetChain found.1.epoch
  targetBlock := found.1.targetBlock
  chainLength := found.1.length
  roundsRevealed := found.2.1
  nextEpoch := found.2.2.map fun c =>
    ⟨c.epoch, c.commitHash, c.saltSource, D.columns.targetChain c.epoch, c.targetBlock, c.status⟩

def listEpochs : List EpochInfo :=
  (D.fair.byEpoch fun _ => true).map fun c =>
    { epoch := c.2.epoch
      commitHash := c.2.commitHash
      saltSource := c.2.saltSource
      salt := saltPublic c.2
      saltHash := (truthy c.2.salt).map sha256OfUtf8
      targetChain := D.columns.targetChain c.2.epoch
      targetBlock := c.2.targetBlock
      length := c.2.length
      status := c.2.status
      roundsRevealed := countRevealed D c.1 - 1
      createdAt := D.columns.createdAt c.2.epoch
      armedAt := D.columns.armedAt c.2.epoch }

/-- The rows of `epochSeeds`; the hash of a seed is written with it. -/
def revealedSeeds (chainId : ℕ) : List RevealedSeed :=
  ((D.fair.seeds.findMany fun k s => k.1 = chainId && s.revealed).insertionSort fun a b => a.1.2 ≤ b.1.2).map
    fun s => ⟨s.1.2, s.2.seed, F.sha256Hex s.2.seed, D.columns.revealedAt s.1⟩

def epochSeeds (epoch : ℕ) : Option EpochSeeds :=
  (D.fair.chains.findUnique epoch).map fun c =>
    { epoch := c.2.epoch
      commitHash := c.2.commitHash
      saltSource := c.2.saltSource
      salt := saltPublic c.2
      targetChain := D.columns.targetChain c.2.epoch
      targetBlock := c.2.targetBlock
      status := c.2.status
      length := c.2.length
      revealedCount := (revealedSeeds F D c.1).length
      seeds := revealedSeeds F D c.1 }

def verify (seed salt : String) (prevSeed : Option String) : ℕ × Option Bool :=
  (F.computeCrash seed salt, (truthy prevSeed).map (Fairness.verifyChainLink F.sha256Hex seed))

end FairnessService

namespace FairnessController

variable (F : Fairness.Params) (sha256OfUtf8 : String → String) (D : Deployment)

def currentCommit : Program Fairness.fairness (Option (Fairness.Chain × ℕ × Option Fairness.Chain)) := do
  let _ ← Fairness.FairnessService.ensureChain F
  Fairness.FairnessService.getCurrentCommit

/-- `os` says how the statements of the request fare, and what the outside answers them. -/
def current (os : List Fairness.Oracle) : Option (Except Fairness.Err (Option CommitInfo)) :=
  ((runAlone (Fairness.system F) 0 (currentCommit F) os D.fair).map Prod.fst).map fun a =>
    a.map (·.map (FairnessService.commitInfo sha256OfUtf8 D))

/-- The seed with the index before; the seed of index 0 has none. -/
def prevSeed (id : ℕ × ℕ) : Option String :=
  if 1 ≤ id.2 then (D.fair.seeds.row (id.1, id.2 - 1)).map (·.seed) else none

def reveal (roundId : ℕ) (r : Round) (id : ℕ × ℕ) (seed salt : String) (c : Fairness.Chain) : RoundReveal :=
  let verified := FairnessService.verify F seed salt (prevSeed D id)
  { roundId := roundId
    status := r.status
    epoch := c.epoch
    commitHash := c.commitHash
    saltSource := c.saltSource
    targetChain := D.columns.targetChain c.epoch
    targetBlock := c.targetBlock
    seed := seed
    salt := salt
    seedHash := F.sha256Hex seed
    chainIndex := id.2
    prevSeed := prevSeed D id
    crashPoint := r.crashPoint
    recomputedCrash := verified.1
    crashMatches := r.crashPoint = verified.1
    linkVerified := verified.2 }

def round (id : ℕ) : RoundAnswer :=
  match D.game.rounds.row id with
  | none => .notFound
  | some r =>
      match D.fair.seeds.row (D.seedOf r.seedId), D.fair.chains.row (D.seedOf r.seedId).1 with
      | some s, some c =>
          if s.revealed then
            match c.salt with
            | none => .failed
            | some salt => .revealed (reveal F D id r (D.seedOf r.seedId) s.seed salt c)
          else .hidden id r.status
      | _, _ => .failed

end FairnessController

/-- All that anyone can read: of every node, of what a follower makes of a publication, and of every endpoint. -/
structure Outputs where
  publicState : ℕ → Option PublicRoundState
  published : ℕ → Option PublishedRoundState
  view : ℕ → ℕ → Option PublicRoundView
  followerState : ℕ → ℕ → Option PublicRoundState
  current : List Fairness.Oracle → Option (Except Fairness.Err (Option CommitInfo))
  round : ℕ → RoundAnswer
  epochs : List EpochInfo
  epochSeeds : ℕ → Option EpochSeeds

def Deployment.outputs (P : Params) (F : Fairness.Params) (sha256OfUtf8 : String → String) (D : Deployment) :
    Outputs where
  publicState := GameEngineService.getPublicState P D
  published := GameEngineService.mirrored P D
  view n m := GameEngineService.followed P D n m
  followerState n m := PublicRoundCache.getPublicState P D.game.now (GameEngineService.followed P D n m)
  current := FairnessController.current F sha256OfUtf8 D
  round := FairnessController.round F D
  epochs := FairnessService.listEpochs sha256OfUtf8 D
  epochSeeds := FairnessService.epochSeeds F D

end VaultRun.Public
